import SniffnetAgent.Lib.CheckedArith

/-!
# While loops that may fault

`whileLoop cond body fuel s` runs `while cond { body }` from `s` for at most
`fuel` iterations.  Running out of fuel is a fault of its own, so an `.ok`
result is the state in which the loop really stopped.  `whileLoop_total` is the
rule of total correctness, by an invariant and a variant; `Reaches.invariant`
is the rule for the states in between, of which the result is the last.
-/

set_option autoImplicit false

namespace WhileLoop

open CheckedArith

section Loop
variable {σ : Type}

def whileLoop (cond : σ → Bool) (body : σ → Exec σ) : Nat → σ → Exec σ
  | 0, s => if cond s then .error .outOfFuel else .ok s
  | fuel + 1, s => if cond s then body s >>= whileLoop cond body fuel else .ok s

/-- The states the loop passes through, each the head of an iteration. -/
inductive Reaches (cond : σ → Bool) (body : σ → Exec σ) (start : σ) : σ → Prop where
  | start : Reaches cond body start start
  | step {s next : σ} : Reaches cond body start s → cond s = true → body s = .ok next →
      Reaches cond body start next

theorem whileLoop_exit (cond : σ → Bool) (body : σ → Exec σ) (fuel : Nat) (s : σ)
    (exit : cond s = false) : whileLoop cond body fuel s = .ok s := by
  cases fuel <;> simp [whileLoop, exit]

theorem whileLoop_step (cond : σ → Bool) (body : σ → Exec σ) (fuel : Nat) (s next : σ)
    (enter : cond s = true) (run : body s = .ok next) :
    whileLoop cond body (fuel + 1) s = whileLoop cond body fuel next := by
  simp only [whileLoop, enter, if_true, run]
  rfl

/-- Total correctness.  `Post s t` relates a loop head to the state the loop
stops in; it is established at the exit and carried back over one iteration. -/
theorem whileLoop_total (cond : σ → Bool) (body : σ → Exec σ) (Inv : σ → Prop)
    (variant : σ → Nat) (Post : σ → σ → Prop)
    (exit : ∀ s, Inv s → cond s = false → Post s s)
    (step : ∀ s, Inv s → cond s = true →
      ∃ next, body s = .ok next ∧ Inv next ∧ variant next < variant s ∧
        ∀ t, Post next t → Post s t) :
    ∀ (fuel : Nat) (s : σ), Inv s → variant s ≤ fuel →
      ∃ t, whileLoop cond body fuel s = .ok t ∧ Post s t := by
  intro fuel
  induction fuel with
  | zero =>
      intro s inv enough
      cases enter : cond s with
      | false => exact ⟨s, whileLoop_exit cond body 0 s enter, exit s inv enter⟩
      | true =>
          obtain ⟨next, _, _, decreases, _⟩ := step s inv enter
          omega
  | succ fuel ih =>
      intro s inv enough
      cases enter : cond s with
      | false => exact ⟨s, whileLoop_exit cond body (fuel + 1) s enter, exit s inv enter⟩
      | true =>
          obtain ⟨next, run, invNext, decreases, back⟩ := step s inv enter
          obtain ⟨t, result, post⟩ := ih next invNext (by omega)
          refine ⟨t, ?_, back t post⟩
          rw [whileLoop_step cond body fuel s next enter run, result]

theorem Reaches.invariant {cond : σ → Bool} {body : σ → Exec σ} {start s : σ}
    (reached : Reaches cond body start s) (Inv : σ → Prop) (base : Inv start)
    (step : ∀ s next, Inv s → cond s = true → body s = .ok next → Inv next) : Inv s := by
  induction reached with
  | start => exact base
  | step _ enter run ih => exact step _ _ ih enter run

theorem Reaches.trans {cond : σ → Bool} {body : σ → Exec σ} {r s t : σ}
    (first : Reaches cond body r s) (second : Reaches cond body s t) : Reaches cond body r t := by
  induction second with
  | start => exact first
  | step _ enter run ih => exact ih.step enter run

/-- A result is a state the loop passes through, and there the condition fails. -/
theorem reaches_of_whileLoop (cond : σ → Bool) (body : σ → Exec σ) {fuel : Nat} {s t : σ}
    (result : whileLoop cond body fuel s = .ok t) : Reaches cond body s t ∧ cond t = false := by
  induction fuel generalizing s with
  | zero =>
      cases enter : cond s with
      | false =>
          rw [whileLoop_exit cond body 0 s enter] at result
          cases result
          exact ⟨Reaches.start, enter⟩
      | true =>
          rw [whileLoop, enter, if_pos rfl] at result
          cases result
  | succ fuel ih =>
      cases enter : cond s with
      | false =>
          rw [whileLoop_exit cond body (fuel + 1) s enter] at result
          cases result
          exact ⟨Reaches.start, enter⟩
      | true =>
          cases run : body s with
          | error fault =>
              simp only [whileLoop, enter, if_true, run] at result
              cases result
          | ok next =>
              rw [whileLoop_step cond body fuel s next enter run] at result
              obtain ⟨reached, exit⟩ := ih result
              exact ⟨(Reaches.start.step enter run).trans reached, exit⟩

end Loop

end WhileLoop
