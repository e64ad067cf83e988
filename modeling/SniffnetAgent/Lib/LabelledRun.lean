import Mathlib.Data.List.Basic
import Mathlib.Data.List.Forall2
import Mathlib.Tactic.Common

/-!
# Runs of a labelled transition relation

`Step s event t` is one step; the event records what the environment chose and
what an observer sees.  `Run Step s events t` is a finite run with its history.
`Run.invariant` is the induction rule for properties of the history and the
state it leads to; `Run.split` recovers the states around any event.
-/

set_option autoImplicit false

namespace LabelledRun

section Runs
variable {σ ε : Type}

inductive Run (Step : σ → ε → σ → Prop) : σ → List ε → σ → Prop where
  | nil (s : σ) : Run Step s [] s
  | cons {s t u : σ} {event : ε} {events : List ε} :
      Step s event t → Run Step t events u → Run Step s (event :: events) u

variable {Step : σ → ε → σ → Prop}

theorem Run.invariant {s t : σ} {events : List ε} (run : Run Step s events t)
    (Inv : List ε → σ → Prop) (base : Inv [] s)
    (step : ∀ history s event t, Inv history s → Step s event t → Inv (history ++ [event]) t) :
    Inv events t := by
  have extend : ∀ history, Inv history s → Inv (history ++ events) t := by
    clear base
    induction run with
    | nil s =>
        intro history holds
        rwa [List.append_nil]
    | @cons s t u event events first _ ih =>
        intro history holds
        have tail := ih (history ++ [event]) (step history s event t holds first)
        rwa [List.append_assoc] at tail
  exact extend [] base

/-- The states just before and just after one event of a run. -/
theorem Run.split {s u : σ} {before after : List ε} {event : ε}
    (run : Run Step s (before ++ event :: after) u) :
    ∃ t t', Run Step s before t ∧ Step t event t' ∧ Run Step t' after u := by
  induction before generalizing s with
  | nil =>
      cases run with
      | cons first rest => exact ⟨s, _, Run.nil s, first, rest⟩
  | cons head before ih =>
      cases run with
      | cons first rest =>
          obtain ⟨t, t', prefix_run, at_event, suffix_run⟩ := ih rest
          exact ⟨t, t', Run.cons first prefix_run, at_event, suffix_run⟩

theorem Run.forall_event {s t : σ} {events : List ε} (run : Run Step s events t)
    (Q : ε → Prop) (each : ∀ s event t, Step s event t → Q event) : ∀ event ∈ events, Q event := by
  induction run with
  | nil s => intro event member; cases member
  | cons first _ ih =>
      intro event member
      rcases List.mem_cons.mp member with rfl | member
      · exact each _ _ _ first
      · exact ih event member

/-- When every event of the run is allowed, each step keeps the invariant of the
state and shows something of its event. -/
theorem Run.guarded {s t : σ} {events : List ε} (run : Run Step s events t) (Inv : σ → Prop)
    (Allowed Q : ε → Prop) (allowed : ∀ event ∈ events, Allowed event) (base : Inv s)
    (step : ∀ s event t, Inv s → Allowed event → Step s event t → Inv t ∧ Q event) :
    Inv t ∧ ∀ event ∈ events, Q event := by
  induction run with
  | nil s =>
      refine ⟨base, ?_⟩
      intro event member
      cases member
  | @cons s t u event events first _ ih =>
      obtain ⟨next, here⟩ := step s event t base (allowed event (List.mem_cons_self ..)) first
      obtain ⟨final, later⟩ :=
        ih (fun event member => allowed event (List.mem_cons_of_mem _ member)) next
      refine ⟨final, ?_⟩
      intro event member
      rcases List.mem_cons.mp member with rfl | member
      · exact here
      · exact later event member

theorem Run.append {s t u : σ} {events later : List ε} (first : Run Step s events t)
    (second : Run Step t later u) : Run Step s (events ++ later) u := by
  induction first with
  | nil s => exact second
  | cons step _ ih => exact Run.cons step (ih second)

/-- Where a step is determined by its event, a run is by its history. -/
theorem Run.deterministic {s t t' : σ} {events : List ε} (run : Run Step s events t)
    (other : Run Step s events t')
    (determined : ∀ s event t t', Step s event t → Step s event t' → t = t') : t = t' := by
  induction run with
  | nil s =>
      cases other
      rfl
  | @cons s next u event events step _ ih =>
      cases other with
      | cons step' rest' =>
          rw [determined s event _ _ step' step] at rest'
          exact ih rest'

end Runs

/-! ## Refinement

A concrete event is seen as a list of abstract events: none where the step is
internal.  `Run.simulate` turns a run of the concrete system into one of the
abstract system, `Run.realise` goes back. -/

section Refinement
variable {σ σ' ε ε' : Type} {Step : σ → ε → σ → Prop} {Step' : σ' → ε' → σ' → Prop}

theorem Run.simulate (R : σ → σ' → Prop) (view : ε → List ε')
    (matched : ∀ s a event t, R s a → Step s event t →
      ∃ b, Run Step' a (view event) b ∧ R t b)
    {s t : σ} {a : σ'} {events : List ε} (related : R s a) (run : Run Step s events t) :
    ∃ b, Run Step' a (events.flatMap view) b ∧ R t b := by
  induction run generalizing a with
  | nil s => exact ⟨a, Run.nil a, related⟩
  | @cons s next u event events step _ ih =>
      obtain ⟨middle, here, relatedNext⟩ := matched s a event next related step
      obtain ⟨b, rest, relatedEnd⟩ := ih relatedNext
      exact ⟨b, here.append rest, relatedEnd⟩

/-- Other states and other events, matched step by step. -/
theorem Run.translate (f : σ → σ') (R : ε → ε' → Prop)
    (matched : ∀ s event event' t, R event event' → Step s event t → Step' (f s) event' (f t))
    {s t : σ} {events : List ε} {events' : List ε'} (run : Run Step s events t)
    (related : List.Forall₂ R events events') : Run Step' (f s) events' (f t) := by
  induction related generalizing s with
  | nil =>
      cases run
      exact Run.nil _
  | cons here _ ih =>
      cases run with
      | cons step rest => exact Run.cons (matched _ _ _ _ here step) (ih rest)

/-- A renaming of the states. -/
theorem Run.map (f : σ → σ') {Step' : σ' → ε → σ' → Prop}
    (renamed : ∀ s event t, Step s event t → Step' (f s) event (f t)) {s t : σ} {events : List ε}
    (run : Run Step s events t) : Run Step' (f s) events (f t) := by
  refine run.translate f Eq ?_ (List.forall₂_refl events)
  rintro s event _ t rfl step
  exact renamed s event t step

/-- Other events that make the same steps. -/
theorem Run.relabel (R : ε → ε' → Prop) {Step' : σ → ε' → σ → Prop}
    (same : ∀ s event event' t, R event event' → Step s event t → Step' s event' t) {s t : σ}
    {events : List ε} {events' : List ε'} (run : Run Step s events t)
    (related : List.Forall₂ R events events') : Run Step' s events' t :=
  run.translate id R same related

theorem Run.realise (R : σ → σ' → Prop) (view : ε → List ε')
    (matched : ∀ s a event b, R s a → Step' a event b →
      ∃ events t, Run Step s events t ∧ events.flatMap view = [event] ∧ R t b)
    {s : σ} {a b : σ'} {events : List ε'} (related : R s a) (run : Run Step' a events b) :
    ∃ concrete t, Run Step s concrete t ∧ concrete.flatMap view = events ∧ R t b := by
  induction run generalizing s with
  | nil a => exact ⟨[], s, Run.nil s, rfl, related⟩
  | @cons a next u event events step _ ih =>
      obtain ⟨first, middle, here, seen, relatedNext⟩ := matched s a event next related step
      obtain ⟨rest, t, later, seenRest, relatedEnd⟩ := ih relatedNext
      refine ⟨first ++ rest, t, here.append later, ?_, relatedEnd⟩
      rw [List.flatMap_append, seen, seenRest, List.singleton_append]

end Refinement

/-! ## Two runs

The second run has extra events; the others match the events of the first run
one by one. -/

section Pairs
variable {σ ε : Type}

inductive Inserted (Alike : ε → ε → Prop) (Extra : ε → Prop) : List ε → List ε → Prop where
  | nil : Inserted Alike Extra [] []
  | both {e e' : ε} {es es' : List ε} : Alike e e' → Inserted Alike Extra es es' →
      Inserted Alike Extra (e :: es) (e' :: es')
  | extra {e' : ε} {es es' : List ε} : Extra e' → Inserted Alike Extra es es' →
      Inserted Alike Extra es (e' :: es')

theorem Inserted.imp {Alike : ε → ε → Prop} {Extra Extra' : ε → Prop}
    (weaker : ∀ e, Extra e → Extra' e) {events events' : List ε}
    (inserted : Inserted Alike Extra events events') : Inserted Alike Extra' events events' := by
  induction inserted with
  | nil => exact Inserted.nil
  | both alike _ ih => exact Inserted.both alike ih
  | extra own _ ih => exact Inserted.extra (weaker _ own) ih

/-- The unwinding rule: matching steps keep `R` and agree on `Same`, an extra
step of the second run keeps `R` while the first run stands still. -/
theorem Inserted.unwind {Step : σ → ε → σ → Prop} {Alike : ε → ε → Prop} {Extra : ε → Prop}
    (R : σ → σ → Prop) (Same : ε → ε → Prop)
    (both : ∀ {s s' t t' : σ} {e e' : ε}, R s s' → Alike e e' → Step s e t → Step s' e' t' →
      R t t' ∧ Same e e')
    (extra : ∀ {s s' t' : σ} {e' : ε}, R s s' → Extra e' → Step s' e' t' → R s t')
    {events events' : List ε} (inserted : Inserted Alike Extra events events') {s s' t t' : σ}
    (related : R s s') (run : Run Step s events t) (run' : Run Step s' events' t') :
    R t t' ∧ Inserted Same Extra events events' := by
  induction inserted generalizing s s' with
  | nil =>
      cases run
      cases run'
      exact ⟨related, Inserted.nil⟩
  | both alike _ ih =>
      cases run with
      | cons step rest =>
          cases run' with
          | cons step' rest' =>
              obtain ⟨next, same⟩ := both related alike step step'
              obtain ⟨final, tail⟩ := ih next rest rest'
              exact ⟨final, Inserted.both same tail⟩
  | extra hidden _ ih =>
      cases run' with
      | cons step' rest' =>
          obtain ⟨final, tail⟩ := ih (extra related hidden step') run rest'
          exact ⟨final, Inserted.extra hidden tail⟩

end Pairs

end LabelledRun
