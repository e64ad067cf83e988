import Mathlib.Algebra.Ring.Nat
import Mathlib.Algebra.BigOperators.Group.List.Basic
import SniffnetAgent.Lib.LabelledRun

/-!
# Two threads and a queue

A producer appends messages to a queue and a consumer takes the oldest one.
They share nothing else, so a run is determined by what each thread does on its
own: any other order of the same steps is a run as well, unless it takes a
message before it was made, and it ends in the same state.
-/

set_option autoImplicit false

namespace Pipe

open LabelledRun

section Threads
variable {α β ε μ : Type}

structure State (α β μ : Type) where
  producer : α
  /-- Oldest message first. -/
  queue : List μ
  consumer : β

inductive Step (Make : α → ε → List μ → α → Prop) (Take : β → ε → μ → β → Prop) :
    State α β μ → ε → State α β μ → Prop where
  | make {a a' : α} {event : ε} (made queue : List μ) (b : β) :
      Make a event made a' → Step Make Take ⟨a, queue, b⟩ event ⟨a', queue ++ made, b⟩
  | take {b b' : β} {event : ε} (a : α) (message : μ) (queue : List μ) :
      Take b event message b' → Step Make Take ⟨a, message :: queue, b⟩ event ⟨a, queue, b'⟩

/-- The producer alone, with everything it made. -/
inductive Makes (Make : α → ε → List μ → α → Prop) : α → List ε → List μ → α → Prop where
  | nil (a : α) : Makes Make a [] [] a
  | cons {a b c : α} {event : ε} {events : List ε} {made later : List μ} :
      Make a event made b → Makes Make b events later c →
      Makes Make a (event :: events) (made ++ later) c

/-- The consumer alone, with everything it took. -/
inductive Takes (Take : β → ε → μ → β → Prop) : β → List ε → List μ → β → Prop where
  | nil (a : β) : Takes Take a [] [] a
  | cons {a b c : β} {event : ε} {events : List ε} {message : μ} {later : List μ} :
      Take a event message b → Takes Take b events later c →
      Takes Take a (event :: events) (message :: later) c

/-- Which events are the producer's, and how many messages each of them makes. -/
structure Sides (Make : α → ε → List μ → α → Prop) (Take : β → ε → μ → β → Prop)
    (makes : ε → Bool) (output : ε → Nat) : Prop where
  make : ∀ {a event made a'}, Make a event made a' →
    makes event = true ∧ made.length = output event
  take : ∀ {b event message b'}, Take b event message b' → makes event = false

/-- No message is taken before it was made, with `queued` messages to begin with. -/
def Causal (makes : ε → Bool) (output : ε → Nat) (queued : Nat) (events : List ε) : Prop :=
  ∀ n, ((events.take n).filter fun event => !makes event).length ≤
    queued + (((events.take n).filter makes).map output).sum

variable {Make : α → ε → List μ → α → Prop} {Take : β → ε → μ → β → Prop}
  {makes : ε → Bool} {output : ε → Nat} {queued : Nat} {event : ε} {events : List ε}

/-! ## Causality, event by event -/

theorem causal_cons_make (made : makes event = true) :
    Causal makes output queued (event :: events) ↔
      Causal makes output (queued + output event) events := by
  constructor
  · intro causal n
    have bound := causal (n + 1)
    simp only [List.take_succ_cons, List.filter_cons, made, Bool.not_true, Bool.false_eq_true,
      if_true, if_false, List.map_cons, List.sum_cons] at bound
    omega
  · intro causal n
    cases n with
    | zero => simp
    | succ n =>
        have bound := causal n
        simp only [List.take_succ_cons, List.filter_cons, made, Bool.not_true, Bool.false_eq_true,
          if_true, if_false, List.map_cons, List.sum_cons]
        omega

theorem causal_cons_take (taken : makes event = false) :
    Causal makes output queued (event :: events) ↔
      0 < queued ∧ Causal makes output (queued - 1) events := by
  constructor
  · intro causal
    have first := causal 1
    simp only [List.take_succ_cons, List.take_zero, List.filter_cons, taken, Bool.not_false,
      if_true, if_false, Bool.false_eq_true, List.filter_nil, List.length_singleton, List.map_nil,
      List.sum_nil] at first
    refine ⟨by omega, ?_⟩
    intro n
    have bound := causal (n + 1)
    simp only [List.take_succ_cons, List.filter_cons, taken, Bool.not_false, if_true, if_false,
      Bool.false_eq_true, List.length_cons] at bound
    omega
  · rintro ⟨positive, causal⟩ n
    cases n with
    | zero => simp
    | succ n =>
        have bound := causal n
        simp only [List.take_succ_cons, List.filter_cons, taken, Bool.not_false, if_true, if_false,
          Bool.false_eq_true, List.length_cons]
        omega

/-! ## From the run to the threads and back -/

theorem split (sides : Sides Make Take makes output) {s t : State α β μ}
    (run : Run (Step Make Take) s events t) :
    ∃ made used, Makes Make s.producer (events.filter makes) made t.producer ∧
      Takes Take s.consumer (events.filter fun event => !makes event) used t.consumer ∧
      s.queue ++ made = used ++ t.queue ∧ Causal makes output s.queue.length events := by
  induction run with
  | nil s =>
      refine ⟨[], [], Makes.nil _, Takes.nil _, List.append_nil _, ?_⟩
      intro n
      simp
  | cons first _ ih =>
      obtain ⟨later, used, produced, consumed, queue, causal⟩ := ih
      cases first with
      | make made front b step =>
          obtain ⟨mine, size⟩ := sides.make step
          refine ⟨made ++ later, used, ?_, ?_, ?_, ?_⟩
          · rw [List.filter_cons_of_pos mine]
            exact Makes.cons step produced
          · rw [List.filter_cons_of_neg (by simp [mine])]
            exact consumed
          · rw [← List.append_assoc]
            exact queue
          · rw [List.length_append, size] at causal
            exact (causal_cons_make mine).mpr causal
      | take a message rest step =>
          have theirs := sides.take step
          refine ⟨later, message :: used, ?_, ?_, congrArg (message :: ·) queue, ?_⟩
          · rw [List.filter_cons_of_neg (by simp [theirs])]
            exact produced
          · rw [List.filter_cons_of_pos (by simp [theirs])]
            exact Takes.cons step consumed
          · exact (causal_cons_take theirs).mpr ⟨Nat.succ_pos _, causal⟩

/-- Any order of the two threads' steps that takes nothing too early is a run. -/
theorem assemble (sides : Sides Make Take makes output) {a a' : α} {b b' : β}
    {queue queue' made used : List μ} (produced : Makes Make a (events.filter makes) made a')
    (consumed : Takes Take b (events.filter fun event => !makes event) used b')
    (conserved : queue ++ made = used ++ queue')
    (causal : Causal makes output queue.length events) :
    Run (Step Make Take) ⟨a, queue, b⟩ events ⟨a', queue', b'⟩ := by
  induction events generalizing a b queue made used with
  | nil =>
      cases produced
      cases consumed
      rw [List.append_nil, List.nil_append] at conserved
      rw [conserved]
      exact Run.nil _
  | cons event events ih =>
      cases side : makes event with
      | true =>
          rw [List.filter_cons_of_pos side] at produced
          rw [List.filter_cons_of_neg (by simp [side])] at consumed
          cases produced with
          | cons step produced =>
              rename_i made later
              refine Run.cons (Step.make made queue b step) (ih produced consumed ?_ ?_)
              · rw [List.append_assoc]
                exact conserved
              · rw [List.length_append, (sides.make step).2]
                exact (causal_cons_make side).mp causal
      | false =>
          rw [List.filter_cons_of_neg (by simp [side])] at produced
          rw [List.filter_cons_of_pos (by simp [side])] at consumed
          obtain ⟨positive, causal⟩ := (causal_cons_take side).mp causal
          obtain ⟨front, rest, rfl⟩ := List.exists_cons_of_length_pos positive
          cases consumed with
          | cons step consumed =>
              obtain ⟨rfl, remaining⟩ := List.cons.inj conserved
              exact Run.cons (Step.take a front rest step) (ih produced consumed remaining causal)

/-- The consumer takes one message per event. -/
theorem Takes.forall₂ {b b' : β} {used : List μ} (takes : Takes Take b events used b') :
    List.Forall₂ (fun message event => ∃ before after, Take before event message after)
      used events := by
  induction takes with
  | nil b => exact .nil
  | cons step _ ih => exact .cons ⟨_, _, step⟩ ih

end Threads

end Pipe
