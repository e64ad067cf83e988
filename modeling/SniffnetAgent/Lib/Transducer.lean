import Mathlib.Data.List.Basic
import Mathlib.Tactic.Common

/-!
# Transducers

A machine reads its inputs one by one and gives out a list for each.  Some inputs
wake it up: before the first of them it gives out nothing, and from then on what
it gives out depends on the input alone.  A machine with several sources keeps the
source of each input with what it gives out.
-/

set_option autoImplicit false

namespace Transducer

section Machines
variable {S A B : Type} (step : S → A → S × List B)

/-- The last state and everything that was given out. -/
def feed : S → List A → S × List B
  | s, [] => (s, [])
  | s, a :: inputs =>
      ((feed (step s a).1 inputs).1, (step s a).2 ++ (feed (step s a).1 inputs).2)

theorem feed_append (s : S) (left right : List A) :
    feed step s (left ++ right) =
      ((feed step (feed step s left).1 right).1,
        (feed step s left).2 ++ (feed step (feed step s left).1 right).2) := by
  induction left generalizing s with
  | nil => rfl
  | cons a left ih =>
      rw [List.cons_append, feed, ih]
      simp only [feed, List.append_assoc]

/-- `Awake` is kept, and an awake machine answers each input with `answer`. -/
structure Steady (Input : A → Prop) (Awake : S → Prop) (answer : A → List B) : Prop where
  stays : ∀ s a, Input a → Awake s → Awake (step s a).1
  answers : ∀ s a, Input a → Awake s → (step s a).2 = answer a

/-- Some inputs wake the machine and are answered; the others leave the sleeping
state as it is. -/
structure Wakes (Input : A → Prop) (Awake : S → Prop) (answer : A → List B) (asleep : S)
    (wakes : A → Bool) : Prop extends Steady step Input Awake answer where
  woken : ∀ s a, Input a → wakes a = true → Awake (step s a).1
  answered : ∀ s a, Input a → wakes a = true → (step s a).2 = answer a
  sleeps : ∀ a, Input a → wakes a = false → step asleep a = (asleep, [])

variable {step} {Input : A → Prop} {Awake : S → Prop} {answer : A → List B} {asleep : S}
  {wakes : A → Bool}

theorem Steady.feed (steady : Steady step Input Awake answer) {s : S} (awake : Awake s)
    {inputs : List A} (all : ∀ a ∈ inputs, Input a) :
    Awake (feed step s inputs).1 ∧ (feed step s inputs).2 = inputs.flatMap answer := by
  induction inputs generalizing s with
  | nil => exact ⟨awake, rfl⟩
  | cons a inputs ih =>
      have input := all a (List.mem_cons_self ..)
      obtain ⟨final, later⟩ :=
        ih (steady.stays s a input awake) fun other member => all other (.tail _ member)
      refine ⟨final, ?_⟩
      rw [Transducer.feed, later, steady.answers s a input awake, List.flatMap_cons]

/-- In whichever state, from an input that wakes the machine on. -/
theorem Wakes.feed_cons (machine : Wakes step Input Awake answer asleep wakes) (s : S) {a : A}
    {inputs : List A} (all : ∀ other ∈ a :: inputs, Input other) (alarm : wakes a = true) :
    (Transducer.feed step s (a :: inputs)).2 = (a :: inputs).flatMap answer := by
  have input := all a (List.mem_cons_self ..)
  obtain ⟨_, later⟩ := machine.toSteady.feed (machine.woken s a input alarm)
    fun other member => all other (.tail _ member)
  rw [Transducer.feed, later, machine.answered s a input alarm, List.flatMap_cons]

/-- What a sleeping machine gives out: the answers from the first input that wakes
it. -/
theorem Wakes.feed (machine : Wakes step Input Awake answer asleep wakes) {inputs : List A}
    (all : ∀ a ∈ inputs, Input a) :
    (feed step asleep inputs).2 = (inputs.dropWhile fun a => !wakes a).flatMap answer := by
  induction inputs with
  | nil => rfl
  | cons a inputs ih =>
      cases alarm : wakes a with
      | true =>
          rw [List.dropWhile_cons_of_neg (by simp [alarm])]
          exact machine.feed_cons asleep all alarm
      | false =>
          rw [List.dropWhile_cons_of_pos (by simp [alarm]), Transducer.feed,
            machine.sleeps a (all a (List.mem_cons_self ..)) alarm, List.nil_append]
          exact ih fun other member => all other (.tail _ member)

theorem Wakes.awake (machine : Wakes step Input Awake answer asleep wakes) (s : S)
    {inputs : List A} (all : ∀ a ∈ inputs, Input a) (alarm : ∃ a ∈ inputs, wakes a = true) :
    Awake (Transducer.feed step s inputs).1 := by
  obtain ⟨a, member, loud⟩ := alarm
  obtain ⟨before, after, rfl⟩ := List.append_of_mem member
  have later : ∀ other ∈ after, Input other := fun other inside => all other (by simp [inside])
  have awake := machine.woken (Transducer.feed step s before).1 a (all a member) loud
  have kept := (machine.toSteady.feed awake later).1
  rw [feed_append]
  exact kept

end Machines

/-! ## Several sources -/

section Sources
variable {T : Type} [DecidableEq T]

/-- What has the label, without it. -/
def only {A : Type} (t : T) (inputs : List (T × A)) : List A :=
  inputs.filterMap fun input => if input.1 = t then some input.2 else none

section Labels
variable {A B : Type}

theorem only_cons_self (t : T) (a : A) (inputs : List (T × A)) :
    only t ((t, a) :: inputs) = a :: only t inputs := by
  simp [only]

theorem only_cons_of_ne {t other : T} (ne : other ≠ t) (a : A) (inputs : List (T × A)) :
    only t ((other, a) :: inputs) = only t inputs := by
  simp [only, ne]

theorem mem_only {t : T} {a : A} {inputs : List (T × A)} : a ∈ only t inputs ↔ (t, a) ∈ inputs := by
  simp [only]

theorem only_append (t : T) (left right : List (T × A)) :
    only t (left ++ right) = only t left ++ only t right :=
  List.filterMap_append

theorem only_sublist (t : T) {few many : List (T × A)} (fewer : few.Sublist many) :
    (only t few).Sublist (only t many) :=
  fewer.filterMap _

theorem only_map_self (t : T) (answers : List B) :
    only t (answers.map fun b => (t, b)) = answers := by
  induction answers with
  | nil => rfl
  | cons b answers ih => rw [List.map_cons, only_cons_self, ih]

theorem only_map_of_ne {t other : T} (ne : other ≠ t) (answers : List B) :
    only t (answers.map fun b => (other, b)) = [] := by
  induction answers with
  | nil => rfl
  | cons b answers ih => rw [List.map_cons, only_cons_of_ne ne, ih]

/-- The answers to the inputs of one source. -/
theorem only_flatMap (t : T) (answer : A → List B) (inputs : List (T × A)) :
    only t (inputs.flatMap fun input => (answer input.2).map fun b => (input.1, b)) =
      (only t inputs).flatMap answer := by
  induction inputs with
  | nil => rfl
  | cons input inputs ih =>
      obtain ⟨source, a⟩ := input
      rw [List.flatMap_cons, only_append, ih]
      by_cases own : source = t
      · subst own
        rw [only_map_self, only_cons_self, List.flatMap_cons]
      · rw [only_map_of_ne own, only_cons_of_ne own, List.nil_append]

/-- What one source drops by itself is more than what it drops among others. -/
theorem dropWhile_only_suffix (t : T) (p : A → Bool) (inputs : List (T × A)) :
    (only t inputs).dropWhile p <:+ only t (inputs.dropWhile fun input => p input.2) := by
  induction inputs with
  | nil => exact List.suffix_rfl
  | cons input inputs ih =>
      obtain ⟨source, a⟩ := input
      cases dropped : p a with
      | false =>
          rw [List.dropWhile_cons_of_neg (by simp [dropped])]
          exact List.dropWhile_suffix p
      | true =>
          have shorter : ((source, a) :: inputs).dropWhile (fun input => p input.2) =
              inputs.dropWhile fun input => p input.2 := List.dropWhile_cons_of_pos dropped
          rw [shorter]
          by_cases own : source = t
          · subst own
            rw [only_cons_self, List.dropWhile_cons_of_pos dropped]
            exact ih
          · rw [only_cons_of_ne own]
            exact ih

end Labels

section Shared
variable {S A B : Type}

/-- One machine for all sources. -/
def labelled (step : S → A → S × List B) (s : S) (input : T × A) : S × List (T × B) :=
  ((step s input.2).1, (step s input.2).2.map fun b => (input.1, b))

variable {step : S → A → S × List B} {Input : A → Prop} {Awake : S → Prop}
  {answer : A → List B} {asleep : S} {wakes : A → Bool}

omit [DecidableEq T] in
theorem Wakes.labelled (machine : Wakes step Input Awake answer asleep wakes) :
    Wakes (labelled step) (fun input : T × A => Input input.2) Awake
      (fun input => (answer input.2).map fun b => (input.1, b)) asleep
      fun input => wakes input.2 := by
  constructor
  case toSteady =>
    constructor
    case stays => exact fun s input => machine.stays s input.2
    case answers =>
      intro s input valid awake
      rw [Transducer.labelled, machine.answers s input.2 valid awake]
  case woken => exact fun s input => machine.woken s input.2
  case answered =>
    intro s input valid alarm
    rw [Transducer.labelled, machine.answered s input.2 valid alarm]
  case sleeps =>
    intro input valid silent
    rw [Transducer.labelled, machine.sleeps input.2 valid silent]
    rfl

/-- What the machine gives out for one source: the answers from the first input of
any source that wakes it. -/
theorem Wakes.feed_only (machine : Wakes step Input Awake answer asleep wakes)
    {inputs : List (T × A)} (all : ∀ input ∈ inputs, Input input.2) (t : T) :
    only t (Transducer.feed (Transducer.labelled step) asleep inputs).2 =
      (only t (inputs.dropWhile fun input => !wakes input.2)).flatMap answer := by
  rw [machine.labelled.feed all, only_flatMap]

/-- A source gets no less out of the shared machine than out of one of its own. -/
theorem Wakes.own_suffix (machine : Wakes step Input Awake answer asleep wakes)
    {inputs : List (T × A)} (all : ∀ input ∈ inputs, Input input.2) (t : T) :
    (Transducer.feed step asleep (only t inputs)).2 <:+
      only t (Transducer.feed (Transducer.labelled step) asleep inputs).2 := by
  have mine : ∀ a ∈ only t inputs, Input a := fun a member => all (t, a) (mem_only.mp member)
  rw [machine.feed_only all, machine.feed mine]
  obtain ⟨earlier, split⟩ := dropWhile_only_suffix t (fun a => !wakes a) inputs
  refine ⟨earlier.flatMap answer, ?_⟩
  rw [← List.flatMap_append, split]

end Shared

end Sources

end Transducer
