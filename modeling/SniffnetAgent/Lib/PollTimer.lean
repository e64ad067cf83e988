import Mathlib.Data.List.Induction
import Mathlib.Tactic.Common

/-!
# Timers that are polled

A loop keeps a mark and looks at the clock once per turn.  When the reading is
at least `interval` past the mark the timer fires, and a second reading becomes
the new mark.  A timer that is polled can only fire late, and only by the time
between two looks at the clock.
-/

set_option autoImplicit false

namespace PollTimer

/-- One look at the clock; `stamp` is read only if the timer fired. -/
structure Poll where
  now : Nat
  stamp : Nat
  fired : Bool
  deriving DecidableEq, Repr

def Poll.mark (poll : Poll) (mark : Nat) : Nat := if poll.fired then poll.stamp else mark

/-- The last time that the poll read. -/
def Poll.reading (poll : Poll) : Nat := if poll.fired then poll.stamp else poll.now

/-- The mark after a history of polls. -/
def lastMark (start : Nat) (polls : List Poll) : Nat :=
  polls.foldl (fun mark poll => poll.mark mark) start

def lastReading (start : Nat) (polls : List Poll) : Nat :=
  polls.foldl (fun _ poll => poll.reading) start

def fires (polls : List Poll) : Nat := polls.countP Poll.fired

/-- The timer fires exactly when the interval is over. -/
def Obeys (interval start : Nat) (polls : List Poll) : Prop :=
  ∀ earlier poll later, polls = earlier ++ poll :: later →
    (poll.fired = true ↔ interval ≤ poll.now - lastMark start earlier)

/-- The clock does not go back. -/
def Forward (start : Nat) (polls : List Poll) : Prop :=
  ∀ earlier poll later, polls = earlier ++ poll :: later →
    lastReading start earlier ≤ poll.now ∧ poll.now ≤ poll.reading

/-- No two looks at the clock are further apart than `gap`. -/
def Paced (gap start : Nat) (polls : List Poll) : Prop :=
  ∀ earlier poll later, polls = earlier ++ poll :: later →
    poll.now ≤ lastReading start earlier + gap

section Histories
variable (start : Nat) (polls : List Poll) (poll : Poll)

theorem lastMark_snoc : lastMark start (polls ++ [poll]) = poll.mark (lastMark start polls) := by
  rw [lastMark, List.foldl_append]
  rfl

theorem lastReading_snoc : lastReading start (polls ++ [poll]) = poll.reading := by
  rw [lastReading, List.foldl_append]
  rfl

theorem fires_snoc : fires (polls ++ [poll]) = fires polls + if poll.fired then 1 else 0 := by
  rw [fires, List.countP_append, List.countP_singleton, fires]

/-- Looks that do not fire leave the mark. -/
theorem lastMark_append_quiet (between : List Poll) (quiet : fires between = 0) :
    lastMark start (polls ++ between) = lastMark start polls := by
  induction between using List.reverseRecOn with
  | nil => rw [List.append_nil]
  | append_singleton between last ih =>
      rw [fires_snoc, Nat.add_eq_zero_iff, ite_eq_right_iff] at quiet
      obtain ⟨before, unfired⟩ := quiet
      have silent : ¬ last.fired = true := fun fired => absurd (unfired fired) Nat.one_ne_zero
      rw [← List.append_assoc, lastMark_snoc, Poll.mark, if_neg silent, ih before]

end Histories

section Timer
variable {interval gap start : Nat} {polls : List Poll} {poll : Poll}

/-- A property of every poll of a history, for one more poll. -/
theorem forall_split_snoc {Q : List Poll → Poll → Prop}
    (before : ∀ earlier poll later, polls = earlier ++ poll :: later → Q earlier poll)
    (last : Q polls poll) :
    ∀ earlier poll' later, polls ++ [poll] = earlier ++ poll' :: later → Q earlier poll' := by
  intro earlier poll' later split
  rcases List.eq_nil_or_concat later with rfl | ⟨rest, final, rfl⟩
  · obtain ⟨rfl, same⟩ := List.append_inj' split rfl
    cases List.singleton_inj.mp same
    exact last
  · rw [List.concat_eq_append, ← List.cons_append, ← List.append_assoc] at split
    obtain ⟨same, _⟩ := List.append_inj' split rfl
    exact before earlier poll' rest same

theorem obeys_nil : Obeys interval start [] := by
  intro earlier poll later split
  exact absurd split (by simp)

theorem Obeys.snoc (obeys : Obeys interval start polls)
    (rule : poll.fired = true ↔ interval ≤ poll.now - lastMark start polls) :
    Obeys interval start (polls ++ [poll]) :=
  forall_split_snoc obeys rule

theorem Obeys.shorter (obeys : Obeys interval start (polls ++ [poll])) :
    Obeys interval start polls := by
  intro earlier poll' later split
  exact obeys earlier poll' (later ++ [poll]) (by rw [split, List.append_assoc]; rfl)

theorem Forward.shorter (forward : Forward start (polls ++ [poll])) : Forward start polls := by
  intro earlier poll' later split
  exact forward earlier poll' (later ++ [poll]) (by rw [split, List.append_assoc]; rfl)

/-- A firing is never early, and late by less than one gap. -/
theorem Obeys.fired_within (obeys : Obeys interval start polls) (positive : 0 < interval)
    (paced : Paced gap start polls) {earlier later : List Poll}
    (split : polls = earlier ++ poll :: later) (fired : poll.fired = true) :
    lastMark start earlier + interval ≤ poll.now ∧
      poll.now < lastMark start earlier + interval + gap := by
  have due := (obeys earlier poll later split).mp fired
  have near := paced earlier poll later split
  refine ⟨by omega, ?_⟩
  rcases List.eq_nil_or_concat earlier with rfl | ⟨before, last, rfl⟩
  · have unread : lastReading start [] = lastMark start [] := rfl
    omega
  · rw [List.concat_eq_append] at split near ⊢
    rw [List.append_assoc] at split
    rw [lastReading_snoc, Poll.reading] at near
    rw [lastMark_snoc, Poll.mark]
    cases quiet : last.fired with
    | true =>
        rw [quiet, if_pos rfl] at near
        rw [if_pos rfl]
        omega
    | false =>
        have early : ¬ interval ≤ last.now - lastMark start before := fun due =>
          Bool.false_ne_true (quiet.symm.trans ((obeys before last _ split).mpr due))
        rw [quiet, if_neg Bool.false_ne_true] at near
        rw [if_neg Bool.false_ne_true]
        omega

/-- The firings of a history take their time. -/
theorem Obeys.fires_mul_le (obeys : Obeys interval start polls) (positive : 0 < interval)
    (forward : Forward start polls) :
    start + fires polls * interval ≤ lastMark start polls := by
  induction polls using List.reverseRecOn with
  | nil => exact Nat.le_of_eq (by rw [fires, List.countP_nil, Nat.zero_mul]; rfl)
  | append_singleton polls poll ih =>
      have before := ih obeys.shorter forward.shorter
      rw [lastMark_snoc, fires_snoc, Poll.mark]
      split
      · rename_i fired
        have due := (obeys polls poll [] rfl).mp fired
        have within := (forward polls poll [] rfl).2
        rw [Poll.reading, if_pos fired] at within
        rw [Nat.add_mul, Nat.one_mul]
        omega
      · exact before

end Timer

end PollTimer
