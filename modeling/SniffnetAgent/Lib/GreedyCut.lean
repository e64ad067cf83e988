import Mathlib.Algebra.Ring.Nat
import Mathlib.Data.List.Infix
import Mathlib.Algebra.BigOperators.Group.List.Basic
import Mathlib.Tactic.Common

/-!
# Greedy cuts stay ahead

A list is cut into consecutive blocks.  `Fits i block` says that the block may
stand at position `i` of a cut; it must be inherited by contiguous parts.  A cut
is `Maximal` when no block could have taken the record that follows it.  Then
its first `j` blocks hold at least as many records as the first `j` blocks of
any other admissible cut of the same list.
-/

set_option autoImplicit false

namespace GreedyCut

section Cut
variable {α : Type}

/-- Every block is admissible at its own position. -/
def AllFit : (Nat → List α → Prop) → List (List α) → Prop
  | _, [] => True
  | Fits, block :: blocks => Fits 0 block ∧ AllFit (fun i => Fits (i + 1)) blocks

/-- No block could have taken the record after it. -/
def Maximal : (Nat → List α → Prop) → List (List α) → Prop
  | _, [] => True
  | Fits, block :: blocks =>
      (∀ record rest, blocks.flatten = record :: rest → ¬ Fits 0 (block ++ [record])) ∧
        Maximal (fun i => Fits (i + 1)) blocks

theorem AllFit.of_at (Fits : Nat → List α → Prop) (blocks : List (List α))
    (each : ∀ (i : Nat) (block : List α), blocks[i]? = some block → Fits i block) :
    AllFit Fits blocks := by
  induction blocks generalizing Fits with
  | nil => trivial
  | cons block blocks ih =>
      exact ⟨each 0 block rfl, ih (fun i => Fits (i + 1)) fun i => each (i + 1)⟩

theorem Maximal.of_at (Fits : Nat → List α → Prop) (blocks : List (List α))
    (each : ∀ (i : Nat) (block : List α), blocks[i]? = some block →
      ∀ record rest, (blocks.drop (i + 1)).flatten = record :: rest →
        ¬ Fits i (block ++ [record])) :
    Maximal Fits blocks := by
  induction blocks generalizing Fits with
  | nil => trivial
  | cons block blocks ih =>
      exact ⟨each 0 block rfl, ih (fun i => Fits (i + 1)) fun i => each (i + 1)⟩

/-- How many records the first `j` blocks hold. -/
def covered (blocks : List (List α)) (j : Nat) : Nat := ((blocks.take j).map List.length).sum

theorem covered_le_flatten (blocks : List (List α)) (j : Nat) :
    covered blocks j ≤ blocks.flatten.length := by
  rw [covered, ← List.length_flatten]
  have whole := congrArg (fun bs : List (List α) => bs.flatten.length)
    (List.take_append_drop j blocks)
  simp only [List.flatten_append, List.length_append] at whole
  omega

theorem covered_all (blocks : List (List α)) {j : Nat} (enough : blocks.length ≤ j) :
    covered blocks j = blocks.flatten.length := by
  rw [covered, List.take_of_length_le enough, List.length_flatten]

/-- The exchange step.  The greedy cut is ahead by `lead`; a competing block
that overtook it would contain the greedy block and the record after it. -/
theorem head_not_overtaking {Fits : List α → Prop}
    (inherited : ∀ {part whole : List α}, part <:+: whole → Fits whole → Fits part)
    (lead block rest other others : List α)
    (same : other ++ others = lead ++ (block ++ rest))
    (fits : Fits other)
    (maximal : ∀ record tail, rest = record :: tail → ¬ Fits (block ++ [record])) :
    other.length ≤ (lead ++ block).length := by
  by_contra overtakes
  have longer : (lead ++ block).length < other.length := Nat.lt_of_not_le overtakes
  have ahead : lead ++ block <+: lead ++ (block ++ rest) := ⟨rest, List.append_assoc ..⟩
  have behind : other <+: lead ++ (block ++ rest) := ⟨others, same⟩
  obtain ⟨extra, shape⟩ := List.prefix_of_prefix_length_le ahead behind longer.le
  cases extra with
  | nil => simp [← shape] at longer
  | cons record tail =>
      have after : rest = record :: (tail ++ others) := by
        rw [← shape] at same
        simpa [List.append_assoc] using same.symm
      refine maximal record _ after (inherited ?_ fits)
      refine ⟨lead, tail, ?_⟩
      rw [← shape]
      simp [List.append_assoc]

/-- The greedy cut `greedy`, ahead by `lead`, stays ahead of `other`. -/
theorem covered_le_of_lead :
    ∀ (Fits : Nat → List α → Prop),
      (∀ i {part whole : List α}, part <:+: whole → Fits i whole → Fits i part) →
      ∀ (greedy other : List (List α)) (lead : List α),
        other.flatten = lead ++ greedy.flatten →
        Maximal Fits greedy → AllFit Fits other →
        ∀ j, covered other j ≤ lead.length + covered greedy j := by
  intro Fits inherited greedy
  induction greedy generalizing Fits with
  | nil =>
      intro other lead same _ _ j
      have bound := covered_le_flatten other j
      rw [same] at bound
      simpa [covered] using bound
  | cons block blocks ih =>
      intro other lead same maximal fits j
      cases other with
      | nil => simp [covered]
      | cons first others =>
          cases j with
          | zero => simp [covered]
          | succ j =>
              have notOvertaking := head_not_overtaking (inherited 0) lead block blocks.flatten
                first others.flatten (by simpa using same) fits.1 maximal.1
              have whole : first ++ others.flatten = lead ++ (block ++ blocks.flatten) := by
                simpa using same
              have ahead : lead ++ block <+: lead ++ (block ++ blocks.flatten) :=
                ⟨blocks.flatten, List.append_assoc ..⟩
              obtain ⟨lead', shape⟩ := List.prefix_of_prefix_length_le
                (⟨others.flatten, whole⟩ : first <+: _) ahead notOvertaking
              have sameTail : others.flatten = lead' ++ blocks.flatten := by
                rw [← List.append_assoc, ← shape, List.append_assoc] at whole
                exact List.append_cancel_left whole
              have tail := ih (fun i => Fits (i + 1)) (fun i => inherited (i + 1)) others lead'
                sameTail maximal.2 fits.2 j
              have lengths := congrArg List.length shape
              simp only [List.length_append] at lengths
              simp only [covered, List.take_succ_cons, List.map_cons, List.sum_cons] at tail ⊢
              omega

/-- Against every admissible cut of the same list, block for block. -/
theorem covered_le_of_maximal (Fits : Nat → List α → Prop)
    (inherited : ∀ i {part whole : List α}, part <:+: whole → Fits i whole → Fits i part)
    (greedy other : List (List α)) (same : other.flatten = greedy.flatten)
    (maximal : Maximal Fits greedy) (fits : AllFit Fits other) (j : Nat) :
    covered other j ≤ covered greedy j := by
  have ahead := covered_le_of_lead Fits inherited greedy other [] (by simpa using same)
    maximal fits j
  simpa using ahead

/-- Blocks that are never empty: covering everything takes all of them. -/
theorem length_le_of_covered (greedy : List (List α)) (nonempty : ∀ block ∈ greedy, block ≠ [])
    {j : Nat} (everything : greedy.flatten.length ≤ covered greedy j) : greedy.length ≤ j := by
  by_contra fewer
  have more : j < greedy.length := Nat.lt_of_not_le fewer
  have whole := congrArg (fun bs : List (List α) => bs.flatten.length)
    (List.take_append_drop j greedy)
  simp only [List.flatten_append, List.length_append] at whole
  rw [covered, ← List.length_flatten] at everything
  rw [List.drop_eq_getElem_cons more, List.flatten_cons, List.length_append] at whole
  have positive := List.length_pos_of_ne_nil (nonempty greedy[j] (List.getElem_mem more))
  omega

theorem length_le_of_maximal (Fits : Nat → List α → Prop)
    (inherited : ∀ i {part whole : List α}, part <:+: whole → Fits i whole → Fits i part)
    (greedy other : List (List α)) (same : other.flatten = greedy.flatten)
    (nonempty : ∀ block ∈ greedy, block ≠ [])
    (maximal : Maximal Fits greedy) (fits : AllFit Fits other) :
    greedy.length ≤ other.length := by
  apply length_le_of_covered greedy nonempty
  have ahead := covered_le_of_maximal Fits inherited greedy other same maximal fits other.length
  rwa [covered_all other (Nat.le_refl _), same] at ahead

end Cut

end GreedyCut
