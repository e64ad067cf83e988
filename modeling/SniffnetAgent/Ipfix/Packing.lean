import SniffnetAgent.Lib.GreedyCut

/-!
# The packing, without bytes

What the encoder decides is how many V4 and V6 records go into each message.
`Packs limit due v4 v6 blocks` is that decision as a derivation: one block per
message, each taking as many V4 records as the limit allows and then as many V6
records as the rest allows.  A message is charged 16 bytes for its header, 124
more when it carries the Template Set, and 4 bytes for every set it opens.
-/

set_option autoImplicit false

namespace SniffnetAgent.Ipfix

open GreedyCut

structure Block (α : Type) where
  v4 : List α
  v6 : List α

section Blocks
variable {α : Type}

def Block.flows (block : Block α) : List α := block.v4 ++ block.v6

def Block.size (block : Block α) : Nat := block.v4.length + block.v6.length

/-- The header of the message, with the Template Set when it is due. -/
def openCharge (due : Bool) : Nat := if due then 140 else 16

/-- A set of `count` records of `size` bytes; no header for an empty set. -/
def setCharge (size count : Nat) : Nat := if count = 0 then 0 else 4 + size * count

def Block.charge (due : Bool) (block : Block α) : Nat :=
  openCharge due + setCharge 62 block.v4.length + setCharge 86 block.v6.length

/-- Records of `size` bytes that fit after `used` bytes and a set header. -/
def room (limit used size : Nat) : Nat := (limit - used - 4) / size

def nextBlock (limit : Nat) (due : Bool) (v4 v6 : List α) : Block α :=
  let part := v4.take (room limit (openCharge due) 62)
  ⟨part, v6.take (room limit (openCharge due + setCharge 62 part.length) 86)⟩

inductive Packs (limit : Nat) : Bool → List α → List α → List (Block α) → Prop where
  | done (due : Bool) : Packs limit due [] [] []
  | next {due : Bool} {v4 v6 : List α} {blocks : List (Block α)} :
      v4 ≠ [] ∨ v6 ≠ [] →
      Packs limit false (v4.drop (nextBlock limit due v4 v6).v4.length)
        (v6.drop (nextBlock limit due v4 v6).v6.length) blocks →
      Packs limit due v4 v6 (nextBlock limit due v4 v6 :: blocks)

/-! ## One block -/

theorem openCharge_le (due : Bool) : openCharge due ≤ 140 := by
  cases due <;> simp [openCharge]

theorem room_bounds {size : Nat} (limit used : Nat) (positive : 0 < size) :
    size * room limit used size ≤ limit - used - 4 ∧
      limit - used - 4 < size * (room limit used size + 1) :=
  ⟨Nat.mul_div_le _ _, Nat.lt_mul_div_succ _ positive⟩

theorem setCharge_le_of_room {limit used size count : Nat} (fits : used ≤ limit)
    (bound : count ≤ room limit used size) : used + setCharge size count ≤ limit := by
  by_cases empty : count = 0
  · simpa [setCharge, empty] using fits
  · have positive : 0 < room limit used size := by omega
    have product : size * count ≤ limit - used - 4 := by
      calc size * count ≤ size * room limit used size := Nat.mul_le_mul_left size bound
        _ ≤ limit - used - 4 := Nat.mul_div_le _ _
    have nonzero : limit - used - 4 ≠ 0 := by
      intro none
      simp [room, none] at positive
    simp only [setCharge, if_neg empty]
    omega

theorem setCharge_gt_of_room {limit used size : Nat} (positive : 0 < size) :
    limit < used + setCharge size (room limit used size + 1) := by
  have product := (room_bounds limit used positive).2
  simp only [setCharge, Nat.add_one_ne_zero, if_false]
  omega

theorem count_le_setCharge (size count : Nat) (positive : 0 < size) :
    count ≤ setCharge size count := by
  have product := Nat.le_mul_of_pos_left count positive
  simp only [setCharge]
  split <;> omega

theorem setCharge_mono (size : Nat) {m n : Nat} (le : m ≤ n) :
    setCharge size m ≤ setCharge size n := by
  by_cases empty : m = 0
  · simp [setCharge, empty]
  · have product : size * m ≤ size * n := Nat.mul_le_mul_left size le
    simp only [setCharge, if_neg empty, if_neg (show n ≠ 0 by omega)]
    omega

theorem nextBlock_v4 (limit : Nat) (due : Bool) (v4 v6 : List α) :
    (nextBlock limit due v4 v6).v4 = v4.take (room limit (openCharge due) 62) := rfl

theorem nextBlock_v6 (limit : Nat) (due : Bool) (v4 v6 : List α) :
    (nextBlock limit due v4 v6).v6 = v6.take (room limit
      (openCharge due + setCharge 62 (nextBlock limit due v4 v6).v4.length) 86) := rfl

theorem nextBlock_v4_charge (limit : Nat) (large : 140 ≤ limit) (due : Bool) (v4 v6 : List α) :
    openCharge due + setCharge 62 (nextBlock limit due v4 v6).v4.length ≤ limit := by
  have opened := openCharge_le due
  apply setCharge_le_of_room (by omega)
  rw [nextBlock_v4]
  exact List.length_take_le _ _

theorem nextBlock_charge (limit : Nat) (large : 140 ≤ limit) (due : Bool) (v4 v6 : List α) :
    (nextBlock limit due v4 v6).charge due ≤ limit := by
  rw [Block.charge]
  apply setCharge_le_of_room (nextBlock_v4_charge limit large due v4 v6)
  rw [nextBlock_v6]
  exact List.length_take_le _ _

/-- Some V4 record is left over only when no record of either family fits any
more: the bytes left after a full V4 set are fewer than 62. -/
theorem nextBlock_v6_nil (limit : Nat) (large : 230 ≤ limit) (due : Bool) (v4 v6 : List α)
    (left : (nextBlock limit due v4 v6).v4.length < v4.length) :
    (nextBlock limit due v4 v6).v6 = [] := by
  have opened := openCharge_le due
  have full : (nextBlock limit due v4 v6).v4.length = room limit (openCharge due) 62 := by
    rw [nextBlock_v4, List.length_take] at left ⊢
    omega
  have none : room limit (openCharge due + setCharge 62 (room limit (openCharge due) 62)) 86
      = 0 := by
    have short := (room_bounds limit (openCharge due) (show 0 < 62 by omega)).2
    apply Nat.div_eq_of_lt
    by_cases empty : room limit (openCharge due) 62 = 0
    · rw [empty] at short ⊢
      simp only [setCharge, if_true]
      omega
    · simp only [setCharge, if_neg empty]
      omega
  rw [nextBlock_v6, full, none, List.take_zero]

theorem nextBlock_size_pos (limit : Nat) (large : 230 ≤ limit) (due : Bool) (v4 v6 : List α)
    (more : v4 ≠ [] ∨ v6 ≠ []) : 0 < (nextBlock limit due v4 v6).size := by
  have opened := openCharge_le due
  by_cases empty : v4 = []
  · have positive := List.length_pos_of_ne_nil (more.resolve_left fun ne => ne empty)
    have fits : 0 < room limit (openCharge due + setCharge 62 0) 86 := by
      simp only [room, setCharge, if_true]
      omega
    simp only [Block.size, nextBlock, empty, List.take_nil, List.length_nil, List.length_take]
    omega
  · have positive := List.length_pos_of_ne_nil empty
    have fits : 0 < room limit (openCharge due) 62 := by
      simp only [room]
      omega
    simp only [Block.size, nextBlock_v4, List.length_take]
    omega

/-- A record that the block left behind would not have fitted. -/
theorem nextBlock_overflows_v4 (limit : Nat) (due : Bool) (v4 v6 : List α)
    (left : (nextBlock limit due v4 v6).v4.length < v4.length) :
    limit < openCharge due + setCharge 62 ((nextBlock limit due v4 v6).v4.length + 1) := by
  have full : (nextBlock limit due v4 v6).v4.length = room limit (openCharge due) 62 := by
    rw [nextBlock_v4, List.length_take] at left ⊢
    omega
  rw [full]
  exact setCharge_gt_of_room (by omega)

theorem nextBlock_overflows_v6 (limit : Nat) (due : Bool) (v4 v6 : List α)
    (left : (nextBlock limit due v4 v6).v6.length < v6.length) :
    limit < openCharge due + setCharge 62 (nextBlock limit due v4 v6).v4.length +
      setCharge 86 ((nextBlock limit due v4 v6).v6.length + 1) := by
  have full : (nextBlock limit due v4 v6).v6.length = room limit
      (openCharge due + setCharge 62 (nextBlock limit due v4 v6).v4.length) 86 := by
    rw [nextBlock_v6, List.length_take] at left ⊢
    omega
  rw [full]
  exact setCharge_gt_of_room (by omega)

/-! ## A whole packing -/

theorem take_append_drop_length (n : Nat) (xs : List α) :
    xs.take n ++ xs.drop (xs.take n).length = xs := by
  rw [List.length_take]
  rcases Nat.le_total n xs.length with le | le
  · rw [Nat.min_eq_left le, List.take_append_drop]
  · rw [Nat.min_eq_right le, List.take_of_length_le le, List.drop_length, List.append_nil]

/-- The blocks read in order are the V4 records and then the V6 records. -/
theorem Packs.flows_eq {limit : Nat} (large : 230 ≤ limit) {due : Bool} {v4 v6 : List α}
    {blocks : List (Block α)} (packs : Packs limit due v4 v6 blocks) :
    blocks.flatMap Block.flows = v4 ++ v6 := by
  induction packs with
  | done due => rfl
  | @next due v4 v6 blocks _ _ ih =>
      rw [List.flatMap_cons, ih, Block.flows]
      set block := nextBlock limit due v4 v6 with shape
      have taken4 : block.v4 ++ v4.drop block.v4.length = v4 := take_append_drop_length _ v4
      have taken6 : block.v6 ++ v6.drop block.v6.length = v6 := take_append_drop_length _ v6
      by_cases left : block.v4.length < v4.length
      · have none : block.v6 = [] := nextBlock_v6_nil limit large due v4 v6 left
        rw [none, List.append_nil, List.length_nil, List.drop_zero, ← List.append_assoc, taken4]
      · have all : v4.drop block.v4.length = [] := List.drop_eq_nil_of_le (by omega)
        rw [all, List.append_nil] at taken4
        rw [all, List.nil_append, List.append_assoc, taken6, taken4]

end Blocks

/-! ## Only the counts matter -/

section Shapes
variable {α β : Type}

def Block.SameShape (left : Block α) (right : Block β) : Prop :=
  left.v4.length = right.v4.length ∧ left.v6.length = right.v6.length

theorem Block.SameShape.charge {left : Block α} {right : Block β} (same : left.SameShape right)
    (due : Bool) : left.charge due = right.charge due := by
  rw [Block.charge, Block.charge, same.1, same.2]

theorem Block.SameShape.size {left : Block α} {right : Block β} (same : left.SameShape right) :
    left.size = right.size := by
  rw [Block.size, Block.size, same.1, same.2]

theorem nextBlock_sameShape (limit : Nat) (due : Bool) {v4 v6 : List α} {v4' v6' : List β}
    (same4 : v4.length = v4'.length) (same6 : v6.length = v6'.length) :
    (nextBlock limit due v4 v6).SameShape (nextBlock limit due v4' v6') := by
  have taken4 :
      (nextBlock limit due v4 v6).v4.length = (nextBlock limit due v4' v6').v4.length := by
    rw [nextBlock_v4, nextBlock_v4, List.length_take, List.length_take, same4]
  refine ⟨taken4, ?_⟩
  rw [nextBlock_v6, nextBlock_v6, List.length_take, List.length_take, same6, taken4]

/-- Two packings go on in lockstep: what is owed has the same lengths. -/
theorem Packs.sameShape {limit : Nat} {due : Bool} {v4 v6 : List α} {blocks : List (Block α)}
    (packs : Packs limit due v4 v6 blocks) {v4' v6' : List β} {blocks' : List (Block β)}
    (packs' : Packs limit due v4' v6' blocks') (same4 : v4.length = v4'.length)
    (same6 : v6.length = v6'.length) : List.Forall₂ Block.SameShape blocks blocks' := by
  induction packs generalizing v4' v6' blocks' with
  | done due =>
      cases packs' with
      | done => exact .nil
      | next more =>
          have none4 := List.eq_nil_of_length_eq_zero same4.symm
          have none6 := List.eq_nil_of_length_eq_zero same6.symm
          exact absurd more (by simp [none4, none6])
  | @next due v4 v6 blocks more _ ih =>
      cases packs' with
      | done =>
          have none4 := List.eq_nil_of_length_eq_zero same4
          have none6 := List.eq_nil_of_length_eq_zero same6
          exact absurd more (by simp [none4, none6])
      | next _ rest' =>
          have shape := nextBlock_sameShape limit due same4 same6
          refine .cons shape (ih rest' ?_ ?_)
          · rw [List.length_drop, List.length_drop, same4, shape.1]
          · rw [List.length_drop, List.length_drop, same6, shape.2]

end Shapes

end SniffnetAgent.Ipfix
