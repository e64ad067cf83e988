import Mathlib.Algebra.Ring.Nat
import Mathlib.Tactic.Common

/-!
# Checked machine arithmetic

Machine words are `BitVec w`.  A checked operation returns the exact result or
a fault; it never wraps.  Running a program in `Exec` and obtaining `.ok` is
therefore the statement that no addition or multiplication overflowed, no
subtraction underflowed, no divisor was zero and no index left its slice.
-/

set_option autoImplicit false

namespace CheckedArith

inductive Fault where
  | overflow
  | underflow
  | divideByZero
  | outOfBounds
  | outOfFuel
  deriving DecidableEq, Repr

abbrev Exec (α : Type) := Except Fault α

theorem ok_bind {α β : Type} (a : α) (next : α → Exec β) :
    ((Except.ok a : Exec α) >>= next) = next a := rfl

theorem pure_eq_ok {α : Type} (a : α) : (pure a : Exec α) = .ok a := rfl

def checkedAdd {w : Nat} (a b : BitVec w) : Exec (BitVec w) :=
  if a.toNat + b.toNat < 2 ^ w then .ok (a + b) else .error .overflow

def checkedMul {w : Nat} (a b : BitVec w) : Exec (BitVec w) :=
  if a.toNat * b.toNat < 2 ^ w then .ok (a * b) else .error .overflow

def checkedDiv {w : Nat} (a b : BitVec w) : Exec (BitVec w) :=
  if b.toNat = 0 then .error .divideByZero else .ok (a / b)

/-- Subtraction of sizes: a size is a `Nat`, so only underflow can fault. -/
def checkedSub (a b : Nat) : Exec Nat :=
  if b ≤ a then .ok (a - b) else .error .underflow

def saturatingSub {w : Nat} (a b : BitVec w) : BitVec w :=
  if b.toNat ≤ a.toNat then a - b else 0

def saturatingAdd {w : Nat} (a b : BitVec w) : BitVec w :=
  if a.toNat + b.toNat < 2 ^ w then a + b else BitVec.allOnes w

def saturatingMul {w : Nat} (a b : BitVec w) : BitVec w :=
  if a.toNat * b.toNat < 2 ^ w then a * b else BitVec.allOnes w

/-- The half-open range `lo..hi` of a slice. -/
def slice {α : Type} (xs : List α) (lo hi : Nat) : Exec (List α) :=
  if lo ≤ hi ∧ hi ≤ xs.length then .ok ((xs.drop lo).take (hi - lo))
  else .error .outOfBounds

/-- Assignment to one index of a slice. -/
def store {α : Type} (xs : List α) (index : Nat) (value : α) : Exec (List α) :=
  if index < xs.length then .ok (xs.set index value) else .error .outOfBounds

/-! ## Exactness

Words written as `BitVec.ofNat w n` with `n` in range are the normal form: each
operation on them is the operation on the numbers. -/

section Exactness
variable {w : Nat}

theorem toNat_ofNat_of_lt {n : Nat} (bound : n < 2 ^ w) : (BitVec.ofNat w n).toNat = n := by
  rw [BitVec.toNat_ofNat, Nat.mod_eq_of_lt bound]

theorem checkedAdd_ofNat {m n : Nat} (bound : m + n < 2 ^ w) :
    checkedAdd (BitVec.ofNat w m) (BitVec.ofNat w n) = .ok (BitVec.ofNat w (m + n)) := by
  have left := toNat_ofNat_of_lt (w := w) (n := m) (by omega)
  have right := toNat_ofNat_of_lt (w := w) (n := n) (by omega)
  rw [checkedAdd, left, right, if_pos bound, BitVec.ofNat_add]

theorem checkedMul_ofNat {m n : Nat} (left : m < 2 ^ w) (right : n < 2 ^ w)
    (bound : m * n < 2 ^ w) :
    checkedMul (BitVec.ofNat w m) (BitVec.ofNat w n) = .ok (BitVec.ofNat w (m * n)) := by
  rw [checkedMul, toNat_ofNat_of_lt left, toNat_ofNat_of_lt right, if_pos bound,
    BitVec.ofNat_mul]

theorem checkedDiv_ofNat {m n : Nat} (left : m < 2 ^ w) (right : n < 2 ^ w) (positive : 0 < n) :
    checkedDiv (BitVec.ofNat w m) (BitVec.ofNat w n) = .ok (BitVec.ofNat w (m / n)) := by
  have quotient : m / n < 2 ^ w := Nat.lt_of_le_of_lt (Nat.div_le_self m n) left
  rw [checkedDiv, toNat_ofNat_of_lt right, if_neg (by omega)]
  congr 1
  apply BitVec.eq_of_toNat_eq
  rw [BitVec.toNat_udiv, toNat_ofNat_of_lt left, toNat_ofNat_of_lt right,
    toNat_ofNat_of_lt quotient]

theorem saturatingSub_ofNat {m n : Nat} (left : m < 2 ^ w) (right : n < 2 ^ w) :
    saturatingSub (BitVec.ofNat w m) (BitVec.ofNat w n) = BitVec.ofNat w (m - n) := by
  rw [saturatingSub, toNat_ofNat_of_lt left, toNat_ofNat_of_lt right]
  apply BitVec.eq_of_toNat_eq
  rw [toNat_ofNat_of_lt (by omega)]
  split
  · rename_i le
    rw [BitVec.toNat_sub_of_le, toNat_ofNat_of_lt left, toNat_ofNat_of_lt right]
    rwa [BitVec.le_def, toNat_ofNat_of_lt left, toNat_ofNat_of_lt right]
  · rename_i gt
    rw [Nat.sub_eq_zero_of_le (by omega)]
    rfl

theorem toNat_saturatingAdd (a b : BitVec w) :
    (saturatingAdd a b).toNat = min (a.toNat + b.toNat) (2 ^ w - 1) := by
  have left := a.isLt
  rw [saturatingAdd]
  split
  · rename_i bound
    rw [BitVec.toNat_add, Nat.mod_eq_of_lt bound]
    omega
  · rename_i large
    rw [BitVec.toNat_allOnes]
    omega

theorem toNat_saturatingMul (a b : BitVec w) :
    (saturatingMul a b).toNat = min (a.toNat * b.toNat) (2 ^ w - 1) := by
  have left := a.isLt
  rw [saturatingMul]
  split
  · rename_i bound
    rw [BitVec.toNat_mul, Nat.mod_eq_of_lt bound]
    omega
  · rename_i large
    rw [BitVec.toNat_allOnes]
    omega

instance saturatingAdd_associative : Std.Associative (saturatingAdd (w := w)) where
  assoc a b c := by
    apply BitVec.eq_of_toNat_eq
    simp only [toNat_saturatingAdd]
    omega

instance saturatingAdd_commutative : Std.Commutative (saturatingAdd (w := w)) where
  comm a b := by
    apply BitVec.eq_of_toNat_eq
    rw [toNat_saturatingAdd, toNat_saturatingAdd, Nat.add_comm]

end Exactness

section Slices
variable {α : Type}

theorem checkedSub_ok {a b : Nat} (le : b ≤ a) : checkedSub a b = .ok (a - b) :=
  if_pos le

theorem slice_ok {xs : List α} {lo count : Nat} (bound : lo + count ≤ xs.length) :
    slice xs lo (lo + count) = .ok ((xs.drop lo).take count) := by
  rw [slice, if_pos ⟨by omega, bound⟩, Nat.add_sub_cancel_left]

/-- At most `limit` elements from `lo` on. -/
theorem slice_taken (xs : List α) {lo : Nat} (bound : lo ≤ xs.length) (limit : Nat) :
    slice xs lo (lo + ((xs.drop lo).take limit).length) = .ok ((xs.drop lo).take limit) := by
  have within : lo + ((xs.drop lo).take limit).length ≤ xs.length := by
    rw [List.length_take, List.length_drop]
    omega
  rw [slice_ok within, List.length_take]
  exact congrArg Except.ok List.take_eq_take_min.symm

theorem store_ok {xs : List α} {index : Nat} (value : α) (bound : index < xs.length) :
    store xs index value = .ok (xs.set index value) :=
  if_pos bound

end Slices

end CheckedArith
