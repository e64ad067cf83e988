import Mathlib.Algebra.Ring.Nat
import Mathlib.Data.List.Forall2
import Mathlib.Tactic.Common

/-!
# Big-endian fields and byte readers

A writer is a list of bytes; a reader consumes a prefix of its input.
`Reads reader encoded value` says that the reader takes exactly `encoded` off
the front of any input and returns `value`, so readers compose in the order in
which the bytes were written, without absolute offsets.  `readAll` applies one
reader until the input is used up and refuses leftover bytes.
-/

set_option autoImplicit false

namespace WireCodec

abbrev Byte := BitVec 8

/-! ## Fixed-width big-endian numbers -/

/-- The low `width` bytes of `n`, most significant first. -/
def bigEndianBytes : Nat → Nat → List Byte
  | 0, _ => []
  | width + 1, n => BitVec.ofNat 8 (n / 256 ^ width) :: bigEndianBytes width n

def bigEndianValue : List Byte → Nat
  | [] => 0
  | byte :: rest => byte.toNat * 256 ^ rest.length + bigEndianValue rest

def toBeBytes {w : Nat} (word : BitVec w) : List Byte := bigEndianBytes (w / 8) word.toNat

@[simp] theorem length_bigEndianBytes (width n : Nat) :
    (bigEndianBytes width n).length = width := by
  induction width with
  | zero => rfl
  | succ width ih => simp [bigEndianBytes, ih]

@[simp] theorem length_toBeBytes {w : Nat} (word : BitVec w) :
    (toBeBytes word).length = w / 8 := length_bigEndianBytes _ _

theorem bigEndianValue_bigEndianBytes (width n : Nat) :
    bigEndianValue (bigEndianBytes width n) = n % 256 ^ width := by
  induction width with
  | zero => simp [bigEndianBytes, bigEndianValue, Nat.mod_one]
  | succ width ih =>
      have split : n % 256 ^ (width + 1) =
          n % 256 ^ width + 256 ^ width * (n / 256 ^ width % 256) := Nat.mod_pow_succ
      have byte : (BitVec.ofNat 8 (n / 256 ^ width)).toNat = n / 256 ^ width % 256 :=
        BitVec.toNat_ofNat _ _
      rw [bigEndianBytes, bigEndianValue, length_bigEndianBytes, ih, byte, split, Nat.mul_comm,
        Nat.add_comm]

theorem bigEndianValue_toBeBytes {w : Nat} (word : BitVec w) (whole : 8 * (w / 8) = w) :
    bigEndianValue (toBeBytes word) = word.toNat := by
  have range : (256 : Nat) ^ (w / 8) = 2 ^ w := by
    rw [show (256 : Nat) = 2 ^ 8 by rfl, ← Nat.pow_mul, whole]
  rw [toBeBytes, bigEndianValue_bigEndianBytes, range]
  exact Nat.mod_eq_of_lt word.isLt

theorem toBeBytes_byte (byte : Byte) : toBeBytes byte = [byte] := by
  simp [toBeBytes, bigEndianBytes]

/-! ## Readers -/

abbrev Reader (α : Type) := StateT (List Byte) Option α

section Readers
variable {α β : Type}

def readBytes (count : Nat) : Reader (List Byte) := fun input =>
  if count ≤ input.length then some (input.take count, input.drop count) else none

def readNat (width : Nat) : Reader Nat := do
  let bytes ← readBytes width
  return bigEndianValue bytes

/-- Refuses the input unless the condition holds. -/
def require (condition : Bool) : Reader Unit := fun input =>
  if condition then some ((), input) else none

/-- One fuel unit is spent for each value read; `readAll` supplies the length
of the input, which is enough for every reader that consumes something. -/
def readAllFuel (reader : Reader α) : Nat → List Byte → Option (List α)
  | _, [] => some []
  | 0, _ :: _ => none
  | fuel + 1, byte :: rest => do
      let (value, remaining) ← reader (byte :: rest)
      let values ← readAllFuel reader fuel remaining
      return value :: values

def readAll (reader : Reader α) (input : List Byte) : Option (List α) :=
  readAllFuel reader input.length input

def Reads (reader : Reader α) (encoded : List Byte) (value : α) : Prop :=
  ∀ rest, reader (encoded ++ rest) = some (value, rest)

theorem Reads.pure (value : α) : Reads (Pure.pure value) [] value := fun _ => rfl

theorem Reads.bind {first : Reader α} {left right : List Byte} {a : α} {b : β}
    (readFirst : Reads first left a) (next : α → Reader β) (readNext : Reads (next a) right b) :
    Reads (first >>= next) (left ++ right) b := by
  intro rest
  have head : first (left ++ (right ++ rest)) = some (a, right ++ rest) :=
    readFirst (right ++ rest)
  have tail : next a (right ++ rest) = some (b, rest) := readNext rest
  rw [List.append_assoc]
  change (first (left ++ (right ++ rest)) >>= fun pair => next pair.1 pair.2) = some (b, rest)
  rw [head]
  exact tail

/-- Postprocessing a value consumes nothing more. -/
theorem Reads.map {reader : Reader α} {encoded : List Byte} {a : α}
    (read : Reads reader encoded a) (f : α → β) :
    Reads (reader >>= fun value => Pure.pure (f value)) encoded (f a) := by
  have whole := read.bind (fun value => Pure.pure (f value)) (Reads.pure (f a))
  rwa [List.append_nil] at whole

theorem Reads.bytes {encoded : List Byte} {count : Nat} (length : encoded.length = count) :
    Reads (readBytes count) encoded encoded := by
  intro rest
  subst length
  simp [readBytes]

theorem Reads.require {condition : Bool} (holds : condition = true) :
    Reads (require condition) [] () := by
  intro rest
  simp [WireCodec.require, holds]

theorem Reads.nat {encoded : List Byte} {width : Nat} (length : encoded.length = width) :
    Reads (readNat width) encoded (bigEndianValue encoded) :=
  (Reads.bytes length).map bigEndianValue

theorem Reads.word {w width : Nat} (word : BitVec w) (size : w = 8 * width) :
    Reads (readNat width) (toBeBytes word) word.toNat := by
  have exact_width : w / 8 = width := by omega
  have read : Reads (readNat width) (toBeBytes word) (bigEndianValue (toBeBytes word)) :=
    Reads.nat (by rw [length_toBeBytes, exact_width])
  rwa [bigEndianValue_toBeBytes word (by omega)] at read

/-- Reading a row of fields, each with its own reader. -/
theorem Reads.mapM {ι : Type} {reader : ι → Reader α} {items : List ι}
    {parts : List (List Byte × α)}
    (each : List.Forall₂ (fun item part => Reads (reader item) part.1 part.2) items parts) :
    Reads (items.mapM reader) (parts.flatMap Prod.fst) (parts.map Prod.snd) := by
  induction each with
  | nil => exact Reads.pure []
  | @cons item part items parts head _ ih =>
      rw [List.mapM_cons, List.flatMap_cons, List.map_cons]
      exact head.bind _ (ih.map fun values => part.2 :: values)

/-- A sequence of nonempty encodings is read back value by value, with
nothing left over. -/
theorem readAll_complete (reader : Reader α) (parts : List (List Byte × α))
    (each : ∀ part ∈ parts, Reads reader part.1 part.2 ∧ part.1 ≠ []) :
    readAll reader (parts.flatMap Prod.fst) = some (parts.map Prod.snd) := by
  have enough : ∀ fuel, (parts.flatMap Prod.fst).length ≤ fuel →
      readAllFuel reader fuel (parts.flatMap Prod.fst) = some (parts.map Prod.snd) := by
    induction parts with
    | nil => intro fuel _; cases fuel <;> rfl
    | cons part parts ih =>
        intro fuel bound
        obtain ⟨read, nonempty⟩ := each part (List.mem_cons_self ..)
        have rest := ih fun other member => each other (List.mem_cons_of_mem _ member)
        obtain ⟨byte, bytes, shape⟩ := List.exists_cons_of_ne_nil nonempty
        have head := read (parts.flatMap Prod.fst)
        rw [List.flatMap_cons, List.length_append, shape, List.length_cons] at bound
        obtain ⟨fuel, rfl⟩ : ∃ n, fuel = n + 1 := ⟨fuel - 1, by omega⟩
        rw [List.flatMap_cons]
        rw [shape, List.cons_append] at head ⊢
        simp only [readAllFuel, head, Option.bind_eq_bind, Option.bind_some,
          rest fuel (by omega), List.map_cons]
        rfl
  exact enough _ (Nat.le_refl _)

end Readers

end WireCodec
