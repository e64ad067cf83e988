import Mathlib.Algebra.Ring.Nat
import Mathlib.Data.List.DropRight
import Mathlib.Tactic.Common

/-!
# Numbers that a user types

A line is trimmed and parsed as an unsigned number of `w` bits, with a check for
overflow at every digit.  `Denotes` says what a line means without a parser:
white space, a plus sign or none, decimal digits, white space.  The two agree on
every line.
-/

set_option autoImplicit false

namespace TypedNumber

/-- The property `White_Space` of Unicode. -/
def isWhitespace (c : Char) : Bool :=
  let n := c.toNat
  decide (9 ≤ n ∧ n ≤ 13 ∨ n = 0x20 ∨ n = 0x85 ∨ n = 0xA0 ∨ n = 0x1680 ∨ 0x2000 ≤ n ∧ n ≤ 0x200A ∨
    n = 0x2028 ∨ n = 0x2029 ∨ n = 0x202F ∨ n = 0x205F ∨ n = 0x3000)

def trim (text : List Char) : List Char :=
  (text.dropWhile isWhitespace).rdropWhile isWhitespace

def checked (w n : Nat) : Option Nat := if n < 2 ^ w then some n else none

def digit (c : Char) : Option Nat := if c.isDigit then some (c.toNat - '0'.toNat) else none

/-- One digit after the other. -/
def accumulate (w : Nat) : Nat → List Char → Option Nat
  | value, [] => some value
  | value, c :: cs => do
      let tens ← checked w (10 * value)
      let units ← digit c
      let next ← checked w (tens + units)
      accumulate w next cs

def parse (w : Nat) : List Char → Option Nat
  | [] => none
  | c :: cs =>
      if c = '+' then
        if cs.isEmpty then none else accumulate w 0 cs
      else accumulate w 0 (c :: cs)

/-- Decimal digits, at least one, and their value. -/
structure Digits (w : Nat) (digits : List Char) (n : Nat) : Prop where
  present : digits ≠ []
  each : ∀ c ∈ digits, c.isDigit = true
  value : Nat.ofDigitChars 10 digits 0 = n
  fits : n < 2 ^ w

/-- What a line means. -/
def Denotes (w : Nat) (line : List Char) (n : Nat) : Prop :=
  ∃ lead sign digits trail, line = lead ++ (sign ++ digits) ++ trail ∧
    (∀ c ∈ lead, isWhitespace c = true) ∧ (∀ c ∈ trail, isWhitespace c = true) ∧
    (sign = [] ∨ sign = ['+']) ∧ Digits w digits n

section Parsing
variable {w n : Nat} {text : List Char}

theorem checked_eq_some {m : Nat} : checked w n = some m ↔ n = m ∧ n < 2 ^ w := by
  rw [checked, Option.ite_none_right_eq_some, Option.some_inj, and_comm]

theorem digit_eq_some {c : Char} {x : Nat} :
    digit c = some x ↔ c.isDigit = true ∧ c.toNat - '0'.toNat = x := by
  rw [digit, Option.ite_none_right_eq_some, Option.some_inj]

theorem le_ofDigitChars (digits : List Char) (value : Nat) :
    value ≤ Nat.ofDigitChars 10 digits value := by
  induction digits generalizing value with
  | nil => simp
  | cons c cs ih =>
      have rest := ih (10 * value + (c.toNat - '0'.toNat))
      rw [Nat.ofDigitChars_cons]
      omega

/-- No step overflows unless the number itself does. -/
theorem accumulate_eq_some {digits : List Char} {value : Nat} (fits : value < 2 ^ w) :
    accumulate w value digits = some n ↔ (∀ c ∈ digits, c.isDigit = true) ∧
      Nat.ofDigitChars 10 digits value = n ∧ n < 2 ^ w := by
  induction digits generalizing value with
  | nil =>
      simp only [accumulate, Option.some_inj, Nat.ofDigitChars_nil, List.not_mem_nil, false_imp_iff,
        implies_true, true_and]
      constructor
      · rintro rfl
        exact ⟨rfl, fits⟩
      · exact And.left
  | cons c cs ih =>
      simp only [accumulate, Option.bind_eq_bind, Option.bind_eq_some_iff, checked_eq_some,
        digit_eq_some, List.forall_mem_cons, Nat.ofDigitChars_cons]
      constructor
      · rintro ⟨tens, ⟨rfl, _⟩, units, ⟨isDigit, rfl⟩, next, ⟨rfl, within⟩, rest⟩
        obtain ⟨digits, value, bound⟩ := (ih within).mp rest
        exact ⟨⟨isDigit, digits⟩, value, bound⟩
      · rintro ⟨⟨isDigit, digits⟩, total, bound⟩
        have larger := le_ofDigitChars cs (10 * value + (c.toNat - '0'.toNat))
        have within : 10 * value + (c.toNat - '0'.toNat) < 2 ^ w := by omega
        exact ⟨_, ⟨rfl, by omega⟩, _, ⟨isDigit, rfl⟩, _, ⟨rfl, within⟩,
          (ih within).mpr ⟨digits, total, bound⟩⟩

theorem digits_iff {digits : List Char} (present : digits ≠ []) :
    accumulate w 0 digits = some n ↔ Digits w digits n := by
  rw [accumulate_eq_some (Nat.two_pow_pos w)]
  constructor
  · rintro ⟨each, value, fits⟩
    exact ⟨present, each, value, fits⟩
  · rintro ⟨_, each, value, fits⟩
    exact ⟨each, value, fits⟩

theorem parse_eq_some : parse w text = some n ↔
    ∃ sign digits, text = sign ++ digits ∧ (sign = [] ∨ sign = ['+']) ∧ Digits w digits n := by
  cases text with
  | nil =>
      simp only [parse, reduceCtorEq, false_iff]
      rintro ⟨sign, digits, empty, _, typed⟩
      exact typed.present (List.append_eq_nil_iff.mp empty.symm).2
  | cons c cs =>
      rw [parse]
      constructor
      · intro parsed
        split at parsed
        · rename_i plus
          rw [Option.ite_none_left_eq_some, List.isEmpty_iff] at parsed
          obtain ⟨present, rest⟩ := parsed
          exact ⟨['+'], cs, by rw [plus]; rfl, Or.inr rfl, (digits_iff present).mp rest⟩
        · exact ⟨[], c :: cs, rfl, Or.inl rfl, (digits_iff (List.cons_ne_nil c cs)).mp parsed⟩
      · rintro ⟨sign, digits, shape, rfl | rfl, typed⟩
        · rw [List.nil_append] at shape
          subst shape
          have notPlus : c ≠ '+' := by
            rintro rfl
            exact absurd (typed.each '+' (List.mem_cons_self ..)) (by decide)
          rw [if_neg notPlus]
          exact (digits_iff typed.present).mpr typed
        · obtain ⟨rfl, rfl⟩ := List.cons.inj shape
          rw [if_pos rfl, if_neg (by simpa using typed.present)]
          exact (digits_iff typed.present).mpr typed

end Parsing

/-! ## White space -/

section Trimming

theorem isWhitespace_of_isDigit {c : Char} (isDigit : c.isDigit = true) :
    isWhitespace c = false := by
  have bounds : 48 ≤ c.toNat ∧ c.toNat ≤ 57 := by
    simp only [Char.isDigit, Bool.and_eq_true, decide_eq_true_eq] at isDigit
    exact isDigit
  simp only [isWhitespace, decide_eq_false_iff_not]
  omega

/-- Only white space is trimmed. -/
theorem exists_trim (text : List Char) : ∃ lead trail, text = lead ++ trim text ++ trail ∧
    (∀ c ∈ lead, isWhitespace c = true) ∧ ∀ c ∈ trail, isWhitespace c = true := by
  refine ⟨text.takeWhile isWhitespace, (text.dropWhile isWhitespace).rtakeWhile isWhitespace,
    ?_, ?_, ?_⟩
  · rw [List.append_assoc, trim, List.rdropWhile_append_rtakeWhile,
      List.takeWhile_append_dropWhile]
  · exact fun c member => List.mem_takeWhile_imp member
  · exact fun c member => List.mem_rtakeWhile_imp member

/-- All of it is. -/
theorem trim_append {lead body trail : List Char} (before : ∀ c ∈ lead, isWhitespace c = true)
    (after : ∀ c ∈ trail, isWhitespace c = true) (present : body ≠ [])
    (first : ∀ c, body.head? = some c → isWhitespace c = false)
    (last : ∀ c, body.getLast? = some c → isWhitespace c = false) :
    trim (lead ++ body ++ trail) = body := by
  have stops : ∀ {text rest : List Char}, text ≠ [] →
      (∀ c, text.head? = some c → isWhitespace c = false) →
      (text ++ rest).dropWhile isWhitespace = text ++ rest := by
    intro text rest present head
    cases text with
    | nil => exact absurd rfl present
    | cons c cs => exact List.dropWhile_cons_of_neg (by simp [head c rfl])
  have front : (lead ++ body ++ trail).dropWhile isWhitespace = body ++ trail := by
    rw [List.append_assoc, List.dropWhile_append_of_pos before, stops present first]
  have back : (body ++ trail).reverse.dropWhile isWhitespace = body.reverse := by
    have spaces : ∀ c ∈ trail.reverse, isWhitespace c = true :=
      fun c member => after c (List.mem_reverse.mp member)
    have whole : (body.reverse ++ []).dropWhile isWhitespace = body.reverse ++ [] :=
      stops (List.reverse_ne_nil_iff.mpr present) (by simpa only [List.head?_reverse] using last)
    rw [List.reverse_append, List.dropWhile_append_of_pos spaces]
    rwa [List.append_nil] at whole
  rw [trim, front, List.rdropWhile, back, List.reverse_reverse]

theorem trim_eq_nil_iff (text : List Char) :
    trim text = [] ↔ ∀ c ∈ text, isWhitespace c = true := by
  constructor
  · intro blank c member
    obtain ⟨lead, trail, whole, before, after⟩ := exists_trim text
    rw [blank, List.append_nil] at whole
    rw [whole] at member
    rcases List.mem_append.mp member with member | member
    · exact before c member
    · exact after c member
  · intro blank
    have front : text.dropWhile isWhitespace = [] := List.dropWhile_eq_nil_iff.mpr blank
    rw [trim, front]
    rfl

end Trimming

/-! ## Lines -/

section Lines
variable {w n : Nat} {line : List Char}

theorem parse_trim_iff : parse w (trim line) = some n ↔ Denotes w line n := by
  constructor
  · intro parsed
    obtain ⟨sign, digits, body, plus, typed⟩ := parse_eq_some.mp parsed
    obtain ⟨lead, trail, whole, before, after⟩ := exists_trim line
    exact ⟨lead, sign, digits, trail, by rw [← body, ← whole], before, after, plus, typed⟩
  · rintro ⟨lead, sign, digits, trail, rfl, before, after, plus, typed⟩
    have solid : ∀ c ∈ sign ++ digits, isWhitespace c = false := by
      intro c member
      rcases List.mem_append.mp member with inSign | inDigits
      · rcases plus with rfl | rfl
        · cases inSign
        · rw [List.mem_singleton.mp inSign]
          rfl
      · exact isWhitespace_of_isDigit (typed.each c inDigits)
    rw [trim_append before after (List.append_ne_nil_of_right_ne_nil sign typed.present)
      (fun c head => solid c (List.mem_of_head? head))
      fun c final => solid c (List.mem_of_getLast? final)]
    exact parse_eq_some.mpr ⟨sign, digits, rfl, plus, typed⟩

/-- The number as it is printed. -/
theorem denotes_printed (fits : n < 2 ^ w) : Denotes w (Nat.toDigits 10 n ++ ['\n']) n := by
  refine ⟨[], [], Nat.toDigits 10 n, ['\n'], rfl, by simp, by simp; rfl, Or.inl rfl, ?_⟩
  constructor
  case present => exact Nat.toDigits_ne_nil
  case each => exact fun c member => Nat.isDigit_of_mem_toDigits (by omega) (by omega) member
  case value => exact Nat.ofDigitChars_ten_toDigits
  case fits => exact fits

end Lines

end TypedNumber
