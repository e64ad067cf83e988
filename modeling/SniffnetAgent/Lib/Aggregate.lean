import Mathlib.Data.Finmap
import Mathlib.Data.List.Perm.Basic

/-!
# Tables of aggregates

A table keeps one value per key; a value that arrives for a known key is merged
into the value kept.  When the merge is associative, emptying the table from time
to time and merging what it gave out yields the table that was never emptied.
Where a field of the values is merged by a commutative operation as well, the
order in which the values arrived cannot be seen in it.
-/

set_option autoImplicit false

namespace Aggregate

/-! ## One key -/

section Totals
variable {V F : Type}

/-- Merged from left to right; no values make none. -/
def total (merge : V → V → V) (values : List V) : Option V :=
  (values.map some).foldl (Option.merge merge) none

variable (merge : V → V → V)

theorem total_toList (value : Option V) : total merge value.toList = value := by
  cases value <;> rfl

theorem total_append [Std.Associative merge] (left right : List V) :
    total merge (left ++ right) = (total merge left).merge merge (total merge right) := by
  have start : (left.map some).foldl (Option.merge merge) none =
      ((left.map some).foldl (Option.merge merge) none).merge merge none :=
    Option.merge_none_right.symm
  rw [total, List.map_append, List.foldl_append, start, List.foldl_assoc]
  rfl

theorem total_cons [Std.Associative merge] (value : V) (values : List V) :
    total merge (value :: values) = (some value).merge merge (total merge values) :=
  total_append merge [value] values

theorem total_eq_none [Std.Associative merge] {values : List V} :
    total merge values = none ↔ values = [] := by
  cases values with
  | nil => exact ⟨fun _ => rfl, fun _ => rfl⟩
  | cons value values =>
      rw [total_cons]
      cases total merge values <;> simp

/-- The values may be merged in groups. -/
theorem total_of_totals [Std.Associative merge] (parts : List (List V)) :
    total merge (parts.flatMap fun part => (total merge part).toList) =
      total merge parts.flatten := by
  induction parts with
  | nil => rfl
  | cons part parts ih =>
      rw [List.flatMap_cons, List.flatten_cons, total_append, total_append, total_toList, ih]

/-- A field with a merge of its own is merged on its own. -/
theorem map_total (field : V → F) (op : F → F → F)
    (field_merge : ∀ a b, field (merge a b) = op (field a) (field b)) (values : List V) :
    (total merge values).map field = total op (values.map field) := by
  have step : ∀ known value : Option V, (known.merge merge value).map field =
      (known.map field).merge op (value.map field) := by
    intro known value
    cases known <;> cases value <;> simp [field_merge]
  induction values using List.reverseRecOn with
  | nil => rfl
  | append_singleton values value ih =>
      simp only [total, List.map_append, List.foldl_append, List.map_singleton, List.foldl_cons,
        List.foldl_nil] at ih ⊢
      rw [step, ih, Option.map_some]

theorem total_perm [Std.Associative merge] [Std.Commutative merge] {values values' : List V}
    (perm : values.Perm values') : total merge values = total merge values' :=
  (perm.map some).foldl_op_eq

end Totals

/-! ## All keys -/

section Tables
variable {K V : Type}

abbrev Table (K V : Type) := Finmap fun _ : K => V

variable [DecidableEq K]

def valuesOf (key : K) (entries : List (K × V)) : List V :=
  (entries.filter fun entry => entry.1 = key).map Prod.snd

theorem valuesOf_append (key : K) (left right : List (K × V)) :
    valuesOf key (left ++ right) = valuesOf key left ++ valuesOf key right := by
  rw [valuesOf, List.filter_append, List.map_append]
  rfl

theorem valuesOf_cons_self (key : K) (value : V) (entries : List (K × V)) :
    valuesOf key ((key, value) :: entries) = value :: valuesOf key entries := by
  simp [valuesOf]

theorem valuesOf_cons_of_ne {key other : K} (ne : key ≠ other) (value : V)
    (entries : List (K × V)) :
    valuesOf other ((key, value) :: entries) = valuesOf other entries := by
  simp [valuesOf, ne]

theorem valuesOf_flatten (key : K) (parts : List (List (K × V))) :
    valuesOf key parts.flatten = (parts.map (valuesOf key)).flatten := by
  induction parts with
  | nil => rfl
  | cons part parts ih =>
      rw [List.flatten_cons, List.map_cons, List.flatten_cons, valuesOf_append, ih]

theorem valuesOf_perm (key : K) {entries entries' : List (K × V)} (perm : entries.Perm entries') :
    (valuesOf key entries).Perm (valuesOf key entries') :=
  (perm.filter _).map _

variable (merge : V → V → V)

def upsert (table : Table K V) (entry : K × V) : Table K V :=
  match table.lookup entry.1 with
  | some known => table.insert entry.1 (merge known entry.2)
  | none => table.insert entry.1 entry.2

def absorb (table : Table K V) (entries : List (K × V)) : Table K V :=
  entries.foldl (upsert merge) table

theorem lookup_upsert_self (table : Table K V) (key : K) (value : V) :
    (upsert merge table (key, value)).lookup key =
      (table.lookup key).merge merge (some value) := by
  cases found : table.lookup key <;> simp [upsert, found]

theorem lookup_upsert_of_ne (table : Table K V) {key other : K} (ne : key ≠ other) (value : V) :
    (upsert merge table (key, value)).lookup other = table.lookup other := by
  cases found : table.lookup key <;> simp [upsert, found, Finmap.lookup_insert_of_ne _ ne.symm]

/-- What a table keeps under a key is the total of what arrived for it. -/
theorem lookup_absorb [Std.Associative merge] (table : Table K V) (entries : List (K × V))
    (key : K) :
    (absorb merge table entries).lookup key =
      (table.lookup key).merge merge (total merge (valuesOf key entries)) := by
  induction entries generalizing table with
  | nil => exact Option.merge_none_right.symm
  | cons entry entries ih =>
      obtain ⟨other, value⟩ := entry
      have rest := ih (upsert merge table (other, value))
      by_cases same : other = key
      · subst same
        have regroup := (Option.associative_merge merge).assoc (table.lookup other) (some value)
          (total merge (valuesOf other entries))
        rw [lookup_upsert_self, regroup] at rest
        rw [valuesOf_cons_self, total_cons]
        exact rest
      · rw [lookup_upsert_of_ne merge table same] at rest
        rw [valuesOf_cons_of_ne same]
        exact rest

theorem lookup_absorb_empty [Std.Associative merge] (entries : List (K × V)) (key : K) :
    (absorb merge ∅ entries).lookup key = total merge (valuesOf key entries) := by
  rw [lookup_absorb, Finmap.lookup_empty, Option.merge_none_left]

/-- The entries of the table, each once. -/
def Lists (table : Table K V) (entries : List (K × V)) : Prop :=
  ∀ key, valuesOf key entries = (table.lookup key).toList

/-- Tables of the parts, merged entry by entry in whichever order each is listed,
are the table of the whole. -/
theorem absorb_listings [Std.Associative merge] {parts listings : List (List (K × V))}
    (listed : List.Forall₂ (fun part entries => Lists (absorb merge ∅ part) entries)
      parts listings) :
    absorb merge ∅ listings.flatten = absorb merge ∅ parts.flatten := by
  apply Finmap.ext_lookup
  intro key
  have totals : (listings.map (valuesOf key)).flatten =
      (parts.map (valuesOf key)).flatMap fun values => (total merge values).toList := by
    induction listed with
    | nil => rfl
    | cons lists _ ih =>
        rw [List.map_cons, List.map_cons, List.flatten_cons, List.flatMap_cons, lists key,
          lookup_absorb_empty, ih]
  rw [lookup_absorb_empty, lookup_absorb_empty, valuesOf_flatten, valuesOf_flatten, totals,
    total_of_totals]

theorem absorb_perm {F : Type} [Std.Associative merge] (field : V → F) (op : F → F → F)
    [Std.Associative op] [Std.Commutative op]
    (field_merge : ∀ a b, field (merge a b) = op (field a) (field b))
    {entries entries' : List (K × V)} (perm : entries.Perm entries') (key : K) :
    ((absorb merge ∅ entries).lookup key).map field =
      ((absorb merge ∅ entries').lookup key).map field := by
  rw [lookup_absorb_empty, lookup_absorb_empty, map_total merge field op field_merge,
    map_total merge field op field_merge]
  exact total_perm op ((valuesOf_perm key perm).map field)

end Tables

end Aggregate
