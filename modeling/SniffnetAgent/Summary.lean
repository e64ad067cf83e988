import SniffnetAgent.Flow

/-!
# What a drained map says

A drained map summarises the packets recorded since the previous drain, key by
key: `IsSummary history val` is the meaning of one value, field by field, and
`Summarises window map` that of a whole map.  `record` extends the window of
the table by one packet; `drain` hands the window over and opens an empty one.
-/

set_option autoImplicit false

namespace SniffnetAgent

open CheckedArith

/-- The value of a flow whose packets were, in order, `history`. -/
structure IsSummary (history : List FlowVal) (val : FlowVal) : Prop where
  bytes : val.bytes.toNat = min (history.map fun p => p.bytes.toNat).sum (2 ^ 64 - 1)
  packets : val.packets.toNat = min (history.map fun p => p.packets.toNat).sum (2 ^ 64 - 1)
  srcMac : val.srcMac = history.findSome? FlowVal.srcMac
  dstMac : val.dstMac = history.findSome? FlowVal.dstMac
  vlanId : val.vlanId = history.findSome? FlowVal.vlanId
  etherType : history.head?.map FlowVal.etherType = some val.etherType
  direction : history.head?.map FlowVal.direction = some val.direction
  firstSeenMs : (∃ p ∈ history, p.firstSeenMs = val.firstSeenMs) ∧
    ∀ p ∈ history, val.firstSeenMs ≤ p.firstSeenMs
  lastSeenMs : (∃ p ∈ history, p.lastSeenMs = val.lastSeenMs) ∧
    ∀ p ∈ history, p.lastSeenMs ≤ val.lastSeenMs

section Values

theorem IsSummary.ne_nil {history : List FlowVal} {val : FlowVal}
    (summary : IsSummary history val) : history ≠ [] := by
  rintro rfl
  have opened := summary.etherType
  simp at opened

/-- The packet that opens the entry. -/
theorem IsSummary.opened (packet : FlowVal) : IsSummary [packet] packet := by
  have bytes := packet.bytes.isLt
  have packets := packet.packets.isLt
  constructor
  case bytes =>
    rw [List.map_singleton, List.sum_singleton]
    omega
  case packets =>
    rw [List.map_singleton, List.sum_singleton]
    omega
  case firstSeenMs => exact ⟨⟨packet, List.mem_singleton_self _, rfl⟩, by simp⟩
  case lastSeenMs => exact ⟨⟨packet, List.mem_singleton_self _, rfl⟩, by simp⟩
  all_goals simp

/-- A counter keeps the saturated sum. -/
theorem saturated_snoc {total : Nat} {old new : U64}
    (summary : old.toNat = min total (2 ^ 64 - 1)) :
    (saturatingAdd old new).toNat = min (total + new.toNat) (2 ^ 64 - 1) := by
  rw [toNat_saturatingAdd, summary]
  omega

/-- A field learned once is kept. -/
theorem firstKnown_snoc {β : Type} (field : FlowVal → Option β) (history : List FlowVal)
    (packet : FlowVal) {known : Option β} (summary : known = history.findSome? field) :
    (if known.isNone then field packet else known) =
      (history ++ [packet]).findSome? field := by
  rw [List.findSome?_append, ← summary]
  cases known <;> simp

/-- The field of the packet that is ahead of all others, for a strict order. -/
theorem extremum_snoc (ahead : U64 → U64 → Prop) [DecidableRel ahead]
    (irrefl : ∀ a, ¬ ahead a a) (trans : ∀ {a b c}, ahead a b → ahead b c → ahead a c)
    {field : FlowVal → U64} {history : List FlowVal} (packet : FlowVal) {best : U64}
    (summary : (∃ p ∈ history, field p = best) ∧ ∀ p ∈ history, ¬ ahead (field p) best) :
    (∃ p ∈ history ++ [packet],
        field p = if ahead (field packet) best then field packet else best) ∧
      ∀ p ∈ history ++ [packet],
        ¬ ahead (field p) (if ahead (field packet) best then field packet else best) := by
  obtain ⟨⟨leader, member, same⟩, bound⟩ := summary
  simp only [List.mem_append, List.mem_singleton]
  by_cases overtakes : ahead (field packet) best
  · rw [if_pos overtakes]
    refine ⟨⟨packet, Or.inr rfl, rfl⟩, ?_⟩
    rintro p (inside | rfl)
    · exact fun other => bound p inside (trans other overtakes)
    · exact irrefl _
  · rw [if_neg overtakes]
    refine ⟨⟨leader, Or.inl member, same⟩, ?_⟩
    rintro p (inside | rfl)
    · exact bound p inside
    · exact overtakes

theorem minimum_snoc {field : FlowVal → U64} {history : List FlowVal} {packet : FlowVal}
    {low : U64}
    (summary : (∃ p ∈ history, field p = low) ∧ ∀ p ∈ history, low ≤ field p) :
    (∃ p ∈ history ++ [packet],
        field p = if field packet < low then field packet else low) ∧
      ∀ p ∈ history ++ [packet], (if field packet < low then field packet else low) ≤ field p := by
  simp only [← BitVec.not_lt] at summary ⊢
  exact extremum_snoc (· < ·) BitVec.lt_irrefl BitVec.lt_trans packet summary

theorem maximum_snoc {field : FlowVal → U64} {history : List FlowVal} {packet : FlowVal}
    {high : U64}
    (summary : (∃ p ∈ history, field p = high) ∧ ∀ p ∈ history, field p ≤ high) :
    (∃ p ∈ history ++ [packet],
        field p = if field packet > high then field packet else high) ∧
      ∀ p ∈ history ++ [packet],
        field p ≤ if field packet > high then field packet else high := by
  simp only [← BitVec.not_lt] at summary ⊢
  exact extremum_snoc (· > ·) BitVec.lt_irrefl (fun left right => BitVec.lt_trans right left)
    packet summary

/-- One more packet. -/
theorem IsSummary.accumulate {history : List FlowVal} {val : FlowVal}
    (summary : IsSummary history val) (packet : FlowVal) :
    IsSummary (history ++ [packet]) (val.accumulate packet) := by
  obtain ⟨first, others, shape⟩ := List.exists_cons_of_ne_nil summary.ne_nil
  have sum : ∀ field : FlowVal → Nat, ((history ++ [packet]).map field).sum =
      (history.map field).sum + field packet := by
    intro field
    rw [List.map_append, List.sum_append, List.map_singleton, List.sum_singleton]
  constructor
  case bytes =>
    rw [sum]
    exact saturated_snoc summary.bytes
  case packets =>
    rw [sum]
    exact saturated_snoc summary.packets
  case srcMac => exact firstKnown_snoc FlowVal.srcMac history packet summary.srcMac
  case dstMac => exact firstKnown_snoc FlowVal.dstMac history packet summary.dstMac
  case vlanId => exact firstKnown_snoc FlowVal.vlanId history packet summary.vlanId
  case etherType =>
    have kept := summary.etherType
    rw [shape] at kept ⊢
    exact kept
  case direction =>
    have kept := summary.direction
    rw [shape] at kept ⊢
    exact kept
  case firstSeenMs => exact minimum_snoc summary.firstSeenMs
  case lastSeenMs => exact maximum_snoc summary.lastSeenMs

end Values

/-! ## Windows -/

section Windows
variable {P : Type}

inductive TableOp (P : Type) where
  | record (key : FlowKey P) (packet : FlowVal)
  | drain

/-- The record calls before each drain, since the drain before it; `current` are
those of the window that is still open. -/
def windows (current : List (Flow P)) : List (TableOp P) → List (List (Flow P))
  | [] => []
  | .record key packet :: ops => windows (current ++ [(key, packet)]) ops
  | .drain :: ops => current :: windows [] ops

variable [DecidableEq P]

def packetsOf (key : FlowKey P) (window : List (Flow P)) : List FlowVal :=
  (window.filter fun flow => flow.1 = key).map Prod.snd

/-- The maps returned by the drains, in order. -/
def FlowTable.drained (self : FlowTable P) : List (TableOp P) → List (FlowMap P)
  | [] => []
  | .record key packet :: ops => (self.record key packet).drained ops
  | .drain :: ops => self.drain.1 :: self.drain.2.drained ops

/-- The keys of the map are the keys of the window, and every value is the
summary of the packets recorded under its key. -/
def Summarises (window : List (Flow P)) (map : FlowMap P) : Prop :=
  ∀ key, (key ∈ map ↔ key ∈ window.map Prod.fst) ∧
    ∀ val, map.lookup key = some val → IsSummary (packetsOf key window) val

theorem summarises_new : Summarises [] (FlowTable.new (P := P)).inner := by
  intro key
  refine ⟨⟨fun member => absurd member Finmap.notMem_empty, fun member => by simp at member⟩, ?_⟩
  intro val found
  rw [FlowTable.new, Finmap.lookup_empty] at found
  cases found

theorem packetsOf_snoc_self (key : FlowKey P) (window : List (Flow P)) (packet : FlowVal) :
    packetsOf key (window ++ [(key, packet)]) = packetsOf key window ++ [packet] := by
  simp [packetsOf]

theorem packetsOf_snoc_of_ne {key other : FlowKey P} (ne : other ≠ key)
    (window : List (Flow P)) (packet : FlowVal) :
    packetsOf other (window ++ [(key, packet)]) = packetsOf other window := by
  simp [packetsOf, ne.symm]

theorem packetsOf_eq_nil {key : FlowKey P} {window : List (Flow P)}
    (absent : key ∉ window.map Prod.fst) : packetsOf key window = [] := by
  rw [packetsOf, filter_key_eq_nil absent, List.map_nil]

theorem mem_record (table : FlowTable P) (key other : FlowKey P) (packet : FlowVal) :
    other ∈ (table.record key packet).inner ↔ other = key ∨ other ∈ table.inner := by
  unfold FlowTable.record
  cases table.inner.lookup key with
  | none => exact Finmap.mem_insert
  | some val => exact Finmap.mem_insert

/-- One call extends the window by one packet. -/
theorem Summarises.record {window : List (Flow P)} {table : FlowTable P}
    (summarises : Summarises window table.inner) (key : FlowKey P) (packet : FlowVal) :
    Summarises (window ++ [(key, packet)]) (table.record key packet).inner := by
  intro other
  obtain ⟨keys, values⟩ := summarises other
  constructor
  · rw [mem_record, keys, List.map_append, List.mem_append, List.map_singleton,
      List.mem_singleton, or_comm]
  · intro val found
    by_cases same : other = key
    · subst same
      rw [packetsOf_snoc_self]
      rw [FlowTable.lookup_record_self] at found
      cases known : table.inner.lookup other with
      | none =>
          have absent : other ∉ window.map Prod.fst := by
            rw [← keys, ← Finmap.lookup_eq_none]
            exact known
          rw [known] at found
          cases Option.some.inj found
          rw [packetsOf_eq_nil absent]
          exact IsSummary.opened packet
      | some old =>
          rw [known] at found
          cases Option.some.inj found
          exact (values old known).accumulate packet
    · rw [packetsOf_snoc_of_ne same]
      rw [FlowTable.lookup_record_of_ne table packet same] at found
      exact values val found

theorem summarises_drained (ops : List (TableOp P)) (current : List (Flow P))
    (table : FlowTable P) (summarises : Summarises current table.inner) :
    List.Forall₂ Summarises (windows current ops) (table.drained ops) := by
  induction ops generalizing current table with
  | nil => exact .nil
  | cons op ops ih =>
      cases op with
      | record key packet => exact ih _ _ (summarises.record key packet)
      | drain => exact .cons summarises (ih [] FlowTable.new summarises_new)

/-- Every map drained in a run from a new table summarises its own window. -/
theorem drained_summarise_windows (ops : List (TableOp P)) :
    List.Forall₂ Summarises (windows [] ops) ((FlowTable.new (P := P)).drained ops) :=
  summarises_drained ops [] FlowTable.new summarises_new

end Windows

end SniffnetAgent
