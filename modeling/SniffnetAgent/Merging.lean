import SniffnetAgent.Summary
import SniffnetAgent.Lib.Aggregate

/-!
# Where the window boundaries fall

The clock decides after which packets the table is drained.  Merging the drained
maps again, value by value, gives the map of a table that was drained once: the
closure of `record` is associative on values that are aggregates already.  What
does not depend on the order of the packets either is `FlowVal.totals`.
-/

set_option autoImplicit false

namespace SniffnetAgent

open CheckedArith Aggregate

/-! ## Merging values -/

theorem toNat_minimum (a b : U64) : (if b < a then b else a).toNat = min a.toNat b.toNat := by
  by_cases less : b < a
  · have order : b.toNat < a.toNat := BitVec.lt_def.mp less
    rw [if_pos less]
    omega
  · have order : ¬ b.toNat < a.toNat := fun other => less (BitVec.lt_def.mpr other)
    rw [if_neg less]
    omega

theorem toNat_maximum (a b : U64) : (if b > a then b else a).toNat = max a.toNat b.toNat := by
  by_cases more : b > a
  · have order : a.toNat < b.toNat := BitVec.lt_def.mp more
    rw [if_pos more]
    omega
  · have order : ¬ a.toNat < b.toNat := fun other => more (BitVec.lt_def.mpr other)
    rw [if_neg more]
    omega

theorem minimum_assoc (a b c : U64) :
    (if c < (if b < a then b else a) then c else if b < a then b else a) =
      if (if c < b then c else b) < a then (if c < b then c else b) else a := by
  apply BitVec.eq_of_toNat_eq
  rw [toNat_minimum, toNat_minimum, toNat_minimum, toNat_minimum, Nat.min_assoc]

theorem maximum_assoc (a b c : U64) :
    (if c > (if b > a then b else a) then c else if b > a then b else a) =
      if (if c > b then c else b) > a then (if c > b then c else b) else a := by
  apply BitVec.eq_of_toNat_eq
  rw [toNat_maximum, toNat_maximum, toNat_maximum, toNat_maximum, Nat.max_assoc]

theorem firstKnown_assoc {β : Type} (a b c : Option β) :
    (if (if a.isNone then b else a).isNone then c else if a.isNone then b else a) =
      if a.isNone then if b.isNone then c else b else a := by
  cases a <;> rfl

instance accumulate_associative : Std.Associative FlowVal.accumulate where
  assoc a b c := by
    simp only [FlowVal.accumulate, FlowVal.mk.injEq, true_and]
    exact ⟨saturatingAdd_associative.assoc .., saturatingAdd_associative.assoc ..,
      firstKnown_assoc .., firstKnown_assoc .., firstKnown_assoc .., minimum_assoc ..,
      maximum_assoc ..⟩

/-- What a value says of its packets whatever their order. -/
structure Totals where
  bytes : U64
  packets : U64
  hasSrcMac : Bool
  hasDstMac : Bool
  hasVlanId : Bool
  firstSeenMs : U64
  lastSeenMs : U64
  deriving DecidableEq, Repr

def FlowVal.totals (val : FlowVal) : Totals where
  bytes := val.bytes
  packets := val.packets
  hasSrcMac := val.srcMac.isSome
  hasDstMac := val.dstMac.isSome
  hasVlanId := val.vlanId.isSome
  firstSeenMs := val.firstSeenMs
  lastSeenMs := val.lastSeenMs

def Totals.merge (a b : Totals) : Totals where
  bytes := saturatingAdd a.bytes b.bytes
  packets := saturatingAdd a.packets b.packets
  hasSrcMac := a.hasSrcMac || b.hasSrcMac
  hasDstMac := a.hasDstMac || b.hasDstMac
  hasVlanId := a.hasVlanId || b.hasVlanId
  firstSeenMs := if b.firstSeenMs < a.firstSeenMs then b.firstSeenMs else a.firstSeenMs
  lastSeenMs := if b.lastSeenMs > a.lastSeenMs then b.lastSeenMs else a.lastSeenMs

theorem isSome_firstKnown {β : Type} (a b : Option β) :
    (if a.isNone then b else a).isSome = (a.isSome || b.isSome) := by
  cases a <;> rfl

theorem totals_accumulate (val packet : FlowVal) :
    (val.accumulate packet).totals = val.totals.merge packet.totals := by
  simp only [FlowVal.totals, FlowVal.accumulate, isSome_firstKnown]
  rfl

instance totals_associative : Std.Associative Totals.merge where
  assoc a b c := by
    simp only [Totals.merge, Totals.mk.injEq]
    exact ⟨saturatingAdd_associative.assoc .., saturatingAdd_associative.assoc ..,
      Bool.or_assoc .., Bool.or_assoc .., Bool.or_assoc .., minimum_assoc .., maximum_assoc ..⟩

instance totals_commutative : Std.Commutative Totals.merge where
  comm a b := by
    simp only [Totals.merge, Totals.mk.injEq]
    refine ⟨saturatingAdd_commutative.comm .., saturatingAdd_commutative.comm ..,
      Bool.or_comm .., Bool.or_comm .., Bool.or_comm .., ?_, ?_⟩
    · apply BitVec.eq_of_toNat_eq
      rw [toNat_minimum, toNat_minimum, Nat.min_comm]
    · apply BitVec.eq_of_toNat_eq
      rw [toNat_maximum, toNat_maximum, Nat.max_comm]

/-! ## Merging maps -/

section Maps
variable {P : Type} [DecidableEq P]

def FlowTable.recordAll (self : FlowTable P) (flows : List (Flow P)) : FlowTable P :=
  flows.foldl (fun table flow => table.record flow.1 flow.2) self

/-- `merged` results from feeding the values of the maps back through `record`, one
map after the other, each in one of its orders. -/
def Merges (maps : List (FlowMap P)) (merged : FlowMap P) : Prop :=
  ∃ entries, List.Forall₂ FlowMap.Enumerates maps entries ∧
    merged = (FlowTable.new.recordAll entries.flatten).inner

theorem inner_record (table : FlowTable P) (key : FlowKey P) (packet : FlowVal) :
    (table.record key packet).inner = upsert FlowVal.accumulate table.inner (key, packet) := by
  unfold FlowTable.record upsert
  cases table.inner.lookup key <;> rfl

theorem inner_recordAll (flows : List (Flow P)) (table : FlowTable P) :
    (table.recordAll flows).inner = absorb FlowVal.accumulate table.inner flows := by
  induction flows generalizing table with
  | nil => rfl
  | cons flow flows ih =>
      have rest := ih (table.record flow.1 flow.2)
      rw [inner_record] at rest
      exact rest

theorem summarises_absorb (calls : List (Flow P)) :
    Summarises calls (absorb FlowVal.accumulate ∅ calls) := by
  induction calls using List.reverseRecOn with
  | nil => exact summarises_new
  | append_singleton calls call ih =>
      let table : FlowTable P := ⟨absorb FlowVal.accumulate ∅ calls⟩
      have before : Summarises calls table.inner := ih
      have next := before.record call.1 call.2
      rw [inner_record] at next
      rw [absorb, List.foldl_append]
      exact next

theorem FlowMap.Enumerates.lists {map : FlowMap P} {flows : List (Flow P)}
    (enumerates : FlowMap.Enumerates map flows) : Lists map flows := by
  intro key
  rw [valuesOf, enumerates.filter_key key]
  cases map.lookup key <;> rfl

omit [DecidableEq P] in
theorem exists_enumerations (maps : List (FlowMap P)) :
    ∃ entries : List (List (Flow P)), List.Forall₂ FlowMap.Enumerates maps entries := by
  induction maps with
  | nil => exact ⟨[], .nil⟩
  | cons map maps ih =>
      obtain ⟨flows, enumerates⟩ := FlowMap.exists_enumeration map
      obtain ⟨rest, others⟩ := ih
      exact ⟨flows :: rest, .cons enumerates others⟩

/-- Maps of the parts of a sequence of record calls merge into the map of all of it. -/
theorem merges_parts (parts : List (List (Flow P))) (merged : FlowMap P) :
    Merges (parts.map (absorb FlowVal.accumulate ∅)) merged ↔
      merged = absorb FlowVal.accumulate ∅ parts.flatten := by
  have whole : ∀ entries : List (List (Flow P)),
      List.Forall₂ FlowMap.Enumerates (parts.map (absorb FlowVal.accumulate ∅)) entries →
      (FlowTable.new.recordAll entries.flatten).inner =
        absorb FlowVal.accumulate ∅ parts.flatten := by
    intro entries enumerates
    rw [List.forall₂_map_left_iff] at enumerates
    rw [inner_recordAll]
    exact absorb_listings FlowVal.accumulate (enumerates.imp fun _ _ listed => listed.lists)
  constructor
  · rintro ⟨entries, enumerates, rfl⟩
    exact whole entries enumerates
  · rintro rfl
    obtain ⟨entries, enumerates⟩ :=
      exists_enumerations (parts.map (absorb (K := FlowKey P) FlowVal.accumulate ∅))
    exact ⟨entries, enumerates, (whole entries enumerates).symm⟩

end Maps

/-! ## Placements of the drains -/

section Placements
variable {P : Type}

/-- The record calls of a run, wherever its drains fall. -/
def recordCalls : List (TableOp P) → List (Flow P)
  | [] => []
  | .record key packet :: ops => (key, packet) :: recordCalls ops
  | .drain :: ops => recordCalls ops

/-- The same calls with no drain between them. -/
def undrained (calls : List (Flow P)) : List (TableOp P) :=
  calls.map fun flow => .record flow.1 flow.2

theorem windows_flatten (ops : List (TableOp P)) (current : List (Flow P)) :
    (windows current (ops ++ [.drain])).flatten = current ++ recordCalls ops := by
  induction ops generalizing current with
  | nil => rfl
  | cons op ops ih =>
      cases op with
      | record key packet =>
          have rest := ih (current ++ [(key, packet)])
          rw [List.append_assoc] at rest
          exact rest
      | drain =>
          have rest := ih []
          rw [List.nil_append] at rest
          rw [List.cons_append, windows, List.flatten_cons, rest, recordCalls]

theorem windows_undrained (calls current : List (Flow P)) :
    windows current (undrained calls ++ [.drain]) = [current ++ calls] := by
  induction calls generalizing current with
  | nil => exact congrArg (fun window => [window]) (List.append_nil current).symm
  | cons call calls ih =>
      have rest := ih (current ++ [call])
      rw [List.append_assoc] at rest
      exact rest

variable [DecidableEq P]

/-- Each drained map holds the calls of its window and nothing else. -/
theorem drained_eq_windows (ops : List (TableOp P)) (current : List (Flow P))
    (table : FlowTable P) (holds : table.inner = absorb FlowVal.accumulate ∅ current) :
    table.drained ops = (windows current ops).map (absorb FlowVal.accumulate ∅) := by
  induction ops generalizing current table with
  | nil => rfl
  | cons op ops ih =>
      cases op with
      | record key packet =>
          have next : (table.record key packet).inner =
              absorb FlowVal.accumulate ∅ (current ++ [(key, packet)]) := by
            rw [inner_record, holds, absorb, absorb, List.foldl_append]
            rfl
          exact ih (current ++ [(key, packet)]) (table.record key packet) next
      | drain =>
          have rest := ih [] FlowTable.new rfl
          rw [FlowTable.drained, windows, List.map_cons, ← holds]
          exact congrArg (table.inner :: ·) rest

/-- A run from a new table up to its final drain: the one map its drained maps
merge into, in whichever order each of them is iterated. -/
def MergesTo (ops : List (TableOp P)) (merged : FlowMap P) : Prop :=
  ∀ map, Merges (FlowTable.new.drained (ops ++ [.drain])) map ↔ map = merged

theorem mergesTo_calls (ops : List (TableOp P)) :
    MergesTo ops (absorb FlowVal.accumulate ∅ (recordCalls ops)) := by
  intro map
  have drained := drained_eq_windows (ops ++ [.drain]) [] (FlowTable.new (P := P)) rfl
  rw [drained, merges_parts, windows_flatten, List.nil_append]

theorem drained_undrained (calls : List (Flow P)) :
    FlowTable.new.drained (undrained calls ++ [.drain]) =
      [absorb FlowVal.accumulate ∅ calls] := by
  have drained := drained_eq_windows (undrained calls ++ [.drain]) [] (FlowTable.new (P := P)) rfl
  rw [drained, windows_undrained]
  rfl

/-- Two runs with the same record calls merge into one map, the summary of these calls
and that of a single drain; if the calls are only the same up to their order, the
totals of every key are the same. -/
theorem merged_of_calls (ops ops' : List (TableOp P)) :
    (recordCalls ops = recordCalls ops' →
      ∃ merged, Summarises (recordCalls ops) merged ∧ MergesTo ops merged ∧ MergesTo ops' merged ∧
        FlowTable.new.drained (undrained (recordCalls ops) ++ [.drain]) = [merged]) ∧
    ((recordCalls ops).Perm (recordCalls ops') →
      ∃ merged merged', Summarises (recordCalls ops) merged ∧
        Summarises (recordCalls ops') merged' ∧ MergesTo ops merged ∧ MergesTo ops' merged' ∧
        ∀ key, (merged.lookup key).map FlowVal.totals =
          (merged'.lookup key).map FlowVal.totals) := by
  constructor
  · intro same
    refine ⟨_, summarises_absorb _, mergesTo_calls ops, ?_, drained_undrained (recordCalls ops)⟩
    rw [same]
    exact mergesTo_calls ops'
  · intro perm
    refine ⟨_, _, summarises_absorb _, summarises_absorb _, mergesTo_calls ops,
      mergesTo_calls ops', ?_⟩
    exact absorb_perm FlowVal.accumulate FlowVal.totals Totals.merge totals_accumulate perm

end Placements

def sharedKey : FlowKey SampleProtocol :=
  ⟨.v4 ⟨0x0A000001⟩ ⟨0x0A000002⟩, some 50000, some 443, .tcp⟩

def taggedPacket : FlowVal := ⟨60, 1, none, none, some 7, 0x0800, none, 1000, 1000⟩

def largePacket : FlowVal := ⟨1500, 1, some 0x02AABBCCDDEE, none, none, 0x0800, none, 990, 990⟩

/-- A drain between two packets of one flow, and the packets in the other order. -/
theorem merged_of_calls_sample :
    (∃ merged, Summarises [(sharedKey, taggedPacket), (sharedKey, largePacket)] merged ∧
      MergesTo [.record sharedKey taggedPacket, .drain, .record sharedKey largePacket] merged ∧
      MergesTo [.record sharedKey taggedPacket, .record sharedKey largePacket] merged ∧
      FlowTable.new.drained (undrained [(sharedKey, taggedPacket), (sharedKey, largePacket)] ++
        [.drain]) = [merged]) ∧
    ∃ merged merged', Summarises [(sharedKey, taggedPacket), (sharedKey, largePacket)] merged ∧
      Summarises [(sharedKey, largePacket), (sharedKey, taggedPacket)] merged' ∧
      MergesTo [.record sharedKey taggedPacket, .drain, .record sharedKey largePacket] merged ∧
      MergesTo [.record sharedKey largePacket, .record sharedKey taggedPacket] merged' ∧
      ∀ key, (merged.lookup key).map FlowVal.totals = (merged'.lookup key).map FlowVal.totals :=
  ⟨(merged_of_calls [.record sharedKey taggedPacket, .drain, .record sharedKey largePacket]
      [.record sharedKey taggedPacket, .record sharedKey largePacket]).1 rfl,
    (merged_of_calls [.record sharedKey taggedPacket, .drain, .record sharedKey largePacket]
      [.record sharedKey largePacket, .record sharedKey taggedPacket]).2 (.swap ..)⟩

end SniffnetAgent
