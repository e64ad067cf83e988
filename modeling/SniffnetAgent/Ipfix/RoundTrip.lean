import SniffnetAgent.Ipfix.Decoding

/-!
# Template-driven round trip

The collector starts from the templates the agent sends, or from nothing when
the Template Set is in the first datagram, and recovers every flow: the V4 and
ARP flows in input order, then the V6 flows, field by field.
-/

set_option autoImplicit false

namespace SniffnetAgent.Ipfix

open WireCodec CheckedArith Collector

section Decode
variable {P : Type} [Protocol P]

theorem readAll_templatePayload :
    readAll readTemplate templatePayload =
      some [(256, fieldSpecs v4Fields), (257, fieldSpecs v6Fields)] := by decide +kernel

theorem processSet_template (store : TemplateStore) :
    processSet store ⟨2, templatePayload⟩ = some (agentTemplates ++ store, []) := by
  simp only [processSet, if_true, readAll_templatePayload]
  rfl

theorem recordBytes_ne_nil (flow : Flow P) : recordBytes flow ≠ [] := by
  intro empty
  have length := congrArg List.length empty
  rw [length_recordBytes] at length
  split at length <;> cases length

/-- The data set of one family, cut by its stored template. -/
theorem processSets_data (store : TemplateStore) (id : Nat) (large : 256 ≤ id)
    (template : List FieldSpec) (known : store.lookup id = some template)
    (flows : List (Flow P))
    (each : ∀ flow ∈ flows,
      Reads (readRecord id template) (recordBytes flow) (collectorRecord flow)) :
    processSets store (dataSets id flows) = some (store, flows.map collectorRecord) := by
  cases flows with
  | nil => rfl
  | cons flow flows =>
      have cut : readAll (readRecord id template) ((flow :: flows).flatMap recordBytes) =
          some ((flow :: flows).map collectorRecord) := by
        have whole := readAll_complete (readRecord id template)
          ((flow :: flows).map fun flow => (recordBytes flow, collectorRecord flow)) (by
            intro part member
            obtain ⟨other, inFlows, rfl⟩ := List.mem_map.mp member
            exact ⟨each other inFlows, recordBytes_ne_nil other⟩)
        rwa [List.flatMap_map, List.map_map] at whole
      have notTemplate : id ≠ 2 := by omega
      simp only [dataSets, List.isEmpty_cons, Bool.false_eq_true, if_false, processSets,
        processSet, if_neg notTemplate, if_pos large, known, cut, Option.bind_eq_bind,
        Option.bind_some]
      simp

/-- The store after a message. -/
def storeAfter (due : Bool) (store : TemplateStore) : TemplateStore :=
  if due then agentTemplates ++ store else store

theorem knows_storeAfter (due : Bool) : Knows (storeAfter due agentTemplates) := by
  cases due with
  | false => exact knows_agentTemplates []
  | true => exact knows_agentTemplates agentTemplates

theorem decodeMessage_messageBytes (store : TemplateStore) (nowUnix odid : U32) (due : Bool)
    (seq : U32) (block : Block (Flow P)) (sorted : block.Sorted)
    (bound : block.charge due < 2 ^ 16) (knows : Knows (storeAfter due store)) :
    decodeMessage store (messageBytes nowUnix odid due seq block) =
      some (storeAfter due store, block.flows.map collectorRecord) := by
  have template : processSets store (templateSets due) = some (storeAfter due store, []) := by
    cases due with
    | false => rfl
    | true =>
        simp only [templateSets, if_true, processSets, processSet_template, storeAfter]
        rfl
  have data4 := processSets_data (storeAfter due store) 256 (by omega) _ knows.1 block.v4
    fun flow member => reads_record_v4 flow (sorted.1 flow member)
  have data6 := processSets_data (storeAfter due store) 257 (by omega) _ knows.2 block.v6
    fun flow member => reads_record_v6 flow (sorted.2 flow member)
  have sets := processSets_append _ _ _ _ _ _ _
    (processSets_append _ _ _ _ _ _ _ template data4) data6
  rw [decodeMessage, splitMessage_messageBytes nowUnix odid due seq block sorted bound]
  simp only [Option.bind_eq_bind, Option.bind_some, blockSets, sets, Block.flows, List.map_append,
    List.nil_append]

/-- A collector that has the templates counts the records of the blocks. -/
theorem recordCounts_messages (limit : Nat) (limitBound : limit < 2 ^ 16) (nowUnix odid : U32)
    (blocks : List (Block (Flow P))) (due : Bool) (seq : U32)
    (well : AllWellFormed limit due blocks) :
    (messages nowUnix odid due seq blocks).map (recordCount agentTemplates) =
      blocks.map Block.size := by
  induction blocks generalizing due seq with
  | nil => rfl
  | cons block blocks ih =>
      obtain ⟨⟨sorted, _, charge⟩, tail⟩ := well
      have decoded := decodeMessage_messageBytes agentTemplates nowUnix odid due seq block sorted
        (by omega) (knows_storeAfter due)
      have head : recordCount agentTemplates (messageBytes nowUnix odid due seq block) =
          block.size := by
        rw [recordCount, decoded, Option.elim_some, List.length_map, Block.flows,
          List.length_append, Block.size]
      rw [messages, List.map_cons, head, ih _ _ tail, List.map_cons]

/-- How many data records a run of datagrams holds. -/
def recordsIn (datagrams : List (List Byte)) : Nat :=
  (datagrams.map (recordCount agentTemplates)).sum

theorem recordsIn_messages (limit : Mtu) {nowUnix odid : U32} {due : Bool} {seq : U32}
    {blocks : List (Block (Flow P))} (well : AllWellFormed limit.size.toNat due blocks) :
    recordsIn (messages nowUnix odid due seq blocks) = (blocks.map Block.size).sum := by
  rw [recordsIn, recordCounts_messages limit.size.toNat limit.size.isLt nowUnix odid blocks due
    seq well]

theorem recordsIn_take (limit : Mtu) {nowUnix odid : U32} {due : Bool} {seq : U32}
    {blocks : List (Block (Flow P))} (well : AllWellFormed limit.size.toNat due blocks) (k : Nat) :
    recordsIn ((messages nowUnix odid due seq blocks).take k) =
      ((blocks.take k).flatMap Block.flows).length := by
  have counts := recordCounts_messages limit.size.toNat limit.size.isLt nowUnix odid blocks due
    seq well
  rw [recordsIn, List.map_take, counts, ← List.map_take, List.length_flatMap]
  congr 1
  apply List.map_congr_left
  intro block _
  rw [Block.size, Block.flows, List.length_append]

/-- Message after message, the records come out in wire order. -/
theorem decodeStream_messages (limit : Nat) (limitBound : limit < 2 ^ 16) (nowUnix odid : U32)
    (blocks : List (Block (Flow P))) (due : Bool) (seq : U32) (store : TemplateStore)
    (well : AllWellFormed limit due blocks) (knows : Knows (storeAfter due store)) :
    ∃ final, decodeStream store (messages nowUnix odid due seq blocks) =
        some (final, (blocks.flatMap Block.flows).map collectorRecord) ∧
      (due = false → final = store) := by
  induction blocks generalizing due seq store with
  | nil => exact ⟨store, rfl, fun _ => rfl⟩
  | cons block blocks ih =>
      obtain ⟨⟨sorted, _, charge⟩, tail⟩ := well
      have head := decodeMessage_messageBytes store nowUnix odid due seq block sorted (by omega)
        knows
      obtain ⟨final, rest, same⟩ := ih false (seq + BitVec.ofNat 32 block.size)
        (storeAfter due store) tail knows
      refine ⟨final, ?_, ?_⟩
      · simp only [messages, decodeStream, head, rest, Option.bind_eq_bind, Option.bind_some,
          List.flatMap_cons, List.map_append]
        rfl
      · intro notDue
        rw [same rfl, notDue]
        rfl

theorem templateSet_decodes :
    (readAll readSet (writeTemplateSet [])) >>= processSets [] = some (agentTemplates, []) := by
  have tiled := readAll_complete readSet [(templateSetBytes, ⟨2, templatePayload⟩)] (by
      intro part member
      rw [List.mem_singleton] at member
      subst member
      exact ⟨reads_templateSet, by simp [templateSetBytes]; decide⟩)
  simp only [List.flatMap_cons, List.flatMap_nil, List.append_nil, List.map_cons,
    List.map_nil] at tiled
  simp only [writeTemplateSet_eq, List.nil_append, tiled, Option.bind_eq_bind, Option.bind_some,
    processSets, processSet_template]
  rfl

/-- The datagrams of one call, decoded from a cold collector when they carry
the Template Set, and from the store that Template Set leaves otherwise; in the
second case each datagram also decodes alone, without changing the store. -/
theorem decode_buildDatagrams (limit : Mtu) (flows : List (Flow P))
    (seqStart nowUnix odid : U32) :
    (∃ datagrams seq store,
      buildDatagrams limit flows seqStart true nowUnix odid = .ok (datagrams, seq) ∧
      decodeStream [] datagrams = some (store, (wireOrder flows).map collectorRecord)) ∧
    (∃ datagrams seq store,
      buildDatagrams limit flows seqStart false nowUnix odid = .ok (datagrams, seq) ∧
      (readAll readSet (writeTemplateSet [])) >>= processSets [] = some (store, []) ∧
      decodeStream store datagrams = some (store, (wireOrder flows).map collectorRecord) ∧
      ∀ datagram ∈ datagrams, ∃ records,
        decodeMessage store datagram = some (store, records)) := by
  have limitBound : limit.size.toNat < 2 ^ 16 := limit.size.isLt
  constructor
  · obtain ⟨blocks, packs, run⟩ := buildDatagrams_spec limit flows seqStart true nowUnix odid
    obtain ⟨well, order⟩ := packing_of_flows limit packs
    obtain ⟨store, decoded, _⟩ := decodeStream_messages limit.size.toNat limitBound nowUnix odid
      blocks true seqStart [] well (knows_agentTemplates [])
    rw [order] at decoded
    exact ⟨_, _, store, run, decoded⟩
  · obtain ⟨blocks, packs, run⟩ := buildDatagrams_spec limit flows seqStart false nowUnix odid
    obtain ⟨well, order⟩ := packing_of_flows limit packs
    have knows : Knows agentTemplates := knows_agentTemplates []
    obtain ⟨store, decoded, same⟩ := decodeStream_messages limit.size.toNat limitBound nowUnix
      odid blocks false seqStart agentTemplates well knows
    rw [order, same rfl] at decoded
    refine ⟨_, _, agentTemplates, run, templateSet_decodes, decoded, ?_⟩
    intro datagram member
    obtain ⟨own, start, block, rfl, ⟨sorted, _, charge⟩, never⟩ := mem_messages well member
    have without : own = false := Bool.eq_false_iff.mpr fun is => Bool.false_ne_true (never is)
    subst without
    exact ⟨_, decodeMessage_messageBytes agentTemplates nowUnix odid false start block sorted
      (by omega) knows⟩

end Decode

end SniffnetAgent.Ipfix
