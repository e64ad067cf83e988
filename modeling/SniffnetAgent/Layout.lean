import SniffnetAgent.Pipeline

/-!
# The layout does not depend on the order of the flows

A map is iterated in an order that differs from flush to flush.  What the order
decides is only which record stands where: with as many V4 and as many V6 flows
the datagrams are equal in number and length, and equal byte for byte outside
their records.
-/

set_option autoImplicit false

namespace SniffnetAgent

open WireCodec CheckedArith Ipfix Collector

/-! ## Outside the records -/

/-- The fixed bytes of one set and its length: all of a Template Set, the
header of a data set. -/
def fixedPart (bytes : List Byte) (set : RawSet) : List Byte × Nat :=
  let length := 4 + set.payload.length
  (bytes.take (if set.id = 2 then length else 4), length)

def setRegions (datagram : List Byte) : Nat → List RawSet → List (Nat × List Byte)
  | _, [] => []
  | offset, set :: sets =>
      let part := fixedPart (datagram.drop offset) set
      (offset, part.1) :: setRegions datagram (offset + part.2) sets

/-- Every stretch of a datagram that is not a record, with its offset: the
message header, then for each set its fixed part. -/
def fixedRegions (datagram : List Byte) : Option (List (Nat × List Byte)) :=
  (splitMessage datagram).map fun message =>
    (0, datagram.take 16) :: setRegions datagram 16 message.2

structure SameLayout (left right : List Byte) : Prop where
  length : left.length = right.length
  regions : ∃ regions, fixedRegions left = some regions ∧ fixedRegions right = some regions

section Regions
variable {P : Type} [Protocol P]

def regionsFrom : Nat → List (List Byte × Nat) → List (Nat × List Byte)
  | _, [] => []
  | offset, part :: parts => (offset, part.1) :: regionsFrom (offset + part.2) parts

theorem fixedPart_append {bytes : List Byte} {set : RawSet}
    (length : bytes.length = 4 + set.payload.length) (rest : List Byte) :
    fixedPart (bytes ++ rest) set = fixedPart bytes set := by
  have within : (if set.id = 2 then 4 + set.payload.length else 4) ≤ bytes.length := by
    split <;> omega
  simp only [fixedPart, List.take_append_of_le_length within]

/-- Sets laid end to end are found one after the other. -/
theorem setRegions_parts (parts : List (List Byte × RawSet))
    (lengths : ∀ part ∈ parts, part.1.length = 4 + part.2.payload.length) (front : List Byte) :
    setRegions (front ++ parts.flatMap Prod.fst) front.length (parts.map Prod.snd) =
      regionsFrom front.length (parts.map fun part => fixedPart part.1 part.2) := by
  induction parts generalizing front with
  | nil => rfl
  | cons part parts ih =>
      have length := lengths part (List.mem_cons_self ..)
      have rest := ih (fun other member => lengths other (List.mem_cons_of_mem _ member))
        (front ++ part.1)
      have here : fixedPart ((front ++ (part.1 ++ parts.flatMap Prod.fst)).drop front.length)
          part.2 = fixedPart part.1 part.2 := by
        rw [List.drop_left, fixedPart_append length]
      have extent : (fixedPart part.1 part.2).2 = part.1.length := length.symm
      rw [List.append_assoc, List.length_append] at rest
      rw [List.flatMap_cons, List.map_cons, List.map_cons, setRegions, regionsFrom, here, extent,
        rest]

theorem length_messageParts (due : Bool) (block : Block (Flow P)) (sorted : block.Sorted) :
    ∀ part ∈ messageParts due block, part.1.length = 4 + part.2.payload.length := by
  have data : ∀ (id : U16) (v4 : Bool) (flows : List (Flow P)),
      (∀ flow ∈ flows, isV4 flow = v4) →
      ∀ part ∈ dataPart id (if v4 then 62 else 86) flows,
        part.1.length = 4 + part.2.payload.length := by
    intro id v4 flows family part member
    have records := length_records flows v4 family
    have length := length_dataSetBytes id (if v4 then 62 else 86) flows records
    cases flows with
    | nil => simp [dataPart] at member
    | cons flow flows =>
        simp only [dataPart, List.isEmpty_cons, Bool.false_eq_true, if_false,
          List.mem_singleton] at member
        rw [member, length, records, setCharge, if_neg (by simp)]
  intro part member
  simp only [messageParts, List.mem_append] at member
  rcases member with (template | data4) | data6
  · cases due with
    | false => simp [templatePart] at template
    | true =>
        simp only [templatePart, if_true, List.mem_singleton] at template
        rw [template, length_templateSetBytes, length_templatePayload]
        rfl
  · exact data templateIdV4 true block.v4 sorted.1 part data4
  · exact data templateIdV6 false block.v6 sorted.2 part data6

theorem fixedRegions_messageBytes (nowUnix odid : U32) (due : Bool) (seq : U32)
    (block : Block (Flow P)) (sorted : block.Sorted) (bound : block.charge due < 2 ^ 16) :
    fixedRegions (messageBytes nowUnix odid due seq block) =
      some ((0, headerBytes (block.charge due) nowUnix seq odid) ::
        regionsFrom 16 ((messageParts due block).map fun part => fixedPart part.1 part.2)) := by
  have header : (headerBytes (block.charge due) nowUnix seq odid).length = 16 := by
    simp [headerBytes]
  have regions := setRegions_parts (messageParts due block) (length_messageParts due block sorted)
    (headerBytes (block.charge due) nowUnix seq odid)
  rw [messageParts_bytes, messageParts_sets, header] at regions
  rw [fixedRegions, splitMessage_messageBytes nowUnix odid due seq block sorted bound,
    Option.map_some, messageBytes, List.take_left' header, regions]

/-- The fixed part of a data set is its header, and that says only how many
records there are. -/
theorem fixedPart_dataPart (id : U16) (other : id.toNat ≠ 2) (v4 : Bool)
    {flows flows' : List (Flow P)} (family : ∀ flow ∈ flows, isV4 flow = v4)
    (family' : ∀ flow ∈ flows', isV4 flow = v4) (same : flows.length = flows'.length) :
    (dataPart id (if v4 then 62 else 86) flows).map (fun part => fixedPart part.1 part.2) =
      (dataPart id (if v4 then 62 else 86) flows').map fun part => fixedPart part.1 part.2 := by
  have records := length_records flows v4 family
  have records' := length_records flows' v4 family'
  cases flows with
  | nil =>
      have none : flows' = [] := List.eq_nil_of_length_eq_zero same.symm
      rw [none]
  | cons flow flows =>
      cases flows' with
      | nil => cases same
      | cons flow' flows' =>
          simp only [dataPart, dataSetBytes, List.isEmpty_cons, Bool.false_eq_true, if_false,
            List.map_singleton, fixedPart, if_neg other, records, records', same]
          rfl

theorem sameLayout_messageBytes (nowUnix odid : U32) (due : Bool) (seq : U32)
    {block block' : Block (Flow P)} (sorted : block.Sorted) (sorted' : block'.Sorted)
    (same : block.SameShape block') (bound : block.charge due < 2 ^ 16) :
    SameLayout (messageBytes nowUnix odid due seq block)
      (messageBytes nowUnix odid due seq block') := by
  have charge := same.charge due
  have regions := fixedRegions_messageBytes nowUnix odid due seq block sorted bound
  have regions' := fixedRegions_messageBytes nowUnix odid due seq block' sorted' (charge ▸ bound)
  have data4 := fixedPart_dataPart templateIdV4 (by decide) true sorted.1 sorted'.1 same.1
  have data6 := fixedPart_dataPart templateIdV6 (by decide) false sorted.2 sorted'.2 same.2
  have parts : (messageParts due block).map (fun part => fixedPart part.1 part.2) =
      (messageParts due block').map fun part => fixedPart part.1 part.2 := by
    simp only [if_true, Bool.false_eq_true, if_false] at data4 data6
    rw [messageParts, messageParts, List.map_append, List.map_append, List.map_append,
      List.map_append, data4, data6]
  rw [← charge, ← parts] at regions'
  refine ⟨?_, _, regions, regions'⟩
  rw [length_messageBytes nowUnix odid due seq block sorted,
    length_messageBytes nowUnix odid due seq block' sorted', charge]

/-- Message by message, with the same sequence numbers. -/
theorem sameLayout_messages (limit : Mtu) (nowUnix odid : U32)
    {blocks blocks' : List (Block (Flow P))} (shapes : List.Forall₂ Block.SameShape blocks blocks')
    (due : Bool) (seq : U32) (well : AllWellFormed limit.size.toNat due blocks)
    (well' : AllWellFormed limit.size.toNat due blocks') :
    List.Forall₂ SameLayout (messages nowUnix odid due seq blocks)
      (messages nowUnix odid due seq blocks') := by
  have limitBound : limit.size.toNat < 2 ^ 16 := limit.size.isLt
  induction shapes generalizing due seq with
  | nil => exact .nil
  | cons same _ ih =>
      obtain ⟨⟨sorted, _, charge⟩, tail⟩ := well
      obtain ⟨⟨sorted', _, _⟩, tail'⟩ := well'
      rw [messages, messages, ← same.size]
      exact .cons (sameLayout_messageBytes nowUnix odid due seq sorted sorted' same (by omega))
        (ih false _ tail tail')

end Regions

/-! ## The records as bytes -/

/-- The payload of a data set, cut by the record size of its template. -/
def recordStrings (set : RawSet) : Option (List (List Byte)) :=
  if set.id = 256 then readAll (readBytes 62) set.payload
  else if set.id = 257 then readAll (readBytes 86) set.payload
  else some []

def stringsIn (sets : List RawSet) : Option (List (List Byte)) := do
  let strings ← sets.mapM recordStrings
  return strings.flatten

/-- The record byte strings of a batch, in wire order. -/
def batchStrings (datagrams : List (List Byte)) : Option (List (List Byte)) := do
  let messages ← datagrams.mapM splitMessage
  stringsIn (messages.flatMap Prod.snd)

theorem stringsIn_append {left right : List RawSet} {strings strings' : List (List Byte)}
    (first : stringsIn left = some strings) (second : stringsIn right = some strings') :
    stringsIn (left ++ right) = some (strings ++ strings') := by
  simp only [stringsIn, Option.bind_eq_bind, Option.bind_eq_some_iff, Option.pure_def,
    Option.some.injEq] at first second
  obtain ⟨parts, cut, rfl⟩ := first
  obtain ⟨parts', cut', rfl⟩ := second
  simp [stringsIn, List.mapM_append, cut, cut']

section Records
variable {P : Type} [Protocol P]

theorem stringsIn_dataSets (id : Nat) (v4 : Bool) (isData : id = if v4 then 256 else 257)
    (flows : List (Flow P)) (family : ∀ flow ∈ flows, isV4 flow = v4) :
    stringsIn (dataSets id flows) = some (flows.map recordBytes) := by
  cases flows with
  | nil => rfl
  | cons flow flows =>
      have cut : readAll (readBytes (if v4 then 62 else 86)) ((flow :: flows).flatMap recordBytes) =
          some ((flow :: flows).map recordBytes) := by
        have whole := readAll_complete (readBytes (if v4 then 62 else 86))
          ((flow :: flows).map fun flow => (recordBytes flow, recordBytes flow)) (by
            intro part member
            obtain ⟨other, inFlows, rfl⟩ := List.mem_map.mp member
            have length := length_recordBytes other
            rw [family other inFlows] at length
            exact ⟨Reads.bytes length, recordBytes_ne_nil other⟩)
        rwa [List.flatMap_map, List.map_map] at whole
      have strings : recordStrings ⟨id, (flow :: flows).flatMap recordBytes⟩ =
          some ((flow :: flows).map recordBytes) := by
        cases v4 with
        | true => rw [recordStrings, isData, if_pos rfl, if_pos rfl, ← cut, if_pos rfl]
        | false =>
            rw [recordStrings, isData, if_neg Bool.false_ne_true, if_neg (by simp), if_pos rfl,
              ← cut, if_neg Bool.false_ne_true]
      rw [dataSets, List.isEmpty_cons, if_neg Bool.false_ne_true, stringsIn, List.mapM_cons,
        strings]
      simp

theorem stringsIn_blockSets (due : Bool) (block : Block (Flow P)) (sorted : block.Sorted) :
    stringsIn (blockSets due block) = some (block.flows.map recordBytes) := by
  have template : stringsIn (templateSets due) = some [] := by
    cases due <;> rfl
  have data4 := stringsIn_dataSets 256 true rfl block.v4 sorted.1
  have data6 := stringsIn_dataSets 257 false rfl block.v6 sorted.2
  have whole := stringsIn_append (stringsIn_append template data4) data6
  rwa [List.nil_append, ← List.map_append] at whole

theorem stringsIn_messages (limit : Mtu) (nowUnix odid : U32) (blocks : List (Block (Flow P)))
    (due : Bool) (seq : U32) (well : AllWellFormed limit.size.toNat due blocks) :
    ∃ split, (messages nowUnix odid due seq blocks).mapM splitMessage = some split ∧
      stringsIn (split.flatMap Prod.snd) =
        some ((blocks.flatMap Block.flows).map recordBytes) := by
  have limitBound : limit.size.toNat < 2 ^ 16 := limit.size.isLt
  induction blocks generalizing due seq with
  | nil => exact ⟨[], rfl, rfl⟩
  | cons block blocks ih =>
      obtain ⟨⟨sorted, _, charge⟩, tail⟩ := well
      obtain ⟨rest, splits, strings⟩ := ih false (seq + BitVec.ofNat 32 block.size) tail
      have first := splitMessage_messageBytes nowUnix odid due seq block sorted (by omega)
      refine ⟨(⟨10, block.charge due, nowUnix.toNat, seq.toNat, odid.toNat⟩,
        blockSets due block) :: rest, ?_, ?_⟩
      · rw [messages, List.mapM_cons, first, splits]
        rfl
      · rw [List.flatMap_cons, List.flatMap_cons, List.map_append]
        exact stringsIn_append (stringsIn_blockSets due block sorted) strings

theorem batchStrings_messages (limit : Mtu) (nowUnix odid : U32) (blocks : List (Block (Flow P)))
    (due : Bool) (seq : U32) (well : AllWellFormed limit.size.toNat due blocks) :
    batchStrings (messages nowUnix odid due seq blocks) =
      some ((blocks.flatMap Block.flows).map recordBytes) := by
  obtain ⟨split, splits, strings⟩ := stringsIn_messages limit nowUnix odid blocks due seq well
  rw [batchStrings, splits]
  exact strings

/-- Two lists of flows with the same number of each family: the sequence numbers,
the number of datagrams and the layout of each are the same.  The records of a
batch are those of its flows, so flows in another order are the same records in
another order. -/
theorem layout_of_counts (limit : Mtu) (flows flows' : List (Flow P)) (seqStart : U32)
    (due : Bool) (nowUnix odid : U32) (same4 : (v4Flows flows).length = (v4Flows flows').length)
    (same6 : (v6Flows flows).length = (v6Flows flows').length) :
    ∃ datagrams datagrams' seq strings strings',
      buildDatagrams limit flows seqStart due nowUnix odid = .ok (datagrams, seq) ∧
      buildDatagrams limit flows' seqStart due nowUnix odid = .ok (datagrams', seq) ∧
      List.Forall₂ SameLayout datagrams datagrams' ∧
      batchStrings datagrams = some strings ∧ batchStrings datagrams' = some strings' ∧
      strings.Perm (flows.map recordBytes) ∧ strings'.Perm (flows'.map recordBytes) ∧
      (flows.Perm flows' → strings.Perm strings') := by
  obtain ⟨blocks, packs, run⟩ := buildDatagrams_spec limit flows seqStart due nowUnix odid
  obtain ⟨blocks', packs', run'⟩ := buildDatagrams_spec limit flows' seqStart due nowUnix odid
  obtain ⟨well, order⟩ := packing_of_flows limit packs
  obtain ⟨well', order'⟩ := packing_of_flows limit packs'
  have total : flows.length = flows'.length := by
    rw [← length_wireOrder flows, ← length_wireOrder flows', wireOrder, wireOrder,
      List.length_append, List.length_append, same4, same6]
  rw [← total] at run'
  refine ⟨_, _, _, (blocks.flatMap Block.flows).map recordBytes,
    (blocks'.flatMap Block.flows).map recordBytes, run, run', ?_, ?_, ?_, ?_, ?_, ?_⟩
  · exact sameLayout_messages limit nowUnix odid (packs.sameShape packs' same4 same6) due seqStart
      well well'
  · exact batchStrings_messages limit nowUnix odid blocks due seqStart well
  · exact batchStrings_messages limit nowUnix odid blocks' due seqStart well'
  · rw [order]
    exact (wireOrder_perm flows).map _
  · rw [order']
    exact (wireOrder_perm flows').map _
  · intro perm
    rw [order, order']
    exact ((wireOrder_perm flows).trans (perm.trans (wireOrder_perm flows').symm)).map _

end Records

/-! ## Two orders of one batch -/

def sampleFlowV4 : Flow SampleProtocol :=
  (⟨.v4 ⟨0x0A000001⟩ ⟨0x0A000002⟩, some 50000, some 443, .tcp⟩,
    ⟨1200, 3, none, none, none, 0x0800, some .outgoing, 10, 20⟩)

def sampleFlowV6 : Flow SampleProtocol :=
  (⟨.v6 ⟨1⟩ ⟨1⟩, some 50000, some 53, .udp⟩,
    ⟨80, 1, none, none, some 7, 0x86DD, some .outgoing, 15, 15⟩)

/-- A V6 flow between two V4 flows, against the families the other way round. -/
theorem layout_of_counts_sample :
    ∃ datagrams datagrams' seq strings strings',
      buildDatagrams mtu [sampleFlowV4, sampleFlowV6, sampleFlowV4] 41 true 1700000000 7 =
        .ok (datagrams, seq) ∧
      buildDatagrams mtu [sampleFlowV6, sampleFlowV4, sampleFlowV4] 41 true 1700000000 7 =
        .ok (datagrams', seq) ∧
      List.Forall₂ SameLayout datagrams datagrams' ∧
      batchStrings datagrams = some strings ∧ batchStrings datagrams' = some strings' ∧
      strings.Perm ([sampleFlowV4, sampleFlowV6, sampleFlowV4].map recordBytes) ∧
      strings'.Perm ([sampleFlowV6, sampleFlowV4, sampleFlowV4].map recordBytes) ∧
      ([sampleFlowV4, sampleFlowV6, sampleFlowV4].Perm
        [sampleFlowV6, sampleFlowV4, sampleFlowV4] → strings.Perm strings') :=
  layout_of_counts mtu [sampleFlowV4, sampleFlowV6, sampleFlowV4]
    [sampleFlowV6, sampleFlowV4, sampleFlowV4] 41 true 1700000000 7 rfl rfl

end SniffnetAgent
