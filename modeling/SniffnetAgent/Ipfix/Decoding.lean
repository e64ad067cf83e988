import SniffnetAgent.Ipfix.Collector
import SniffnetAgent.Ipfix.Datagrams

/-!
# What the collector makes of one message

`collectorRecord` states what a collector should learn from a flow: the element
numbers of its template with the value of each field, absent fields as zero.
Records, sets, headers and whole messages are each read back by the reference
collector, driven by nothing but the templates it has stored.
-/

set_option autoImplicit false

namespace SniffnetAgent.Ipfix

open WireCodec CheckedArith Collector

section Records
variable {P : Type} [Protocol P]

def directionValue : Option FlowDirection → Nat
  | some .incoming => 0
  | some .outgoing => 1
  | none => 255

def commonFields (key : FlowKey P) (val : FlowVal) : List (Nat × Nat) :=
  [(7, (key.srcPort.getD 0).toNat),
   (11, (key.dstPort.getD 0).toNat),
   (4, ((Protocol.number key.protocol).getD 0).toNat),
   (56, (val.srcMac.getD 0).toNat),
   (80, (val.dstMac.getD 0).toNat),
   (243, (val.vlanId.getD 0).toNat),
   (256, val.etherType.toNat),
   (61, directionValue val.direction),
   (352, val.bytes.toNat),
   (2, val.packets.toNat),
   (152, val.firstSeenMs.toNat),
   (153, val.lastSeenMs.toNat)]

/-- Template 256 carries IPv4 flows and ARP, template 257 IPv6 flows. -/
def collectorRecord (flow : Flow P) : DataRecord :=
  match flow.1.addrs with
  | .v4 src dst =>
      ⟨256, (8, src.bits.toNat) :: (12, dst.bits.toNat) :: commonFields flow.1 flow.2⟩
  | .v6 src dst =>
      ⟨257, (27, src.bits.toNat) :: (28, dst.bits.toNat) :: commonFields flow.1 flow.2⟩

def fieldSpecs (table : FieldTable) : List FieldSpec :=
  table.toList.map fun field => ⟨field.1.toNat, field.2.toNat⟩

def agentTemplates : TemplateStore :=
  [(257, fieldSpecs v6Fields), (256, fieldSpecs v4Fields)]

/-- The store holds both templates of the agent. -/
def Knows (store : TemplateStore) : Prop :=
  store.lookup 256 = some (fieldSpecs v4Fields) ∧ store.lookup 257 = some (fieldSpecs v6Fields)

theorem knows_agentTemplates (store : TemplateStore) : Knows (agentTemplates ++ store) :=
  ⟨rfl, rfl⟩

theorem reads_field {w : Nat} (word : BitVec w) (element width : Nat) (size : w = 8 * width) :
    Reads (readField ⟨element, width⟩) (toBeBytes word) (element, word.toNat) :=
  (Reads.word word size).map fun value => (element, value)

def directionByte : Option FlowDirection → U8
  | some .incoming => 0x00
  | some .outgoing => 0x01
  | none => 0xFF

theorem directionByte_toNat (direction : Option FlowDirection) :
    (directionByte direction).toNat = directionValue direction := by
  rcases direction with _ | _ | _ <;> rfl

/-- The fields after the addresses, each with its bytes. -/
def commonParts (key : FlowKey P) (val : FlowVal) : List (List Byte × (Nat × Nat)) :=
  [(toBeBytes (key.srcPort.getD 0), (7, (key.srcPort.getD 0).toNat)),
   (toBeBytes (key.dstPort.getD 0), (11, (key.dstPort.getD 0).toNat)),
   (toBeBytes ((Protocol.number key.protocol).getD 0),
     (4, ((Protocol.number key.protocol).getD 0).toNat)),
   (toBeBytes (val.srcMac.getD 0), (56, (val.srcMac.getD 0).toNat)),
   (toBeBytes (val.dstMac.getD 0), (80, (val.dstMac.getD 0).toNat)),
   (toBeBytes (val.vlanId.getD 0), (243, (val.vlanId.getD 0).toNat)),
   (toBeBytes val.etherType, (256, val.etherType.toNat)),
   (toBeBytes (directionByte val.direction), (61, (directionByte val.direction).toNat)),
   (toBeBytes val.bytes, (352, val.bytes.toNat)),
   (toBeBytes val.packets, (2, val.packets.toNat)),
   (toBeBytes val.firstSeenMs, (152, val.firstSeenMs.toNat)),
   (toBeBytes val.lastSeenMs, (153, val.lastSeenMs.toNat))]

/-- The twelve trailing field specifiers are the same in both templates. -/
def commonSpecs : List FieldSpec := (fieldSpecs v4Fields).drop 2

theorem reads_commonParts (key : FlowKey P) (val : FlowVal) :
    List.Forall₂ (fun spec part => Reads (readField spec) part.1 part.2) commonSpecs
      (commonParts key val) := by
  refine .cons (reads_field _ 7 2 rfl) (.cons (reads_field _ 11 2 rfl)
    (.cons (reads_field _ 4 1 rfl) (.cons (reads_field _ 56 6 rfl)
    (.cons (reads_field _ 80 6 rfl) (.cons (reads_field _ 243 2 rfl)
    (.cons (reads_field _ 256 2 rfl) (.cons (reads_field _ 61 1 rfl)
    (.cons (reads_field _ 352 8 rfl) (.cons (reads_field _ 2 8 rfl)
    (.cons (reads_field _ 152 8 rfl) (.cons (reads_field _ 153 8 rfl) .nil)))))))))))

theorem commonParts_bytes (key : FlowKey P) (val : FlowVal) :
    (commonParts key val).flatMap Prod.fst = writeCommonTail [] key val := by
  rcases shape : val.direction with _ | _ | _ <;>
    simp [commonParts, writeCommonTail, shape, directionByte, toBeBytes_byte]

theorem commonParts_values (key : FlowKey P) (val : FlowVal) :
    (commonParts key val).map Prod.snd = commonFields key val := by
  simp only [commonParts, commonFields, List.map_cons, List.map_nil, directionByte_toNat]

/-- Both templates are two addresses and the common fields. -/
theorem reads_record {w : Nat} (templateId srcElement dstElement width : Nat) (src dst : BitVec w)
    (size : w = 8 * width) (key : FlowKey P) (val : FlowVal) :
    Reads (readRecord templateId (⟨srcElement, width⟩ :: ⟨dstElement, width⟩ :: commonSpecs))
      (toBeBytes src ++ (toBeBytes dst ++ writeCommonTail [] key val))
      ⟨templateId, (srcElement, src.toNat) :: (dstElement, dst.toNat) :: commonFields key val⟩ := by
  have each : List.Forall₂ (fun spec part => Reads (readField spec) part.1 part.2)
      (⟨srcElement, width⟩ :: ⟨dstElement, width⟩ :: commonSpecs)
      ((toBeBytes src, (srcElement, src.toNat)) :: (toBeBytes dst, (dstElement, dst.toNat)) ::
        commonParts key val) :=
    .cons (reads_field src srcElement width size)
      (.cons (reads_field dst dstElement width size) (reads_commonParts key val))
  have row := (Reads.mapM each).map fun fields => (⟨templateId, fields⟩ : DataRecord)
  rwa [List.flatMap_cons, List.flatMap_cons, commonParts_bytes, List.map_cons, List.map_cons,
    commonParts_values] at row

theorem reads_record_v4 (flow : Flow P) (family : isV4 flow = true) :
    Reads (readRecord 256 (fieldSpecs v4Fields)) (recordBytes flow) (collectorRecord flow) := by
  obtain ⟨⟨addrs, srcPort, dstPort, protocol⟩, val⟩ := flow
  cases addrs with
  | v6 src dst => cases family
  | v4 src dst =>
      have encoded : recordBytes (⟨.v4 src dst, srcPort, dstPort, protocol⟩, val) =
          toBeBytes src.bits ++ (toBeBytes dst.bits ++
            writeCommonTail [] ⟨.v4 src dst, srcPort, dstPort, protocol⟩ val) := by
        simp only [recordBytes, writeRecord, Ipv4Addr.octets, List.nil_append]
        rw [writeCommonTail_eq, List.append_assoc]
      rw [encoded]
      exact reads_record 256 8 12 4 src.bits dst.bits rfl _ val

theorem reads_record_v6 (flow : Flow P) (family : isV4 flow = false) :
    Reads (readRecord 257 (fieldSpecs v6Fields)) (recordBytes flow) (collectorRecord flow) := by
  obtain ⟨⟨addrs, srcPort, dstPort, protocol⟩, val⟩ := flow
  cases addrs with
  | v4 src dst => cases family
  | v6 src dst =>
      have encoded : recordBytes (⟨.v6 src dst, srcPort, dstPort, protocol⟩, val) =
          toBeBytes src.bits ++ (toBeBytes dst.bits ++
            writeCommonTail [] ⟨.v6 src dst, srcPort, dstPort, protocol⟩ val) := by
        simp only [recordBytes, writeRecord, Ipv6Addr.octets, List.nil_append]
        rw [writeCommonTail_eq, List.append_assoc]
      rw [encoded]
      exact reads_record 257 27 28 16 src.bits dst.bits rfl _ val

theorem length_recordBytes (flow : Flow P) :
    (recordBytes flow).length = if isV4 flow then 62 else 86 := by
  obtain ⟨⟨addrs, srcPort, dstPort, protocol⟩, val⟩ := flow
  cases addrs <;>
    simp [recordBytes, writeRecord, writeCommonTail, isV4, Ipv4Addr.octets, Ipv6Addr.octets]

theorem length_records (flows : List (Flow P)) (v4 : Bool)
    (family : ∀ flow ∈ flows, isV4 flow = v4) :
    (flows.flatMap recordBytes).length = (if v4 then 62 else 86) * flows.length := by
  induction flows with
  | nil => simp
  | cons flow flows ih =>
      have head : isV4 flow = v4 := family flow (List.mem_cons_self ..)
      have tail := ih fun other member => family other (List.mem_cons_of_mem _ member)
      rw [List.flatMap_cons, List.length_append, tail, length_recordBytes, head,
        List.length_cons, Nat.mul_succ, Nat.add_comm]

end Records

/-! ## Sets -/

section Sets
variable {P : Type} [Protocol P]

theorem reads_set (id : U16) (payload : List Byte) (bound : 4 + payload.length < 2 ^ 16) :
    Reads readSet (toBeBytes id ++ (toBeBytes (BitVec.ofNat 16 (4 + payload.length)) ++ payload))
      ⟨id.toNat, payload⟩ := by
  have value : (BitVec.ofNat 16 (4 + payload.length)).toNat = 4 + payload.length :=
    toNat_ofNat_of_lt bound
  refine (Reads.word id rfl).bind _ ((Reads.word _ rfl).bind _ ?_)
  rw [value]
  have whole : Reads (readBytes (4 + payload.length - 4)) payload payload :=
    Reads.bytes (by omega)
  rw [← List.nil_append payload]
  refine (Reads.require (by simp)).bind _ ?_
  exact whole.map fun bytes => (⟨id.toNat, bytes⟩ : RawSet)

def templatePayload : List Byte :=
  templateRecordBytes templateIdV4 v4Fields ++ templateRecordBytes templateIdV6 v6Fields

theorem length_templatePayload : templatePayload.length = 120 := by decide

theorem reads_templateSet : Reads readSet templateSetBytes ⟨2, templatePayload⟩ := by
  have shape : templateSetBytes = toBeBytes templateSetId ++
      (toBeBytes (BitVec.ofNat 16 (4 + templatePayload.length)) ++ templatePayload) := by
    rw [templateSetBytes, List.append_assoc, List.append_assoc, length_templatePayload]
    rfl
  rw [shape]
  exact reads_set templateSetId templatePayload (by rw [length_templatePayload]; omega)

/-- The sets of a message, each with the bytes that encode it. -/
def templatePart (due : Bool) : List (List Byte × RawSet) :=
  if due then [(templateSetBytes, ⟨2, templatePayload⟩)] else []

def dataPart (id : U16) (size : Nat) (flows : List (Flow P)) : List (List Byte × RawSet) :=
  if flows.isEmpty then []
  else [(dataSetBytes id size flows, ⟨id.toNat, flows.flatMap recordBytes⟩)]

def messageParts (due : Bool) (block : Block (Flow P)) : List (List Byte × RawSet) :=
  templatePart due ++ dataPart templateIdV4 62 block.v4 ++ dataPart templateIdV6 86 block.v6

theorem dataPart_bytes (id : U16) (size : Nat) (flows : List (Flow P)) :
    (dataPart id size flows).flatMap Prod.fst = dataSetBytes id size flows := by
  cases flows <;> simp [dataPart, dataSetBytes]

theorem messageParts_bytes (due : Bool) (block : Block (Flow P)) :
    (messageParts due block).flatMap Prod.fst = bodyBytes due block := by
  simp only [messageParts, List.flatMap_append, dataPart_bytes, bodyBytes]
  cases due <;> simp [templatePart]

theorem reads_dataPart (id : U16) (size : Nat) (flows : List (Flow P))
    (length : (flows.flatMap recordBytes).length = size * flows.length)
    (bound : setCharge size flows.length < 2 ^ 16) :
    ∀ part ∈ dataPart id size flows, Reads readSet part.1 part.2 ∧ part.1 ≠ [] := by
  intro part member
  cases flows with
  | nil => simp [dataPart] at member
  | cons flow flows =>
      simp only [dataPart, List.isEmpty_cons, Bool.false_eq_true, if_false,
        List.mem_singleton] at member
      subst member
      have charge : setCharge size (flow :: flows).length = 4 + size * (flow :: flows).length :=
        if_neg (by simp)
      rw [charge, ← length] at bound
      have read := reads_set id ((flow :: flows).flatMap recordBytes) bound
      have shape : dataSetBytes id size (flow :: flows) = toBeBytes id ++
          (toBeBytes (BitVec.ofNat 16 (4 + ((flow :: flows).flatMap recordBytes).length)) ++
            (flow :: flows).flatMap recordBytes) := by
        rw [dataSetBytes, List.isEmpty_cons, if_neg Bool.false_ne_true, length, List.append_assoc]
      refine ⟨shape ▸ read, ?_⟩
      rw [shape]
      intro empty
      have none := congrArg List.length empty
      simp at none

theorem reads_messageParts (due : Bool) (block : Block (Flow P)) (sorted : block.Sorted)
    (bound : block.charge due < 2 ^ 16) :
    ∀ part ∈ messageParts due block, Reads readSet part.1 part.2 ∧ part.1 ≠ [] := by
  have length4 := length_records block.v4 true sorted.1
  have length6 := length_records block.v6 false sorted.2
  simp only [Block.charge] at bound
  intro part member
  simp only [messageParts, List.mem_append] at member
  rcases member with (template | data) | data
  · cases due with
    | false => simp [templatePart] at template
    | true =>
        simp only [templatePart, if_true, List.mem_singleton] at template
        subst template
        exact ⟨reads_templateSet, by simp [templateSetBytes]; decide⟩
  · exact reads_dataPart templateIdV4 62 block.v4 length4 (by omega) part data
  · exact reads_dataPart templateIdV6 86 block.v6 length6 (by omega) part data

end Sets

/-! ## Messages -/

section Messages
variable {P : Type} [Protocol P]

def dataSets (id : Nat) (flows : List (Flow P)) : List RawSet :=
  if flows.isEmpty then [] else [⟨id, flows.flatMap recordBytes⟩]

def templateSets (due : Bool) : List RawSet := if due then [⟨2, templatePayload⟩] else []

/-- The sets the collector finds in a message. -/
def blockSets (due : Bool) (block : Block (Flow P)) : List RawSet :=
  templateSets due ++ dataSets 256 block.v4 ++ dataSets 257 block.v6

theorem messageParts_sets (due : Bool) (block : Block (Flow P)) :
    (messageParts due block).map Prod.snd = blockSets due block := by
  have data : ∀ (id : U16) (size : Nat) (flows : List (Flow P)),
      (dataPart id size flows).map Prod.snd = dataSets id.toNat flows := by
    intro id size flows
    cases flows <;> simp [dataPart, dataSets]
  simp only [messageParts, List.map_append, data, blockSets]
  cases due <;> rfl

theorem length_dataSetBytes (id : U16) (size : Nat) (flows : List (Flow P))
    (length : (flows.flatMap recordBytes).length = size * flows.length) :
    (dataSetBytes id size flows).length = setCharge size flows.length := by
  cases flows with
  | nil => simp [dataSetBytes, setCharge]
  | cons flow flows =>
      simp only [dataSetBytes, List.isEmpty_cons, Bool.false_eq_true, if_false,
        List.length_append, length_toBeBytes, length, setCharge, List.length_cons,
        Nat.add_one_ne_zero]

theorem length_opening (due : Bool) :
    16 + (if due then templateSetBytes else []).length = openCharge due := by
  cases due with
  | false => rfl
  | true =>
      rw [if_pos rfl, length_templateSetBytes]
      rfl

theorem length_bodyBytes (due : Bool) (block : Block (Flow P)) (sorted : block.Sorted) :
    16 + (bodyBytes due block).length = block.charge due := by
  have data4 := length_dataSetBytes templateIdV4 62 block.v4 (length_records block.v4 true sorted.1)
  have data6 := length_dataSetBytes templateIdV6 86 block.v6
    (length_records block.v6 false sorted.2)
  rw [bodyBytes, List.length_append, List.length_append, data4, data6, Block.charge,
    ← length_opening due]
  omega

theorem length_messageBytes (nowUnix odid : U32) (due : Bool) (seq : U32)
    (block : Block (Flow P)) (sorted : block.Sorted) :
    (messageBytes nowUnix odid due seq block).length = block.charge due := by
  rw [messageBytes, List.length_append, ← length_bodyBytes due block sorted]
  simp [headerBytes]

theorem reads_header (length : Nat) (bound : length < 2 ^ 16) (nowUnix seq odid : U32) :
    Reads readHeader (headerBytes length nowUnix seq odid)
      ⟨10, length, nowUnix.toNat, seq.toNat, odid.toNat⟩ := by
  have value : (BitVec.ofNat 16 length).toNat = length := toNat_ofNat_of_lt bound
  simp only [headerBytes, List.append_assoc]
  refine (Reads.word version rfl).bind _ ((Reads.word (BitVec.ofNat 16 length) rfl).bind _
    ((Reads.word nowUnix rfl).bind _ ((Reads.word seq rfl).bind _ ?_)))
  rw [value]
  exact (Reads.word odid rfl).map fun domain =>
    (⟨10, length, nowUnix.toNat, seq.toNat, domain⟩ : MessageHeader)

/-- The datagram is the header and its sets, with nothing before, between or
after them. -/
theorem splitMessage_messageBytes (nowUnix odid : U32) (due : Bool) (seq : U32)
    (block : Block (Flow P)) (sorted : block.Sorted) (bound : block.charge due < 2 ^ 16) :
    splitMessage (messageBytes nowUnix odid due seq block) =
      some (⟨10, block.charge due, nowUnix.toNat, seq.toNat, odid.toNat⟩,
        blockSets due block) := by
  have header := reads_header (block.charge due) bound nowUnix seq odid (bodyBytes due block)
  have body := readAll_complete readSet _ (reads_messageParts due block sorted bound)
  rw [messageParts_bytes, messageParts_sets] at body
  have length := length_messageBytes nowUnix odid due seq block sorted
  rw [splitMessage, messageBytes, header]
  rw [messageBytes] at length
  simp only [Option.bind_eq_bind, Option.bind_some, length, and_self, if_true, body]
  rfl

end Messages

end SniffnetAgent.Ipfix
