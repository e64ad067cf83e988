import SniffnetAgent.Conservation

/-!
# Distinct flows on the wire

The encoding forgets whether a port or a protocol number is absent or zero.
What a record still says (its template, the addresses, the ports, the protocol
number) tells the flows of one flush apart, provided the packet parser decides
by the protocol which ports a packet has, and numbers no two protocols alike.
-/

set_option autoImplicit false

namespace SniffnetAgent

open WireCodec CheckedArith LabelledRun Ipfix Collector

/-- What a collector tells the flows of a template apart by. -/
structure WireTuple where
  templateId : Nat
  srcAddr : Option Nat
  dstAddr : Option Nat
  srcPort : Option Nat
  dstPort : Option Nat
  protocol : Option Nat
  deriving DecidableEq, Repr

/-- The addresses are elements 8 and 12, or 27 and 28 in the V6 template. -/
def wireTuple (record : DataRecord) : WireTuple where
  templateId := record.templateId
  srcAddr := (record.value 8).or (record.value 27)
  dstAddr := (record.value 12).or (record.value 28)
  srcPort := record.value 7
  dstPort := record.value 11
  protocol := record.value 4

section Keys
variable {P : Type}

/-- The ports of a key are those of its protocol. -/
def FlowKey.HasPorts (hasSrcPort hasDstPort : P → Bool) (key : FlowKey P) : Prop :=
  key.srcPort.isSome = hasSrcPort key.protocol ∧ key.dstPort.isSome = hasDstPort key.protocol

variable [Protocol P]

/-- What the agent relies on when it writes a protocol as its number. -/
structure ProtocolNumbers (P : Type) [Protocol P] : Prop where
  injective : ∀ (p q : P) (n : U8), Protocol.number p = some n → Protocol.number q = some n → p = q
  nonzero : ∀ p : P, Protocol.number p ≠ some 0
  onlyArp : ∀ p : P, Protocol.number p = none → p = Protocol.arp

def FlowKey.wireTuple (key : FlowKey P) : WireTuple where
  templateId := match key.addrs with
    | .v4 _ _ => 256
    | .v6 _ _ => 257
  srcAddr := match key.addrs with
    | .v4 src _ => some src.bits.toNat
    | .v6 src _ => some src.bits.toNat
  dstAddr := match key.addrs with
    | .v4 _ dst => some dst.bits.toNat
    | .v6 _ dst => some dst.bits.toNat
  srcPort := some (key.srcPort.getD 0).toNat
  dstPort := some (key.dstPort.getD 0).toNat
  protocol := some ((Protocol.number key.protocol).getD 0).toNat

theorem wireTuple_collectorRecord (flow : Flow P) :
    wireTuple (collectorRecord flow) = flow.1.wireTuple := by
  unfold collectorRecord FlowKey.wireTuple
  cases flow.1.addrs <;> rfl

/-! ## The tuple determines the key -/

theorem protocol_eq_of_number (numbers : ProtocolNumbers P) {p q : P}
    (same : (Protocol.number p).getD 0 = (Protocol.number q).getD 0) : p = q := by
  cases ofP : Protocol.number p with
  | none =>
      cases ofQ : Protocol.number q with
      | none => rw [numbers.onlyArp p ofP, numbers.onlyArp q ofQ]
      | some n =>
          rw [ofP, ofQ, Option.getD_none, Option.getD_some] at same
          rw [← same] at ofQ
          exact (numbers.nonzero q ofQ).elim
  | some m =>
      rw [ofP, Option.getD_some] at same
      cases ofQ : Protocol.number q with
      | none =>
          rw [ofQ, Option.getD_none] at same
          rw [same] at ofP
          exact (numbers.nonzero p ofP).elim
      | some n =>
          rw [ofQ, Option.getD_some] at same
          rw [same] at ofP
          exact numbers.injective p q n ofP ofQ

theorem port_eq_of_getD {port other : Option U16} (present : port.isSome = other.isSome)
    (same : port.getD 0 = other.getD 0) : port = other := by
  cases port with
  | none =>
      cases other with
      | none => rfl
      | some _ => cases present
  | some _ =>
      cases other with
      | none => cases present
      | some _ => exact congrArg some same

theorem addrs_eq_of_wireTuple {key other : FlowKey P} (same : key.wireTuple = other.wireTuple) :
    key.addrs = other.addrs := by
  obtain ⟨addrs, srcPort, dstPort, protocol⟩ := key
  obtain ⟨addrs', srcPort', dstPort', protocol'⟩ := other
  simp only [FlowKey.wireTuple, WireTuple.mk.injEq] at same
  obtain ⟨template, src, dst, _⟩ := same
  cases addrs with
  | v4 s d =>
      cases addrs' with
      | v4 s' d' =>
          have srcBits := BitVec.eq_of_toNat_eq (Option.some.inj src)
          have dstBits := BitVec.eq_of_toNat_eq (Option.some.inj dst)
          exact congrArg₂ FlowAddrs.v4 (congrArg Ipv4Addr.mk srcBits) (congrArg Ipv4Addr.mk dstBits)
      | v6 s' d' => cases template
  | v6 s d =>
      cases addrs' with
      | v4 s' d' => cases template
      | v6 s' d' =>
          have srcBits := BitVec.eq_of_toNat_eq (Option.some.inj src)
          have dstBits := BitVec.eq_of_toNat_eq (Option.some.inj dst)
          exact congrArg₂ FlowAddrs.v6 (congrArg Ipv6Addr.mk srcBits) (congrArg Ipv6Addr.mk dstBits)

/-- The three fields that the encoding folds into zero are unfolded by the
protocol. -/
theorem key_eq_of_wireTuple {hasSrcPort hasDstPort : P → Bool} (numbers : ProtocolNumbers P)
    {key other : FlowKey P} (ports : key.HasPorts hasSrcPort hasDstPort)
    (otherPorts : other.HasPorts hasSrcPort hasDstPort) (same : key.wireTuple = other.wireTuple) :
    key = other := by
  have addrs := addrs_eq_of_wireTuple same
  have number := BitVec.eq_of_toNat_eq (Option.some.inj (congrArg WireTuple.protocol same))
  have protocol := protocol_eq_of_number numbers number
  have src := BitVec.eq_of_toNat_eq (Option.some.inj (congrArg WireTuple.srcPort same))
  have dst := BitVec.eq_of_toNat_eq (Option.some.inj (congrArg WireTuple.dstPort same))
  have srcPort : key.srcPort = other.srcPort :=
    port_eq_of_getD (by rw [ports.1, otherPorts.1, protocol]) src
  have dstPort : key.dstPort = other.dstPort :=
    port_eq_of_getD (by rw [ports.2, otherPorts.2, protocol]) dst
  obtain ⟨_, _, _, _⟩ := key
  obtain ⟨_, _, _, _⟩ := other
  cases addrs
  cases protocol
  cases srcPort
  cases dstPort
  rfl

end Keys

/-! ## One flush -/

section Flushes
variable {P : Type} [Protocol P] [DecidableEq P]

/-- The keys of the exported flows are the keys of the map that are not filtered out. -/
theorem mem_keys_exportFlows {collector : SocketAddr} {addrs : List IpAddr} {map : FlowMap P}
    {entries : List (Flow P)} (enumerates : FlowMap.Enumerates map entries) (key : FlowKey P) :
    key ∈ (exportFlows collector addrs entries).map Prod.fst ↔
      key ∈ map ∧ key.isSelfExport collector = false := by
  rw [exportFlows, List.map_map, List.mem_map, Finmap.mem_iff]
  constructor
  · rintro ⟨⟨flowKey, val⟩, member, rfl⟩
    rw [List.mem_filter, enumerates.mem_iff] at member
    exact ⟨⟨val, member.1⟩, by simpa using member.2⟩
  · rintro ⟨⟨val, found⟩, foreign⟩
    refine ⟨(key, val), ?_, rfl⟩
    rw [List.mem_filter, enumerates.mem_iff]
    exact ⟨found, by simp [foreign]⟩

theorem nodup_keys_exportFlows {collector : SocketAddr} {addrs : List IpAddr} {map : FlowMap P}
    {entries : List (Flow P)} (enumerates : FlowMap.Enumerates map entries) :
    ((exportFlows collector addrs entries).map Prod.fst).Nodup := by
  have keys : (exportFlows collector addrs entries).map Prod.fst =
      (entries.filter fun flow => !flow.1.isSelfExport collector).map Prod.fst := by
    rw [exportFlows, List.map_map]
    rfl
  rw [keys]
  exact enumerates.nodup_keys.sublist (List.filter_sublist.map Prod.fst)

/-- The records of a flush name the exported keys, once each. -/
structure Distinct (collector : SocketAddr) (map : FlowMap P) (records : List DataRecord) :
    Prop where
  tuples : (records.map wireTuple).Nodup
  once : ∀ key ∈ map, key.isSelfExport collector = false →
    (records.map wireTuple).count key.wireTuple = 1
  named : ∀ record ∈ records, ∃ key ∈ map, key.isSelfExport collector = false ∧
    wireTuple record = key.wireTuple

theorem distinct_collectorRecords (collector : SocketAddr) (addrs : List IpAddr)
    {hasSrcPort hasDstPort : P → Bool} (numbers : ProtocolNumbers P) {map : FlowMap P}
    {entries : List (Flow P)} (ports : ∀ key ∈ map, key.HasPorts hasSrcPort hasDstPort)
    (enumerates : FlowMap.Enumerates map entries) :
    Distinct collector map
      ((wireOrder (exportFlows collector addrs entries)).map collectorRecord) := by
  set flows := exportFlows collector addrs entries with flowsDef
  have tuples : ((wireOrder flows).map collectorRecord).map wireTuple =
      ((wireOrder flows).map Prod.fst).map FlowKey.wireTuple := by
    rw [List.map_map, List.map_map]
    exact List.map_congr_left fun flow _ => wireTuple_collectorRecord flow
  have order : ((wireOrder flows).map Prod.fst).Perm (flows.map Prod.fst) :=
    (wireOrder_perm flows).map Prod.fst
  have exported : ∀ key, key ∈ (wireOrder flows).map Prod.fst ↔
      key ∈ map ∧ key.isSelfExport collector = false := fun key => by
    rw [order.mem_iff]
    exact mem_keys_exportFlows enumerates key
  have nodup : (((wireOrder flows).map collectorRecord).map wireTuple).Nodup := by
    rw [tuples]
    refine List.Nodup.map_on ?_ (order.nodup_iff.mpr (nodup_keys_exportFlows enumerates))
    intro key member other otherMember same
    exact key_eq_of_wireTuple numbers (ports key ((exported key).mp member).1)
      (ports other ((exported other).mp otherMember).1) same
  refine ⟨nodup, ?_, ?_⟩
  · intro key inMap foreign
    apply List.count_eq_one_of_mem nodup
    rw [tuples]
    exact List.mem_map_of_mem ((exported key).mpr ⟨inMap, foreign⟩)
  · intro record member
    obtain ⟨flow, inFlows, rfl⟩ := List.mem_map.mp member
    obtain ⟨inMap, foreign⟩ := (exported flow.1).mp (List.mem_map_of_mem inFlows)
    exact ⟨flow.1, inMap, foreign, wireTuple_collectorRecord flow⟩

/-- Whatever the map, the iteration order, the collector, the addresses, the
exporter and its sends. -/
theorem flush_distinct (hasSrcPort hasDstPort : P → Bool) (numbers : ProtocolNumbers P)
    (collector : SocketAddr) (addrs : List IpAddr) (map : FlowMap P) (entries : List (Flow P))
    (ports : ∀ key ∈ map, key.HasPorts hasSrcPort hasDstPort)
    (enumerates : FlowMap.Enumerates map entries) (exporter : Exporter) (clock : Clock)
    (send : Nat → Option IoError) :
    ∃ flushed store records,
      runFlush exporter (exportFlows collector addrs entries) clock send = .ok flushed ∧
      decodeStream agentTemplates (flushed.attempts.map Attempt.datagram) =
        some (store, records) ∧
      Distinct collector map records := by
  let call : FlushCall P := ⟨exportFlows collector addrs entries, clock, send⟩
  obtain ⟨blocks, result, _, flushed⟩ := flush_spec exporter call
  have step : FlushStep exporter ⟨exporter, call, _⟩ _ := ⟨rfl, result, flushed⟩
  obtain ⟨store, decoded⟩ := step.records
  rw [← runFlush_eq_flush] at flushed
  exact ⟨_, store, _, flushed, decoded,
    distinct_collectorRecords collector addrs numbers ports enumerates⟩

/-- The same two hosts over TCP and over ARP, and an own export. -/
def sampleFlows : List (Flow SampleProtocol) :=
  [(sampleKey, ⟨100, 1, none, none, none, 0x0800, none, 0, 0⟩),
   (⟨.v4 ⟨0x0A000001⟩ ⟨0x0A000002⟩, none, none, .arp⟩,
    ⟨28, 1, none, none, none, 0x0806, none, 5, 5⟩),
   (⟨.v4 ⟨0x7F000001⟩ ⟨0x7F000001⟩, some 40000, some 4739, .udp⟩,
    ⟨124, 1, none, none, none, 0x0800, none, 9, 9⟩)]

def sampleMap : FlowMap SampleProtocol :=
  ⟨↑(sampleFlows.map fun flow => (⟨flow.1, flow.2⟩ : Sigma fun _ => FlowVal)), by
    rw [Multiset.coe_nodupKeys, List.NodupKeys]
    decide⟩

theorem sampleNumbers : ProtocolNumbers SampleProtocol := by
  refine ⟨?_, ?_, ?_⟩
  · intro p q n ofP ofQ
    cases p <;> cases q <;> cases ofP <;> cases ofQ <;> rfl
  · intro p
    cases p <;> decide
  · intro p absent
    cases p <;> cases absent
    rfl

/-- All but ARP have ports. -/
theorem flush_distinct_sample :
    ∃ flushed store records,
      runFlush (Exporter.fresh sampleCollector 0) (exportFlows sampleCollector [] sampleFlows)
        ⟨0, 0, none⟩ (fun _ => none) = .ok flushed ∧
      decodeStream agentTemplates (flushed.attempts.map Attempt.datagram) =
        some (store, records) ∧
      Distinct sampleCollector sampleMap records := by
  have ports : ∀ key ∈ sampleMap, key.HasPorts (fun p => p != .arp) fun p => p != .arp := by
    have each : ∀ flow ∈ sampleFlows, flow.1.srcPort.isSome = (flow.1.protocol != .arp) ∧
        flow.1.dstPort.isSome = (flow.1.protocol != .arp) := by decide
    intro key member
    obtain ⟨val, found⟩ := Finmap.mem_iff.mp member
    have enumerates : FlowMap.Enumerates sampleMap sampleFlows := rfl
    exact each (key, val) ((enumerates.mem_iff key val).mpr found)
  exact flush_distinct _ _ sampleNumbers sampleCollector [] sampleMap sampleFlows ports rfl
    (Exporter.fresh sampleCollector 0) ⟨0, 0, none⟩ fun _ => none

end Flushes

/-! ## Captured packets -/

section Packets
variable {P : Type}

def ParsedPacket.HasPorts (hasSrcPort hasDstPort : P → Bool) (parsed : ParsedPacket P) : Prop :=
  parsed.transportInfo.srcPort.isSome = hasSrcPort parsed.transportInfo.protocol ∧
    parsed.transportInfo.dstPort.isSome = hasDstPort parsed.transportInfo.protocol

theorem hasPorts_decodePacket {hasSrcPort hasDstPort : P → Bool} {parsed : Option (ParsedPacket P)}
    {tsMs : U64} (ports : ∀ packet, parsed = some packet → packet.HasPorts hasSrcPort hasDstPort)
    {flow : Flow P} (decoded : decodePacket parsed tsMs = some flow) :
    flow.1.HasPorts hasSrcPort hasDstPort := by
  cases parsed with
  | none => cases decoded
  | some packet =>
      simp only [decodePacket, Option.bind_eq_bind, Option.bind_some] at decoded
      obtain ⟨addrs, _, result⟩ := Option.bind_eq_some_iff.mp decoded
      cases Option.some.inj result
      exact ports packet rfl

end Packets

end SniffnetAgent
