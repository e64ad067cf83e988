import SniffnetAgent.Accounting
import SniffnetAgent.Conversation

/-!
# From a packet to its record and back

The drains of a run cut the captured packets into intervals, whatever the main
thread does in the meantime.  The flush number `d` reports interval number `d`:
one record for each flow with a packet in it, and the record describes exactly
these packets.
-/

set_option autoImplicit false

namespace SniffnetAgent

open LabelledRun Ipfix Collector Pipe

/-! ## Intervals -/

section Intervals
variable {P : Type}

/-- The flows captured when exactly `d` drains have happened. -/
def interval : Nat → List (AgentEvent P) → List (Flow P)
  | _, [] => []
  | 0, .packet parsed tsMs :: events => (decodePacket parsed tsMs).toList ++ interval 0 events
  | d + 1, .packet _ _ :: events => interval (d + 1) events
  | 0, .drain :: _ => []
  | d + 1, .drain :: events => interval d events
  | d, .receive _ :: events => interval d events

theorem windows_at {events : List (AgentEvent P)} {current window : List (Flow P)} {d : Nat}
    (found : (windows current (tableOps events))[d]? = some window) :
    window = (if d = 0 then current else []) ++ interval d events := by
  induction events generalizing current d with
  | nil => cases found
  | cons event events ih =>
      rw [tableOps_cons] at found
      cases event with
      | packet parsed tsMs =>
          rw [AgentEvent.tableOps] at found
          cases decoded : decodePacket parsed tsMs with
          | none =>
              rw [decoded] at found
              rw [ih found]
              cases d with
              | zero => rw [interval, decoded, Option.toList_none, List.nil_append]
              | succ d => rfl
          | some flow =>
              rw [decoded] at found
              have rest := ih found
              cases d with
              | zero =>
                  rw [if_pos rfl] at rest ⊢
                  rw [rest, interval, decoded, Option.toList_some, List.append_assoc]
              | succ d => exact rest
      | drain =>
          cases d with
          | zero =>
              rw [interval, if_pos rfl, List.append_nil]
              exact (Option.some.inj found).symm
          | succ d =>
              have rest : window = (if d = 0 then [] else []) ++ interval d events := ih found
              rw [ite_self] at rest
              exact rest
      | receive receipt =>
          have rest := ih found
          cases d <;> exact rest

theorem closedWindows_at {events : List (AgentEvent P)} {window : List (Flow P)} {d : Nat}
    (found : (closedWindows events)[d]? = some window) : window = interval d events := by
  rw [windows_at found, ite_self, List.nil_append]

theorem packets_of_decoded {parsed : Option (ParsedPacket P)} {tsMs : U64} {flow : Flow P}
    (decoded : decodePacket parsed tsMs = some flow) : flow.2.packets = 1 := by
  simp only [decodePacket, Option.bind_eq_bind, Option.bind_eq_some_iff] at decoded
  obtain ⟨packet, _, addrs, _, same⟩ := decoded
  cases Option.some.inj same
  rfl

end Intervals

/-! ## One record -/

section Records
variable {P : Type} [Protocol P]

/-- What a record says of the packets of its flow, and of the addresses of the
interface at the time of the flush. -/
structure Describes (addrs : List IpAddr) (key : FlowKey P) (packets : List FlowVal)
    (record : DataRecord) : Prop where
  tuple : wireTuple record = key.wireTuple
  octets : record.value 352 = some (min (packets.map fun p => p.bytes.toNat).sum (2 ^ 64 - 1))
  count : record.value 2 = some (min packets.length (2 ^ 64 - 1))
  start : (∃ p ∈ packets, record.value 152 = some p.firstSeenMs.toNat) ∧
    ∀ p ∈ packets, ∃ start, record.value 152 = some start ∧ start ≤ p.firstSeenMs.toNat
  finish : (∃ p ∈ packets, record.value 153 = some p.lastSeenMs.toNat) ∧
    ∀ p ∈ packets, ∃ finish, record.value 153 = some finish ∧ p.lastSeenMs.toNat ≤ finish
  srcMac : record.value 56 = some ((packets.findSome? FlowVal.srcMac).getD 0).toNat
  dstMac : record.value 80 = some ((packets.findSome? FlowVal.dstMac).getD 0).toNat
  vlanId : record.value 243 = some ((packets.findSome? FlowVal.vlanId).getD 0).toNat
  etherType : record.value 256 = packets.head?.map fun p => p.etherType.toNat
  direction : record.value 61 = some (directionValue
    (getDirection key.addrs.src key.addrs.dst key.srcPort key.dstPort addrs))
  undirected : record.value 61 = some 255 ↔ addrs = [] ∧ ¬ key.PortedLoopback

/-- Each field of a record, by its element. -/
theorem value_fields (flow : Flow P) :
    (collectorRecord flow).value 352 = some flow.2.bytes.toNat ∧
    (collectorRecord flow).value 2 = some flow.2.packets.toNat ∧
    (collectorRecord flow).value 152 = some flow.2.firstSeenMs.toNat ∧
    (collectorRecord flow).value 153 = some flow.2.lastSeenMs.toNat ∧
    (collectorRecord flow).value 56 = some (flow.2.srcMac.getD 0).toNat ∧
    (collectorRecord flow).value 80 = some (flow.2.dstMac.getD 0).toNat ∧
    (collectorRecord flow).value 243 = some (flow.2.vlanId.getD 0).toNat ∧
    (collectorRecord flow).value 256 = some flow.2.etherType.toNat ∧
    (collectorRecord flow).value 61 = some (directionValue flow.2.direction) := by
  unfold collectorRecord
  cases flow.1.addrs <;> refine ⟨rfl, rfl, rfl, rfl, rfl, rfl, rfl, rfl, rfl⟩

theorem directionValue_eq_255 (direction : Option FlowDirection) :
    directionValue direction = 255 ↔ direction = none := by
  rcases direction with _ | _ | _ <;> simp [directionValue]

omit [Protocol P] in
theorem getDirection_eq_none (key : FlowKey P) (addrs : List IpAddr) :
    getDirection key.addrs.src key.addrs.dst key.srcPort key.dstPort addrs = none ↔
      addrs = [] ∧ ¬ key.PortedLoopback := by
  by_cases ported : key.PortedLoopback
  · obtain ⟨sport, srcIs⟩ := Option.isSome_iff_exists.mp ported.2.1
    obtain ⟨dport, dstIs⟩ := Option.isSome_iff_exists.mp ported.2.2
    rw [srcIs, dstIs, getDirection_ported ported.1]
    simp [ported]
  · rw [getDirection_unported ported, classified]
    by_cases unknown : addrs = []
    · simp [unknown, ported]
    · simp [unknown]

theorem describes_of_summary {addrs : List IpAddr} {key : FlowKey P} {packets : List FlowVal}
    {val : FlowVal} (summary : IsSummary packets val) (ones : ∀ p ∈ packets, p.packets = 1) :
    Describes addrs key packets (collectorRecord (key, val.withDirection key addrs)) := by
  obtain ⟨octets, count, start, finish, srcMac, dstMac, vlanId, etherType, direction⟩ :=
    value_fields (key, val.withDirection key addrs)
  have length : (packets.map fun p => p.packets.toNat).sum = packets.length := by
    have each : packets.map (fun p => p.packets.toNat) = packets.map fun _ => 1 :=
      List.map_congr_left fun p member => by rw [ones p member]; rfl
    rw [each, List.map_const', List.sum_replicate_nat, Nat.mul_one]
  constructor
  case tuple => exact wireTuple_collectorRecord _
  case octets =>
    rw [octets, ← summary.bytes]
    rfl
  case count =>
    rw [count, ← length, ← summary.packets]
    rfl
  case start =>
    obtain ⟨⟨first, member, same⟩, bound⟩ := summary.firstSeenMs
    refine ⟨⟨first, member, ?_⟩, ?_⟩
    · rw [start, same]
      rfl
    · exact fun p inside => ⟨_, start, bound p inside⟩
  case finish =>
    obtain ⟨⟨last, member, same⟩, bound⟩ := summary.lastSeenMs
    refine ⟨⟨last, member, ?_⟩, ?_⟩
    · rw [finish, same]
      rfl
    · exact fun p inside => ⟨_, finish, bound p inside⟩
  case srcMac =>
    rw [srcMac, ← summary.srcMac]
    rfl
  case dstMac =>
    rw [dstMac, ← summary.dstMac]
    rfl
  case vlanId =>
    rw [vlanId, ← summary.vlanId]
    rfl
  case etherType =>
    have opened := congrArg (Option.map BitVec.toNat) summary.etherType
    rw [Option.map_map, Option.map_some] at opened
    rw [etherType]
    exact opened.symm
  case direction => exact direction
  case undirected =>
    rw [direction, Option.some_inj, directionValue_eq_255]
    exact getDirection_eq_none key addrs

end Records

/-! ## Every run -/

section Runs
variable {P : Type} [DecidableEq P] [Protocol P]

theorem describes_of_reports {collector : SocketAddr} {window : List (Flow P)}
    {receipt : Receipt P} (reports : Reports collector window receipt)
    (ones : ∀ flow ∈ window, flow.2.packets = 1) :
    ∃ keys : List (FlowKey P), keys.Nodup ∧
      (∀ key, key ∈ keys ↔
        key.isSelfExport collector = false ∧ packetsOf key window ≠ []) ∧
      List.Forall₂ (fun key record =>
        Describes receipt.addrs key (packetsOf key window) record) keys receipt.records := by
  obtain ⟨reported, records, nodup, flows⟩ := reports
  refine ⟨reported.map Prod.fst, nodup, ?_, ?_⟩
  · intro key
    constructor
    · intro member
      obtain ⟨flow, listed, rfl⟩ := List.mem_map.mp member
      obtain ⟨foreign, val, summary, _⟩ := (flows flow).mp listed
      exact ⟨foreign, summary.ne_nil⟩
    · rintro ⟨foreign, some⟩
      cases merged : Aggregate.total FlowVal.accumulate (packetsOf key window) with
      | none => exact absurd ((Aggregate.total_eq_none FlowVal.accumulate).mp merged) some
      | some val =>
          have amounts : (key, val.withDirection key receipt.addrs) ∈ reported :=
            (flows _).mpr ⟨foreign, val, isSummary_of_total merged, rfl⟩
          exact List.mem_map_of_mem amounts
  · rw [records, List.forall₂_map_left_iff, List.forall₂_map_right_iff, List.forall₂_same]
    intro flow listed
    obtain ⟨key, exported⟩ := flow
    obtain ⟨_, val, summary, same⟩ := (flows _).mp listed
    obtain rfl : exported = val.withDirection key receipt.addrs := same
    refine describes_of_summary summary ?_
    intro p member
    obtain ⟨flow, inWindow, rfl⟩ := List.mem_map.mp member
    exact ones flow (List.mem_of_mem_filter inWindow)

theorem reports_at {collector : SocketAddr} {odid : U32} {events : List (AgentEvent P)}
    {agent : Agent P}
    (run : Run (AgentStep collector) (Agent.start collector odid) events agent) {d : Nat}
    {receipt : Receipt P} (found : (receipts events)[d]? = some receipt) :
    Reports collector (interval d events) receipt ∧
      ∀ flow ∈ interval d events, flow.2.packets = 1 := by
  obtain ⟨bound, rfl⟩ := List.getElem?_eq_some_iff.mp found
  obtain ⟨reported, pending, ledger⟩ := ledger_of_run run
  have size := ledger.flushed.length_eq
  have inReported : d < reported.length := size.symm ▸ bound
  have listed : (closedWindows events)[d]? = some reported[d] := by
    rw [ledger.closed, List.getElem?_append_left inReported, List.getElem?_eq_getElem inReported]
  rw [← closedWindows_at listed]
  refine ⟨ledger.flushed.get inReported bound, ?_⟩
  intro flow member
  obtain ⟨parsed, tsMs, _, decoded⟩ := captured_of_window (List.mem_of_getElem? listed) member
  exact packets_of_decoded decoded

/-- In every run, however its threads are interleaved: flush number `d` has one
record for each flow, other than the agent's own export, of which a packet was
captured between drain number `d` and the drain before it.  The record describes
exactly these packets, and there are no other records. -/
theorem flush_describes_interval (collector : SocketAddr) (odid : U32)
    (events : List (AgentEvent P)) (agent : Agent P)
    (run : Run (AgentStep collector) (Agent.start collector odid) events agent)
    (d : Nat) (receipt : Receipt P) (found : (receipts events)[d]? = some receipt) :
    d < drains events ∧ ∃ keys : List (FlowKey P), keys.Nodup ∧
      (∀ key, key ∈ keys ↔
        key.isSelfExport collector = false ∧ packetsOf key (interval d events) ≠ []) ∧
      List.Forall₂ (fun key record =>
        Describes receipt.addrs key (packetsOf key (interval d events)) record)
        keys receipt.records := by
  obtain ⟨reports, ones⟩ := reports_at run found
  refine ⟨?_, describes_of_reports reports ones⟩
  obtain ⟨_, _, _, _, _, causal⟩ := run_threads run
  have counts := (causal_iff events).mp causal events.length
  obtain ⟨bound, _⟩ := List.getElem?_eq_some_iff.mp found
  rw [List.take_length] at counts
  omega

theorem flush_describes_interval_sample :
    ∃ (receipt : Receipt SampleProtocol) (agent : Agent SampleProtocol)
        (keys : List (FlowKey SampleProtocol)),
      Run (AgentStep sampleCollector) (Agent.start sampleCollector 0)
        [.packet (some samplePacket) 0, .drain, .receive receipt] agent ∧
      sampleKey ∈ keys ∧ List.Forall₂ (fun key record => Describes receipt.addrs key
        (packetsOf key (interval 0 [.packet (some samplePacket) 0, .drain, .receive receipt]))
        record) keys receipt.records := by
  obtain ⟨receipt, agent, run⟩ := sample_run
  obtain ⟨_, keys, _, listed, records⟩ :=
    flush_describes_interval sampleCollector 0 _ agent run 0 receipt rfl
  have own := (listed sampleKey).mpr ⟨by decide, List.cons_ne_nil _ _⟩
  exact ⟨receipt, agent, keys, run, own, records⟩

end Runs

end SniffnetAgent
