import SniffnetAgent.Accounting
import SniffnetAgent.Traffic

/-!
# What a collector counts when datagrams are lost

The counts of a record are deltas, so a collector adds up whatever arrives.
What is lost is missing from the sum; nothing is ever in it that was not
captured.
-/

set_option autoImplicit false

namespace SniffnetAgent

open WireCodec LabelledRun Ipfix Collector Transducer

/-! ## Sums over records -/

section Sums

/-- The sum of a delta count over the records of a tuple. -/
def countOf (c : Counter) (tuple : WireTuple) (records : List DataRecord) : Nat :=
  ((records.filter fun record => wireTuple record = tuple).map fun record =>
    (record.value c.element).getD 0).sum

theorem countOf_append (c : Counter) (tuple : WireTuple) (left right : List DataRecord) :
    countOf c tuple (left ++ right) = countOf c tuple left + countOf c tuple right := by
  rw [countOf, List.filter_append, List.map_append, List.sum_append, countOf, countOf]

theorem countOf_le_of_subperm {c : Counter} {tuple : WireTuple} {few many : List DataRecord}
    (fewer : few.Subperm many) : countOf c tuple few ≤ countOf c tuple many := by
  obtain ⟨whole, reordered, sublist⟩ := List.subperm_iff.mp fewer
  obtain ⟨rest, split⟩ := sublist.exists_perm_append
  have parts := reordered.symm.trans split
  have same : countOf c tuple many = countOf c tuple (few ++ rest) :=
    ((parts.filter _).map _).sum_eq
  rw [same, countOf_append]
  exact Nat.le_add_right _ _

theorem flatMap_subperm {α β : Type} (f : α → List β) {few many : List α}
    (fewer : few.Subperm many) : (few.flatMap f).Subperm (many.flatMap f) := by
  obtain ⟨whole, reordered, sublist⟩ := List.subperm_iff.mp fewer
  exact (sublist.flatMap f).subperm.trans (reordered.flatMap_right f).subperm

theorem IsSummary.amount_le {history : List FlowVal} {val : FlowVal}
    (summary : IsSummary history val) (c : Counter) :
    amount c val ≤ (history.map (amount c)).sum := by
  cases c with
  | octets => exact summary.bytes.trans_le (Nat.min_le_left _ _)
  | packets => exact summary.packets.trans_le (Nat.min_le_left _ _)

end Sums

/-! ## Captured packets -/

section Captures
variable {P : Type} [DecidableEq P]

/-- What was captured of a key. -/
def capturedAmount (c : Counter) (key : FlowKey P) (flows : List (Flow P)) : Nat :=
  ((packetsOf key flows).map (amount c)).sum

theorem capturedAmount_append (c : Counter) (key : FlowKey P) (left right : List (Flow P)) :
    capturedAmount c key (left ++ right) =
      capturedAmount c key left + capturedAmount c key right := by
  rw [capturedAmount, packetsOf, List.filter_append, List.map_append, List.map_append,
    List.sum_append, capturedAmount, capturedAmount, packetsOf, packetsOf]

theorem recorded_eq_capturedAmount (c : Counter) (key : FlowKey P)
    (events : List (AgentEvent P)) :
    recorded c key events = capturedAmount c key (capturedFlows events) := by
  induction events with
  | nil => rfl
  | cons event events ih =>
      have head : recorded c key (event :: events) =
          recordedBy c key event + recorded c key events := List.sum_cons
      rw [head, ih]
      simp only [capturedFlows, List.filterMap_cons]
      cases event with
      | packet parsed tsMs =>
          simp only [recordedBy, AgentEvent.flow]
          cases decodePacket parsed tsMs with
          | none => exact Nat.zero_add _
          | some flow =>
              have cons := capturedAmount_append c key [flow] (capturedFlows events)
              refine Eq.trans (congrArg (· + _) ?_) cons.symm
              by_cases own : flow.1 = key
              · simp [capturedAmount, packetsOf, own]
              · simp [capturedAmount, packetsOf, own]
      | drain => exact Nat.zero_add _
      | receive receipt => exact Nat.zero_add _

variable [Protocol P]

theorem countOf_le_of_reports {hasSrcPort hasDstPort : P → Bool} (numbers : ProtocolNumbers P)
    {collector : SocketAddr} {window : List (Flow P)} {receipt : Receipt P}
    (reports : Reports collector window receipt)
    (ports : ∀ flow ∈ window, flow.1.HasPorts hasSrcPort hasDstPort) {key : FlowKey P}
    (keyPorts : key.HasPorts hasSrcPort hasDstPort) (c : Counter) :
    countOf c key.wireTuple receipt.records ≤ capturedAmount c key window := by
  obtain ⟨reported, records, nodup, flows⟩ := reports
  have keyOnly : ∀ flow ∈ reported, decide (wireTuple (collectorRecord flow) = key.wireTuple) =
      decide (flow.1 = key) := by
    intro flow member
    rw [decide_eq_decide]
    exact ((flows flow).mp member).wireTuple_iff numbers ports keyPorts
  have mine : countOf c key.wireTuple receipt.records =
      ((reported.filter fun flow => flow.1 = key).map fun flow => amount c flow.2).sum := by
    rw [countOf, records, List.filter_map, List.map_map, ← List.filter_congr keyOnly]
    refine congrArg List.sum (List.map_congr_left fun flow _ => ?_)
    exact congrArg (·.getD 0) (value_collectorRecord c flow)
  rw [mine]
  by_cases listed : key ∈ reported.map Prod.fst
  · obtain ⟨flow, member, rfl⟩ := List.mem_map.mp listed
    obtain ⟨_, val, summary, same⟩ := (flows flow).mp member
    rw [filter_key_of_mem nodup member, List.map_singleton, List.sum_singleton, same,
      amount_withDirection]
    exact summary.amount_le c
  · rw [filter_key_eq_nil listed]
    exact Nat.zero_le _

end Captures

/-! ## Every run -/

section Runs
variable {P : Type} [DecidableEq P] [Protocol P]

theorem countOf_le_of_flushed {hasSrcPort hasDstPort : P → Bool} (numbers : ProtocolNumbers P)
    {collector : SocketAddr} {reported : List (List (Flow P))} {flushes : List (Receipt P)}
    (reports : List.Forall₂ (Reports collector) reported flushes)
    (ports : ∀ window ∈ reported, ∀ flow ∈ window, flow.1.HasPorts hasSrcPort hasDstPort)
    {key : FlowKey P} (keyPorts : key.HasPorts hasSrcPort hasDstPort) (c : Counter) :
    countOf c key.wireTuple (flushes.flatMap Receipt.records) ≤
      capturedAmount c key reported.flatten := by
  induction reports with
  | nil => exact Nat.le_refl 0
  | @cons window receipt windows flushes first _ ih =>
      have here := countOf_le_of_reports numbers first (ports window (List.mem_cons_self ..))
        keyPorts c
      have rest := ih fun other member => ports other (List.mem_cons_of_mem _ member)
      rw [List.flatMap_cons, countOf_append, List.flatten_cons, capturedAmount_append]
      exact Nat.add_le_add here rest

theorem contents_of_run {collector : SocketAddr} {odid : U32} {events : List (AgentEvent P)}
    {agent : Agent P}
    (run : Run (AgentStep collector) (Agent.start collector odid) events agent) :
    ((receipts events).flatMap Receipt.datagrams).flatMap contents =
      (receipts events).flatMap Receipt.records := by
  rw [List.flatMap_assoc]
  refine List.flatMap_congr fun receipt member => ?_
  obtain ⟨before, next, step⟩ := flushStep_of_run run receipt member
  rw [records_of_flushStep step]
  exact contents_of_step step

theorem emitted_of_agent_run {collector : SocketAddr} {odid : U32}
    {events : List (AgentEvent P)} {agent : Agent P}
    (run : Run (AgentStep collector) (Agent.start collector odid) events agent) :
    ∀ datagram ∈ (receipts events).flatMap Receipt.datagrams, Emitted P datagram := by
  intro datagram member
  obtain ⟨receipt, flushed, inFlush⟩ := List.mem_flatMap.mp member
  obtain ⟨before, next, step⟩ := flushStep_of_run run receipt flushed
  exact emitted_of_step step datagram inFlush

/-- Records that were sent, each at most once, count no more than was captured. -/
theorem countOf_le_recorded {hasSrcPort hasDstPort : P → Bool} (numbers : ProtocolNumbers P)
    {collector : SocketAddr} {odid : U32} {events : List (AgentEvent P)} {agent : Agent P}
    (run : Run (AgentStep collector) (Agent.start collector odid) events agent)
    (parses : ∀ packet tsMs, AgentEvent.packet (some packet) tsMs ∈ events →
      packet.HasPorts hasSrcPort hasDstPort) {learned : List DataRecord}
    (sent : learned.Subperm ((receipts events).flatMap Receipt.records)) (c : Counter)
    {key : FlowKey P} (keyPorts : key.HasPorts hasSrcPort hasDstPort) :
    countOf c key.wireTuple learned ≤ recorded c key events := by
  obtain ⟨reported, pending, ledger⟩ := ledger_of_run run
  have ports : ∀ window ∈ reported, ∀ flow ∈ window, flow.1.HasPorts hasSrcPort hasDstPort :=
    fun window member => hasPorts_of_window parses (ledger.mem_closed member)
  have reports := countOf_le_of_flushed numbers ledger.flushed ports keyPorts c
  have received : countOf c key.wireTuple learned ≤
      countOf c key.wireTuple ((receipts events).flatMap Receipt.records) :=
    countOf_le_of_subperm sent
  rw [recorded_eq_capturedAmount, ← closed_append_open, ledger.closed, List.flatten_append,
    capturedAmount_append, capturedAmount_append]
  omega

/-- Whatever is lost of the datagrams of a run, and in whatever order the others
arrive: a collector that starts with nothing learns records that were sent, each
at most once, and its sum of a delta count for the tuple of a key is at most what
was captured of the key. -/
theorem never_overcounts {hasSrcPort hasDstPort : P → Bool} (numbers : ProtocolNumbers P)
    (collector : SocketAddr) (odid : U32) (events : List (AgentEvent P)) (agent : Agent P)
    (run : Run (AgentStep collector) (Agent.start collector odid) events agent)
    (parses : ∀ packet tsMs, AgentEvent.packet (some packet) tsMs ∈ events →
      packet.HasPorts hasSrcPort hasDstPort)
    (arrived : List (List Byte))
    (lossy : arrived.Subperm ((receipts events).flatMap Receipt.datagrams)) :
    (offerStream [] arrived).2.Subperm ((receipts events).flatMap Receipt.records) ∧
      ∀ (c : Counter) (key : FlowKey P), key.HasPorts hasSrcPort hasDstPort →
        countOf c key.wireTuple (offerStream [] arrived).2 ≤ recorded c key events := by
  have emitted : ∀ datagram ∈ arrived, Emitted P datagram :=
    fun datagram member => emitted_of_agent_run run datagram (lossy.subset member)
  have learned : (offerStream [] arrived).2 =
      (arrived.dropWhile fun datagram => !bearsTemplate datagram).flatMap contents :=
    wakes_offerMessage.feed emitted
  have sent : (offerStream [] arrived).2.Subperm ((receipts events).flatMap Receipt.records) := by
    rw [learned, ← contents_of_run run]
    apply flatMap_subperm
    exact (List.dropWhile_sublist _).subperm.trans lossy
  exact ⟨sent, fun c key keyPorts => countOf_le_recorded numbers run parses sent c keyPorts⟩

/-- The datagrams of the first flush arrive, those of the second are lost. -/
theorem never_overcounts_sample :
    ∃ (first second : Receipt SampleProtocol) (agent : Agent SampleProtocol),
      Run (AgentStep sampleCollector) (Agent.start sampleCollector 0)
        [.packet (some samplePacket) 0, .drain, .receive first, .packet (some samplePacket) 1000,
          .drain, .receive second] agent ∧
      (offerStream [] first.datagrams).2.Subperm (first.records ++ second.records) ∧
      countOf .packets sampleKey.wireTuple (offerStream [] first.datagrams).2 ≤ 2 := by
  obtain ⟨first, second, agent, run⟩ := sample_run_twice
  have parses : ∀ packet tsMs, AgentEvent.packet (some packet) tsMs ∈
      [.packet (some samplePacket) 0, .drain, .receive first, .packet (some samplePacket) 1000,
        .drain, .receive second] →
      packet.HasPorts (fun p => p != .arp) fun p => p != .arp := by
    intro packet tsMs captured
    simp only [List.mem_cons, AgentEvent.packet.injEq, Option.some.injEq, reduceCtorEq,
      List.not_mem_nil, or_false, false_or] at captured
    rcases captured with ⟨rfl, _⟩ | ⟨rfl, _⟩
    · exact ⟨rfl, rfl⟩
    · exact ⟨rfl, rfl⟩
  have both : ∀ {β : Type} (f : Receipt SampleProtocol → List β),
      [first, second].flatMap f = f first ++ f second := by
    intro β f
    rw [List.flatMap_cons, List.flatMap_singleton]
  have lossy : first.datagrams.Subperm ([first, second].flatMap Receipt.datagrams) := by
    rw [both]
    exact (List.sublist_append_left _ _).subperm
  obtain ⟨sent, bound⟩ :=
    never_overcounts sampleNumbers sampleCollector 0 _ agent run parses first.datagrams lossy
  have known : (offerStream [] first.datagrams).2.Subperm
      ([first, second].flatMap Receipt.records) := sent
  rw [both] at known
  exact ⟨first, second, agent, run, known, bound .packets sampleKey ⟨rfl, rfl⟩⟩

end Runs

end SniffnetAgent
