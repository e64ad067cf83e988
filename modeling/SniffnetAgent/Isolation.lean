import SniffnetAgent.Accounting
import SniffnetAgent.Traffic

/-!
# Flows do not disturb each other

The packets of one flow change nothing in the records of the others, wherever
they are captured, and add one record to a flush at most.  So own exports that the
filter misses come back as one record each time, and the loop does not grow.
-/

set_option autoImplicit false

namespace SniffnetAgent

open LabelledRun Ipfix Collector

/-! ## Two windows -/

section Windows
variable {P : Type} [DecidableEq P]

/-- A captured packet of the flow, or one that makes no flow. -/
def PacketOf (key : FlowKey P) (event : AgentEvent P) : Prop :=
  ∃ parsed tsMs, event = .packet parsed tsMs ∧
    ∀ flow, decodePacket parsed tsMs = some flow → flow.1 = key

/-- The windows have the same packets, in the same order, but for one flow. -/
def SameBut (key : FlowKey P) (window window' : List (Flow P)) : Prop :=
  window.filter (fun flow => flow.1 ≠ key) = window'.filter fun flow => flow.1 ≠ key

theorem SameBut.snoc {key : FlowKey P} {window window' : List (Flow P)}
    (same : SameBut key window window') (flow : Flow P) :
    SameBut key (window ++ [flow]) (window' ++ [flow]) := by
  rw [SameBut, List.filter_append, List.filter_append, same]

theorem SameBut.extra {key : FlowKey P} {window window' : List (Flow P)}
    (same : SameBut key window window') {flow : Flow P} (own : flow.1 = key) :
    SameBut key window (window' ++ [flow]) := by
  have dropped : [flow].filter (fun other => other.1 ≠ key) = [] :=
    List.filter_cons_of_neg (by simp [own])
  rw [SameBut, List.filter_append, dropped, List.append_nil]
  exact same

theorem SameBut.packetsOf {key other : FlowKey P} {window window' : List (Flow P)}
    (same : SameBut key window window') (ne : other ≠ key) :
    packetsOf other window = packetsOf other window' := by
  have kept : ∀ window : List (Flow P), window.filter (fun flow => flow.1 = other) =
      (window.filter fun flow => flow.1 ≠ key).filter fun flow => flow.1 = other := by
    intro window
    rw [List.filter_filter]
    apply List.filter_congr
    intro flow _
    by_cases own : flow.1 = other
    · simp [own, ne]
    · simp [own]
  rw [SniffnetAgent.packetsOf, kept window, same, ← kept window', ← SniffnetAgent.packetsOf]

theorem windows_inserted {key : FlowKey P} {events events' : List (AgentEvent P)}
    (inserted : Inserted SameInput (PacketOf key) events events') {current current' : List (Flow P)}
    (same : SameBut key current current') :
    List.Forall₂ (SameBut key) (windows current (tableOps events))
      (windows current' (tableOps events')) := by
  induction inserted generalizing current current' with
  | nil => exact .nil
  | both alike _ ih =>
      rw [tableOps_cons, tableOps_cons]
      cases alike with
      | packet parsed tsMs =>
          rw [AgentEvent.tableOps]
          cases decodePacket parsed tsMs with
          | none => exact ih same
          | some flow => exact ih (same.snoc flow)
      | drain => exact .cons same (ih rfl)
      | receive receipt receipt' clock addrs => exact ih same
  | extra own _ ih =>
      obtain ⟨parsed, tsMs, rfl, mine⟩ := own
      rw [tableOps_cons, AgentEvent.tableOps]
      cases decoded : decodePacket parsed tsMs with
      | none => exact ih same
      | some flow => exact ih (same.extra (mine flow decoded))

end Windows

/-! ## Two reports -/

section Reports
variable {P : Type} [DecidableEq P] [Protocol P]

/-- The records are the same but for the flow, of which there is one at most. -/
def DifferBy (key : FlowKey P) (receipt receipt' : Receipt P) : Prop :=
  ∃ common mine mine', receipt.records.Perm (common ++ mine) ∧
    receipt'.records.Perm (common ++ mine') ∧ mine.length ≤ 1 ∧ mine'.length ≤ 1 ∧
    ∀ record ∈ mine ++ mine', wireTuple record = key.wireTuple

/-- The records of a report, those of one flow apart. -/
theorem Reports.apart {collector : SocketAddr} {window : List (Flow P)} {receipt : Receipt P}
    (reports : Reports collector window receipt) (key : FlowKey P) :
    ∃ others mine : List (Flow P),
      receipt.records.Perm (others.map collectorRecord ++ mine.map collectorRecord) ∧
      others.Nodup ∧ mine.length ≤ 1 ∧ (∀ flow ∈ mine, flow.1 = key) ∧
      ∀ flow, flow ∈ others ↔ flow.1 ≠ key ∧ Amounts collector receipt.addrs window flow := by
  obtain ⟨reported, records, nodup, flows⟩ := reports
  let other : Flow P → Bool := fun flow => flow.1 ≠ key
  refine ⟨reported.filter other, reported.filter fun flow => !other flow, ?_, ?_, ?_, ?_, ?_⟩
  · rw [records, ← List.map_append]
    exact ((List.filter_append_perm other reported).map collectorRecord).symm
  · exact (List.Nodup.of_map Prod.fst nodup).filter _
  · have count := List.nodup_iff_count_le_one.mp nodup key
    rw [List.count, List.countP_map, List.countP_eq_length_filter] at count
    refine le_trans (le_of_eq ?_) count
    congr 1
    apply List.filter_congr
    intro flow _
    have own : (!other flow) = decide (flow.1 = key) := by simp [other]
    rw [own]
    rfl
  · intro flow member
    simpa [other] using (List.mem_filter.mp member).2
  · intro flow
    rw [List.mem_filter, flows flow, and_comm]
    simp [other]

theorem differBy_of_reports {collector : SocketAddr} {key : FlowKey P}
    {window window' : List (Flow P)} {receipt receipt' : Receipt P}
    (reports : Reports collector window receipt) (reports' : Reports collector window' receipt')
    (same : SameBut key window window') (addrs : receipt.addrs = receipt'.addrs) :
    DifferBy key receipt receipt' := by
  obtain ⟨others, mine, records, nodup, one, own, flows⟩ := reports.apart key
  obtain ⟨others', mine', records', nodup', one', own', flows'⟩ := reports'.apart key
  have common : others.Perm others' := by
    rw [List.perm_ext_iff_of_nodup nodup nodup']
    intro flow
    rw [flows, flows', addrs]
    by_cases ne : flow.1 = key
    · simp [ne]
    · rw [Amounts, Amounts, same.packetsOf ne]
  refine ⟨others.map collectorRecord, mine.map collectorRecord, mine'.map collectorRecord, records,
    records'.trans ((common.map collectorRecord).symm.append_right _), ?_, ?_, ?_⟩
  · rwa [List.length_map]
  · rwa [List.length_map]
  · intro record member
    rw [← List.map_append] at member
    obtain ⟨flow, inMine, rfl⟩ := List.mem_map.mp member
    rw [wireTuple_collectorRecord]
    rcases List.mem_append.mp inMine with left | right
    · rw [own flow left]
    · rw [own' flow right]

end Reports

/-! ## Two runs -/

section Runs
variable {P : Type} [DecidableEq P] [Protocol P]

omit [Protocol P] [DecidableEq P] in
theorem addrs_inserted {key : FlowKey P} {events events' : List (AgentEvent P)}
    (inserted : Inserted SameInput (PacketOf key) events events') :
    List.Forall₂ (fun receipt receipt' : Receipt P => receipt.addrs = receipt'.addrs)
      (receipts events) (receipts events') := by
  induction inserted with
  | nil => exact .nil
  | both alike _ ih =>
      cases alike with
      | packet parsed tsMs => exact ih
      | drain => exact ih
      | receive receipt receipt' clock addrs => exact .cons addrs ih
  | extra own _ ih =>
      obtain ⟨parsed, tsMs, rfl, _⟩ := own
      exact ih

theorem differBy_of_ledgers {collector : SocketAddr} {key : FlowKey P}
    {reported reported' : List (List (Flow P))} {flushes flushes' : List (Receipt P)}
    (reports : List.Forall₂ (Reports collector) reported flushes)
    (reports' : List.Forall₂ (Reports collector) reported' flushes')
    (same : List.Forall₂ (SameBut key) reported reported')
    (addrs : List.Forall₂ (fun receipt receipt' => receipt.addrs = receipt'.addrs)
      flushes flushes') : List.Forall₂ (DifferBy key) flushes flushes' := by
  induction reports generalizing reported' flushes' with
  | nil =>
      cases addrs
      exact .nil
  | cons first _ ih =>
      cases same with
      | cons sameFirst sameRest =>
          cases reports' with
          | cons first' rest' =>
              cases addrs with
              | cons addrsFirst addrsRest =>
                  exact .cons (differBy_of_reports first first' sameFirst addrsFirst)
                    (ih rest' sameRest addrsRest)

theorem differBy_of_inserted {collector : SocketAddr} {key : FlowKey P}
    {events events' : List (AgentEvent P)} {agent agent' : Agent P}
    {reported reported' pending pending' : List (List (Flow P))}
    (ledger : Ledger collector events agent reported pending)
    (ledger' : Ledger collector events' agent' reported' pending')
    (inserted : Inserted SameInput (PacketOf key) events events') :
    List.Forall₂ (DifferBy key) (receipts events) (receipts events') := by
  have addrs := addrs_inserted inserted
  have windows : List.Forall₂ (SameBut key) (closedWindows events) (closedWindows events') :=
    windows_inserted inserted rfl
  rw [ledger.closed, ledger'.closed] at windows
  have length : reported.length = reported'.length := by
    rw [ledger.flushed.length_eq, ledger'.flushed.length_eq, addrs.length_eq]
  have same := List.forall₂_take reported.length windows
  rw [List.take_left, length, List.take_left] at same
  exact differBy_of_ledgers ledger.flushed ledger'.flushed same addrs

/-- A captured packet that one socket of the exporter sent, wherever the system sends
the datagrams of that collector. -/
def SocketExport (collector : SocketAddr) (src : IpAddr) (port : U16) (dst : IpAddr)
    (event : AgentEvent P) : Prop :=
  ∃ parsed tsMs, event = .packet (some parsed) tsMs ∧
    parsed.transportInfo = ⟨some port, some collector.port, Protocol.udp⟩ ∧
    parsed.netInfo.srcIp = src ∧ parsed.netInfo.dstIp = dst

omit [DecidableEq P] in
theorem exists_socketKey (collector : SocketAddr) (src : IpAddr) (port : U16) (dst : IpAddr) :
    ∃ key : FlowKey P, ∀ event, SocketExport collector src port dst event →
      PacketOf key event := by
  let addrs := (pairAddrs src dst).getD (.v4 .unspecified .unspecified)
  refine ⟨⟨addrs, some port, some collector.port, Protocol.udp⟩, ?_⟩
  rintro event ⟨parsed, tsMs, rfl, transport, source, destination⟩
  refine ⟨some parsed, tsMs, rfl, ?_⟩
  intro flow decoded
  simp only [decodePacket, Option.bind_eq_bind, Option.bind_some] at decoded
  obtain ⟨paired, pairs, result⟩ := Option.bind_eq_some_iff.mp decoded
  cases Option.some.inj result
  rw [source, destination] at pairs
  have same : addrs = paired := by
    simp only [addrs, pairs, Option.getD_some]
  rw [transport, same]

theorem Reports.length_le_one {collector : SocketAddr} {key : FlowKey P}
    {window : List (Flow P)} {receipt : Receipt P} (reports : Reports collector window receipt)
    (own : ∀ flow ∈ window, flow.1 = key) : receipt.records.length ≤ 1 := by
  obtain ⟨others, mine, records, _, one, _, flows⟩ := reports.apart key
  have none : others = [] := by
    apply List.eq_nil_iff_forall_not_mem.mpr
    intro flow member
    obtain ⟨ne, _, val, summary, _⟩ := (flows flow).mp member
    apply summary.ne_nil
    apply packetsOf_eq_nil
    intro listed
    obtain ⟨packet, inWindow, same⟩ := List.mem_map.mp listed
    exact ne (same ▸ own packet inWindow)
  rw [records.length_eq, none, List.map_nil, List.nil_append, List.length_map]
  exact one

/-- For every collector, and wherever the system sends its datagrams, also where the
filter misses them: capturing the datagrams of the exporter's socket adds one record
to a flush at most, and where nothing else is captured a flush is one datagram of at
most 230 bytes. -/
theorem feedback_bounded (collector : SocketAddr) (odid : U32) (src : IpAddr) (port : U16)
    (dst : IpAddr) (events' : List (AgentEvent P)) (agent' : Agent P)
    (run' : Run (AgentStep collector) (Agent.start collector odid) events' agent') :
    (∀ (events : List (AgentEvent P)) (agent : Agent P),
      Run (AgentStep collector) (Agent.start collector odid) events agent →
      Inserted SameInput (SocketExport collector src port dst) events events' →
      List.Forall₂ (fun receipt receipt' : Receipt P =>
        receipt'.records.length ≤ receipt.records.length + 1)
        (receipts events) (receipts events')) ∧
    ((∀ parsed tsMs, AgentEvent.packet parsed tsMs ∈ events' →
        SocketExport collector src port dst (.packet parsed tsMs : AgentEvent P)) →
      ∀ receipt ∈ receipts events', receipt.records.length ≤ 1 ∧
        receipt.datagrams.length ≤ 1 ∧ receipt.octets ≤ 230) := by
  obtain ⟨key, own⟩ := exists_socketKey (P := P) collector src port dst
  obtain ⟨_, _, ledger'⟩ := ledger_of_run run'
  constructor
  · intro events agent run inserted
    obtain ⟨_, _, ledger⟩ := ledger_of_run run
    have differ := differBy_of_inserted ledger ledger' (inserted.imp own)
    refine differ.imp ?_
    rintro receipt receipt' ⟨common, mine, mine', records, records', _, one', _⟩
    rw [records.length_eq, records'.length_eq, List.length_append, List.length_append]
    omega
  · intro only receipt member
    obtain ⟨window, closed, reports⟩ := ledger'.window_of_receipt member
    have ofKey : ∀ flow ∈ window, flow.1 = key := by
      intro flow inside
      obtain ⟨parsed, tsMs, happened, decoded⟩ := captured_of_window closed inside
      obtain ⟨_, _, shape, mine⟩ := own _ (only parsed tsMs happened)
      cases shape
      exact mine flow decoded
    have one := reports.length_le_one ofKey
    obtain ⟨_, count, octets⟩ := modest_of_run run' receipt member
    refine ⟨one, by omega, ?_⟩
    split at octets <;> omega

/-- One own export to [::ffff:127.0.0.1]:4739, sent over IPv4, captured and flushed. -/
theorem feedback_bounded_mapped :
    ∃ (receipt : Receipt SampleProtocol) (agent : Agent SampleProtocol),
      Run (AgentStep ⟨.v6 ⟨0xFFFF7F000001⟩, 4739⟩) (Agent.start ⟨.v6 ⟨0xFFFF7F000001⟩, 4739⟩ 0)
        [.packet (some (exportTo SampleProtocol ⟨.v6 ⟨0xFFFF7F000001⟩, 4739⟩
          (.v4 ⟨0x7F000001⟩))) 0, .drain, .receive receipt] agent ∧
      receipt.datagrams.length ≤ 1 ∧ receipt.octets ≤ 230 := by
  let mapped : SocketAddr := ⟨.v6 ⟨0xFFFF7F000001⟩, 4739⟩
  let dst : IpAddr := .v4 ⟨0x7F000001⟩
  let packet := exportTo SampleProtocol mapped dst
  let table := (FlowTable.new (P := SampleProtocol)).capture (some packet) 0
  obtain ⟨receipt, agent, received, _⟩ := receive_enabled mapped
    ⟨FlowTable.new, [table.inner], Exporter.fresh mapped 0⟩ table.inner [] rfl [] ⟨0, 0, none⟩
    fun _ => none
  have run : Run (AgentStep mapped) (Agent.start mapped 0)
      [.packet (some packet) 0, .drain, .receive receipt] agent :=
    .cons (.packet _ _ _) (.cons (.drain _) (.cons received (.nil _)))
  have own : SocketExport mapped (.v4 ⟨0x0A000001⟩) 40000 dst (.packet (some packet) 0) :=
    ⟨packet, 0, rfl, rfl, rfl, rfl⟩
  obtain ⟨_, quiet⟩ := feedback_bounded mapped 0 (.v4 ⟨0x0A000001⟩) 40000 dst _ agent run
  obtain ⟨_, count, octets⟩ := quiet
    (by
      intro parsed tsMs member
      simp only [List.mem_cons, AgentEvent.packet.injEq, reduceCtorEq, List.not_mem_nil,
        or_false] at member
      rw [member.1, member.2]
      exact own)
    receipt (List.mem_singleton_self receipt)
  exact ⟨receipt, agent, run, count, octets⟩

end Runs

end SniffnetAgent
