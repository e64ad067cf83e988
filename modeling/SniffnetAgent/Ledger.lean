import SniffnetAgent.Identity
import SniffnetAgent.Interleaving
import SniffnetAgent.Merging

/-!
# What the agent is for

Seen from outside, the agent keeps a ledger of windows: the packets since the
last drain, and the closed windows that no flush has reported yet.  A flush
reports the oldest closed window, with one record per flow of it, and that
record is the summary of the packets of the flow.
-/

set_option autoImplicit false

namespace SniffnetAgent

open LabelledRun Ipfix Pipe

/-! ## Windows -/

section Windows
variable {P : Type}

/-- What the step does to the table. -/
def AgentEvent.tableOps : AgentEvent P → List (TableOp P)
  | .packet parsed tsMs =>
      match decodePacket parsed tsMs with
      | some flow => [.record flow.1 flow.2]
      | none => []
  | .drain => [.drain]
  | .receive _ => []

def tableOps (events : List (AgentEvent P)) : List (TableOp P) :=
  events.flatMap AgentEvent.tableOps

/-- The packets of each window that a drain has closed, oldest window first. -/
def closedWindows (events : List (AgentEvent P)) : List (List (Flow P)) :=
  windows [] (tableOps events)

/-- The record calls since the last drain. -/
def remaining (current : List (Flow P)) : List (TableOp P) → List (Flow P)
  | [] => current
  | .record key packet :: ops => remaining (current ++ [(key, packet)]) ops
  | .drain :: ops => remaining [] ops

def openWindow (events : List (AgentEvent P)) : List (Flow P) := remaining [] (tableOps events)

theorem tableOps_cons (event : AgentEvent P) (events : List (AgentEvent P)) :
    tableOps (event :: events) = event.tableOps ++ tableOps events :=
  List.flatMap_cons

/-- Receives do not touch the table. -/
theorem tableOps_captures (events : List (AgentEvent P)) :
    tableOps (events.filter AgentEvent.captures) = tableOps events := by
  induction events with
  | nil => rfl
  | cons event events ih =>
      cases event with
      | packet parsed tsMs =>
          rw [List.filter_cons_of_pos rfl, tableOps_cons, tableOps_cons, ih]
      | drain => rw [List.filter_cons_of_pos rfl, tableOps_cons, tableOps_cons, ih]
      | receive receipt => exact ih

variable [DecidableEq P]

theorem makes_summaries {table next : FlowTable P} {events : List (AgentEvent P)}
    {made : List (FlowMap P)} (makes : Makes Captures table events made next)
    {current : List (Flow P)} (summarises : Summarises current table.inner) :
    List.Forall₂ Summarises (windows current (tableOps events)) made ∧
      Summarises (remaining current (tableOps events)) next.inner := by
  induction makes generalizing current with
  | nil table => exact ⟨.nil, summarises⟩
  | cons step _ ih =>
      rw [tableOps_cons]
      cases step with
      | packet parsed tsMs =>
          rw [List.nil_append, AgentEvent.tableOps]
          rw [FlowTable.capture] at ih
          cases decoded : decodePacket parsed tsMs with
          | none =>
              rw [decoded] at ih
              exact ih summarises
          | some flow =>
              rw [decoded] at ih
              exact ih (summarises.record flow.1 flow.2)
      | drain =>
          obtain ⟨closed, remains⟩ := ih summarises_new
          exact ⟨.cons summarises closed, remains⟩

end Windows

/-! ## One report -/

section Reports
variable {P : Type}

/-- A summary leaves nothing open. -/
theorem IsSummary.unique {history : List FlowVal} {val val' : FlowVal}
    (summary : IsSummary history val) (summary' : IsSummary history val') : val = val' := by
  have bytes : val.bytes = val'.bytes :=
    BitVec.eq_of_toNat_eq (summary.bytes.trans summary'.bytes.symm)
  have packets : val.packets = val'.packets :=
    BitVec.eq_of_toNat_eq (summary.packets.trans summary'.packets.symm)
  have etherType : val.etherType = val'.etherType :=
    Option.some.inj (summary.etherType.symm.trans summary'.etherType)
  have direction : val.direction = val'.direction :=
    Option.some.inj (summary.direction.symm.trans summary'.direction)
  obtain ⟨⟨first, member, same⟩, bound⟩ := summary.firstSeenMs
  obtain ⟨⟨first', member', same'⟩, bound'⟩ := summary'.firstSeenMs
  have firstSeenMs : val.firstSeenMs = val'.firstSeenMs :=
    BitVec.le_antisymm (same' ▸ bound first' member') (same ▸ bound' first member)
  obtain ⟨⟨last, member, same⟩, bound⟩ := summary.lastSeenMs
  obtain ⟨⟨last', member', same'⟩, bound'⟩ := summary'.lastSeenMs
  have lastSeenMs : val.lastSeenMs = val'.lastSeenMs :=
    BitVec.le_antisymm (same ▸ bound' last member) (same' ▸ bound last' member')
  have srcMac := summary.srcMac.trans summary'.srcMac.symm
  have dstMac := summary.dstMac.trans summary'.dstMac.symm
  have vlanId := summary.vlanId.trans summary'.vlanId.symm
  cases val
  cases val'
  simp only at bytes packets srcMac dstMac vlanId etherType direction firstSeenMs lastSeenMs
  simp only [bytes, packets, srcMac, dstMac, vlanId, etherType, direction, firstSeenMs, lastSeenMs]

variable [DecidableEq P]

theorem lookup_iff_isSummary {window : List (Flow P)} {map : FlowMap P}
    (summarises : Summarises window map) (key : FlowKey P) (val : FlowVal) :
    map.lookup key = some val ↔ IsSummary (packetsOf key window) val := by
  obtain ⟨keys, values⟩ := summarises key
  constructor
  · exact values val
  · intro summary
    have listed : key ∈ window.map Prod.fst := by
      by_contra absent
      exact summary.ne_nil (packetsOf_eq_nil absent)
    obtain ⟨kept, found⟩ := Finmap.mem_iff.mp (keys.mpr listed)
    rw [found, (values kept found).unique summary]

variable [Protocol P]

/-- A flow of the window that is not filtered out, as it is exported. -/
def Amounts (collector : SocketAddr) (addrs : List IpAddr) (window : List (Flow P))
    (flow : Flow P) : Prop :=
  flow.1.isSelfExport collector = false ∧
    ∃ val, IsSummary (packetsOf flow.1 window) val ∧ flow.2 = val.withDirection flow.1 addrs

/-- The records of the flush are those of the flows of the window, one each. -/
def Reports (collector : SocketAddr) (window : List (Flow P)) (receipt : Receipt P) : Prop :=
  ∃ reported : List (Flow P), receipt.records = reported.map collectorRecord ∧
    (reported.map Prod.fst).Nodup ∧
    ∀ flow, flow ∈ reported ↔ Amounts collector receipt.addrs window flow

theorem mem_exportFlows_iff {collector : SocketAddr} {addrs : List IpAddr} {map : FlowMap P}
    {entries : List (Flow P)} (enumerates : FlowMap.Enumerates map entries) (flow : Flow P) :
    flow ∈ exportFlows collector addrs entries ↔ flow.1.isSelfExport collector = false ∧
      ∃ val, map.lookup flow.1 = some val ∧ flow.2 = val.withDirection flow.1 addrs := by
  obtain ⟨key, exported⟩ := flow
  constructor
  · intro member
    obtain ⟨⟨own, val⟩, listed, same⟩ := List.mem_map.mp member
    rw [Prod.mk.injEq] at same
    obtain ⟨rfl, rfl⟩ := same
    obtain ⟨inMap, foreign⟩ := List.mem_filter.mp listed
    exact ⟨by simpa using foreign, val, (enumerates.mem_iff own val).mp inMap, rfl⟩
  · rintro ⟨foreign, val, found, same⟩
    have listed : (key, val) ∈ entries := (enumerates.mem_iff key val).mpr found
    obtain rfl : exported = val.withDirection key addrs := same
    exact List.mem_map_of_mem (List.mem_filter.mpr ⟨listed, by simpa using foreign⟩)

theorem Exports.reports {collector : SocketAddr} {before after : Exporter} {map : FlowMap P}
    {receipt : Receipt P} {window : List (Flow P)} (summarises : Summarises window map)
    (exported : Exports collector before (.receive receipt) map after) :
    Reports collector window receipt := by
  cases exported with
  | receive _ _ _ result enumerates flushed =>
      have order := wireOrder_perm (receipt.flows collector)
      refine ⟨wireOrder (receipt.flows collector),
        records_of_flushStep (flushStep_of_receive flushed), ?_, ?_⟩
      · rw [(order.map Prod.fst).nodup_iff]
        exact nodup_keys_exportFlows enumerates
      · intro flow
        rw [order.mem_iff, Receipt.flows, mem_exportFlows_iff enumerates]
        simp only [Amounts, lookup_iff_isSummary summarises]

end Reports

/-! ## Every interleaving -/

section Runs
variable {P : Type} [DecidableEq P] [Protocol P]

theorem reports_of_takes {collector : SocketAddr} {windows : List (List (Flow P))}
    {used : List (FlowMap P)} {flushes : List (Receipt P)}
    (summarised : List.Forall₂ Summarises windows used)
    (taken : List.Forall₂ (fun map receipt => ∃ before after,
      Exports collector before (.receive receipt) map after) used flushes) :
    List.Forall₂ (Reports collector) windows flushes := by
  induction summarised generalizing flushes with
  | nil =>
      cases taken
      exact .nil
  | cons summarises _ ih =>
      cases taken with
      | cons first rest =>
          obtain ⟨before, after, exported⟩ := first
          exact .cons (exported.reports summarises) (ih rest)

/-- The books of a run: the closed windows are those that were reported, each by
one flush, and those that wait in the channel; the open one is in the table. -/
structure Ledger (collector : SocketAddr) (events : List (AgentEvent P)) (agent : Agent P)
    (reported pending : List (List (Flow P))) : Prop where
  closed : closedWindows events = reported ++ pending
  flushed : List.Forall₂ (Reports collector) reported (receipts events)
  queued : List.Forall₂ Summarises pending agent.channel
  table : Summarises (openWindow events) agent.table.inner

theorem ledger_of_run {collector : SocketAddr} {odid : U32} {events : List (AgentEvent P)}
    {agent : Agent P}
    (run : Run (AgentStep collector) (Agent.start collector odid) events agent) :
    ∃ reported pending, Ledger collector events agent reported pending := by
  obtain ⟨made, used, produced, consumed, conserved, _⟩ := run_threads run
  obtain ⟨closed, remains⟩ := makes_summaries produced summarises_new
  rw [tableOps_captures] at closed remains
  have queue : made = used ++ agent.channel := conserved
  rw [queue] at closed
  have taken := consumed.forall₂
  rw [filter_receives, List.forall₂_map_right_iff] at taken
  exact ⟨_, _, (List.take_append_drop used.length (closedWindows events)).symm,
    reports_of_takes (List.forall₂_take_append _ _ _ closed) taken,
    List.forall₂_drop_append _ _ _ closed, remains⟩

theorem Ledger.mem_closed {collector : SocketAddr} {events : List (AgentEvent P)}
    {agent : Agent P} {reported pending : List (List (Flow P))}
    (ledger : Ledger collector events agent reported pending) {window : List (Flow P)}
    (member : window ∈ reported) : window ∈ closedWindows events := by
  rw [ledger.closed]
  exact List.mem_append_left _ member

/-- The window that a flush reports. -/
theorem Ledger.window_of_receipt {collector : SocketAddr} {events : List (AgentEvent P)}
    {agent : Agent P} {reported pending : List (List (Flow P))}
    (ledger : Ledger collector events agent reported pending) {receipt : Receipt P}
    (member : receipt ∈ receipts events) :
    ∃ window ∈ closedWindows events, Reports collector window receipt := by
  obtain ⟨i, bound, rfl⟩ := List.mem_iff_getElem.mp member
  have size := ledger.flushed.length_eq
  exact ⟨reported[i], ledger.mem_closed (List.getElem_mem _),
    ledger.flushed.get (size.symm ▸ bound) bound⟩

/-- In every run of the process, however its threads are interleaved, each flush
reports one closed window, in the order of the windows. -/
theorem process_keeps_ledger (collector : SocketAddr) (odid : U32) (started : Nat)
    (overflowChecks : Bool) (history : List (ProcessEvent P)) (process : Process P)
    (run : Run (ProcessStep collector overflowChecks) (Process.start collector odid started)
      history process) :
    ∃ reported pending,
      Ledger collector (history.flatMap (ProcessEvent.agentEvents overflowChecks))
        process.agent reported pending :=
  ledger_of_run (agent_run_of_process_run run)

/-- One packet, drained and flushed. -/
theorem sample_run_with (addrs : List IpAddr) :
    ∃ (receipt : Receipt SampleProtocol) (agent : Agent SampleProtocol),
      Run (AgentStep sampleCollector) (Agent.start sampleCollector 0)
        [.packet (some samplePacket) 0, .drain, .receive receipt] agent ∧
      receipt.addrs = addrs := by
  let opened := (FlowTable.new (P := SampleProtocol)).capture (some samplePacket) 0
  obtain ⟨receipt, next, received, same, _⟩ := receive_enabled sampleCollector
    ⟨FlowTable.new, [opened.inner], Exporter.fresh sampleCollector 0⟩ opened.inner [] rfl addrs
    ⟨0, 0, none⟩ fun _ => none
  exact ⟨receipt, next, .cons (.packet _ _ _) (.cons (.drain _) (.cons received (.nil _))), same⟩

theorem sample_run :
    ∃ (receipt : Receipt SampleProtocol) (agent : Agent SampleProtocol),
      Run (AgentStep sampleCollector) (Agent.start sampleCollector 0)
        [.packet (some samplePacket) 0, .drain, .receive receipt] agent := by
  obtain ⟨receipt, agent, run, _⟩ := sample_run_with []
  exact ⟨receipt, agent, run⟩

/-- Two flushes of one packet each. -/
theorem sample_run_twice :
    ∃ (first second : Receipt SampleProtocol) (agent : Agent SampleProtocol),
      Run (AgentStep sampleCollector) (Agent.start sampleCollector 0)
        [.packet (some samplePacket) 0, .drain, .receive first, .packet (some samplePacket) 1000,
          .drain, .receive second] agent := by
  obtain ⟨first, agent, run⟩ := sample_run
  let table := agent.table.capture (some samplePacket) 1000
  have waiting : ∃ map rest, agent.channel ++ [table.drain.1] = map :: rest :=
    List.exists_cons_of_ne_nil (by simp)
  obtain ⟨map, rest, waiting⟩ := waiting
  obtain ⟨second, last, received, _⟩ := receive_enabled sampleCollector
    { agent with table := table.drain.2, channel := agent.channel ++ [table.drain.1] } map rest
    waiting [] ⟨0, 0, none⟩ fun _ => none
  exact ⟨first, second, last,
    run.append (.cons (.packet _ _ _) (.cons (.drain _) (.cons received (.nil _))))⟩

theorem process_keeps_ledger_sample :
    ∃ (history : List (ProcessEvent SampleProtocol)) (receipt : Receipt SampleProtocol)
        (process : Process SampleProtocol) (reported pending : List (List (Flow SampleProtocol))),
      Run (ProcessStep sampleCollector true) (Process.start sampleCollector 0 0) history process ∧
      Ledger sampleCollector [.packet (some samplePacket) 0, .drain, .receive receipt]
        process.agent reported pending := by
  obtain ⟨receipt, agent, run⟩ := sample_run
  obtain ⟨history, process, concrete, seen, _⟩ := process_run_of_agent_run 0 true run
  obtain ⟨reported, pending, ledger⟩ := process_keeps_ledger sampleCollector 0 0 true _ _ concrete
  rw [seen] at ledger
  exact ⟨history, receipt, process, reported, pending, concrete, ledger⟩

end Runs

end SniffnetAgent
