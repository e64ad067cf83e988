import SniffnetAgent.Ledger
import SniffnetAgent.Reception

/-!
# How much is sent

What the agent sends is bounded by what it captures: at most one record for a
packet, at most one datagram for a record, and 106 bytes for a record besides the
Template Sets.
-/

set_option autoImplicit false

namespace SniffnetAgent

open WireCodec CheckedArith LabelledRun Ipfix Collector

/-! ## One flush -/

section Flushes
variable {P : Type}

/-- The headers of a message are paid for by its records; the Template Set is not. -/
theorem charge_le {α : Type} (block : Block α) (due : Bool) (positive : 0 < block.size) :
    block.charge due ≤ 106 * block.size + if due then 124 else 0 := by
  simp only [Block.size] at positive ⊢
  simp only [Block.charge, openCharge, setCharge]
  split <;> split <;> split <;> omega

variable [Protocol P]

theorem traffic_messages {limit : Nat} (nowUnix odid : U32) (due : Bool) (seq : U32)
    (blocks : List (Block (Flow P))) (well : AllWellFormed limit due blocks) :
    (∀ datagram ∈ messages nowUnix odid due seq blocks, datagram.length ≤ limit) ∧
    (messages nowUnix odid due seq blocks).length ≤ (blocks.flatMap Block.flows).length ∧
    ((messages nowUnix odid due seq blocks).map List.length).sum ≤
      106 * (blocks.flatMap Block.flows).length + if due then 124 else 0 := by
  induction blocks generalizing due seq with
  | nil => exact ⟨by simp [messages], Nat.le_refl 0, by simp [messages]⟩
  | cons block blocks ih =>
      obtain ⟨⟨sorted, positive, charge⟩, tail⟩ := well
      obtain ⟨sizes, count, octets⟩ := ih false (seq + BitVec.ofNat 32 block.size) tail
      have head := length_messageBytes nowUnix odid due seq block sorted
      have bound := charge_le block due positive
      have size : block.flows.length = block.size := List.length_append
      rw [if_neg Bool.false_ne_true] at octets
      refine ⟨?_, ?_, ?_⟩
      · intro datagram member
        rcases List.mem_cons.mp member with rfl | later
        · rw [head]
          exact charge
        · exact sizes datagram later
      · rw [messages, List.length_cons, List.flatMap_cons, List.length_append, size]
        omega
      · rw [messages, List.map_cons, List.sum_cons, List.flatMap_cons, List.length_append, size,
          head]
        omega

def Receipt.datagrams (receipt : Receipt P) : List (List Byte) :=
  receipt.attempts.map Attempt.datagram

def Receipt.octets (receipt : Receipt P) : Nat := (receipt.datagrams.map List.length).sum

def Receipt.bearsTemplate (receipt : Receipt P) : Bool :=
  receipt.datagrams.any Collector.bearsTemplate

/-- The size of a flush against the number of its records. -/
structure Modest (receipt : Receipt P) : Prop where
  datagram : ∀ datagram ∈ receipt.datagrams, datagram.length ≤ 1200
  count : receipt.datagrams.length ≤ receipt.records.length
  octets : receipt.octets ≤
    106 * receipt.records.length + if receipt.bearsTemplate then 124 else 0

variable [DecidableEq P]

theorem modest_of_flushStep {collector : SocketAddr} {before next : Exporter}
    {receipt : Receipt P}
    (step : FlushStep before ⟨before, receipt.call collector, receipt.attempts⟩ next) :
    Modest receipt := by
  have records := records_of_flushStep step
  have carries := step.carriesTemplate
  obtain ⟨blocks, packs, datagrams⟩ := step.datagrams
  obtain ⟨well, order⟩ := packing_of_flows mtu packs
  have count : receipt.records.length = (blocks.flatMap Block.flows).length := by
    rw [records, List.length_map, order]
    rfl
  have template : receipt.bearsTemplate = before.carries (receipt.call collector) := by
    rw [← carries, Receipt.bearsTemplate, FlushEvent.carriesTemplate]
    rfl
  obtain ⟨sizes, number, octets⟩ := traffic_messages (unixSeconds receipt.clock) before.odid
    (before.carries (receipt.call collector)) before.seq blocks well
  have shape : receipt.datagrams = messages (unixSeconds receipt.clock) before.odid
    (before.carries (receipt.call collector)) before.seq blocks := datagrams
  refine ⟨?_, ?_, ?_⟩
  · rw [shape]
    exact sizes
  · rw [shape, count]
    exact number
  · rw [Receipt.octets, shape, count, template]
    exact octets

end Flushes

/-! ## One window -/

section Windows
variable {P : Type}

def AgentEvent.flow : AgentEvent P → Option (Flow P)
  | .packet parsed tsMs => decodePacket parsed tsMs
  | .drain => none
  | .receive _ => none

/-- The packets of a run that became flows, in the order of their capture. -/
def capturedFlows (events : List (AgentEvent P)) : List (Flow P) :=
  events.filterMap AgentEvent.flow

theorem windows_remaining (ops : List (TableOp P)) (current : List (Flow P)) :
    (windows current ops).flatten ++ remaining current ops = current ++ recordCalls ops := by
  induction ops generalizing current with
  | nil => exact (List.append_nil current).symm
  | cons op ops ih =>
      cases op with
      | record key packet =>
          have rest := ih (current ++ [(key, packet)])
          rw [List.append_assoc] at rest
          exact rest
      | drain =>
          have rest := ih []
          rw [windows, List.flatten_cons, remaining, List.append_assoc, rest]
          rfl

theorem recordCalls_tableOps (events : List (AgentEvent P)) :
    recordCalls (tableOps events) = capturedFlows events := by
  induction events with
  | nil => rfl
  | cons event events ih =>
      rw [tableOps_cons]
      cases event with
      | packet parsed tsMs =>
          simp only [AgentEvent.tableOps, capturedFlows, List.filterMap_cons, AgentEvent.flow]
          cases decodePacket parsed tsMs with
          | none => exact ih
          | some flow => exact congrArg (flow :: ·) ih
      | drain => exact ih
      | receive receipt => exact ih

/-- Every captured flow is in a closed window or in the open one. -/
theorem closed_append_open (events : List (AgentEvent P)) :
    (closedWindows events).flatten ++ openWindow events = capturedFlows events := by
  have whole := windows_remaining (tableOps events) []
  rw [List.nil_append, recordCalls_tableOps] at whole
  exact whole

variable [Protocol P] [DecidableEq P]

/-- A flush has no more records than its window has packets. -/
theorem Reports.length_le {collector : SocketAddr} {window : List (Flow P)} {receipt : Receipt P}
    (reports : Reports collector window receipt) : receipt.records.length ≤ window.length := by
  obtain ⟨reported, records, nodup, flows⟩ := reports
  have subset : reported.map Prod.fst ⊆ window.map Prod.fst := by
    intro key member
    obtain ⟨flow, listed, rfl⟩ := List.mem_map.mp member
    obtain ⟨_, val, summary, _⟩ := (flows flow).mp listed
    by_contra absent
    exact summary.ne_nil (packetsOf_eq_nil absent)
  have bound := (nodup.subperm subset).length_le
  rw [List.length_map, List.length_map] at bound
  rw [records, List.length_map]
  exact bound

theorem records_le_of_reports {collector : SocketAddr} {reported : List (List (Flow P))}
    {flushes : List (Receipt P)} (reports : List.Forall₂ (Reports collector) reported flushes) :
    (flushes.map fun receipt => receipt.records.length).sum ≤ reported.flatten.length := by
  induction reports with
  | nil => exact Nat.le_refl 0
  | cons first _ ih =>
      have here := first.length_le
      rw [List.map_cons, List.sum_cons, List.flatten_cons, List.length_append]
      omega

end Windows

/-! ## Whole runs -/

section Runs
variable {P : Type} [Protocol P] [DecidableEq P]

/-- The sums over all flushes. -/
structure Totalled (flushes : List (Receipt P)) : Prop where
  datagrams : (flushes.map fun receipt => receipt.datagrams.length).sum ≤
    (flushes.map fun receipt => receipt.records.length).sum
  octets : (flushes.map Receipt.octets).sum ≤
    106 * (flushes.map fun receipt => receipt.records.length).sum +
      124 * flushes.countP Receipt.bearsTemplate

omit [DecidableEq P] [Protocol P] in
theorem totalled_of_modest {flushes : List (Receipt P)}
    (modest : ∀ receipt ∈ flushes, Modest receipt) : Totalled flushes := by
  induction flushes with
  | nil => exact ⟨Nat.le_refl 0, Nat.le_refl 0⟩
  | cons receipt flushes ih =>
      obtain ⟨_, count, octets⟩ := modest receipt (List.mem_cons_self ..)
      obtain ⟨datagrams, total⟩ := ih fun other member => modest other (.tail _ member)
      constructor
      · rw [List.map_cons, List.map_cons, List.sum_cons, List.sum_cons]
        omega
      · rw [List.map_cons, List.map_cons, List.sum_cons, List.sum_cons, List.countP_cons]
        split at octets <;> simp_all <;> omega

omit [DecidableEq P] [Protocol P] in
theorem mem_receipts {events : List (AgentEvent P)} {receipt : Receipt P} :
    receipt ∈ receipts events ↔ AgentEvent.receive receipt ∈ events := by
  induction events with
  | nil => simp [receipts]
  | cons event events ih =>
      cases event with
      | packet parsed tsMs => simpa [receipts] using ih
      | drain => simpa [receipts] using ih
      | receive other => simpa [receipts] using or_congr_right ih

theorem flushStep_of_run {collector : SocketAddr} {odid : U32} {events : List (AgentEvent P)}
    {agent : Agent P}
    (run : Run (AgentStep collector) (Agent.start collector odid) events agent) :
    ∀ receipt ∈ receipts events, ∃ before next,
      FlushStep before ⟨before, receipt.call collector, receipt.attempts⟩ next := by
  have taken := takes_of_run (Q := fun _ => True) trivial run fun _ _ _ _ _ => trivial
  intro receipt member
  obtain ⟨_, before, next, _, _, step⟩ := taken receipt (mem_receipts.mp member)
  exact ⟨before, next, step⟩

theorem modest_of_run {collector : SocketAddr} {odid : U32} {events : List (AgentEvent P)}
    {agent : Agent P}
    (run : Run (AgentStep collector) (Agent.start collector odid) events agent) :
    ∀ receipt ∈ receipts events, Modest receipt := by
  intro receipt member
  obtain ⟨before, next, step⟩ := flushStep_of_run run receipt member
  exact modest_of_flushStep step

/-- Under any interleaving, flush by flush and in total. -/
theorem traffic_bounded (collector : SocketAddr) (odid : U32) (events : List (AgentEvent P))
    (agent : Agent P)
    (run : Run (AgentStep collector) (Agent.start collector odid) events agent) :
    (∀ receipt ∈ receipts events, Modest receipt) ∧ Totalled (receipts events) ∧
      ((receipts events).map fun receipt => receipt.records.length).sum ≤
        (capturedFlows events).length := by
  have modest := modest_of_run run
  refine ⟨modest, totalled_of_modest modest, ?_⟩
  obtain ⟨reported, pending, ledger⟩ := ledger_of_run run
  have sent := records_le_of_reports ledger.flushed
  have whole := congrArg List.length (closed_append_open events)
  rw [ledger.closed, List.flatten_append, List.length_append, List.length_append] at whole
  omega

theorem traffic_bounded_sample :
    ∃ (receipt : Receipt SampleProtocol) (agent : Agent SampleProtocol),
      Run (AgentStep sampleCollector) (Agent.start sampleCollector 0)
        [.packet (some samplePacket) 0, .drain, .receive receipt] agent ∧
      Modest receipt ∧ receipt.records.length ≤ 1 := by
  obtain ⟨receipt, agent, run⟩ := sample_run
  obtain ⟨modest, _, bound⟩ := traffic_bounded sampleCollector 0 _ agent run
  have sent : receipt.records.length + 0 ≤ 1 := bound
  exact ⟨receipt, agent, run, modest receipt (List.mem_singleton_self receipt), sent⟩

end Runs

end SniffnetAgent
