import SniffnetAgent.Tracing
import SniffnetAgent.Traffic

/-!
# When a packet is reported

The capture thread hands a packet over with the first table that it sends
afterwards; the flush of that table has a record of the packet.  When the
threads end, every table that was sent has been flushed.
-/

set_option autoImplicit false

namespace SniffnetAgent

open CheckedArith LabelledRun PollTimer Collector

/-! ## The interval of a packet -/

section Positions
variable {P : Type}

theorem mem_interval {before after : List (AgentEvent P)} {parsed : Option (ParsedPacket P)}
    {tsMs : U64} {flow : Flow P} (decoded : decodePacket parsed tsMs = some flow) :
    flow ∈ interval (drains before) (before ++ .packet parsed tsMs :: after) := by
  induction before with
  | nil =>
      have head : interval 0 (.packet parsed tsMs :: after) = flow :: interval 0 after := by
        rw [interval, decoded]
        rfl
      rw [List.nil_append]
      exact head ▸ List.mem_cons_self ..
  | cons event before ih =>
      cases event with
      | packet other otherMs =>
          have same : drains (.packet other otherMs :: before) = drains before :=
            List.countP_cons_of_neg Bool.false_ne_true
          rw [same, List.cons_append]
          cases count : drains before with
          | zero =>
              rw [count] at ih
              exact List.mem_append_right _ ih
          | succ d =>
              rw [count] at ih
              exact ih
      | drain =>
          have one : drains (.drain :: before) = drains before + 1 := List.countP_cons_of_pos rfl
          rw [one]
          exact ih
      | receive receipt =>
          have same : drains (.receive receipt :: before) = drains before :=
            List.countP_cons_of_neg Bool.false_ne_true
          rw [same, List.cons_append]
          cases count : drains before with
          | zero =>
              rw [count] at ih
              exact ih
          | succ d =>
              rw [count] at ih
              exact ih

theorem polls_append (before after : List (ProcessEvent P)) :
    polls (before ++ after) = polls before ++ polls after :=
  List.filterMap_append

end Positions

/-! ## Every run of the process -/

section Runs
variable {P : Type} [DecidableEq P] [Protocol P]

/-- In every run of the process: after a packet the table is sent at the first
look at the clock that is 900 ms past the last time it was sent, and when no two
looks are further apart than `gap` that look is less than one gap late.  The
flush of that table has a record of the packet's flow, which describes what was
captured of the flow in the interval of the flush, the packet among it. -/
theorem packet_reported_in_time (collector : SocketAddr) (odid : U32) (started : Nat)
    (overflowChecks : Bool) (history : List (ProcessEvent P)) (process : Process P)
    (run : Run (ProcessStep collector overflowChecks) (Process.start collector odid started)
      history process)
    (before after : List (ProcessEvent P)) (parsed : Option (ParsedPacket P)) (ts : Timeval)
    (tsMs : U64) (flow : Flow P)
    (split : history = before ++ .nextPacket (.packet parsed ts) :: after)
    (converted : convert overflowChecks ts = .ok tsMs)
    (decoded : decodePacket parsed tsMs = some flow)
    (foreign : flow.1.isSelfExport collector = false) :
    (∀ between poll later, polls after = between ++ poll :: later → fires between = 0 →
      (poll.fired = true ↔
        drainInterval ≤ poll.now - lastMark started (polls before)) ∧
      ∀ gap, Paced gap started (polls history) → poll.fired = true →
        poll.now < lastMark started (polls before) + drainInterval + gap) ∧
    ∀ receipt, (receipts (history.flatMap (ProcessEvent.agentEvents overflowChecks)))[
        fires (polls before)]? = some receipt →
      let packets := packetsOf flow.1 (interval (fires (polls before))
        (history.flatMap (ProcessEvent.agentEvents overflowChecks)))
      flow.2 ∈ packets ∧
        ∃ record ∈ receipt.records, Describes receipt.addrs flow.1 packets record := by
  have timed := timed_of_run run
  have positive : 0 < drainInterval := by decide
  constructor
  · intro between poll later seen quiet
    have whole : polls history = (polls before ++ between) ++ poll :: later := by
      rw [split, polls_append, List.append_assoc, ← seen]
      rfl
    have mark := lastMark_append_quiet started (polls before) between quiet
    have rule := timed.obeys _ poll later whole
    rw [mark] at rule
    refine ⟨rule, ?_⟩
    intro gap paced fired
    have within := timed.obeys.fired_within positive paced whole fired
    rw [mark] at within
    exact within.2
  · intro receipt found packets
    rw [split] at run
    obtain ⟨_, _, earlier, _, _⟩ := run.split
    have agentRun := agent_run_of_process_run (split ▸ run)
    obtain ⟨reports, ones⟩ := reports_at agentRun found
    have captured : flow ∈ interval (fires (polls before))
        (history.flatMap (ProcessEvent.agentEvents overflowChecks)) := by
      rw [← (timed_of_run earlier).sent, split, List.flatMap_append, List.flatMap_cons,
        ProcessEvent.agentEvents, converted]
      exact mem_interval decoded
    have inPackets : flow.2 ∈ packets :=
      List.mem_map_of_mem (List.mem_filter.mpr ⟨captured, by simp⟩)
    obtain ⟨keys, _, listed, records⟩ := describes_of_reports reports ones
    have reported := (listed flow.1).mpr ⟨foreign, List.ne_nil_of_mem inPackets⟩
    obtain ⟨i, bound, same⟩ := List.mem_iff_getElem.mp reported
    have inRecords : i < receipt.records.length := records.length_eq ▸ bound
    have described := records.get bound inRecords
    rw [List.get_eq_getElem, same] at described
    exact ⟨inPackets, receipt.records[i], List.getElem_mem inRecords, described⟩

/-- One packet in the table. -/
theorem sample_captured :
    Run (ProcessStep sampleCollector true) (Process.start sampleCollector 0 0)
      [.checkClock ⟨0, 0, false⟩, .nextPacket (.packet (some samplePacket) ⟨0, 0⟩)]
      ⟨⟨FlowTable.new.capture (some samplePacket) 0, 0, .clock⟩, [],
        Exporter.fresh sampleCollector 0, true⟩ := by
  have before : ¬ drainInterval ≤ 0 - 0 := by decide
  have look : ProcessStep (P := SampleProtocol) sampleCollector true
      (Process.start sampleCollector 0 0) (.checkClock ⟨0, 0, false⟩)
      ⟨⟨.new, 0, .packet⟩, [], Exporter.fresh sampleCollector 0, true⟩ :=
    .checkClock _ _ _ none rfl (checkClock_early true 0 before) rfl
  exact Run.cons look (Run.cons (ProcessStep.nextPacket _ _ rfl) (Run.nil _))

/-- The table is sent 900 ms later and flushed. -/
theorem sample_flushed :
    ∃ (receipt : Receipt SampleProtocol) (exporter : Exporter),
      Run (ProcessStep sampleCollector true) (Process.start sampleCollector 0 0)
        [.checkClock ⟨0, 0, false⟩, .nextPacket (.packet (some samplePacket) ⟨0, 0⟩),
          .checkClock ⟨900000000, 900000001, true⟩, .receive receipt]
        ⟨⟨FlowTable.new, 900000001, .packet⟩, [], exporter, true⟩ := by
  let table : FlowTable SampleProtocol := FlowTable.new.capture (some samplePacket) 0
  let exporter := Exporter.fresh sampleCollector 0
  let sent : Process SampleProtocol :=
    ⟨⟨.new, 900000001, .packet⟩, [table.inner], exporter, true⟩
  have due : ProcessStep sampleCollector true ⟨⟨table, 0, .clock⟩, [], exporter, true⟩
      (.checkClock ⟨900000000, 900000001, true⟩) sent :=
    .checkClock _ _ _ (some _) rfl (checkClock_due 900000001 (by decide)) rfl
  have alive : sent.mainAlive = true := rfl
  obtain ⟨receipt, process, received, _⟩ := process_receive_enabled sampleCollector true alive
    (List.cons_ne_nil _ _) [] ⟨0, 0, none⟩ fun _ => none
  cases received with
  | receive map rest _ exporter' result alive waiting enumerates flushed =>
      obtain ⟨_, rfl⟩ := List.cons.inj waiting
      have received : ProcessStep sampleCollector true sent (.receive receipt)
          ⟨⟨FlowTable.new, 900000001, .packet⟩, [], exporter', true⟩ :=
        .receive sent map [] receipt exporter' result alive waiting enumerates flushed
      exact ⟨receipt, exporter', sample_captured.append (Run.cons due (Run.cons received (.nil _)))⟩

theorem packet_reported_in_time_sample :
    ∃ (receipt : Receipt SampleProtocol) (process : Process SampleProtocol),
      Run (ProcessStep sampleCollector true) (Process.start sampleCollector 0 0)
        [.checkClock ⟨0, 0, false⟩, .nextPacket (.packet (some samplePacket) ⟨0, 0⟩),
          .checkClock ⟨900000000, 900000001, true⟩, .receive receipt] process ∧
      ∃ record ∈ receipt.records, Describes receipt.addrs sampleKey
        (packetsOf sampleKey (interval 0 [.packet (some samplePacket) 0, .drain,
          .receive receipt])) record := by
  obtain ⟨receipt, exporter, run⟩ := sample_flushed
  obtain ⟨_, reported⟩ := packet_reported_in_time sampleCollector 0 0 true _ _ run
    [.checkClock ⟨0, 0, false⟩] _ (some samplePacket) ⟨0, 0⟩ 0 _ rfl rfl rfl (by decide)
  obtain ⟨_, record, member, describes⟩ := reported receipt rfl
  exact ⟨receipt, _, run, record, member, describes⟩

/-- Once the channel is empty, every closed window has its flush. -/
theorem reports_of_empty {collector : SocketAddr} {odid : U32} {events : List (AgentEvent P)}
    {agent : Agent P}
    (run : Run (AgentStep collector) (Agent.start collector odid) events agent)
    (empty : agent.channel = []) :
    List.Forall₂ (Reports collector) (closedWindows events) (receipts events) := by
  obtain ⟨reported, pending, ledger⟩ := ledger_of_run run
  have queued := ledger.queued
  rw [empty, List.forall₂_nil_right_iff] at queued
  have closed := ledger.closed
  rw [queued, List.append_nil] at closed
  rw [closed]
  exact ledger.flushed

/-- When the main thread has ended, every table that was sent has been flushed, in
order: what is lost are the packets after the last drain. -/
theorem ended_process_reported_all (collector : SocketAddr) (odid : U32) (started : Nat)
    (overflowChecks : Bool) (history : List (ProcessEvent P)) (process : Process P)
    (run : Run (ProcessStep collector overflowChecks) (Process.start collector odid started)
      history process) (gone : process.mainAlive = false) :
    let events := history.flatMap (ProcessEvent.agentEvents overflowChecks)
    List.Forall₂ (Reports collector) (closedWindows events) (receipts events) ∧
      (closedWindows events).flatten ++ openWindow events = capturedFlows events ∧
      Summarises (openWindow events) process.capture.table.inner := by
  intro events
  have agentRun := agent_run_of_process_run run
  obtain ⟨_, _, ledger⟩ := ledger_of_run agentRun
  have empty : process.channel = [] := by
    rcases attended_of_run run with alive | ⟨_, empty⟩
    · exact absurd (alive.symm.trans gone) Bool.noConfusion
    · exact empty
  exact ⟨reports_of_empty agentRun empty, closed_append_open events, ledger.table⟩

/-- After the flush of a packet, a timestamp overflows and both threads end. -/
theorem ended_process_reported_all_overflow :
    ∃ (receipt : Receipt SampleProtocol) (process : Process SampleProtocol),
      Run (ProcessStep sampleCollector true) (Process.start sampleCollector 0 0)
        [.checkClock ⟨0, 0, false⟩, .nextPacket (.packet (some samplePacket) ⟨0, 0⟩),
          .checkClock ⟨900000000, 900000001, true⟩, .receive receipt,
          .nextPacket (.packet none overflowStamp.toTimeval), .hangUp] process ∧
      process.mainAlive = false ∧
      List.Forall₂ (Reports sampleCollector)
        (closedWindows [.packet (some samplePacket) 0, .drain, .receive receipt]) [receipt] := by
  obtain ⟨receipt, exporter, flushed⟩ := sample_flushed
  have overflow : convert true overflowStamp.toTimeval = .error .overflow := by decide
  have take : ProcessStep (P := SampleProtocol) sampleCollector true
      ⟨⟨FlowTable.new, 900000001, .packet⟩, [], exporter, true⟩
      (.nextPacket (.packet none overflowStamp.toTimeval))
      ⟨⟨FlowTable.new, 900000001, .ended⟩, [], exporter, true⟩ := by
    have step : ProcessStep (P := SampleProtocol) sampleCollector true
        ⟨⟨FlowTable.new, 900000001, .packet⟩, [], exporter, true⟩
        (.nextPacket (.packet none overflowStamp.toTimeval)) _ := .nextPacket _ _ rfl
    simpa only [CaptureThread.nextPacket, overflow] using step
  have run := flushed.append (Run.cons take (Run.cons (.hangUp _ rfl rfl rfl) (Run.nil _)))
  obtain ⟨reported, _, _⟩ := ended_process_reported_all sampleCollector 0 0 true _ _ run rfl
  exact ⟨receipt, _, run, rfl, reported⟩

end Runs

end SniffnetAgent
