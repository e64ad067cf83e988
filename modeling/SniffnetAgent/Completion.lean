import SniffnetAgent.Latency

/-!
# When everything is reported

From every reachable state of the process, and whatever the environment answers,
there is a way on that captures nothing more and ends with every packet of the
table and of the channel reported.  Once that is so, what a collector has added up
depends on the packets alone.
-/

set_option autoImplicit false

namespace SniffnetAgent

open CheckedArith LabelledRun PollTimer Collector Aggregate

/-! ## What is owed -/

section Windows
variable {P : Type}

theorem windows_drain (ops : List (TableOp P)) (current : List (Flow P)) :
    windows current (ops ++ [.drain]) = windows current ops ++ [remaining current ops] := by
  induction ops generalizing current with
  | nil => rfl
  | cons op ops ih =>
      cases op with
      | record key packet => exact ih _
      | drain => exact congrArg (List.cons current) (ih [])

theorem closedWindows_drain (events : List (AgentEvent P)) :
    closedWindows (events ++ [.drain]) = closedWindows events ++ [openWindow events] := by
  rw [closedWindows, tableOps, List.flatMap_append, List.flatMap_singleton]
  exact windows_drain (tableOps events) []

/-- Receives close no window. -/
theorem closedWindows_receives (events : List (AgentEvent P)) (flushes : List (Receipt P)) :
    closedWindows (events ++ flushes.map .receive) = closedWindows events := by
  have none : tableOps (flushes.map AgentEvent.receive) = ([] : List (TableOp P)) := by
    induction flushes with
    | nil => rfl
    | cons receipt flushes ih => exact ih
  rw [closedWindows, tableOps, List.flatMap_append, ← tableOps, ← tableOps, none, List.append_nil]
  rfl

theorem receipts_append (earlier later : List (AgentEvent P)) :
    receipts (earlier ++ later) = receipts earlier ++ receipts later := by
  rw [receipts, List.filterMap_append, ← receipts, ← receipts]

theorem receipts_receives (flushes : List (Receipt P)) :
    receipts (flushes.map .receive) = flushes := by
  induction flushes with
  | nil => rfl
  | cons receipt flushes ih => exact congrArg (List.cons receipt) ih

theorem agentEvents_receives (overflowChecks : Bool) (flushes : List (Receipt P)) :
    (flushes.map ProcessEvent.receive).flatMap (ProcessEvent.agentEvents overflowChecks) =
      flushes.map .receive := by
  induction flushes with
  | nil => rfl
  | cons receipt flushes ih => exact congrArg (List.cons (AgentEvent.receive receipt)) ih

/-- No packet is captured. -/
def Quiet (history : List (ProcessEvent P)) : Prop :=
  ∀ parsed ts, ProcessEvent.nextPacket (.packet parsed ts) ∉ history

theorem Quiet.append {earlier later : List (ProcessEvent P)} (first : Quiet earlier)
    (second : Quiet later) : Quiet (earlier ++ later) := by
  intro parsed ts member
  rcases List.mem_append.mp member with member | member
  · exact first parsed ts member
  · exact second parsed ts member

theorem quiet_receives (flushes : List (Receipt P)) : Quiet (flushes.map .receive) := by
  intro parsed ts member
  obtain ⟨receipt, _, same⟩ := List.mem_map.mp member
  cases same

/-- The windows that will never be lost: the closed ones, and the open one as long
as the capture thread runs. -/
def secured (process : Process P) (events : List (AgentEvent P)) : List (List (Flow P)) :=
  closedWindows events ++ if process.capture.pc = .ended then [] else [openWindow events]

end Windows

/-! ## The way on -/

/-- What the environment answers to one flush. -/
structure Surroundings where
  addrs : List IpAddr
  clock : Clock
  send : Nat → Option IoError

section Steps
variable {P : Type}

/-- The flushes meet the surroundings, in order. -/
def Meet (surroundings : Nat → Surroundings) (flushes : List (Receipt P)) : Prop :=
  ∀ i receipt, flushes[i]? = some receipt → receipt.addrs = (surroundings i).addrs ∧
    receipt.clock = (surroundings i).clock ∧ receipt.send = (surroundings i).send

variable [DecidableEq P] [Protocol P]

/-- The main thread empties the channel. -/
theorem flush_channel (collector : SocketAddr) (overflowChecks : Bool) {process : Process P}
    (alive : process.mainAlive = true) (surroundings : Nat → Surroundings) :
    ∃ flushes final, Run (ProcessStep collector overflowChecks) process
        (flushes.map .receive) final ∧
      final.channel = [] ∧ Meet surroundings flushes := by
  generalize waiting : process.channel = channel
  induction channel generalizing process surroundings with
  | nil =>
      refine ⟨[], process, Run.nil process, waiting, ?_⟩
      intro i receipt found
      cases found
  | cons map rest ih =>
      obtain ⟨receipt, next, step, inputs⟩ := process_receive_enabled collector overflowChecks
        alive (by simp [waiting]) (surroundings 0).addrs (surroundings 0).clock
        (surroundings 0).send
      have after : next.mainAlive = true ∧ next.channel = rest := by
        cases step with
        | receive _ _ _ _ _ _ queued _ _ =>
            rw [waiting] at queued
            cases queued
            exact ⟨alive, rfl⟩
      obtain ⟨flushes, final, run, empty, meet⟩ :=
        ih after.1 (fun i => surroundings (i + 1)) after.2
      refine ⟨receipt :: flushes, final, Run.cons step run, empty, ?_⟩
      intro i other found
      cases i with
      | zero =>
          cases found
          exact inputs
      | succ i => exact meet i other found

/-- The capture thread hands its table over, without another packet. -/
theorem hand_over (collector : SocketAddr) (overflowChecks : Bool) {process : Process P}
    (alive : process.mainAlive = true) (running : process.capture.pc ≠ .ended) :
    ∃ turn next, Run (ProcessStep collector overflowChecks) process turn next ∧
      turn.flatMap (ProcessEvent.agentEvents overflowChecks) = [.drain] ∧ Quiet turn ∧
      next.mainAlive = true := by
  obtain ⟨⟨table, lastDrain, pc⟩, channel, exporter, mainAlive⟩ := process
  cases alive
  have due : drainInterval ≤ lastDrain + drainInterval - lastDrain := by omega
  have look : ProcessStep collector overflowChecks
      ⟨⟨table, lastDrain, .clock⟩, channel, exporter, true⟩
      (.checkClock ⟨lastDrain + drainInterval, lastDrain + drainInterval, true⟩)
      ⟨⟨table.drain.2, lastDrain + drainInterval, .packet⟩, channel ++ [table.drain.1],
        exporter, true⟩ :=
    .checkClock _ _ _ (some _) rfl (checkClock_due _ due) rfl
  cases pc with
  | clock => exact ⟨_, _, Run.cons look (Run.nil _), rfl, by simp [Quiet], rfl⟩
  | packet =>
      have wait : ProcessStep collector overflowChecks
          ⟨⟨table, lastDrain, .packet⟩, channel, exporter, true⟩ (.nextPacket .timeoutExpired)
          ⟨⟨table, lastDrain, .clock⟩, channel, exporter, true⟩ := .nextPacket _ _ rfl
      exact ⟨_, _, Run.cons wait (Run.cons look (Run.nil _)), rfl, by simp [Quiet], rfl⟩
  | ended => exact absurd rfl running

end Steps

/-! ## Every reachable state -/

section Runs
variable {P : Type} [DecidableEq P] [Protocol P]

/-- Without another packet, the process can go on until the channel is empty and the
table, unless the capture thread has ended, is handed over. -/
theorem can_empty {collector : SocketAddr} {odid : U32} {started : Nat} {overflowChecks : Bool}
    {history : List (ProcessEvent P)} {process : Process P}
    (run : Run (ProcessStep collector overflowChecks) (Process.start collector odid started)
      history process) (surroundings : Nat → Surroundings) :
    ∃ more final flushes, Run (ProcessStep collector overflowChecks) process more final ∧
      Quiet more ∧
      more.flatMap (ProcessEvent.agentEvents overflowChecks) =
        (if process.capture.pc = .ended then [] else [.drain]) ++ flushes.map .receive ∧
      final.channel = [] ∧ Meet surroundings flushes := by
  by_cases ended : process.capture.pc = .ended
  · rw [if_pos ended]
    rcases attended_of_run run with alive | ⟨_, empty⟩
    · obtain ⟨flushes, final, served, empty, meet⟩ :=
        flush_channel collector overflowChecks alive surroundings
      exact ⟨_, final, flushes, served, quiet_receives flushes,
        agentEvents_receives overflowChecks flushes, empty, meet⟩
    · refine ⟨[], process, [], Run.nil process, by simp [Quiet], rfl, empty, ?_⟩
      intro i receipt found
      cases found
  · rw [if_neg ended]
    have alive := (attended_of_run run).alive ended
    obtain ⟨turn, next, handed, seen, quiet, alive'⟩ :=
      hand_over collector overflowChecks alive ended
    obtain ⟨flushes, final, served, empty, meet⟩ :=
      flush_channel collector overflowChecks alive' surroundings
    refine ⟨_, final, flushes, handed.append served, quiet.append (quiet_receives flushes), ?_,
      empty, meet⟩
    rw [List.flatMap_append, seen, agentEvents_receives]

/-- From every reachable state the process can go on, without another packet and
whatever addresses, clock readings and send outcomes it meets, until every window
has been reported: the closed ones and, unless the capture thread has ended, the
open one, which are all the packets captured so far. -/
theorem captured_can_be_reported (collector : SocketAddr) (odid : U32) (started : Nat)
    (overflowChecks : Bool) (history : List (ProcessEvent P)) (process : Process P)
    (run : Run (ProcessStep collector overflowChecks) (Process.start collector odid started)
      history process) (surroundings : Nat → Surroundings) :
    let events := history.flatMap (ProcessEvent.agentEvents overflowChecks)
    ∃ more final flushes, Run (ProcessStep collector overflowChecks) process more final ∧
      Quiet more ∧ receipts (more.flatMap (ProcessEvent.agentEvents overflowChecks)) = flushes ∧
      Meet surroundings flushes ∧
      List.Forall₂ (Reports collector) (secured process events) (receipts events ++ flushes) ∧
      (process.capture.pc ≠ .ended → (secured process events).flatten = capturedFlows events) := by
  intro events
  obtain ⟨more, final, flushes, next, quiet, seen, empty, meet⟩ := can_empty run surroundings
  have reports := reports_of_empty (agent_run_of_process_run (run.append next)) empty
  rw [List.flatMap_append, seen, ← List.append_assoc, closedWindows_receives, receipts_append,
    receipts_append, receipts_receives] at reports
  refine ⟨more, final, flushes, next, quiet, ?_, meet, ?_, ?_⟩
  · rw [seen, receipts_append, receipts_receives]
    split <;> rfl
  · by_cases ended : process.capture.pc = .ended
    · rw [secured, if_pos ended, List.append_nil]
      rw [if_pos ended, List.append_nil] at reports
      simpa [receipts] using reports
    · rw [secured, if_neg ended]
      rw [if_neg ended, closedWindows_drain] at reports
      simpa [receipts] using reports
  · intro running
    rw [secured, if_neg running, List.flatten_append, List.flatten_singleton]
    exact closed_append_open events

/-- A packet in the table, and every send refused. -/
theorem captured_can_be_reported_sample :
    ∃ (more : List (ProcessEvent SampleProtocol)) (final : Process SampleProtocol)
        (receipt : Receipt SampleProtocol) (flow : Flow SampleProtocol),
      Run (ProcessStep sampleCollector true) (Process.start sampleCollector 0 0)
        ([.checkClock ⟨0, 0, false⟩, .nextPacket (.packet (some samplePacket) ⟨0, 0⟩)] ++ more)
        final ∧
      Quiet more ∧ receipt ∈ receipts (more.flatMap (ProcessEvent.agentEvents true)) ∧
      flow.1 = sampleKey ∧ Reports sampleCollector [flow] receipt ∧
        ∀ i, receipt.send i = some ⟨111⟩ := by
  obtain ⟨more, final, flushes, next, quiet, seen, meet, reports, _⟩ := captured_can_be_reported
    sampleCollector 0 0 true _ _ sample_captured fun _ => ⟨[], ⟨0, 0, none⟩, fun _ => some ⟨111⟩⟩
  have one : List.Forall₂ (Reports sampleCollector) [[_]] flushes := reports
  obtain ⟨receipt, _, first, rest, rfl⟩ := List.forall₂_cons_left_iff.mp one
  obtain ⟨_, _, send⟩ := meet 0 receipt rfl
  have flushed := seen ▸ List.mem_cons_self ..
  exact ⟨more, final, receipt, _, sample_captured.append next, quiet, flushed, rfl, first,
    fun i => congrFun send i⟩

end Runs

/-! ## What the totals depend on -/

instance volume_commutative : Std.Commutative Volume.merge where
  comm a b := by
    simp only [Volume.merge, Volume.mk.injEq]
    omega

/-- The totals of a collector over records in the order of their arrival. -/
def addUp (tuple : WireTuple) (records : List DataRecord) : Option Volume :=
  total Volume.merge ((records.filter fun record => wireTuple record = tuple).map volumeOf)

theorem addUp_perm (tuple : WireTuple) {records records' : List DataRecord}
    (perm : records.Perm records') : addUp tuple records = addUp tuple records' := by
  apply total_perm
  exact (perm.filter _).map volumeOf

section Totals
variable {P : Type} [DecidableEq P] [Protocol P]

omit [DecidableEq P] [Protocol P] in
theorem addUp_records (tuple : WireTuple) (flushes : List (Receipt P)) :
    addUp tuple (flushes.flatMap Receipt.records) = collected tuple flushes := by
  rw [addUp, collected, List.filter_flatMap, List.map_flatMap]
  rfl

omit [Protocol P] in
theorem eq_nil_of_summarises_empty {window : List (Flow P)} (summarises : Summarises window ∅) :
    window = [] := by
  apply List.eq_nil_iff_forall_not_mem.mpr
  intro flow member
  have listed := (summarises flow.1).1.mpr (List.mem_map_of_mem member)
  exact Finmap.notMem_empty listed

/-- When nothing is left in the channel and in the table, a collector that gets all
records, in any order, has the totals of the captured packets. -/
theorem addUp_of_run {hasSrcPort hasDstPort : P → Bool} (numbers : ProtocolNumbers P)
    {collector : SocketAddr} {odid : U32} {events : List (AgentEvent P)} {agent : Agent P}
    (run : Run (AgentStep collector) (Agent.start collector odid) events agent)
    (sent : agent.channel = []) (drained : agent.table.inner = ∅)
    (ports : ∀ flow ∈ capturedFlows events, flow.1.HasPorts hasSrcPort hasDstPort)
    {arrived : List DataRecord} (whole : arrived.Perm ((receipts events).flatMap Receipt.records))
    {key : FlowKey P} (keyPorts : key.HasPorts hasSrcPort hasDstPort)
    (foreign : key.isSelfExport collector = false) :
    addUp key.wireTuple arrived =
      total Volume.merge ((packetsOf key (capturedFlows events)).map FlowVal.volume) := by
  have reports := reports_of_empty run sent
  obtain ⟨_, _, ledger⟩ := ledger_of_run run
  have table := ledger.table
  rw [drained] at table
  have captured := closed_append_open events
  rw [eq_nil_of_summarises_empty table, List.append_nil] at captured
  have windowPorts : ∀ window ∈ closedWindows events, ∀ flow ∈ window,
      flow.1.HasPorts hasSrcPort hasDstPort := by
    intro window member flow inside
    apply ports
    rw [← captured]
    exact List.mem_flatten_of_mem member inside
  rw [addUp_perm _ whole, addUp_records,
    collected_of_reports numbers reports windowPorts keyPorts foreign, captured]

/-- Two runs that captured the same packets, in whatever order, and have exported all
of them: when the table was sent, how the threads took turns, in which order a map
was iterated and in which order the records arrived makes no difference to what a
collector has added up. -/
theorem schedule_does_not_matter {hasSrcPort hasDstPort : P → Bool}
    (numbers : ProtocolNumbers P) (collector : SocketAddr) (odid odid' : U32)
    (events events' : List (AgentEvent P)) (agent agent' : Agent P)
    (run : Run (AgentStep collector) (Agent.start collector odid) events agent)
    (run' : Run (AgentStep collector) (Agent.start collector odid') events' agent')
    (sent : agent.channel = []) (drained : agent.table.inner = ∅)
    (sent' : agent'.channel = []) (drained' : agent'.table.inner = ∅)
    (same : (capturedFlows events).Perm (capturedFlows events'))
    (parses : ∀ packet tsMs, AgentEvent.packet (some packet) tsMs ∈ events →
      packet.HasPorts hasSrcPort hasDstPort)
    (arrived arrived' : List DataRecord)
    (whole : arrived.Perm ((receipts events).flatMap Receipt.records))
    (whole' : arrived'.Perm ((receipts events').flatMap Receipt.records))
    (key : FlowKey P) (keyPorts : key.HasPorts hasSrcPort hasDstPort)
    (foreign : key.isSelfExport collector = false) :
    addUp key.wireTuple arrived = addUp key.wireTuple arrived' := by
  have ports : ∀ flow ∈ capturedFlows events, flow.1.HasPorts hasSrcPort hasDstPort := by
    intro flow member
    obtain ⟨event, happened, captured⟩ := List.mem_filterMap.mp member
    cases event with
    | packet parsed tsMs =>
        exact hasPorts_decodePacket
          (fun packet shape => parses packet tsMs (shape ▸ happened)) captured
    | drain => cases captured
    | receive receipt => cases captured
  have ports' : ∀ flow ∈ capturedFlows events', flow.1.HasPorts hasSrcPort hasDstPort :=
    fun flow member => ports flow (same.mem_iff.mpr member)
  rw [addUp_of_run numbers run sent drained ports whole keyPorts foreign,
    addUp_of_run numbers run' sent' drained' ports' whole' keyPorts foreign]
  apply total_perm
  exact ((same.filter _).map Prod.snd).map FlowVal.volume

/-- One packet, with an empty table sent before it, and its records the other way
round. -/
theorem schedule_does_not_matter_sample :
    ∃ (receipt first second : Receipt SampleProtocol) (agent agent' : Agent SampleProtocol),
      Run (AgentStep sampleCollector) (Agent.start sampleCollector 0)
        [.packet (some samplePacket) 0, .drain, .receive receipt] agent ∧
      Run (AgentStep sampleCollector) (Agent.start sampleCollector 0)
        [.drain, .packet (some samplePacket) 0, .drain, .receive first, .receive second] agent' ∧
      addUp sampleKey.wireTuple receipt.records =
        addUp sampleKey.wireTuple (first.records ++ second.records).reverse := by
  let map := ((FlowTable.new (P := SampleProtocol)).capture (some samplePacket) 0).inner
  let exporter := Exporter.fresh sampleCollector 0
  obtain ⟨receipt, agent, received, _⟩ := receive_enabled sampleCollector
    ⟨FlowTable.new, [map], exporter⟩ map [] rfl [] ⟨0, 0, none⟩ fun _ => none
  obtain ⟨first, middle, received₁, _⟩ := receive_enabled sampleCollector
    ⟨FlowTable.new, [∅, map], exporter⟩ ∅ [map] rfl [] ⟨0, 0, none⟩ fun _ => none
  obtain ⟨table₁, channel₁⟩ := receive_frame received₁
  obtain ⟨second, agent', received₂, _⟩ := receive_enabled sampleCollector middle map [] channel₁ []
    ⟨0, 0, none⟩ fun _ => none
  obtain ⟨table, channel⟩ := receive_frame received
  obtain ⟨table₂, channel₂⟩ := receive_frame received₂
  have run : Run (AgentStep sampleCollector) (Agent.start sampleCollector 0)
      [.packet (some samplePacket) 0, .drain, .receive receipt] agent :=
    .cons (.packet _ _ _) (.cons (.drain _) (.cons received (.nil _)))
  have run' : Run (AgentStep sampleCollector) (Agent.start sampleCollector 0)
      [.drain, .packet (some samplePacket) 0, .drain, .receive first, .receive second] agent' :=
    .cons (.drain _) (.cons (.packet _ _ _) (.cons (.drain _) (.cons received₁
      (.cons received₂ (.nil _)))))
  refine ⟨receipt, first, second, agent, agent', run, run', ?_⟩
  apply schedule_does_not_matter sampleNumbers sampleCollector 0 0 _ _ agent agent' run run'
    channel (congrArg FlowTable.inner table)
  case sent' => rw [channel₂, channel₁]; rfl
  case drained' => rw [table₂, table₁]; rfl
  case same => exact List.Perm.refl _
  case parses => exact sample_parses receipt
  case whole => exact List.Perm.of_eq (List.flatMap_singleton _ _).symm
  case whole' =>
    have both : [first, second].flatMap Receipt.records = first.records ++ second.records := by
      rw [List.flatMap_cons, List.flatMap_singleton]
    exact both ▸ List.reverse_perm _
  case keyPorts => exact ⟨rfl, rfl⟩
  case foreign => decide

end Totals

end SniffnetAgent
