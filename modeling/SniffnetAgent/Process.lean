import SniffnetAgent.Lib.PollTimer
import SniffnetAgent.Pipeline
import SniffnetAgent.Times

/-!
# The process

`main` of `main.rs` and `run` of `capture.rs` with their control flow: the
capture thread looks at the clock, sends the table when 900 ms are over, then
waits for a packet; the main thread waits for a map.  Timeouts and read errors,
a send to a receiver that is gone, and panics are steps of their own.  `Agent`
is what is left when the control flow is forgotten.
-/

set_option autoImplicit false

namespace SniffnetAgent

open CheckedArith LabelledRun PollTimer

/-- `Duration::from_millis(900)`. -/
def drainInterval : Nat := 900 * 1000000

/-- What `next_packet` returns: the bytes of a packet are what the parser makes
of them. -/
inductive NextPacket (P : Type) where
  | packet (parsed : Option (ParsedPacket P)) (ts : Timeval)
  | timeoutExpired
  | error (code : Nat)

/-- The conversion of a timestamp, in a build with overflow checks or without. -/
def convert (overflowChecks : Bool) (ts : Timeval) : Exec U64 :=
  if overflowChecks then tsMsChecked ts else .ok (tsMs ts)

/-- Where the capture thread is in its loop. -/
inductive CapturePc where
  | clock
  | packet
  | ended
  deriving DecidableEq, Repr

section Threads
variable {P : Type}

structure CaptureThread (P : Type) where
  table : FlowTable P
  lastDrain : Nat
  pc : CapturePc

/-- The thread at the head of its loop; `started` is the first reading. -/
def CaptureThread.spawned (started : Nat) : CaptureThread P := ⟨.new, started, .clock⟩

/-- The first half of the loop body, with the map that was sent, if any.  When
the receiver is gone the thread returns, and the map is dropped. -/
def CaptureThread.checkClock (self : CaptureThread P) (receiverAlive : Bool) (now stamp : Nat) :
    CaptureThread P × Option (FlowMap P) :=
  if drainInterval ≤ now - self.lastDrain then
    let (map, table) := self.table.drain
    if receiverAlive then (⟨table, stamp, .packet⟩, some map)
    else (⟨table, self.lastDrain, .ended⟩, none)
  else ({ self with pc := .packet }, none)

structure Process (P : Type) where
  capture : CaptureThread P
  /-- Oldest map first. -/
  channel : List (FlowMap P)
  exporter : Exporter
  /-- The main thread holds the receiver until its loop is over. -/
  mainAlive : Bool

/-- The process at the head of both loops. -/
def Process.start (collector : SocketAddr) (odid : U32) (started : Nat) : Process P :=
  ⟨CaptureThread.spawned started, [], Exporter.fresh collector odid, true⟩

inductive ProcessEvent (P : Type) where
  /-- A look at the clock; it fired if a map was sent. -/
  | checkClock (poll : Poll)
  | nextPacket (outcome : NextPacket P)
  | receive (receipt : Receipt P)
  /-- The main thread panics in a flush. -/
  | panic
  /-- The main thread finds the channel empty and closed. -/
  | hangUp

/-- What the control flow hides. -/
def Process.agent (process : Process P) : Agent P :=
  ⟨process.capture.table, process.channel, process.exporter⟩

def ProcessEvent.agentEvents (overflowChecks : Bool) : ProcessEvent P → List (AgentEvent P)
  | .checkClock poll => if poll.fired then [.drain] else []
  | .nextPacket (.packet parsed ts) =>
      match convert overflowChecks ts with
      | .ok tsMs => [.packet parsed tsMs]
      | .error _ => []
  | .nextPacket .timeoutExpired => []
  | .nextPacket (.error _) => []
  | .receive receipt => [.receive receipt]
  | .panic => []
  | .hangUp => []

/-- A packet whose conversion panics. -/
def ProcessEvent.Overflows (overflowChecks : Bool) (event : ProcessEvent P) : Prop :=
  ∃ parsed ts fault, event = .nextPacket (.packet parsed ts) ∧
    convert overflowChecks ts = .error fault

def polls (history : List (ProcessEvent P)) : List Poll :=
  history.filterMap fun event => match event with
    | .checkClock poll => some poll
    | _ => none

variable [DecidableEq P]

/-- The second half of the loop body.  A packet is recorded; a timeout or an
error only ends the turn. -/
def CaptureThread.nextPacket (self : CaptureThread P) (overflowChecks : Bool) :
    NextPacket P → CaptureThread P
  | .packet parsed ts =>
      match convert overflowChecks ts with
      | .ok tsMs => { self with table := self.table.capture parsed tsMs, pc := .clock }
      -- the panic ends the thread and drops its sender
      | .error _ => { self with pc := .ended }
  | .timeoutExpired => { self with pc := .clock }
  | .error _ => { self with pc := .clock }

variable [Protocol P]

inductive ProcessStep (collector : SocketAddr) (overflowChecks : Bool) :
    Process P → ProcessEvent P → Process P → Prop where
  | checkClock (process : Process P) (poll : Poll) (capture : CaptureThread P)
      (sent : Option (FlowMap P)) :
      process.capture.pc = .clock →
      process.capture.checkClock process.mainAlive poll.now poll.stamp = (capture, sent) →
      poll.fired = sent.isSome →
      ProcessStep collector overflowChecks process (.checkClock poll)
        { process with capture, channel := process.channel ++ sent.toList }
  | nextPacket (process : Process P) (outcome : NextPacket P) :
      process.capture.pc = .packet →
      ProcessStep collector overflowChecks process (.nextPacket outcome)
        { process with capture := process.capture.nextPacket overflowChecks outcome }
  | receive (process : Process P) (map : FlowMap P) (rest : List (FlowMap P))
      (receipt : Receipt P) (exporter : Exporter) (result : Except IoError Unit) :
      process.mainAlive = true → process.channel = map :: rest →
      FlowMap.Enumerates map receipt.entries →
      runFlush process.exporter (receipt.flows collector) receipt.clock receipt.send =
        .ok ⟨exporter, receipt.attempts, result⟩ →
      ProcessStep collector overflowChecks process (.receive receipt)
        { process with channel := rest, exporter }
  | panic (process : Process P) (map : FlowMap P) (rest : List (FlowMap P))
      (receipt : Receipt P) (fault : Fault) :
      process.mainAlive = true → process.channel = map :: rest →
      FlowMap.Enumerates map receipt.entries →
      runFlush process.exporter (receipt.flows collector) receipt.clock receipt.send =
        .error fault →
      ProcessStep collector overflowChecks process .panic
        { process with channel := rest, mainAlive := false }
  | hangUp (process : Process P) :
      process.mainAlive = true → process.channel = [] → process.capture.pc = .ended →
      ProcessStep collector overflowChecks process .hangUp { process with mainAlive := false }

end Threads

/-! ## Timestamps -/

theorem convert_of_lt (overflowChecks : Bool) {ts : Timeval}
    (inRange : (saturatingMul ts.tvSec 1000).toNat + (ts.tvUsec / 1000).toNat < 2 ^ 64) :
    convert overflowChecks ts = .ok (tsMs ts) := by
  have division : checkedDiv ts.tvUsec 1000 = .ok (ts.tvUsec / 1000) := rfl
  cases overflowChecks with
  | false => rfl
  | true =>
      rw [convert, if_pos rfl, tsMsChecked, division, ok_bind, checkedAdd, if_pos inRange]
      rfl

/-- Every number of milliseconds is that of some timestamp. -/
theorem exists_convert (overflowChecks : Bool) (millis : U64) :
    ∃ ts, convert overflowChecks ts = .ok millis := by
  have bound := millis.isLt
  let ts : Timeval :=
    ⟨BitVec.ofNat 64 (millis.toNat / 1000), BitVec.ofNat 64 (millis.toNat % 1000 * 1000)⟩
  have seconds : (saturatingMul ts.tvSec 1000).toNat = millis.toNat / 1000 * 1000 := by
    have quotient : (BitVec.ofNat 64 (millis.toNat / 1000)).toNat = millis.toNat / 1000 :=
      toNat_ofNat_of_lt (by omega)
    have thousand : (1000 : BitVec 64).toNat = 1000 := rfl
    rw [toNat_saturatingMul, quotient, thousand]
    omega
  have subsecond : (ts.tvUsec / 1000).toNat = millis.toNat % 1000 := by
    have remainder : (BitVec.ofNat 64 (millis.toNat % 1000 * 1000)).toNat =
        millis.toNat % 1000 * 1000 := toNat_ofNat_of_lt (by omega)
    have thousand : (1000 : BitVec 64).toNat = 1000 := rfl
    rw [BitVec.toNat_udiv, remainder, thousand]
    omega
  refine ⟨ts, ?_⟩
  rw [convert_of_lt overflowChecks (by omega)]
  congr 1
  apply BitVec.eq_of_toNat_eq
  rw [tsMs, BitVec.toNat_add, seconds, subsecond]
  omega

/-! ## One step -/

section Steps
variable {P : Type}

theorem checkClock_due {self : CaptureThread P} {now : Nat} (stamp : Nat)
    (due : drainInterval ≤ now - self.lastDrain) :
    self.checkClock true now stamp =
      (⟨self.table.drain.2, stamp, .packet⟩, some self.table.drain.1) :=
  if_pos due

theorem checkClock_early {self : CaptureThread P} {now : Nat} (receiverAlive : Bool) (stamp : Nat)
    (early : ¬ drainInterval ≤ now - self.lastDrain) :
    self.checkClock receiverAlive now stamp = ({ self with pc := .packet }, none) :=
  if_neg early

/-- The receiver outlives every map and the capture thread. -/
def Process.Attended (process : Process P) : Prop :=
  process.mainAlive = true ∨ process.capture.pc = .ended ∧ process.channel = []

theorem Process.Attended.alive {process : Process P} (attended : process.Attended)
    (running : process.capture.pc ≠ .ended) : process.mainAlive = true := by
  rcases attended with alive | ⟨ended, _⟩
  · exact alive
  · exact (running ended).elim

variable [DecidableEq P] [Protocol P]

/-- A flush does not fault, so the main thread does not panic. -/
theorem not_panic {collector : SocketAddr} {overflowChecks : Bool} {process next : Process P}
    (step : ProcessStep collector overflowChecks process .panic next) : False := by
  cases step with
  | panic map rest receipt fault alive waiting enumerates flushed =>
      obtain ⟨blocks, result, _, spec⟩ := flush_spec process.exporter (receipt.call collector)
      rw [runFlush_eq_flush] at flushed
      rw [Receipt.call, flushed] at spec
      cases spec

/-- A look at the clock sends the table or nothing. -/
theorem checkClock_cases {collector : SocketAddr} {overflowChecks : Bool}
    {process next : Process P} {poll : Poll} (attended : process.Attended)
    (step : ProcessStep collector overflowChecks process (.checkClock poll) next) :
    (poll.fired = true ∧ drainInterval ≤ poll.now - process.capture.lastDrain ∧
      next = { process with
        capture := ⟨process.capture.table.drain.2, poll.stamp, .packet⟩
        channel := process.channel ++ [process.capture.table.drain.1] }) ∨
    (poll.fired = false ∧ ¬ drainInterval ≤ poll.now - process.capture.lastDrain ∧
      next = { process with capture := { process.capture with pc := .packet } }) := by
  cases step with
  | checkClock poll capture sent atClock checked fired =>
      have alive := attended.alive (by rw [atClock]; exact CapturePc.noConfusion)
      rw [alive] at checked
      by_cases due : drainInterval ≤ poll.now - process.capture.lastDrain
      · rw [checkClock_due poll.stamp due] at checked
        cases checked
        exact Or.inl ⟨fired, due, rfl⟩
      · rw [checkClock_early true poll.stamp due] at checked
        cases checked
        refine Or.inr ⟨fired, due, ?_⟩
        rw [Option.toList_none, List.append_nil]

omit [Protocol P] in
/-- What came of a packet, a timeout or a read error. -/
theorem nextPacket_cases (overflowChecks : Bool) (capture : CaptureThread P)
    (outcome : NextPacket P) :
    (∃ parsed ts tsMs, outcome = .packet parsed ts ∧ convert overflowChecks ts = .ok tsMs ∧
      capture.nextPacket overflowChecks outcome =
        { capture with table := capture.table.capture parsed tsMs, pc := .clock }) ∨
    ((ProcessEvent.nextPacket outcome).Overflows overflowChecks ∧
      capture.nextPacket overflowChecks outcome = { capture with pc := .ended }) ∨
    ((∀ parsed ts, outcome ≠ .packet parsed ts) ∧
      capture.nextPacket overflowChecks outcome = { capture with pc := .clock }) := by
  cases outcome with
  | packet parsed ts =>
      cases converted : convert overflowChecks ts with
      | ok tsMs =>
          refine Or.inl ⟨parsed, ts, tsMs, rfl, converted, ?_⟩
          rw [CaptureThread.nextPacket, converted]
      | error fault =>
          refine Or.inr (Or.inl ⟨⟨parsed, ts, fault, rfl, converted⟩, ?_⟩)
          rw [CaptureThread.nextPacket, converted]
  | timeoutExpired => exact Or.inr (Or.inr ⟨fun _ _ => (by simp), rfl⟩)
  | error code => exact Or.inr (Or.inr ⟨fun _ _ => (by simp), rfl⟩)

theorem Process.Attended.step {collector : SocketAddr} {overflowChecks : Bool}
    {process next : Process P} {event : ProcessEvent P} (attended : process.Attended)
    (step : ProcessStep collector overflowChecks process event next) : next.Attended := by
  have intact : event ≠ .panic := by
    rintro rfl
    exact not_panic step
  cases step with
  | checkClock poll capture sent atClock checked fired =>
      exact Or.inl (attended.alive (by rw [atClock]; exact CapturePc.noConfusion))
  | nextPacket outcome atPacket =>
      exact Or.inl (attended.alive (by rw [atPacket]; exact CapturePc.noConfusion))
  | receive map rest receipt exporter result alive _ _ _ => exact Or.inl alive
  | panic => exact (intact rfl).elim
  | hangUp alive empty ended => exact Or.inr ⟨ended, empty⟩

/-! ## The agent behind the process -/

theorem agent_simulates {collector : SocketAddr} {overflowChecks : Bool}
    {process next : Process P} {event : ProcessEvent P} (attended : process.Attended)
    (step : ProcessStep collector overflowChecks process event next) :
    Run (AgentStep collector) process.agent (event.agentEvents overflowChecks) next.agent := by
  cases event with
  | checkClock poll =>
      rcases checkClock_cases attended step with ⟨fired, _, rfl⟩ | ⟨quiet, _, rfl⟩
      · rw [ProcessEvent.agentEvents, if_pos fired]
        exact Run.cons (AgentStep.drain process.agent) (Run.nil _)
      · rw [ProcessEvent.agentEvents, if_neg (by rw [quiet]; exact Bool.false_ne_true)]
        exact Run.nil _
  | nextPacket outcome =>
      cases step with
      | nextPacket _ atPacket =>
          rcases nextPacket_cases overflowChecks process.capture outcome with
            ⟨parsed, ts, tsMs, rfl, converted, after⟩ | ⟨⟨parsed, ts, fault, shape, fails⟩, after⟩ |
            ⟨other, after⟩
          · rw [ProcessEvent.agentEvents, converted, Process.agent, after]
            exact Run.cons (AgentStep.packet process.agent parsed tsMs) (Run.nil _)
          · cases shape
            rw [ProcessEvent.agentEvents, fails, Process.agent, after]
            exact Run.nil _
          · rw [Process.agent, after]
            cases outcome with
            | packet parsed ts => exact (other parsed ts rfl).elim
            | timeoutExpired => exact Run.nil _
            | error code => exact Run.nil _
  | receive receipt =>
      cases step with
      | receive map rest _ exporter result alive waiting enumerates flushed =>
          exact Run.cons (AgentStep.receive process.agent map rest receipt exporter result waiting
            enumerates flushed) (Run.nil _)
  | panic => exact (not_panic step).elim
  | hangUp =>
      cases step with
      | hangUp alive empty ended => exact Run.nil _

/-- Between two turns of the capture loop, with the main thread running. -/
structure Process.Idle (process : Process P) : Prop where
  atClock : process.capture.pc = .clock
  alive : process.mainAlive = true

theorem process_realises (collector : SocketAddr) (overflowChecks : Bool) {process : Process P}
    {event : AgentEvent P} {agent : Agent P} (idle : process.Idle)
    (step : AgentStep collector process.agent event agent) :
    ∃ history next, Run (ProcessStep collector overflowChecks) process history next ∧
      history.flatMap (ProcessEvent.agentEvents overflowChecks) = [event] ∧
      next.agent = agent ∧ next.Idle := by
  obtain ⟨⟨table, lastDrain, pc⟩, channel, exporter, mainAlive⟩ := process
  obtain ⟨atClock, alive⟩ := idle
  cases atClock
  cases alive
  cases step with
  | packet parsed tsMs =>
      obtain ⟨ts, converted⟩ := exists_convert overflowChecks tsMs
      have early : ¬ drainInterval ≤ lastDrain - lastDrain := by
        rw [Nat.sub_self]
        decide
      have look : ProcessStep collector overflowChecks
          ⟨⟨table, lastDrain, .clock⟩, channel, exporter, true⟩
          (.checkClock ⟨lastDrain, lastDrain, false⟩)
          ⟨⟨table, lastDrain, .packet⟩, channel ++ [], exporter, true⟩ :=
        .checkClock _ _ _ none rfl (checkClock_early true lastDrain early) rfl
      have take : ProcessStep collector overflowChecks
          ⟨⟨table, lastDrain, .packet⟩, channel ++ [], exporter, true⟩
          (.nextPacket (.packet parsed ts)) _ := .nextPacket _ _ rfl
      refine ⟨_, _, Run.cons look (Run.cons take (Run.nil _)), ?_, ?_, ?_, rfl⟩
      · simp [ProcessEvent.agentEvents, converted]
      · simp [Process.agent, CaptureThread.nextPacket, converted]
      · simp [CaptureThread.nextPacket, converted]
  | drain =>
      have due : drainInterval ≤ lastDrain + drainInterval - lastDrain := by omega
      have look : ProcessStep collector overflowChecks
          ⟨⟨table, lastDrain, .clock⟩, channel, exporter, true⟩
          (.checkClock ⟨lastDrain + drainInterval, lastDrain + drainInterval, true⟩)
          ⟨⟨table.drain.2, lastDrain + drainInterval, .packet⟩, channel ++ [table.drain.1],
            exporter, true⟩ :=
        .checkClock _ _ _ (some _) rfl (checkClock_due _ due) rfl
      have wait : ProcessStep collector overflowChecks
          ⟨⟨table.drain.2, lastDrain + drainInterval, .packet⟩, channel ++ [table.drain.1],
            exporter, true⟩ (.nextPacket .timeoutExpired) _ := .nextPacket _ _ rfl
      exact ⟨_, _, Run.cons look (Run.cons wait (Run.nil _)), rfl, rfl, rfl, rfl⟩
  | receive map rest receipt exporter' result waiting enumerates flushed =>
      exact ⟨[.receive receipt], _, Run.cons (ProcessStep.receive _ map rest receipt exporter'
        result rfl waiting enumerates flushed) (Run.nil _), rfl, rfl, rfl, rfl⟩

end Steps

/-! ## Whole runs -/

section Runs
variable {P : Type} [DecidableEq P] [Protocol P]

theorem attended_of_run {collector : SocketAddr} {odid : U32} {started : Nat}
    {overflowChecks : Bool} {history : List (ProcessEvent P)} {process : Process P}
    (run : Run (ProcessStep collector overflowChecks) (Process.start collector odid started)
      history process) : process.Attended :=
  run.invariant (fun _ process => process.Attended) (Or.inl rfl)
    fun _ _ _ _ attended step => attended.step step

/-- Without its internal steps, a run of the process is one of the agent. -/
theorem agent_run_of_process_run {collector : SocketAddr} {odid : U32} {started : Nat}
    {overflowChecks : Bool} {history : List (ProcessEvent P)} {process : Process P}
    (run : Run (ProcessStep collector overflowChecks) (Process.start collector odid started)
      history process) :
    Run (AgentStep collector) (Agent.start collector odid)
      (history.flatMap (ProcessEvent.agentEvents overflowChecks)) process.agent := by
  obtain ⟨agent, abstract, same, _⟩ := run.simulate
    (fun process agent => process.agent = agent ∧ process.Attended) _
    (fun process agent event next related step =>
      ⟨_, related.1 ▸ agent_simulates related.2 step, rfl, related.2.step step⟩)
    ⟨rfl, Or.inl rfl⟩
  rw [same]
  exact abstract

theorem process_run_of_agent_run {collector : SocketAddr} {odid : U32} (started : Nat)
    (overflowChecks : Bool) {events : List (AgentEvent P)} {agent : Agent P}
    (run : Run (AgentStep collector) (Agent.start collector odid) events agent) :
    ∃ history process,
      Run (ProcessStep collector overflowChecks) (Process.start collector odid started)
        history process ∧
      history.flatMap (ProcessEvent.agentEvents overflowChecks) = events ∧
      process.agent = agent := by
  have idle : (Process.start collector odid started : Process P).Idle := ⟨rfl, rfl⟩
  obtain ⟨history, process, concrete, seen, same, _⟩ := run.realise
    (fun (process : Process P) agent => process.agent = agent ∧ process.Idle) _
    (fun process agent event next related step =>
      process_realises collector overflowChecks related.2 (related.1 ▸ step))
    ⟨rfl, idle⟩
  exact ⟨history, process, concrete, seen, same⟩

/-- The control flow adds no behaviour and loses none: the histories of the agent
are those of the process with the internal steps left out. -/
theorem agent_run_iff_process_run (collector : SocketAddr) (odid : U32) (started : Nat)
    (overflowChecks : Bool) (events : List (AgentEvent P)) (agent : Agent P) :
    Run (AgentStep collector) (Agent.start collector odid) events agent ↔
      ∃ history process,
        Run (ProcessStep collector overflowChecks) (Process.start collector odid started)
          history process ∧
        history.flatMap (ProcessEvent.agentEvents overflowChecks) = events ∧
        process.agent = agent := by
  constructor
  · exact process_run_of_agent_run started overflowChecks
  · rintro ⟨history, process, run, rfl, rfl⟩
    exact agent_run_of_process_run run

/-! ## How long the threads live -/

omit [DecidableEq P] [Protocol P] in
theorem not_overflows {event : ProcessEvent P} (other : ∀ outcome, event ≠ .nextPacket outcome)
    (overflowChecks : Bool) : ¬ event.Overflows overflowChecks := by
  rintro ⟨parsed, ts, fault, shape, _⟩
  exact other _ shape

/-- The capture thread ends in one way only. -/
theorem capture_ended_step {collector : SocketAddr} {overflowChecks : Bool}
    {process next : Process P} {event : ProcessEvent P} (attended : process.Attended)
    (step : ProcessStep collector overflowChecks process event next) :
    next.capture.pc = .ended ↔
      process.capture.pc = .ended ∨ event.Overflows overflowChecks := by
  cases event with
  | checkClock poll =>
      have running : process.capture.pc ≠ .ended := by
        cases step with
        | checkClock _ _ _ atClock _ _ => rw [atClock]; exact CapturePc.noConfusion
      have quiet := not_overflows (show ∀ outcome, ProcessEvent.checkClock poll ≠
        .nextPacket (P := P) outcome by simp) overflowChecks
      rcases checkClock_cases attended step with ⟨_, _, rfl⟩ | ⟨_, _, rfl⟩
      · simp [running, quiet]
      · simp [running, quiet]
  | nextPacket outcome =>
      cases step with
      | nextPacket _ atPacket =>
          rcases nextPacket_cases overflowChecks process.capture outcome with
            ⟨parsed, ts, tsMs, rfl, converted, after⟩ | ⟨overflows, after⟩ | ⟨quiet, after⟩
          · have fits : ¬ (ProcessEvent.nextPacket (.packet parsed ts)).Overflows
                overflowChecks := by
              rintro ⟨_, _, fault, shape, fails⟩
              cases shape
              rw [converted] at fails
              cases fails
            simp [after, atPacket, fits]
          · simp [after, overflows]
          · have fits : ¬ (ProcessEvent.nextPacket outcome).Overflows overflowChecks := by
              rintro ⟨parsed, ts, fault, shape, _⟩
              cases shape
              exact quiet parsed ts rfl
            simp [after, atPacket, fits]
  | receive receipt =>
      have quiet := not_overflows (show ∀ outcome, ProcessEvent.receive receipt ≠
        .nextPacket outcome by simp) overflowChecks
      cases step with
      | receive => simp [quiet]
  | panic => exact (not_panic step).elim
  | hangUp =>
      have quiet := not_overflows (show ∀ outcome, ProcessEvent.hangUp ≠
        .nextPacket (P := P) outcome by simp) overflowChecks
      cases step with
      | hangUp => simp [quiet]

theorem ended_iff_overflows {collector : SocketAddr} {odid : U32} {started : Nat}
    {overflowChecks : Bool} {history : List (ProcessEvent P)} {process : Process P}
    (run : Run (ProcessStep collector overflowChecks) (Process.start collector odid started)
      history process) :
    process.capture.pc = .ended ↔ ∃ event ∈ history, event.Overflows overflowChecks := by
  have both := run.invariant
    (fun history process => process.Attended ∧ (process.capture.pc = .ended ↔
      ∃ event ∈ history, event.Overflows overflowChecks))
    ⟨Or.inl rfl, by simp [Process.start, CaptureThread.spawned]⟩
    fun before process event next holds step => ⟨holds.1.step step, by
      rw [capture_ended_step holds.1 step, holds.2]
      simp [or_and_right, exists_or]⟩
  exact both.2

theorem process_receive_enabled (collector : SocketAddr) (overflowChecks : Bool)
    {process : Process P} (alive : process.mainAlive = true) (waiting : process.channel ≠ [])
    (addrs : List IpAddr) (clock : Clock) (send : Nat → Option IoError) :
    ∃ receipt next, ProcessStep collector overflowChecks process (.receive receipt) next ∧
      receipt.addrs = addrs ∧ receipt.clock = clock ∧ receipt.send = send := by
  obtain ⟨map, rest, queued⟩ := List.exists_cons_of_ne_nil waiting
  obtain ⟨receipt, next, step, inputs⟩ :=
    receive_enabled collector process.agent map rest queued addrs clock send
  cases step with
  | receive map rest _ exporter result waiting enumerates flushed =>
      exact ⟨receipt, _, ProcessStep.receive process map rest receipt exporter result alive
        waiting enumerates flushed, inputs⟩

/-- What becomes of the two threads. -/
structure ThreadsLive (collector : SocketAddr) (overflowChecks : Bool)
    (history : List (ProcessEvent P)) (process : Process P) : Prop where
  captureEnds : process.capture.pc = .ended ↔
    ∃ event ∈ history, event.Overflows overflowChecks
  checked : overflowChecks = false → process.capture.pc ≠ .ended ∧ process.mainAlive = true
  noPanic : ProcessEvent.panic ∉ history
  looks : process.capture.pc = .clock → ∀ now stamp, ∃ fired next,
    ProcessStep collector overflowChecks process (.checkClock ⟨now, stamp, fired⟩) next
  captures : process.capture.pc = .packet → ∀ outcome, ∃ next,
    ProcessStep collector overflowChecks process (.nextPacket outcome) next
  mainEnds : process.mainAlive = false → process.capture.pc = .ended ∧ process.channel = []
  /-- No map waits for ever: whatever the environment, the next one can be flushed. -/
  served : process.mainAlive = true → process.channel ≠ [] →
    ∀ addrs clock send, ∃ receipt next,
      ProcessStep collector overflowChecks process (.receive receipt) next ∧
        receipt.addrs = addrs ∧ receipt.clock = clock ∧ receipt.send = send
  hangsUp : process.mainAlive = true → process.channel = [] → process.capture.pc = .ended →
    ∃ next, ProcessStep collector overflowChecks process .hangUp next

/-- Without overflow checks both threads run for ever.  With them, the capture
thread ends at the first timestamp that overflows, and the main thread flushes
every map already sent before it ends as well. -/
theorem threads_live (collector : SocketAddr) (odid : U32) (started : Nat)
    (overflowChecks : Bool) (history : List (ProcessEvent P)) (process : Process P)
    (run : Run (ProcessStep collector overflowChecks) (Process.start collector odid started)
      history process) : ThreadsLive collector overflowChecks history process := by
  have attended := attended_of_run run
  have captureEnds := ended_iff_overflows run
  constructor
  case captureEnds => exact captureEnds
  case checked =>
    rintro rfl
    have running : process.capture.pc ≠ .ended := by
      intro ended
      obtain ⟨event, _, parsed, ts, fault, _, fails⟩ := captureEnds.mp ended
      cases fails
    exact ⟨running, attended.alive running⟩
  case looks =>
    intro atClock now stamp
    let outcome := process.capture.checkClock process.mainAlive now stamp
    exact ⟨outcome.2.isSome, _, ProcessStep.checkClock process ⟨now, stamp, outcome.2.isSome⟩
      outcome.1 outcome.2 atClock rfl rfl⟩
  case captures =>
    intro atPacket outcome
    exact ⟨_, ProcessStep.nextPacket process outcome atPacket⟩
  case noPanic =>
    intro member
    exact run.forall_event (· ≠ .panic)
      (fun _ _ _ step shape => not_panic (shape ▸ step)) _ member rfl
  case mainEnds =>
    intro gone
    rcases attended with alive | ended
    · rw [gone] at alive
      cases alive
    · exact ended
  case served =>
    intro alive waiting addrs clock send
    exact process_receive_enabled collector overflowChecks alive waiting addrs clock send
  case hangsUp =>
    intro alive empty ended
    exact ⟨_, ProcessStep.hangUp process alive empty ended⟩

/-- With overflow checks, after the first instant whose milliseconds do not fit. -/
theorem overflow_run :
    ∃ process : Process SampleProtocol,
      Run (ProcessStep sampleCollector true) (Process.start sampleCollector 0 0)
        [.checkClock ⟨0, 0, false⟩, .nextPacket (.packet none overflowStamp.toTimeval)] process ∧
      process.capture.pc = .ended ∧ process.channel = [] ∧ process.mainAlive = true := by
  have overflow : convert true overflowStamp.toTimeval = .error .overflow := by decide
  have early : ¬ drainInterval ≤ 0 - 0 := by decide
  have look : ProcessStep (P := SampleProtocol) sampleCollector true
      (Process.start sampleCollector 0 0) (.checkClock ⟨0, 0, false⟩)
      ⟨⟨.new, 0, .packet⟩, [], Exporter.fresh sampleCollector 0, true⟩ :=
    .checkClock _ _ _ none rfl (checkClock_early true 0 early) rfl
  have take : ProcessStep (P := SampleProtocol) sampleCollector true
      ⟨⟨.new, 0, .packet⟩, [], Exporter.fresh sampleCollector 0, true⟩
      (.nextPacket (.packet none overflowStamp.toTimeval)) _ := .nextPacket _ _ rfl
  refine ⟨_, Run.cons look (Run.cons take (Run.nil _)), ?_, rfl, rfl⟩
  simp only [CaptureThread.nextPacket, overflow]

theorem threads_live_overflow :
    ∃ process : Process SampleProtocol,
      Run (ProcessStep sampleCollector true) (Process.start sampleCollector 0 0)
        [.checkClock ⟨0, 0, false⟩, .nextPacket (.packet none overflowStamp.toTimeval)] process ∧
      process.capture.pc = .ended ∧ process.mainAlive = true ∧
      ThreadsLive sampleCollector true
        [.checkClock ⟨0, 0, false⟩, .nextPacket (.packet none overflowStamp.toTimeval)]
        process := by
  obtain ⟨process, run, ended, _, alive⟩ := overflow_run
  exact ⟨process, run, ended, alive, threads_live sampleCollector 0 0 true _ _ run⟩

/-! ## The two builds -/

omit [DecidableEq P] [Protocol P] in
theorem convert_eq_of_ok {ts : Timeval} {millis : U64} (converted : convert true ts = .ok millis) :
    convert false ts = .ok millis := by
  have division : checkedDiv ts.tvUsec 1000 = .ok (ts.tvUsec / 1000) := rfl
  rw [convert, if_pos rfl, tsMsChecked, division, ok_bind, checkedAdd] at converted
  split at converted
  · exact converted
  · cases converted

omit [Protocol P] in
theorem nextPacket_builds (capture : CaptureThread P) {outcome : NextPacket P}
    (fits : ¬ (ProcessEvent.nextPacket outcome).Overflows true) :
    capture.nextPacket true outcome = capture.nextPacket false outcome := by
  cases outcome with
  | packet parsed ts =>
      cases converted : convert true ts with
      | ok millis =>
          simp only [CaptureThread.nextPacket, converted, convert_eq_of_ok converted]
      | error fault => exact absurd ⟨parsed, ts, fault, rfl, converted⟩ fits
  | timeoutExpired => rfl
  | error code => rfl

/-- Only the conversion of a timestamp knows the build. -/
theorem ProcessStep.rebuild {collector : SocketAddr} {build build' : Bool}
    {process next : Process P} {event : ProcessEvent P}
    (step : ProcessStep collector build process event next)
    (same : ∀ outcome, event = .nextPacket outcome →
      process.capture.nextPacket build outcome = process.capture.nextPacket build' outcome) :
    ProcessStep collector build' process event next := by
  cases step with
  | checkClock poll capture sent atClock checked fired =>
      exact ProcessStep.checkClock process poll capture sent atClock checked fired
  | nextPacket outcome atPacket =>
      rw [same outcome rfl]
      exact ProcessStep.nextPacket process outcome atPacket
  | receive map rest receipt exporter result alive waiting enumerates flushed =>
      exact ProcessStep.receive process map rest receipt exporter result alive waiting enumerates
        flushed
  | panic map rest receipt fault alive waiting enumerates flushed =>
      exact ProcessStep.panic process map rest receipt fault alive waiting enumerates flushed
  | hangUp alive empty ended => exact ProcessStep.hangUp process alive empty ended

/-- The runs of a build with overflow checks whose capture thread is alive are
exactly the runs of a build without in which every timestamp fits. -/
theorem builds_agree (collector : SocketAddr) (odid : U32) (started : Nat)
    (history : List (ProcessEvent P)) (process : Process P) :
    (Run (ProcessStep collector true) (Process.start collector odid started) history process ∧
      process.capture.pc ≠ .ended) ↔
    (Run (ProcessStep collector false) (Process.start collector odid started) history process ∧
      ∀ event ∈ history, ¬ event.Overflows true) := by
  have same : (∀ event ∈ history, ¬ event.Overflows true) → List.Forall₂
      (fun event event' => event = event' ∧ ¬ event.Overflows true) history history := by
    intro fits
    exact List.forall₂_same.mpr fun event member => ⟨rfl, fits event member⟩
  constructor
  · rintro ⟨run, alive⟩
    have fits : ∀ event ∈ history, ¬ event.Overflows true := by
      intro event member overflows
      exact alive ((ended_iff_overflows run).mpr ⟨event, member, overflows⟩)
    refine ⟨run.relabel _ ?_ (same fits), fits⟩
    rintro process event _ next ⟨rfl, inRange⟩ step
    exact step.rebuild fun _ shape => nextPacket_builds _ (shape ▸ inRange)
  · rintro ⟨run, fits⟩
    have checked : Run (ProcessStep collector true) (Process.start collector odid started)
        history process := by
      refine run.relabel _ ?_ (same fits)
      rintro process event _ next ⟨rfl, inRange⟩ step
      exact step.rebuild fun _ shape => (nextPacket_builds _ (shape ▸ inRange)).symm
    refine ⟨checked, ?_⟩
    intro ended
    obtain ⟨event, member, overflows⟩ := (ended_iff_overflows checked).mp ended
    exact fits event member overflows

/-! ## The schedule of the drains -/

def drains (events : List (AgentEvent P)) : Nat :=
  events.countP fun event => match event with
    | .drain => true
    | _ => false

/-- The thread's `last_drain` is the mark of the timer, and every map sent is a
firing. -/
structure Timed (overflowChecks : Bool) (started : Nat) (history : List (ProcessEvent P))
    (process : Process P) : Prop where
  obeys : Obeys drainInterval started (polls history)
  mark : process.capture.lastDrain = lastMark started (polls history)
  sent : drains (history.flatMap (ProcessEvent.agentEvents overflowChecks)) =
    fires (polls history)

theorem Timed.step {collector : SocketAddr} {overflowChecks : Bool} {started : Nat}
    {history : List (ProcessEvent P)} {process next : Process P} {event : ProcessEvent P}
    (timed : Timed overflowChecks started history process) (attended : process.Attended)
    (step : ProcessStep collector overflowChecks process event next) :
    Timed overflowChecks started (history ++ [event]) next := by
  obtain ⟨obeys, mark, sent⟩ := timed
  -- every event but a look at the clock
  have quiet : polls [event] = [] → drains (event.agentEvents overflowChecks) = 0 →
      next.capture.lastDrain = process.capture.lastDrain →
      Timed overflowChecks started (history ++ [event]) next := by
    intro unread undrained kept
    have same : polls (history ++ [event]) = polls history := by
      rw [polls, List.filterMap_append, ← polls, ← polls, unread, List.append_nil]
    refine ⟨by rw [same]; exact obeys, by rw [same, kept]; exact mark, ?_⟩
    rw [same, List.flatMap_append, List.flatMap_singleton, drains, List.countP_append, ← drains,
      ← drains, sent, undrained, Nat.add_zero]
  cases event with
  | checkClock poll =>
      have read : polls (history ++ [.checkClock poll]) = polls history ++ [poll] := by
        rw [polls, List.filterMap_append]
        rfl
      have one : drains ((ProcessEvent.checkClock poll : ProcessEvent P).agentEvents
          overflowChecks) = if poll.fired then 1 else 0 := by
        simp only [ProcessEvent.agentEvents]
        cases poll.fired <;> rfl
      have seen : drains ((history ++ [ProcessEvent.checkClock poll]).flatMap
          (ProcessEvent.agentEvents overflowChecks)) =
          fires (polls history) + if poll.fired then 1 else 0 := by
        rw [List.flatMap_append, List.flatMap_singleton, drains, List.countP_append, ← drains,
          ← drains, sent, one]
      rcases checkClock_cases attended step with ⟨fired, due, rfl⟩ | ⟨unfired, early, rfl⟩
      · rw [mark] at due
        refine ⟨?_, ?_, ?_⟩
        · rw [read]
          exact obeys.snoc (by simp [fired, due])
        · rw [read, lastMark_snoc, Poll.mark, if_pos fired]
        · rw [read, seen, fires_snoc]
      · rw [mark] at early
        refine ⟨?_, ?_, ?_⟩
        · rw [read]
          exact obeys.snoc (by simp [unfired, early])
        · rw [read, lastMark_snoc, Poll.mark, unfired, if_neg Bool.false_ne_true]
          exact mark
        · rw [read, seen, fires_snoc]
  | nextPacket outcome =>
      cases step with
      | nextPacket _ _ =>
          have kept : (process.capture.nextPacket overflowChecks outcome).lastDrain =
              process.capture.lastDrain := by
            rcases nextPacket_cases overflowChecks process.capture outcome with
              ⟨_, _, _, _, _, after⟩ | ⟨_, after⟩ | ⟨_, after⟩
            all_goals rw [after]
          refine quiet rfl ?_ kept
          cases outcome with
          | packet parsed ts =>
              rw [ProcessEvent.agentEvents]
              cases convert overflowChecks ts <;> rfl
          | timeoutExpired => rfl
          | error code => rfl
  | receive receipt =>
      cases step with
      | receive => exact quiet rfl rfl rfl
  | panic => exact (not_panic step).elim
  | hangUp =>
      cases step with
      | hangUp => exact quiet rfl rfl rfl

theorem timed_of_run {collector : SocketAddr} {odid : U32} {started : Nat}
    {overflowChecks : Bool} {history : List (ProcessEvent P)} {process : Process P}
    (run : Run (ProcessStep collector overflowChecks) (Process.start collector odid started)
      history process) : Timed overflowChecks started history process := by
  have both := run.invariant
    (fun history process => process.Attended ∧ Timed overflowChecks started history process)
    ⟨Or.inl rfl, obeys_nil, rfl, rfl⟩
    fun _ _ _ _ holds step => ⟨holds.1.step step, holds.2.step holds.1 step⟩
  exact both.2

/-- In every run: a look at the clock sends the table exactly when 900 ms are over
since the last time.  When the clock does not go back, as many maps as were sent
took as many times 900 ms; when no two looks are further apart than `gap`, a
window is open for less than 900 ms and one gap. -/
theorem drains_on_schedule (collector : SocketAddr) (odid : U32) (started : Nat)
    (overflowChecks : Bool) (history : List (ProcessEvent P)) (process : Process P)
    (run : Run (ProcessStep collector overflowChecks) (Process.start collector odid started)
      history process) :
    Timed overflowChecks started history process ∧
    (Forward started (polls history) →
      started + drains (history.flatMap (ProcessEvent.agentEvents overflowChecks)) *
        drainInterval ≤ process.capture.lastDrain) ∧
    ∀ gap, Paced gap started (polls history) → ∀ earlier poll later,
      polls history = earlier ++ poll :: later → poll.fired = true →
      lastMark started earlier + drainInterval ≤ poll.now ∧
        poll.now < lastMark started earlier + drainInterval + gap := by
  have timed := timed_of_run run
  have positive : 0 < drainInterval := by decide
  refine ⟨timed, ?_, ?_⟩
  · intro forward
    rw [timed.sent, timed.mark]
    exact timed.obeys.fires_mul_le positive forward
  · intro gap paced earlier poll later split fired
    exact timed.obeys.fired_within positive paced split fired

/-- One turn that is too early and one that is just in time. -/
theorem drains_on_schedule_sample :
    ∃ process : Process SampleProtocol,
      Run (ProcessStep sampleCollector true) (Process.start sampleCollector 0 0)
        [.checkClock ⟨899999999, 0, false⟩, .nextPacket .timeoutExpired,
          .checkClock ⟨900000000, 900000001, true⟩] process ∧
      Timed true 0 [.checkClock ⟨899999999, 0, false⟩, .nextPacket .timeoutExpired,
        .checkClock ⟨900000000, 900000001, true⟩] process ∧
      process.capture.lastDrain = 900000001 := by
  have before : ¬ drainInterval ≤ 899999999 - 0 := by decide
  have early : ProcessStep (P := SampleProtocol) sampleCollector true
      (Process.start sampleCollector 0 0) (.checkClock ⟨899999999, 0, false⟩)
      ⟨⟨.new, 0, .packet⟩, [], Exporter.fresh sampleCollector 0, true⟩ :=
    .checkClock _ _ _ none rfl (checkClock_early true 0 before) rfl
  have wait : ProcessStep (P := SampleProtocol) sampleCollector true
      ⟨⟨.new, 0, .packet⟩, [], Exporter.fresh sampleCollector 0, true⟩
      (.nextPacket .timeoutExpired)
      ⟨⟨.new, 0, .clock⟩, [], Exporter.fresh sampleCollector 0, true⟩ := .nextPacket _ _ rfl
  have due : ProcessStep (P := SampleProtocol) sampleCollector true
      ⟨⟨.new, 0, .clock⟩, [], Exporter.fresh sampleCollector 0, true⟩
      (.checkClock ⟨900000000, 900000001, true⟩)
      ⟨⟨.new, 900000001, .packet⟩, [∅], Exporter.fresh sampleCollector 0, true⟩ :=
    .checkClock _ _ _ (some ∅) rfl (checkClock_due 900000001 (by decide)) rfl
  have run := Run.cons early (Run.cons wait (Run.cons due (Run.nil _)))
  exact ⟨_, run, (drains_on_schedule sampleCollector 0 0 true _ _ run).1, rfl⟩

end Runs

end SniffnetAgent
