import SniffnetAgent.Feedback
import SniffnetAgent.Lib.Pipe
import SniffnetAgent.Process

/-!
# The order of the steps

The threads share the channel and nothing else: the agent is a pipe from the
flow table to the exporter.  What the agent reaches depends on what each thread
did, in its own order, and not on how the two were interleaved.
-/

set_option autoImplicit false

namespace SniffnetAgent

open LabelledRun Pipe

section Threads
variable {P : Type}

/-- The steps of the capture thread. -/
def AgentEvent.captures : AgentEvent P → Bool
  | .packet _ _ => true
  | .drain => true
  | .receive _ => false

/-- How many maps the step sends. -/
def AgentEvent.output : AgentEvent P → Nat
  | .packet _ _ => 0
  | .drain => 1
  | .receive _ => 0

def Agent.pipe (agent : Agent P) : State (FlowTable P) Exporter (FlowMap P) :=
  ⟨agent.table, agent.channel, agent.exporter⟩

def agentOf (state : State (FlowTable P) Exporter (FlowMap P)) : Agent P :=
  ⟨state.producer, state.queue, state.consumer⟩

variable [DecidableEq P]

inductive Captures : FlowTable P → AgentEvent P → List (FlowMap P) → FlowTable P → Prop where
  | packet (table : FlowTable P) (parsed : Option (ParsedPacket P)) (tsMs : U64) :
      Captures table (.packet parsed tsMs) [] (table.capture parsed tsMs)
  | drain (table : FlowTable P) : Captures table .drain [table.drain.1] table.drain.2

variable [Protocol P]

inductive Exports (collector : SocketAddr) :
    Exporter → AgentEvent P → FlowMap P → Exporter → Prop where
  | receive (before : Exporter) (map : FlowMap P) (receipt : Receipt P) (exporter : Exporter)
      (result : Except IoError Unit) :
      FlowMap.Enumerates map receipt.entries →
      runFlush before (receipt.flows collector) receipt.clock receipt.send =
        .ok ⟨exporter, receipt.attempts, result⟩ →
      Exports collector before (.receive receipt) map exporter

theorem sides (collector : SocketAddr) :
    Sides Captures (Exports (P := P) collector) AgentEvent.captures AgentEvent.output where
  make := by
    intro table event made next step
    cases step <;> exact ⟨rfl, rfl⟩
  take := by
    intro exporter event map next step
    cases step
    rfl

theorem pipe_step {collector : SocketAddr} (agent : Agent P) (event : AgentEvent P)
    (next : Agent P) (step : AgentStep collector agent event next) :
    Step Captures (Exports collector) agent.pipe event next.pipe := by
  cases step with
  | packet parsed tsMs =>
      have pushed : Step Captures (Exports collector) agent.pipe (.packet parsed tsMs)
          ⟨agent.table.capture parsed tsMs, agent.channel ++ [], agent.exporter⟩ :=
        Step.make [] agent.channel agent.exporter (Captures.packet agent.table parsed tsMs)
      rwa [List.append_nil] at pushed
  | drain => exact Step.make _ agent.channel agent.exporter (Captures.drain agent.table)
  | receive map rest receipt exporter result waiting enumerates flushed =>
      rw [Agent.pipe, waiting]
      exact Step.take agent.table map rest
        (Exports.receive agent.exporter map receipt exporter result enumerates flushed)

theorem agentStep_of_pipe {collector : SocketAddr} (s : State (FlowTable P) Exporter (FlowMap P))
    (event : AgentEvent P) (t : State (FlowTable P) Exporter (FlowMap P))
    (step : Step Captures (Exports collector) s event t) :
    AgentStep collector (agentOf s) event (agentOf t) := by
  cases step with
  | make made queue exporter captured =>
      cases captured with
      | packet parsed tsMs =>
          rw [agentOf, agentOf, List.append_nil]
          exact AgentStep.packet ⟨_, queue, exporter⟩ parsed tsMs
      | drain => exact AgentStep.drain ⟨_, queue, exporter⟩
  | take table map rest exported =>
      cases exported with
      | receive _ receipt _ result enumerates flushed =>
          exact AgentStep.receive _ map rest receipt _ result rfl enumerates flushed

/-- What each thread did in a run, and what it did with the channel. -/
theorem run_threads {collector : SocketAddr} {agent next : Agent P}
    {events : List (AgentEvent P)} (run : Run (AgentStep collector) agent events next) :
    ∃ made used, Makes Captures agent.table (events.filter AgentEvent.captures) made next.table ∧
      Takes (Exports collector) agent.exporter
        (events.filter fun event => !event.captures) used next.exporter ∧
      agent.channel ++ made = used ++ next.channel ∧
      Causal AgentEvent.captures AgentEvent.output agent.channel.length events :=
  split (sides collector) (run.map Agent.pipe pipe_step)

theorem agentStep_deterministic {collector : SocketAddr} (agent : Agent P) (event : AgentEvent P)
    (next next' : Agent P) (step : AgentStep collector agent event next)
    (other : AgentStep collector agent event next') : next = next' := by
  cases step with
  | packet parsed tsMs =>
      cases other
      rfl
  | drain =>
      cases other
      rfl
  | receive map rest receipt exporter result waiting enumerates flushed =>
      cases other with
      | receive map' rest' _ exporter' result' waiting' enumerates' flushed' =>
          rw [waiting] at waiting'
          obtain ⟨_, rfl⟩ := List.cons.inj waiting'
          rw [flushed] at flushed'
          cases flushed'
          rfl

end Threads

/-! ## Other orders -/

section Orders
variable {P : Type}

theorem filter_receives (events : List (AgentEvent P)) :
    (events.filter fun event => !event.captures) = (receipts events).map .receive := by
  induction events with
  | nil => rfl
  | cons event events ih =>
      cases event with
      | packet parsed tsMs => exact ih
      | drain => exact ih
      | receive receipt => exact congrArg (AgentEvent.receive receipt :: ·) ih

theorem sum_output (events : List (AgentEvent P)) :
    ((events.filter AgentEvent.captures).map AgentEvent.output).sum = drains events := by
  induction events with
  | nil => rfl
  | cons event events ih =>
      cases event with
      | packet parsed tsMs =>
          rw [List.filter_cons_of_pos rfl, List.map_cons, List.sum_cons, ih]
          exact Nat.zero_add _
      | drain =>
          have one : drains (.drain :: events) = drains events + 1 := List.countP_cons_of_pos rfl
          rw [List.filter_cons_of_pos rfl, List.map_cons, List.sum_cons, ih, one, Nat.add_comm]
          rfl
      | receive receipt => exact ih

/-- No map is received before it was sent. -/
theorem causal_iff (events : List (AgentEvent P)) :
    Causal AgentEvent.captures AgentEvent.output 0 events ↔
      ∀ n, (receipts (events.take n)).length ≤ drains (events.take n) := by
  simp only [Causal, filter_receives, sum_output, List.length_map, Nat.zero_add]

variable [DecidableEq P] [Protocol P]

/-- Given a run, another order of its steps that keeps the order within each
thread is a run exactly when no map is received before it was sent, and then the
agent is the same in the end. -/
theorem run_iff_of_same_threads (collector : SocketAddr) (odid : U32)
    (events events' : List (AgentEvent P)) (agent agent' : Agent P)
    (run : Run (AgentStep collector) (Agent.start collector odid) events agent)
    (sameCaptures : events'.filter AgentEvent.captures = events.filter AgentEvent.captures)
    (sameReceipts : receipts events' = receipts events) :
    Run (AgentStep collector) (Agent.start collector odid) events' agent' ↔
      (∀ n, (receipts (events'.take n)).length ≤ drains (events'.take n)) ∧ agent' = agent := by
  obtain ⟨made, used, produced, consumed, conserved, _⟩ := run_threads run
  rw [filter_receives, ← sameReceipts, ← filter_receives] at consumed
  rw [← sameCaptures] at produced
  have reordered : (∀ n, (receipts (events'.take n)).length ≤ drains (events'.take n)) →
      Run (AgentStep collector) (Agent.start collector odid) events' agent := by
    intro causal
    exact (assemble (sides collector) produced consumed conserved
      ((causal_iff events').mpr causal)).map agentOf agentStep_of_pipe
  constructor
  · intro run'
    obtain ⟨_, _, _, _, _, causal⟩ := run_threads run'
    have counts := (causal_iff events').mp causal
    exact ⟨counts, run'.deterministic (reordered counts) agentStep_deterministic⟩
  · rintro ⟨causal, rfl⟩
    exact reordered causal

/-- The packet after the drain comes before or after the receive. -/
theorem run_iff_of_same_threads_sample :
    ∃ (receipt : Receipt SampleProtocol) (agent : Agent SampleProtocol),
      ∀ agent', Run (AgentStep (P := SampleProtocol) sampleCollector)
          (Agent.start sampleCollector 0)
          [.drain, .packet (some samplePacket) 0, .receive receipt] agent' ↔
        (∀ n, (receipts ([.drain, .packet (some samplePacket) 0, .receive receipt].take n)).length ≤
          drains ([.drain, .packet (some samplePacket) 0, .receive receipt].take n)) ∧
        agent' = agent := by
  let sent : Agent SampleProtocol :=
    ⟨FlowTable.new, [FlowTable.new.inner], Exporter.fresh sampleCollector 0⟩
  obtain ⟨receipt, next, received, _⟩ := receive_enabled sampleCollector sent FlowTable.new.inner
    [] rfl [] ⟨0, 0, none⟩ fun _ => none
  have run : Run (AgentStep sampleCollector) (Agent.start sampleCollector 0)
      [.drain, .receive receipt, .packet (some samplePacket) 0]
      { next with table := next.table.capture (some samplePacket) 0 } :=
    .cons (.drain _) (.cons received (.cons (.packet _ _ _) (.nil _)))
  exact ⟨receipt, _, fun agent' => run_iff_of_same_threads sampleCollector 0 _ _ _ agent' run
    rfl rfl⟩

end Orders

end SniffnetAgent
