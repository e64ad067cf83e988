import SniffnetAgent.Capture
import SniffnetAgent.Exporter

/-!
# The two threads

The capture thread records packets and hands its table over; the main thread
takes the oldest map off the channel and exports it.  The order of the steps is
free, and so is everything the environment decides: the packets, the order in
which a map is iterated, the interface addresses, the clock, the sends.
-/

set_option autoImplicit false

namespace SniffnetAgent

open WireCodec CheckedArith LabelledRun Ipfix

section Agent
variable {P : Type}

structure Agent (P : Type) where
  table : FlowTable P
  /-- Oldest map first. -/
  channel : List (FlowMap P)
  exporter : Exporter

/-- Before the first step of either thread. -/
def Agent.start (collector : SocketAddr) (odid : U32) : Agent P :=
  ⟨FlowTable.new, [], Exporter.fresh collector odid⟩

/-- One turn of the main loop: the entries of the map in the order of the
iteration, the address snapshot, and what went to the socket. -/
structure Receipt (P : Type) where
  entries : List (Flow P)
  addrs : List IpAddr
  clock : Clock
  send : Nat → Option IoError
  attempts : List Attempt

inductive AgentEvent (P : Type) where
  | packet (parsed : Option (ParsedPacket P)) (tsMs : U64)
  | drain
  | receive (receipt : Receipt P)

variable [Protocol P] [DecidableEq P]

/-- The filter and the annotation between the channel and `run_flush`. -/
def exportFlows (collector : SocketAddr) (addrs : List IpAddr) (entries : List (Flow P)) :
    List (Flow P) :=
  (entries.filter fun flow => !flow.1.isSelfExport collector).map fun flow =>
    (flow.1, flow.2.withDirection flow.1 addrs)

def Receipt.flows (receipt : Receipt P) (collector : SocketAddr) : List (Flow P) :=
  exportFlows collector receipt.addrs receipt.entries

inductive AgentStep (collector : SocketAddr) :
    Agent P → AgentEvent P → Agent P → Prop where
  | packet (agent : Agent P) (parsed : Option (ParsedPacket P)) (tsMs : U64) :
      AgentStep collector agent (.packet parsed tsMs)
        { agent with table := agent.table.capture parsed tsMs }
  | drain (agent : Agent P) :
      AgentStep collector agent .drain
        { agent with
          table := agent.table.drain.2
          channel := agent.channel ++ [agent.table.drain.1] }
  | receive (agent : Agent P) (map : FlowMap P) (rest : List (FlowMap P)) (receipt : Receipt P)
      (exporter : Exporter) (result : Except IoError Unit) :
      agent.channel = map :: rest → FlowMap.Enumerates map receipt.entries →
      runFlush agent.exporter (receipt.flows collector) receipt.clock receipt.send =
        .ok ⟨exporter, receipt.attempts, result⟩ →
      AgentStep collector agent (.receive receipt)
        { agent with channel := rest, exporter }

/-- The main thread is never stuck on a map: whatever the iteration order, the
addresses, the clock and the sends, the step can be taken. -/
theorem receive_enabled (collector : SocketAddr) (agent : Agent P) (map : FlowMap P)
    (rest : List (FlowMap P)) (waiting : agent.channel = map :: rest) (addrs : List IpAddr)
    (clock : Clock) (send : Nat → Option IoError) :
    ∃ receipt next, AgentStep collector agent (.receive receipt) next ∧ receipt.addrs = addrs ∧
      receipt.clock = clock ∧ receipt.send = send := by
  obtain ⟨entries, enumerates⟩ := FlowMap.exists_enumeration map
  obtain ⟨blocks, result, _, flushed⟩ := flush_spec agent.exporter
    ⟨exportFlows collector addrs entries, clock, send⟩
  rw [← runFlush_eq_flush] at flushed
  exact ⟨⟨entries, addrs, clock, send, _⟩, _,
    AgentStep.receive agent map rest _ _ result waiting enumerates flushed, rfl, rfl, rfl⟩

theorem receive_frame {collector : SocketAddr} {agent next : Agent P} {receipt : Receipt P}
    (step : AgentStep collector agent (.receive receipt) next) :
    next.table = agent.table ∧ next.channel = agent.channel.tail := by
  cases step with
  | receive map rest _ exporter result waiting _ _ => rw [waiting]; exact ⟨rfl, rfl⟩

theorem receive_oldest {collector : SocketAddr} {agent next : Agent P} {receipt : Receipt P}
    (step : AgentStep collector agent (.receive receipt) next) {map : FlowMap P}
    {rest : List (FlowMap P)} (waiting : agent.channel = map :: rest) :
    FlowMap.Enumerates map receipt.entries := by
  cases step with
  | receive oldest _ _ _ _ queued enumerates _ =>
      rw [waiting] at queued
      cases queued
      exact enumerates

def Receipt.call (receipt : Receipt P) (collector : SocketAddr) : FlushCall P :=
  ⟨receipt.flows collector, receipt.clock, receipt.send⟩

/-- The flush of a receipt, as a step of the exporter alone. -/
theorem flushStep_of_receive {collector : SocketAddr} {before next : Exporter}
    {receipt : Receipt P} {result : Except IoError Unit}
    (flushed : runFlush before (receipt.flows collector) receipt.clock receipt.send =
      .ok ⟨next, receipt.attempts, result⟩) :
    FlushStep before ⟨before, receipt.call collector, receipt.attempts⟩ next := by
  rw [runFlush_eq_flush] at flushed
  exact ⟨rfl, result, flushed⟩

/-! ## What every map has in common -/

/-- Of the table and of every map in the channel. -/
structure Throughout (Q : FlowMap P → Prop) (agent : Agent P) : Prop where
  table : Q agent.table.inner
  channel : ∀ map ∈ agent.channel, Q map

/-- The map of a receipt, and its flush as a step of the exporter. -/
def Receipt.Takes (receipt : Receipt P) (collector : SocketAddr) (Q : FlowMap P → Prop) : Prop :=
  ∃ map before next, Q map ∧ FlowMap.Enumerates map receipt.entries ∧
    FlushStep before ⟨before, receipt.call collector, receipt.attempts⟩ next

theorem Throughout.step {Q : FlowMap P → Prop} (empty : Q ∅) {collector : SocketAddr}
    {agent next : Agent P} {event : AgentEvent P} (holds : Throughout Q agent)
    (captures : ∀ parsed tsMs, event = .packet parsed tsMs →
      ∀ table : FlowTable P, Q table.inner → Q (table.capture parsed tsMs).inner)
    (step : AgentStep collector agent event next) :
    Throughout Q next ∧ ∀ receipt, event = .receive receipt → receipt.Takes collector Q := by
  obtain ⟨table, channel⟩ := holds
  cases step with
  | packet parsed tsMs =>
      refine ⟨⟨captures parsed tsMs rfl agent.table table, channel⟩, ?_⟩
      intro receipt shape
      cases shape
  | drain =>
      refine ⟨⟨empty, ?_⟩, ?_⟩
      · intro map member
        rcases List.mem_append.mp member with queued | last
        · exact channel map queued
        · rw [List.mem_singleton] at last
          rw [last]
          exact table
      · intro receipt shape
        cases shape
  | receive map rest receipt exporter result waiting enumerates flushed =>
      rw [waiting] at channel
      refine ⟨⟨table, fun other member => channel other (List.mem_cons_of_mem _ member)⟩, ?_⟩
      intro other shape
      cases shape
      exact ⟨map, _, _, channel map (List.mem_cons_self ..), enumerates,
        flushStep_of_receive flushed⟩

/-- What the empty map has and every captured packet preserves holds of every
map that is flushed. -/
theorem takes_of_run {Q : FlowMap P → Prop} (empty : Q ∅) {collector : SocketAddr} {odid : U32}
    {events : List (AgentEvent P)} {agent : Agent P}
    (run : Run (AgentStep collector) (Agent.start collector odid) events agent)
    (captures : ∀ parsed tsMs, AgentEvent.packet parsed tsMs ∈ events →
      ∀ table : FlowTable P, Q table.inner → Q (table.capture parsed tsMs).inner) :
    ∀ receipt, AgentEvent.receive receipt ∈ events → receipt.Takes collector Q := by
  have started : Throughout Q (Agent.start collector odid : Agent P) := by
    refine ⟨empty, ?_⟩
    intro map member
    cases member
  have allowed : ∀ event ∈ events, ∀ parsed tsMs, event = .packet parsed tsMs →
      ∀ table : FlowTable P, Q table.inner → Q (table.capture parsed tsMs).inner := by
    intro event member parsed tsMs shape
    rw [shape] at member
    exact captures parsed tsMs member
  obtain ⟨_, taken⟩ := run.guarded (Throughout Q) _
    (fun event => ∀ receipt, event = .receive receipt → receipt.Takes collector Q) allowed started
    fun _ _ _ holds captures step => holds.step empty captures step
  exact fun receipt member => taken _ member receipt rfl

end Agent

end SniffnetAgent
