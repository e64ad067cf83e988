import SniffnetAgent.Outcomes

/-!
# What the header is for

The wall clock and the observation domain are written into eight bytes of the
message header and used for nothing else.  An agent on a host whose clock is
wrong, or with another domain, hands over the same datagrams but for these bytes.
-/

set_option autoImplicit false

namespace SniffnetAgent

namespace Ipfix

open WireCodec

section Packings
variable {α : Type}

/-- The packing is determined by what is owed. -/
theorem Packs.unique {limit : Nat} {due : Bool} {v4 v6 : List α} {blocks blocks' : List (Block α)}
    (packs : Packs limit due v4 v6 blocks) (packs' : Packs limit due v4 v6 blocks') :
    blocks = blocks' := by
  induction packs generalizing blocks' with
  | done due =>
      cases packs' with
      | done => rfl
      | next more => exact absurd more (by simp)
  | next more _ ih =>
      cases packs' with
      | done => exact absurd more (by simp)
      | next _ rest => rw [ih rest]

end Packings

/-- The datagram with another export time and observation domain. -/
def restamp (nowUnix odid : U32) (datagram : List Byte) : List Byte :=
  datagram.take 4 ++ toBeBytes nowUnix ++ (datagram.drop 8).take 4 ++ toBeBytes odid ++
    datagram.drop 16

/-- Four parts of four bytes, and a rest. -/
theorem restamp_parts {start time count domain : List Byte} (front : start.length = 4)
    (second : time.length = 4) (third : count.length = 4) (fourth : domain.length = 4)
    (body : List Byte) (nowUnix odid : U32) :
    restamp nowUnix odid (start ++ time ++ count ++ domain ++ body) =
      start ++ toBeBytes nowUnix ++ count ++ toBeBytes odid ++ body := by
  have upToTime : (start ++ time).length = 8 := by rw [List.length_append, front, second]
  have upToDomain : (start ++ time ++ count ++ domain).length = 16 := by
    rw [List.length_append, List.length_append, upToTime, third, fourth]
  have fromCount : (start ++ time ++ (count ++ (domain ++ body))).drop 8 =
      count ++ (domain ++ body) := List.drop_left' upToTime
  have fromBody : (start ++ time ++ count ++ domain ++ body).drop 16 = body :=
    List.drop_left' upToDomain
  simp only [List.append_assoc] at fromCount fromBody
  simp only [restamp, List.append_assoc]
  rw [List.take_left' front, fromCount, List.take_left' third, fromBody]

section Messages
variable {P : Type} [Protocol P]

theorem restamp_messageBytes (nowUnix odid nowUnix' odid' : U32) (due : Bool) (seq : U32)
    (block : Block (Flow P)) :
    restamp nowUnix' odid' (messageBytes nowUnix odid due seq block) =
      messageBytes nowUnix' odid' due seq block := by
  have front :
      (toBeBytes version ++ toBeBytes (BitVec.ofNat 16 (block.charge due))).length = 4 := by
    simp
  exact restamp_parts front (length_toBeBytes nowUnix) (length_toBeBytes seq)
    (length_toBeBytes odid) (bodyBytes due block) nowUnix' odid'

theorem map_restamp_messages (nowUnix odid nowUnix' odid' : U32) (blocks : List (Block (Flow P)))
    (due : Bool) (seq : U32) :
    (messages nowUnix odid due seq blocks).map (restamp nowUnix' odid') =
      messages nowUnix' odid' due seq blocks := by
  induction blocks generalizing due seq with
  | nil => rfl
  | cons block blocks ih =>
      rw [messages, messages, List.map_cons, restamp_messageBytes, ih]

end Messages

end Ipfix

open WireCodec CheckedArith LabelledRun Ipfix Collector

/-! ## One flush -/

section Flush
variable {P : Type} [Protocol P]

def Attempt.restamp (nowUnix odid : U32) (attempt : Attempt) : Attempt :=
  { attempt with datagram := Ipfix.restamp nowUnix odid attempt.datagram }

theorem attemptsOf_map (send : Nat → Option IoError) (nowUnix odid : U32)
    (datagrams : List (List Byte)) :
    attemptsOf send (datagrams.map (Ipfix.restamp nowUnix odid)) =
      (attemptsOf send datagrams).map (Attempt.restamp nowUnix odid) := by
  apply List.ext_getElem
  · simp [attemptsOf]
  · intro i _ _
    simp [attemptsOf, Attempt.restamp]

/-- The outcomes of the sends are kept. -/
theorem resultOf_restamp (nowUnix odid : U32) (attempts : List Attempt) :
    resultOf (attempts.map (Attempt.restamp nowUnix odid)) = resultOf attempts := by
  have errors : (attempts.map (Attempt.restamp nowUnix odid)).filterMap Attempt.error =
      attempts.filterMap Attempt.error := by
    rw [List.filterMap_map]
    rfl
  rw [resultOf, resultOf, errors]

/-- The exporter with another observation domain. -/
def Exporter.inDomain (self : Exporter) (odid : U32) : Exporter := { self with odid }

/-- The clock that differs in the time of day only. -/
structure Clock.SameInstants (clock clock' : Clock) : Prop where
  elapsedNow : clock'.elapsedNow = clock.elapsedNow
  stampNow : clock'.stampNow = clock.stampNow

omit [Protocol P] in
theorem carries_inDomain {clock clock' : Clock} (same : clock.SameInstants clock')
    (self : Exporter) (odid : U32) (flows : List (Flow P)) (send : Nat → Option IoError) :
    (self.inDomain odid).carries ⟨flows, clock', send⟩ = self.carries ⟨flows, clock, send⟩ := by
  simp only [Exporter.carries, Exporter.templateDue, Exporter.inDomain, same.elapsedNow]

omit [Protocol P] in
theorem after_inDomain {clock clock' : Clock} (same : clock.SameInstants clock')
    (self : Exporter) (odid : U32) (flows : List (Flow P)) (send : Nat → Option IoError) :
    (self.inDomain odid).after ⟨flows, clock', send⟩ =
      (self.after ⟨flows, clock, send⟩).inDomain odid := by
  simp only [Exporter.after, carries_inDomain same, same.stampNow]
  rfl

/-- The same flush at another time of day and in another domain. -/
theorem flush_restamp {self next : Exporter} {flows : List (Flow P)} {clock clock' : Clock}
    {send : Nat → Option IoError} {attempts : List Attempt} {result : Except IoError Unit}
    (flushed : self.flush flows clock send = .ok ⟨next, attempts, result⟩)
    (same : clock.SameInstants clock') (odid : U32) :
    (self.inDomain odid).flush flows clock' send =
      .ok ⟨next.inDomain odid, attempts.map (Attempt.restamp (unixSeconds clock') odid),
        result⟩ := by
  obtain ⟨blocks, _, packs, spec⟩ := flush_spec self ⟨flows, clock, send⟩
  obtain ⟨blocks', other, packs', spec'⟩ := flush_spec (self.inDomain odid) ⟨flows, clock', send⟩
  rw [carries_inDomain same] at packs' spec'
  obtain rfl := packs.unique packs'
  rw [flushed] at spec
  simp only [Except.ok.injEq, Flushed.mk.injEq] at spec
  obtain ⟨rfl, rfl, rfl⟩ := spec
  have restamped := attemptsOf_map send (unixSeconds clock') odid
    (messages (unixSeconds clock) self.odid (self.carries ⟨flows, clock, send⟩) self.seq blocks)
  rw [map_restamp_messages] at restamped
  have outcome := flush_outcomes flushed send
  have outcome' := flush_outcomes spec' send
  rw [map_datagram_attemptsOf] at outcome outcome'
  rw [flushed] at outcome
  simp only [Except.ok.injEq, Flushed.mk.injEq, true_and] at outcome
  have kept : resultOf (attemptsOf send (messages (unixSeconds clock') odid
      (self.carries ⟨flows, clock, send⟩) self.seq blocks)) = result := by
    rw [restamped, resultOf_restamp, ← outcome]
  rw [outcome', after_inDomain same, ← restamped, ← kept]
  rfl

end Flush

/-! ## Every run -/

section Runs
variable {P : Type}

def Agent.inDomain (agent : Agent P) (odid : U32) : Agent P :=
  { agent with exporter := agent.exporter.inDomain odid }

/-- The same event on a host with another time of day and another domain. -/
inductive Restamped (odid : U32) : AgentEvent P → AgentEvent P → Prop where
  | packet (parsed : Option (ParsedPacket P)) (tsMs : U64) :
      Restamped odid (.packet parsed tsMs) (.packet parsed tsMs)
  | drain : Restamped odid .drain .drain
  | receive (receipt receipt' : Receipt P) : receipt'.entries = receipt.entries →
      receipt'.addrs = receipt.addrs → receipt'.send = receipt.send →
      receipt.clock.SameInstants receipt'.clock →
      receipt'.attempts =
        receipt.attempts.map (Attempt.restamp (unixSeconds receipt'.clock) odid) →
      Restamped odid (.receive receipt) (.receive receipt')

variable [DecidableEq P] [Protocol P]

theorem agentStep_restamped {collector : SocketAddr} {odid : U32} (agent : Agent P)
    (event event' : AgentEvent P) (next : Agent P) (restamped : Restamped odid event event')
    (step : AgentStep collector agent event next) :
    AgentStep collector (agent.inDomain odid) event' (next.inDomain odid) := by
  cases restamped with
  | packet parsed tsMs =>
      cases step
      exact AgentStep.packet (agent.inDomain odid) parsed tsMs
  | drain =>
      cases step
      exact AgentStep.drain (agent.inDomain odid)
  | receive receipt receipt' entries addrs send same attempts =>
      cases step with
      | receive map rest _ exporter result waiting enumerates flushed =>
          have flows : receipt'.flows collector = receipt.flows collector := by
            rw [Receipt.flows, Receipt.flows, entries, addrs]
          rw [runFlush_eq_flush] at flushed
          have again := flush_restamp flushed same odid
          rw [← runFlush_eq_flush, ← flows, ← send, ← attempts] at again
          rw [← entries] at enumerates
          exact AgentStep.receive (agent.inDomain odid) map rest receipt'
            (exporter.inDomain odid) result waiting enumerates again

theorem records_of_run {collector : SocketAddr} {odid : U32} {events : List (AgentEvent P)}
    {agent : Agent P}
    (run : Run (AgentStep collector) (Agent.start collector odid) events agent) :
    (receipts events).map Receipt.records = (receipts events).map fun receipt =>
      (wireOrder (receipt.flows collector)).map collectorRecord := by
  apply List.map_congr_left
  intro receipt member
  obtain ⟨before, next, step⟩ := flushStep_of_run run receipt member
  exact records_of_flushStep step

theorem flows_restamped {odid : U32} {events events' : List (AgentEvent P)}
    (restamped : List.Forall₂ (Restamped odid) events events') (collector : SocketAddr) :
    (receipts events').map (Receipt.flows · collector) =
      (receipts events).map (Receipt.flows · collector) := by
  induction restamped with
  | nil => rfl
  | cons here _ ih =>
      cases here with
      | packet parsed tsMs => exact ih
      | drain => exact ih
      | receive receipt receipt' entries addrs _ _ _ =>
          have same : receipt'.flows collector = receipt.flows collector := by
            rw [Receipt.flows, Receipt.flows, entries, addrs]
          exact congrArg₂ List.cons same ih

/-- The header of every datagram has the time of the flush and the domain. -/
def Receipt.Stamped (receipt : Receipt P) (odid : U32) : Prop :=
  ∀ datagram ∈ receipt.datagrams, ∃ message, splitMessage datagram = some message ∧
    message.1.exportTime = (unixSeconds receipt.clock).toNat ∧ message.1.domain = odid.toNat

theorem stamped_of_flushStep {collector : SocketAddr} {before next : Exporter}
    {receipt : Receipt P}
    (step : FlushStep before ⟨before, receipt.call collector, receipt.attempts⟩ next) :
    receipt.Stamped before.odid := by
  obtain ⟨blocks, packs, datagrams⟩ := step.datagrams
  obtain ⟨well, _⟩ := packing_of_flows mtu packs
  have sent : receipt.datagrams = messages (unixSeconds receipt.clock) before.odid
    (before.carries (receipt.call collector)) before.seq blocks := datagrams
  intro datagram member
  rw [sent] at member
  obtain ⟨own, start, block, rfl, ⟨sorted, _, charge⟩, _⟩ := mem_messages well member
  have bound : block.charge own < 2 ^ 16 := Nat.lt_of_le_of_lt charge mtu.size.isLt
  exact ⟨_, splitMessage_messageBytes _ _ own start block sorted bound, rfl, rfl⟩

/-- The socket and the domain stay those of the start. -/
theorem stamped_of_run {collector : SocketAddr} {odid : U32} {events : List (AgentEvent P)}
    {agent : Agent P}
    (run : Run (AgentStep collector) (Agent.start collector odid) events agent) :
    agent.exporter.sock = ⟨bindAddr collector, collector⟩ ∧
      ∀ receipt ∈ receipts events, receipt.Stamped odid := by
  obtain ⟨⟨sock, _⟩, stamped⟩ := run.guarded
    (fun agent => agent.exporter.sock = ⟨bindAddr collector, collector⟩ ∧
      agent.exporter.odid = odid)
    (fun _ => True) (fun event => ∀ receipt, event = .receive receipt → receipt.Stamped odid)
    (fun _ _ => trivial) ⟨rfl, rfl⟩ fun agent event next holds _ step => by
      cases step with
      | packet parsed tsMs => exact ⟨holds, by simp⟩
      | drain => exact ⟨holds, by simp⟩
      | receive map rest receipt exporter result waiting enumerates flushed =>
          have taken := flushStep_of_receive flushed
          obtain ⟨_, after, _⟩ := taken.shape
          refine ⟨after ▸ holds, ?_⟩
          intro other same
          cases same
          exact holds.2 ▸ stamped_of_flushStep taken
  exact ⟨sock, fun receipt member => stamped _ (mem_receipts.mp member) receipt rfl⟩

/-- Every run goes through on a host with another wall clock and in another domain:
each datagram differs in the export time and the domain of its header at most,
the records are the same, and the agent ends in the same state but for its
domain. -/
theorem only_header_differs (collector : SocketAddr) (odid odid' : U32)
    (events events' : List (AgentEvent P)) (agent : Agent P)
    (run : Run (AgentStep collector) (Agent.start collector odid) events agent)
    (restamped : List.Forall₂ (Restamped odid') events events') :
    Run (AgentStep collector) (Agent.start collector odid') events' (agent.inDomain odid') ∧
      (receipts events').map Receipt.records = (receipts events).map Receipt.records := by
  have run' : Run (AgentStep collector) (Agent.start collector odid') events'
      (agent.inDomain odid') :=
    run.translate (Agent.inDomain · odid') (Restamped odid') agentStep_restamped restamped
  refine ⟨run', ?_⟩
  have flows := congrArg (List.map fun flows => (wireOrder flows).map collectorRecord)
    (flows_restamped restamped collector)
  rw [List.map_map, List.map_map] at flows
  rw [records_of_run run', records_of_run run]
  exact flows

/-- A flush of the year 2023 in domain 7. -/
theorem only_header_differs_sample :
    ∃ (receipt receipt' : Receipt SampleProtocol) (agent : Agent SampleProtocol),
      unixSeconds receipt'.clock = 1700000000 ∧ receipt'.records = receipt.records ∧
        Run (AgentStep sampleCollector) (Agent.start sampleCollector 7)
          [.packet (some samplePacket) 0, .drain, .receive receipt'] agent := by
  obtain ⟨receipt, agent, run⟩ := sample_run
  let clock : Clock := { receipt.clock with sinceEpoch := some 1700000000 }
  let receipt' : Receipt SampleProtocol :=
    { receipt with
      clock
      attempts := receipt.attempts.map (Attempt.restamp (unixSeconds clock) 7) }
  have restamped : List.Forall₂ (Restamped 7) [.packet (some samplePacket) 0, .drain,
      .receive receipt] [.packet (some samplePacket) 0, .drain, .receive receipt'] :=
    .cons (.packet _ _) (.cons .drain (.cons
      (.receive receipt receipt' rfl rfl rfl ⟨rfl, rfl⟩ rfl) .nil))
  obtain ⟨run', records⟩ := only_header_differs sampleCollector 0 7 _ _ agent run restamped
  exact ⟨receipt, receipt', _, rfl, List.head_eq_of_cons_eq records, run'⟩

end Runs

end SniffnetAgent
