import SniffnetAgent.Conversation
import SniffnetAgent.Traffic

/-!
# What the datagrams do not depend on

The outcome of a send is kept for the log and otherwise forgotten, and the
addresses of the interface are asked for membership only.  A run whose sends
fail elsewhere, or whose addresses come in another order, hands the same
datagrams to the socket and ends in the same state.
-/

set_option autoImplicit false

namespace SniffnetAgent

open WireCodec CheckedArith LabelledRun Ipfix

/-! ## Sends -/

section Sends

theorem attemptsOf_snoc (send : Nat → Option IoError) (datagrams : List (List Byte))
    (datagram : List Byte) : attemptsOf send (datagrams ++ [datagram]) =
      attemptsOf send datagrams ++ [⟨datagram, send datagrams.length⟩] := by
  simp [attemptsOf, List.mapIdx_append]

theorem length_attemptsOf (send : Nat → Option IoError) (datagrams : List (List Byte)) :
    (attemptsOf send datagrams).length = datagrams.length := by
  rw [attemptsOf, List.length_mapIdx]

/-- What `flush` returns: the error of the last send that failed. -/
def resultOf (attempts : List Attempt) : Except IoError Unit :=
  match (attempts.filterMap Attempt.error).getLast? with
  | some e => .error e
  | none => .ok ()

theorem lastErr_foldl (send : Nat → Option IoError) (datagrams : List (List Byte)) :
    (datagrams.foldl (sendNext send) ⟨[], none⟩).lastErr =
      ((attemptsOf send datagrams).filterMap Attempt.error).getLast? := by
  induction datagrams using List.reverseRecOn with
  | nil => rfl
  | append_singleton datagrams datagram ih =>
      rw [List.foldl_append, List.foldl_cons, List.foldl_nil, attemptsOf_snoc,
        List.filterMap_append, sendNext, foldl_sendNext, length_attemptsOf, ih]
      cases send datagrams.length <;> simp

theorem resultOf_attemptsOf (send : Nat → Option IoError) (datagrams : List (List Byte)) :
    resultOf (attemptsOf send datagrams) =
      match (datagrams.foldl (sendNext send) ⟨[], none⟩).lastErr with
      | some e => .error e
      | none => .ok () := by
  rw [resultOf, lastErr_foldl]

variable {P : Type} [Protocol P]

/-- The datagrams of a flush are settled before the first send. -/
theorem flush_eq (self : Exporter) (flows : List (Flow P)) (clock : Clock) :
    ∃ datagrams, ∀ send, self.flush flows clock send =
      .ok ⟨self.after ⟨flows, clock, send⟩, attemptsOf send datagrams,
        resultOf (attemptsOf send datagrams)⟩ := by
  cases flows with
  | nil =>
      refine ⟨[], fun send => ?_⟩
      have same : self.after (⟨[], clock, send⟩ : FlushCall P) = self := by
        simp [Exporter.after, Exporter.carries]
      rw [same]
      rfl
  | cons flow flows =>
      obtain ⟨blocks, _, built⟩ := buildDatagrams_spec mtu (flow :: flows) self.seq
        (self.templateDue clock) (unixSeconds clock) self.odid
      generalize messages (unixSeconds clock) self.odid (self.templateDue clock) self.seq blocks =
        datagrams at built
      refine ⟨datagrams, fun send => ?_⟩
      have state : ({ (if self.templateDue clock then
            { self with lastTemplateSend := some clock.stampNow } else self) with
          seq := self.seq + BitVec.ofNat 32 (flow :: flows).length } : Exporter) =
          self.after ⟨flow :: flows, clock, send⟩ := by
        simp only [Exporter.after, Exporter.carries, List.isEmpty_cons, Bool.not_false,
          Bool.true_and]
        cases self.templateDue clock <;> rfl
      rw [resultOf_attemptsOf, ← foldl_sendNext]
      simp only [Exporter.flush, List.isEmpty_cons, Bool.false_eq_true, if_false, built, ok_bind,
        state]
      cases (datagrams.foldl (sendNext send) ⟨[], none⟩).lastErr <;> rfl

theorem flush_outcomes {self next : Exporter} {flows : List (Flow P)} {clock : Clock}
    {send : Nat → Option IoError} {attempts : List Attempt} {result : Except IoError Unit}
    (flushed : self.flush flows clock send = .ok ⟨next, attempts, result⟩)
    (send' : Nat → Option IoError) :
    self.flush flows clock send' =
      .ok ⟨next, attemptsOf send' (attempts.map Attempt.datagram),
        resultOf (attemptsOf send' (attempts.map Attempt.datagram))⟩ := by
  obtain ⟨datagrams, spec⟩ := flush_eq self flows clock
  rw [spec send] at flushed
  simp only [Except.ok.injEq, Flushed.mk.injEq] at flushed
  obtain ⟨rfl, rfl, _⟩ := flushed
  rw [map_datagram_attemptsOf]
  exact spec send'

end Sends

/-! ## Addresses -/

section Addresses
variable {P : Type} {addrs addrs' : List IpAddr}

theorem withDirection_congr (same : ∀ addr, addr ∈ addrs' ↔ addr ∈ addrs) (key : FlowKey P)
    (val : FlowVal) : val.withDirection key addrs' = val.withDirection key addrs := by
  have direction : (val.withDirection key addrs').direction =
      (val.withDirection key addrs).direction := by
    by_cases ported : key.PortedLoopback
    · obtain ⟨sport, srcIs⟩ := Option.isSome_iff_exists.mp ported.2.1
      obtain ⟨dport, dstIs⟩ := Option.isSome_iff_exists.mp ported.2.2
      rw [direction_ported ported srcIs dstIs, direction_ported ported srcIs dstIs]
    · have none : addrs' = [] ↔ addrs = [] := by
        rw [List.eq_nil_iff_forall_not_mem, List.eq_nil_iff_forall_not_mem]
        exact forall_congr' fun addr => not_congr (same addr)
      rw [direction_unported ported, direction_unported ported]
      simp only [classified, none, same]
  exact congrArg (fun direction => { val with direction }) direction

theorem exportFlows_congr (same : ∀ addr, addr ∈ addrs' ↔ addr ∈ addrs) (collector : SocketAddr)
    (entries : List (Flow P)) [Protocol P] [DecidableEq P] :
    exportFlows collector addrs' entries = exportFlows collector addrs entries := by
  refine List.map_congr_left fun flow _ => ?_
  rw [withDirection_congr same]

end Addresses

/-! ## Every run -/

section Runs
variable {P : Type}

/-- The same event, but for the order of the addresses and the outcomes of the
sends.  The datagrams of a receive are the same. -/
inductive Retried : AgentEvent P → AgentEvent P → Prop where
  | packet (parsed : Option (ParsedPacket P)) (tsMs : U64) :
      Retried (.packet parsed tsMs) (.packet parsed tsMs)
  | drain : Retried .drain .drain
  | receive (receipt receipt' : Receipt P) : receipt'.entries = receipt.entries →
      (∀ addr, addr ∈ receipt'.addrs ↔ addr ∈ receipt.addrs) →
      receipt'.clock = receipt.clock →
      receipt'.attempts = attemptsOf receipt'.send receipt.datagrams →
      Retried (.receive receipt) (.receive receipt')

variable [DecidableEq P] [Protocol P]

theorem agentStep_retried {collector : SocketAddr} (agent : Agent P)
    (event event' : AgentEvent P) (next : Agent P) (retried : Retried event event')
    (step : AgentStep collector agent event next) : AgentStep collector agent event' next := by
  cases retried with
  | packet parsed tsMs => exact step
  | drain => exact step
  | receive receipt receipt' entries addrs clock attempts =>
      cases step with
      | receive map rest _ exporter result waiting enumerates flushed =>
          have flows : receipt'.flows collector = receipt.flows collector := by
            rw [Receipt.flows, Receipt.flows, entries, exportFlows_congr addrs]
          rw [runFlush_eq_flush] at flushed
          have again := flush_outcomes flushed receipt'.send
          rw [← runFlush_eq_flush, ← flows, ← clock, ← Receipt.datagrams, ← attempts] at again
          rw [← entries] at enumerates
          exact AgentStep.receive agent map rest receipt' exporter _ waiting enumerates again

omit [DecidableEq P] [Protocol P] in
theorem datagrams_retried {events events' : List (AgentEvent P)}
    (retried : List.Forall₂ Retried events events') :
    (receipts events').map Receipt.datagrams = (receipts events).map Receipt.datagrams := by
  induction retried with
  | nil => rfl
  | cons here _ ih =>
      cases here with
      | packet parsed tsMs => exact ih
      | drain => exact ih
      | receive receipt receipt' _ _ _ attempts =>
          have same : receipt'.datagrams = receipt.datagrams := by
            rw [Receipt.datagrams, attempts, map_datagram_attemptsOf]
          exact congrArg₂ List.cons same ih

theorem result_of_run {collector : SocketAddr} {odid : U32} {events : List (AgentEvent P)}
    {agent : Agent P}
    (run : Run (AgentStep collector) (Agent.start collector odid) events agent) :
    ∀ receipt ∈ receipts events, ∃ before next,
      runFlush before (receipt.flows collector) receipt.clock receipt.send =
        .ok ⟨next, receipt.attempts, resultOf receipt.attempts⟩ := by
  intro receipt member
  obtain ⟨before, next, _, result, flushed⟩ := flushStep_of_run run receipt member
  have again := flush_outcomes flushed receipt.send
  have same := flushed.symm.trans again
  simp only [Except.ok.injEq, Flushed.mk.injEq, true_and] at same
  obtain ⟨attempts, _⟩ := same
  rw [← attempts] at again
  rw [← runFlush_eq_flush] at again
  exact ⟨before, next, again⟩

/-- Every run goes through unchanged when other sends fail and when the addresses
come in another order: the same datagrams are handed over, whether or not the
ones before them were sent, and the agent ends in the same state.  A flush
returns the error of its last send that failed. -/
theorem outcomes_do_not_matter (collector : SocketAddr) (odid : U32)
    (events events' : List (AgentEvent P)) (agent : Agent P)
    (run : Run (AgentStep collector) (Agent.start collector odid) events agent)
    (retried : List.Forall₂ Retried events events') :
    Run (AgentStep collector) (Agent.start collector odid) events' agent ∧
      (receipts events').map Receipt.datagrams = (receipts events).map Receipt.datagrams ∧
      ∀ receipt ∈ receipts events', ∃ before next,
        runFlush before (receipt.flows collector) receipt.clock receipt.send =
          .ok ⟨next, receipt.attempts, resultOf receipt.attempts⟩ := by
  have run' := run.relabel Retried agentStep_retried retried
  exact ⟨run', datagrams_retried retried, result_of_run run'⟩

/-- Every send fails where none did. -/
theorem outcomes_do_not_matter_sample :
    ∃ (receipt receipt' : Receipt SampleProtocol) (agent : Agent SampleProtocol),
      (∀ i, receipt'.send i = some ⟨111⟩) ∧ receipt'.datagrams = receipt.datagrams ∧
        Run (AgentStep sampleCollector) (Agent.start sampleCollector 0)
          [.packet (some samplePacket) 0, .drain, .receive receipt'] agent := by
  obtain ⟨receipt, agent, run⟩ := sample_run
  let refused : Nat → Option IoError := fun _ => some ⟨111⟩
  let receipt' : Receipt SampleProtocol :=
    { receipt with send := refused, attempts := attemptsOf refused receipt.datagrams }
  have retried : List.Forall₂ Retried [.packet (some samplePacket) 0, .drain, .receive receipt]
      [.packet (some samplePacket) 0, .drain, .receive receipt'] :=
    .cons (.packet _ _) (.cons .drain (.cons
      (.receive receipt receipt' rfl (fun _ => Iff.rfl) rfl rfl) .nil))
  obtain ⟨run', datagrams, _⟩ := outcomes_do_not_matter sampleCollector 0 _ _ agent run retried
  exact ⟨receipt, receipt', agent, fun _ => rfl, List.head_eq_of_cons_eq datagrams, run'⟩

end Runs

end SniffnetAgent
