import SniffnetAgent.Ipfix.RoundTrip
import SniffnetAgent.Lib.LabelledRun

/-!
# The exporter

`Exporter.flush` of `exporter.rs`.  What the code reads from its environment is
an argument: the clock readings of the call and the outcome of every `send`, in
the order of the sends.  An `Instant` is a number of nanoseconds, and `elapsed`
saturates.  The datagrams handed to the socket are returned with the outcome of
their send.
-/

set_option autoImplicit false

namespace SniffnetAgent

open WireCodec CheckedArith LabelledRun Ipfix

structure IoError where
  code : Nat
  deriving DecidableEq, Repr

/-- A UDP socket: the addresses that `bind` and `connect` were given. -/
structure UdpSocket where
  bound : SocketAddr
  peer : SocketAddr
  deriving DecidableEq, Repr

structure Exporter where
  sock : UdpSocket
  seq : U32
  odid : U32
  lastTemplateSend : Option Nat
  deriving DecidableEq, Repr

/-- The wildcard address of the collector's family. -/
def bindAddr (addr : SocketAddr) : SocketAddr :=
  match addr.ip with
  | .v4 _ => ⟨.v4 .unspecified, 0⟩
  | .v6 _ => ⟨.v6 .unspecified, 0⟩

/-- What a successful `connect` returns. -/
def Exporter.fresh (addr : SocketAddr) (odid : U32) : Exporter :=
  ⟨⟨bindAddr addr, addr⟩, 0, odid, none⟩

/-- `bind` and `connect` are the results of the two system calls. -/
def Exporter.connect (addr : SocketAddr) (odid : U32) (bind connect : Except IoError Unit) :
    Except IoError Exporter := do
  bind
  connect
  return Exporter.fresh addr odid

theorem fresh_of_connect {addr : SocketAddr} {odid : U32} {bind connect : Except IoError Unit}
    {exporter : Exporter} (connected : Exporter.connect addr odid bind connect = .ok exporter) :
    exporter = Exporter.fresh addr odid := by
  unfold Exporter.connect at connected
  cases bind with
  | error e => cases connected
  | ok _ =>
      cases connect with
      | error e => cases connected
      | ok _ => exact (Except.ok.inj connected).symm

/-- The readings of one call: the one behind `elapsed()`, the later
`Instant::now()`, and the seconds since the epoch, absent before the epoch. -/
structure Clock where
  elapsedNow : Nat
  stampNow : Nat
  sinceEpoch : Option Nat
  deriving Repr

def unixSeconds (clock : Clock) : U32 :=
  match clock.sinceEpoch with
  | some secs => if secs < 2 ^ 32 then BitVec.ofNat 32 secs else 0
  | none => 0

/-- `Duration::from_secs(30)`. -/
def refreshInterval : Nat := 30 * 1000000000

def Exporter.templateDue (self : Exporter) (clock : Clock) : Bool :=
  match self.lastTemplateSend with
  | none => true
  | some t => decide (refreshInterval ≤ clock.elapsedNow - t)

/-- A datagram handed to the socket, with the error of its send, if any. -/
structure Attempt where
  datagram : List Byte
  error : Option IoError
  deriving DecidableEq, Repr

structure SendState where
  attempts : List Attempt
  lastErr : Option IoError

/-- One turn of the loop over the datagrams: a failed send does not stop it. -/
def sendNext (send : Nat → Option IoError) (s : SendState) (datagram : List Byte) : SendState :=
  match send s.attempts.length with
  | some e => ⟨s.attempts ++ [⟨datagram, some e⟩], some e⟩
  | none => ⟨s.attempts ++ [⟨datagram, none⟩], s.lastErr⟩

structure Flushed where
  exporter : Exporter
  attempts : List Attempt
  result : Except IoError Unit

section Flush
variable {P : Type} [Protocol P]

def Exporter.flush (self : Exporter) (flows : List (Flow P)) (clock : Clock)
    (send : Nat → Option IoError) : Exec Flushed := do
  if flows.isEmpty then
    return ⟨self, [], .ok ()⟩
  let includeTemplateSet := self.templateDue clock
  let nowUnix := unixSeconds clock
  let (datagrams, newSeq) ←
    buildDatagrams mtu flows self.seq includeTemplateSet nowUnix self.odid
  let self :=
    if includeTemplateSet then { self with lastTemplateSend := some clock.stampNow } else self
  -- the sequence number advances whether or not the sends succeed
  let self := { self with seq := newSeq }
  let sent := datagrams.foldl (sendNext send) ⟨[], none⟩
  match sent.lastErr with
  | some e => return ⟨self, sent.attempts, .error e⟩
  | none => return ⟨self, sent.attempts, .ok ()⟩

/-- `run_flush` of the main thread; the result is only logged. -/
def runFlush (exporter : Exporter) (flows : List (Flow P)) (clock : Clock)
    (send : Nat → Option IoError) : Exec Flushed := do
  if flows.isEmpty then
    return ⟨exporter, [], .ok ()⟩
  exporter.flush flows clock send

/-! ## One flush -/

structure FlushCall (P : Type) where
  flows : List (Flow P)
  clock : Clock
  send : Nat → Option IoError

/-- Whether the call emits the Template Set: an empty batch emits nothing. -/
def Exporter.carries (self : Exporter) (call : FlushCall P) : Bool :=
  !call.flows.isEmpty && self.templateDue call.clock

/-- The exporter after the call. -/
def Exporter.after (self : Exporter) (call : FlushCall P) : Exporter :=
  { self with
    seq := self.seq + BitVec.ofNat 32 call.flows.length
    lastTemplateSend :=
      if self.carries call then some call.clock.stampNow else self.lastTemplateSend }

/-- Each datagram with the outcome of its own send. -/
def attemptsOf (send : Nat → Option IoError) (datagrams : List (List Byte)) : List Attempt :=
  datagrams.mapIdx fun i datagram => ⟨datagram, send i⟩

theorem foldl_sendNext (send : Nat → Option IoError) (datagrams : List (List Byte)) :
    (datagrams.foldl (sendNext send) ⟨[], none⟩).attempts = attemptsOf send datagrams := by
  induction datagrams using List.reverseRecOn with
  | nil => rfl
  | append_singleton datagrams datagram ih =>
      rw [List.foldl_append, List.foldl_cons, List.foldl_nil, attemptsOf, List.mapIdx_append,
        ← attemptsOf, ← ih, sendNext]
      have count : (datagrams.foldl (sendNext send) ⟨[], none⟩).attempts.length =
          datagrams.length := by
        rw [ih, attemptsOf, List.length_mapIdx]
      rw [count]
      cases outcome : send datagrams.length <;> simp [outcome]

theorem map_datagram_attemptsOf (send : Nat → Option IoError) (datagrams : List (List Byte)) :
    (attemptsOf send datagrams).map Attempt.datagram = datagrams := by
  apply List.ext_getElem
  · rw [List.length_map, attemptsOf, List.length_mapIdx]
  · intro i _ _
    rw [List.getElem_map]
    simp only [attemptsOf, List.getElem_mapIdx]

/-- A flush never faults.  It hands over the messages of one packing, whatever
the outcomes of the sends. -/
theorem flush_spec (self : Exporter) (call : FlushCall P) :
    ∃ blocks result,
      Packs mtu.size.toNat (self.carries call) (v4Flows call.flows) (v6Flows call.flows) blocks ∧
      self.flush call.flows call.clock call.send =
        .ok ⟨self.after call,
          attemptsOf call.send (messages (unixSeconds call.clock) self.odid (self.carries call)
            self.seq blocks), result⟩ := by
  obtain ⟨flows, clock, send⟩ := call
  unfold Exporter.flush
  cases empty : flows.isEmpty with
  | true =>
      have none : flows = [] := List.isEmpty_iff.mp empty
      subst none
      refine ⟨[], .ok (), Packs.done _, ?_⟩
      simp [Exporter.after, Exporter.carries, messages, attemptsOf, pure_eq_ok]
  | false =>
      obtain ⟨blocks, packs, run⟩ := buildDatagrams_spec mtu flows self.seq (self.templateDue clock)
        (unixSeconds clock) self.odid
      have carries : self.carries ⟨flows, clock, send⟩ = self.templateDue clock := by
        simp [Exporter.carries, empty]
      have state : ({ (if self.templateDue clock then
            { self with lastTemplateSend := some clock.stampNow } else self) with
          seq := self.seq + BitVec.ofNat 32 flows.length } : Exporter) =
          self.after ⟨flows, clock, send⟩ := by
        rw [Exporter.after, carries]
        cases self.templateDue clock <;> rfl
      rw [carries]
      simp only [Bool.false_eq_true, if_false, run, ok_bind, state, ← foldl_sendNext]
      split
      · exact ⟨blocks, _, packs, rfl⟩
      · exact ⟨blocks, _, packs, rfl⟩

theorem runFlush_eq_flush (exporter : Exporter) (flows : List (Flow P)) (clock : Clock)
    (send : Nat → Option IoError) :
    runFlush exporter flows clock send = exporter.flush flows clock send := by
  unfold runFlush Exporter.flush
  cases flows.isEmpty <;> rfl

end Flush

/-! ## Sessions -/

section Sessions
variable {P : Type} [Protocol P]

/-- One flush in the history of a session. -/
structure FlushEvent (P : Type) where
  before : Exporter
  call : FlushCall P
  attempts : List Attempt

def FlushEvent.datagrams (event : FlushEvent P) : List (List Byte) :=
  event.attempts.map Attempt.datagram

/-- A list of flush calls on one exporter, with its history. -/
def Exporter.session (self : Exporter) :
    List (FlushCall P) → Exec (Exporter × List (FlushEvent P))
  | [] => return (self, [])
  | call :: calls => do
      let flushed ← self.flush call.flows call.clock call.send
      let (final, log) ← flushed.exporter.session calls
      return (final, ⟨self, call, flushed.attempts⟩ :: log)

def FlushStep (self : Exporter) (event : FlushEvent P) (next : Exporter) : Prop :=
  event.before = self ∧ ∃ result,
    self.flush event.call.flows event.call.clock event.call.send =
      .ok ⟨next, event.attempts, result⟩

/-- A session always runs to its end. -/
theorem session_run (self : Exporter) (calls : List (FlushCall P)) :
    ∃ final log, self.session calls = .ok (final, log) ∧ Run FlushStep self log final ∧
      log.map FlushEvent.call = calls := by
  induction calls generalizing self with
  | nil => exact ⟨self, [], rfl, Run.nil self, rfl⟩
  | cons call calls ih =>
      obtain ⟨blocks, result, _, first⟩ := flush_spec self call
      obtain ⟨final, log, rest, run, inputs⟩ := ih (self.after call)
      refine ⟨final, ⟨self, call, attemptsOf call.send (messages (unixSeconds call.clock) self.odid
        (self.carries call) self.seq blocks)⟩ :: log, ?_, Run.cons ⟨rfl, result, first⟩ run, ?_⟩
      · simp only [Exporter.session, first, ok_bind, rest]
        rfl
      · rw [List.map_cons, inputs]

/-- Everything a step can do. -/
theorem FlushStep.shape {self next : Exporter} {event : FlushEvent P}
    (step : FlushStep self event next) :
    event.before = self ∧ next = self.after event.call ∧ ∃ blocks,
      Packs mtu.size.toNat (self.carries event.call) (v4Flows event.call.flows)
        (v6Flows event.call.flows) blocks ∧
      event.attempts = attemptsOf event.call.send (messages (unixSeconds event.call.clock)
        self.odid (self.carries event.call) self.seq blocks) := by
  obtain ⟨before, result, run⟩ := step
  obtain ⟨blocks, _, packs, spec⟩ := flush_spec self event.call
  rw [spec] at run
  simp only [Except.ok.injEq, Flushed.mk.injEq] at run
  obtain ⟨state, attempts, _⟩ := run
  exact ⟨before, state.symm, blocks, packs, attempts.symm⟩

theorem FlushStep.datagrams {self next : Exporter} {event : FlushEvent P}
    (step : FlushStep self event next) :
    ∃ blocks, Packs mtu.size.toNat (self.carries event.call) (v4Flows event.call.flows)
        (v6Flows event.call.flows) blocks ∧
      event.datagrams = messages (unixSeconds event.call.clock) self.odid
        (self.carries event.call) self.seq blocks := by
  obtain ⟨_, _, blocks, packs, attempts⟩ := step.shape
  refine ⟨blocks, packs, ?_⟩
  rw [FlushEvent.datagrams, attempts, map_datagram_attemptsOf]

theorem FlushStep.empty {self next : Exporter} {event : FlushEvent P}
    (step : FlushStep self event next) (empty : event.call.flows = []) :
    event.datagrams = [] ∧ next = self := by
  obtain ⟨_, result, run⟩ := step
  have spec : self.flush ([] : List (Flow P)) event.call.clock event.call.send =
      .ok ⟨self, [], .ok ()⟩ := rfl
  rw [empty, spec] at run
  simp only [Except.ok.injEq, Flushed.mk.injEq] at run
  obtain ⟨same, none, _⟩ := run
  rw [FlushEvent.datagrams, ← none]
  exact ⟨rfl, same.symm⟩

/-- A collector that has the templates learns every flow of the call. -/
theorem FlushStep.records {self next : Exporter} {event : FlushEvent P}
    (step : FlushStep self event next) :
    ∃ store, Collector.decodeStream agentTemplates event.datagrams =
      some (store, (wireOrder event.call.flows).map collectorRecord) := by
  obtain ⟨blocks, packs, datagrams⟩ := step.datagrams
  obtain ⟨well, order⟩ := packing_of_flows mtu packs
  obtain ⟨store, decoded, _⟩ := decodeStream_messages mtu.size.toNat mtu.size.isLt
    (unixSeconds event.call.clock) self.odid blocks (self.carries event.call) self.seq
    agentTemplates well (knows_storeAfter _)
  rw [order, ← datagrams] at decoded
  exact ⟨store, decoded⟩

end Sessions

end SniffnetAgent
