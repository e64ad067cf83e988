import SniffnetAgent.TemplateSchedule

/-!
# What reaches the collector

The exporter stamps the timer before it knows whether the Template Set was
sent, and a failed send is not retried.  The data that reaches the collector
can be decoded exactly when the first send that succeeds in the session is the
first send of a flush for which the Template Set was due.
-/

set_option autoImplicit false

namespace SniffnetAgent

open WireCodec CheckedArith LabelledRun Ipfix Collector

/-- No data is sent successfully unless the Template Set was, with it or before. -/
def Decodable (attempts : List Attempt) : Prop :=
  ∀ before attempt after, attempts = before ++ attempt :: after → attempt.error = none →
    0 < dataSetCount attempt.datagram →
    0 < templateSetCount attempt.datagram ∨
      ∃ earlier ∈ before, earlier.error = none ∧ 0 < templateSetCount earlier.datagram

section Events
variable {P : Type} [Protocol P]

/-- Every send of the flush fails. -/
def FlushEvent.Silent (event : FlushEvent P) : Prop :=
  ∀ i < event.attempts.length, event.call.send i ≠ none

/-- The last flush with the Template Set, if any, is 30 seconds old. -/
def Due (history : List (FlushEvent P)) (event : FlushEvent P) : Prop :=
  ∀ t, lastTemplate history = some t → t + refreshInterval ≤ event.call.clock.elapsedNow

/-- The first flush with a successful send is one for which the Template Set is
due, and its first send, the one that carries the set, succeeds. -/
def FirstSuccessDue (log : List (FlushEvent P)) : Prop :=
  ∀ history event rest, log = history ++ event :: rest →
    (∀ earlier ∈ history, earlier.Silent) → ¬ event.Silent →
    Due history event ∧ event.call.send 0 = none

/-- What one flush hands to the socket. -/
structure Sends (history : List (FlushEvent P)) (event : FlushEvent P) : Prop where
  data : ∀ attempt ∈ event.attempts, 0 < dataSetCount attempt.datagram
  template : ∀ (i : Nat) (attempt : Attempt), event.attempts[i]? = some attempt →
    (0 < templateSetCount attempt.datagram ↔ Due history event ∧ i = 0)
  outcome : ∀ (i : Nat) (attempt : Attempt), event.attempts[i]? = some attempt →
    attempt.error = event.call.send i

theorem getElem?_attemptsOf {send : Nat → Option IoError} {datagrams : List (List Byte)} {i : Nat}
    {attempt : Attempt} (found : (attemptsOf send datagrams)[i]? = some attempt) :
    datagrams[i]? = some attempt.datagram ∧ attempt.error = send i := by
  rw [attemptsOf, List.getElem?_mapIdx] at found
  obtain ⟨datagram, at_i, rfl⟩ := Option.map_eq_some_iff.mp found
  exact ⟨at_i, rfl⟩

theorem sends_of_step {history : List (FlushEvent P)} {self next : Exporter}
    {event : FlushEvent P} (scheduled : Scheduled history self)
    (step : FlushStep self event next) : Sends history event := by
  obtain ⟨_, _, blocks, packs, attempts⟩ := step.shape
  obtain ⟨well, _⟩ := packing_of_flows mtu packs
  have limitBound : mtu.size.toNat < 2 ^ 16 := mtu.size.isLt
  refine ⟨?_, ?_, ?_⟩
  · intro attempt member
    obtain ⟨i, found⟩ := List.mem_iff_getElem?.mp member
    rw [attempts] at found
    have sent := (getElem?_attemptsOf found).1
    rw [messages_at] at sent
    obtain ⟨block, at_i, shape⟩ := Option.map_eq_some_iff.mp sent
    obtain ⟨sorted, positive, charge⟩ := well.at at_i
    rw [← shape]
    exact dataSetCount_messageBytes _ _ _ _ _ sorted (by omega) positive
  · intro i attempt found
    have hasFlows : event.call.flows ≠ [] := by
      intro empty
      have none := (step.empty empty).1
      rw [FlushEvent.datagrams, List.map_eq_nil_iff] at none
      simp [none] at found
    have carries : self.carries event.call = self.templateDue event.call.clock := by
      simp [Exporter.carries, hasFlows]
    have due : self.templateDue event.call.clock = true ↔ Due history event := by
      rw [Exporter.templateDue_iff, scheduled.stored, Due]
    rw [attempts] at found
    have count := templateSetCount_at mtu well (getElem?_attemptsOf found).1
    rw [count, carries, ← due]
    cases self.templateDue event.call.clock <;> cases i <;> simp
  · intro i attempt found
    rw [attempts] at found
    exact (getElem?_attemptsOf found).2

end Events

/-! ## The first success decides -/

section Decision
variable {P : Type} [Protocol P]

/-- The first element with a property. -/
theorem exists_first {α : Type} (Q : α → Prop) {xs : List α} (holdsSomewhere : ∃ x ∈ xs, Q x) :
    ∃ before x after, xs = before ++ x :: after ∧ Q x ∧ ∀ y ∈ before, ¬ Q y := by
  induction xs with
  | nil =>
      obtain ⟨x, member, _⟩ := holdsSomewhere
      cases member
  | cons head xs ih =>
      by_cases holds : Q head
      · exact ⟨[], head, xs, rfl, holds, by simp⟩
      · have later : ∃ x ∈ xs, Q x := by
          obtain ⟨x, member, is⟩ := holdsSomewhere
          rcases List.mem_cons.mp member with rfl | member
          · exact absurd is holds
          · exact ⟨x, member, is⟩
        obtain ⟨before, x, after, shape, is, none⟩ := ih later
        refine ⟨head :: before, x, after, by rw [shape, List.cons_append], is, ?_⟩
        intro y member
        rcases List.mem_cons.mp member with rfl | member
        · exact holds
        · exact none y member

/-- Of two positions in a list one comes first, or they are the same. -/
theorem order_of_split {α : Type} {before after front rest : List α} {x y : α}
    (split : before ++ x :: after = front ++ y :: rest) : x ∈ front ∨ x = y ∨ y ∈ before := by
  induction before generalizing front with
  | nil =>
      cases front with
      | nil => exact Or.inr (Or.inl (List.cons.inj split).1)
      | cons head front =>
          rw [List.nil_append, List.cons_append, List.cons.injEq] at split
          exact Or.inl (split.1 ▸ List.mem_cons_self ..)
  | cons first before ih =>
      cases front with
      | nil =>
          rw [List.nil_append, List.cons_append, List.cons.injEq] at split
          exact Or.inr (Or.inr (split.1 ▸ List.mem_cons_self ..))
      | cons head front =>
          rw [List.cons_append, List.cons_append, List.cons.injEq] at split
          rcases ih split.2 with inFront | same | inBefore
          · exact Or.inl (List.mem_cons_of_mem _ inFront)
          · exact Or.inr (Or.inl same)
          · exact Or.inr (Or.inr (List.mem_cons_of_mem _ inBefore))

omit [Protocol P] in
theorem failed_of_silent {event : FlushEvent P} {history : List (FlushEvent P)}
    (sends : Sends history event) (silent : event.Silent) :
    ∀ attempt ∈ event.attempts, attempt.error ≠ none := by
  intro attempt member
  obtain ⟨i, bound, rfl⟩ := List.mem_iff_getElem.mp member
  rw [sends.outcome i _ (List.getElem?_eq_getElem bound)]
  exact silent i bound

omit [Protocol P] in
theorem success_of_not_silent {event : FlushEvent P} {history : List (FlushEvent P)}
    (sends : Sends history event) (loud : ¬ event.Silent) :
    ∃ attempt ∈ event.attempts, attempt.error = none := by
  unfold FlushEvent.Silent at loud
  push Not at loud
  obtain ⟨i, bound, success⟩ := loud
  refine ⟨_, List.getElem_mem bound, ?_⟩
  rw [sends.outcome i _ (List.getElem?_eq_getElem bound), success]

omit [Protocol P] in
/-- Nothing of the flushes before the first success was sent. -/
theorem failed_before {log history rest : List (FlushEvent P)} {event : FlushEvent P}
    (sends : ∀ history event rest, log = history ++ event :: rest → Sends history event)
    (shape : log = history ++ event :: rest) (silent : ∀ earlier ∈ history, earlier.Silent) :
    ∀ attempt ∈ history.flatMap FlushEvent.attempts, attempt.error ≠ none := by
  intro attempt member
  obtain ⟨earlier, inHistory, inEvent⟩ := List.mem_flatMap.mp member
  obtain ⟨before, after, split⟩ := List.append_of_mem inHistory
  have place : log = before ++ earlier :: (after ++ event :: rest) := by
    rw [shape, split, List.append_assoc, List.cons_append]
  exact failed_of_silent (sends before earlier _ place) (silent earlier inHistory) attempt inEvent

omit [Protocol P] in
/-- The first success carried no Template Set, so nothing explains its data. -/
theorem firstSuccessDue_of_decodable {log : List (FlushEvent P)}
    (sends : ∀ history event rest, log = history ++ event :: rest → Sends history event)
    (decodable : Decodable (log.flatMap FlushEvent.attempts)) : FirstSuccessDue log := by
  intro history event rest shape silent loud
  have facts := sends history event rest shape
  obtain ⟨earlier, attempt, later, split, success, failed⟩ :=
    exists_first _ (success_of_not_silent facts loud)
  have member : attempt ∈ event.attempts := by rw [split]; simp
  have position : event.attempts[earlier.length]? = some attempt := by rw [split]; simp
  have whole : log.flatMap FlushEvent.attempts =
      (history.flatMap FlushEvent.attempts ++ earlier) ++
        attempt :: (later ++ rest.flatMap FlushEvent.attempts) := by
    rw [shape, List.flatMap_append, List.flatMap_cons, split]
    simp
  have explained := decodable _ attempt _ whole success (facts.data attempt member)
  have carried : 0 < templateSetCount attempt.datagram := by
    rcases explained with own | ⟨other, inBefore, sent, _⟩
    · exact own
    · rcases List.mem_append.mp inBefore with inHistory | inEarlier
      · exact absurd sent (failed_before sends shape silent other inHistory)
      · exact absurd sent (failed other inEarlier)
  obtain ⟨due, first⟩ := (facts.template _ attempt position).mp carried
  rw [first] at position
  exact ⟨due, by rw [← facts.outcome 0 attempt position, success]⟩

omit [Protocol P] in
theorem decodable_of_firstSuccessDue {log : List (FlushEvent P)}
    (sends : ∀ history event rest, log = history ++ event :: rest → Sends history event)
    (due : FirstSuccessDue log) : Decodable (log.flatMap FlushEvent.attempts) := by
  intro before attempt after shape success _
  have member : attempt ∈ log.flatMap FlushEvent.attempts := by rw [shape]; simp
  have someLoud : ∃ event ∈ log, ¬ event.Silent := by
    obtain ⟨event, inLog, inEvent⟩ := List.mem_flatMap.mp member
    obtain ⟨history, rest, split⟩ := List.append_of_mem inLog
    refine ⟨event, inLog, ?_⟩
    intro silent
    exact failed_of_silent (sends history event rest split) silent attempt inEvent success
  obtain ⟨history, event, rest, split, loud, silent⟩ := exists_first _ someLoud
  have quiet : ∀ earlier ∈ history, earlier.Silent :=
    fun earlier inHistory => not_not.mp (silent earlier inHistory)
  have facts := sends history event rest split
  obtain ⟨isDue, sent⟩ := due history event rest split quiet loud
  -- the flush has a first send, since some send of it succeeded
  cases attempts : event.attempts with
  | nil =>
      obtain ⟨other, inEvent, _⟩ := success_of_not_silent facts loud
      rw [attempts] at inEvent
      cases inEvent
  | cons first others =>
      have position : event.attempts[0]? = some first := by rw [attempts]; rfl
      have carried := (facts.template 0 first position).mpr ⟨isDue, rfl⟩
      have firstSent : first.error = none := (facts.outcome 0 first position).trans sent
      have whole : before ++ attempt :: after =
          history.flatMap FlushEvent.attempts ++
            first :: (others ++ rest.flatMap FlushEvent.attempts) := by
        rw [← shape, split, List.flatMap_append, List.flatMap_cons, attempts, List.cons_append]
      rcases order_of_split whole with inHistory | same | inBefore
      · exact absurd success (failed_before sends split quiet attempt inHistory)
      · rw [same]
        exact Or.inl carried
      · exact Or.inr ⟨first, inBefore, firstSent, carried⟩

/-- Over every session of a fresh exporter, whatever sends fail. -/
theorem session_decodable_iff (addr : SocketAddr) (odid : U32) (calls : List (FlushCall P)) :
    ∃ exporter log, (Exporter.fresh addr odid).session calls = .ok (exporter, log) ∧
      log.map FlushEvent.call = calls ∧
      (Decodable (log.flatMap FlushEvent.attempts) ↔ FirstSuccessDue log) := by
  obtain ⟨exporter, log, session, run, inputs⟩ := session_run (Exporter.fresh addr odid) calls
  have sends : ∀ history event rest, log = history ++ event :: rest → Sends history event := by
    intro history event rest shape
    rw [shape] at run
    obtain ⟨_, _, before, step, _⟩ := run.split
    exact sends_of_step (scheduled_of_run before) step
  exact ⟨exporter, log, session, inputs, firstSuccessDue_of_decodable sends,
    decodable_of_firstSuccessDue sends⟩

end Decision

/-! ## A Template Set that never left -/

section Lost

def sampleFlow (lastOctet : Nat) : Flow SampleProtocol :=
  (⟨.v4 ⟨0x0A000001⟩ ⟨BitVec.ofNat 32 (0x0A000000 + lastOctet)⟩, some 1001, some 443, .tcp⟩,
    ⟨100, 1, none, none, none, 0x0800, none, 0, 0⟩)

/-- The socket reports a pending error at its first send. -/
def lostTemplate : FlushCall SampleProtocol :=
  ⟨[sampleFlow 2], ⟨0, 0, some 1000⟩, fun _ => some ⟨111⟩⟩

/-- One second later the socket works. -/
def dataAfter : FlushCall SampleProtocol :=
  ⟨[sampleFlow 3], ⟨1000000000, 1000000000, some 1001⟩, fun _ => none⟩

def sessionAttempts (calls : List (FlushCall SampleProtocol)) : List Attempt :=
  match (Exporter.fresh sampleCollector 0).session calls with
  | .ok (_, log) => log.flatMap FlushEvent.attempts
  | .error _ => []

/-- The data of the second flush is sent without any Template Set. -/
theorem lost_template_not_decodable :
    ([lostTemplate, dataAfter].flatMap fun call =>
      [call.clock.elapsedNow, call.clock.stampNow]).Pairwise (· ≤ ·) ∧
    ∃ exporter log,
      (Exporter.fresh sampleCollector 0).session [lostTemplate, dataAfter] = .ok (exporter, log) ∧
      ¬ Decodable (log.flatMap FlushEvent.attempts) := by
  refine ⟨by decide, ?_⟩
  obtain ⟨exporter, log, session, _, _⟩ :=
    session_run (Exporter.fresh sampleCollector 0) [lostTemplate, dataAfter]
  refine ⟨exporter, log, session, ?_⟩
  intro decodable
  have sent : (sessionAttempts [lostTemplate, dataAfter]).map (fun attempt =>
      (attempt.error.isNone, templateSetCount attempt.datagram, dataSetCount attempt.datagram)) =
      [(false, 1, 1), (true, 0, 1)] := by decide +kernel
  simp only [sessionAttempts, session] at sent
  obtain ⟨lost, tail, whole, atLost, sent⟩ := List.map_eq_cons_iff.mp sent
  obtain ⟨data, rest, rfl, atData, sent⟩ := List.map_eq_cons_iff.mp sent
  rw [List.map_eq_nil_iff] at sent
  subst sent
  simp only [Prod.mk.injEq] at atLost atData
  have explained := decodable [lost] data [] whole (Option.isNone_iff_eq_none.mp atData.1)
    (by omega)
  rcases explained with own | ⟨earlier, member, success, _⟩
  · omega
  · rw [List.mem_singleton] at member
    subst member
    rw [success] at atLost
    simp at atLost

end Lost

end SniffnetAgent
