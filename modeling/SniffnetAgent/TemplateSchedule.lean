import SniffnetAgent.Exporter

/-!
# When the Template Set is sent

Whether a flush carries the Template Set is read off its datagrams by the
collector.  Over a session the flushes that carry it are those the timer asks
for: the first batch that is not empty, and later ones 30 seconds or more after
the reading stored by the last flush that carried it.
-/

set_option autoImplicit false

namespace SniffnetAgent

open WireCodec CheckedArith LabelledRun Ipfix Collector

section Datagrams
variable {P : Type} [Protocol P]

theorem countP_dataSets (test : RawSet → Bool) (value : Bool) (id : Nat) (flows : List (Flow P))
    (same : ∀ payload, test ⟨id, payload⟩ = value) :
    (dataSets id flows).countP test = if value && !flows.isEmpty then 1 else 0 := by
  cases flows with
  | nil => simp [dataSets]
  | cons flow flows => cases value <;> simp [dataSets, same]

/-- A message holds one Template Set when it is due, and none otherwise. -/
theorem templateSetCount_messageBytes (nowUnix odid : U32) (due : Bool) (seq : U32)
    (block : Block (Flow P)) (sorted : block.Sorted) (bound : block.charge due < 2 ^ 16) :
    templateSetCount (messageBytes nowUnix odid due seq block) = if due then 1 else 0 := by
  have data4 := countP_dataSets (fun set => set.id == 2) false 256 block.v4 fun _ => rfl
  have data6 := countP_dataSets (fun set => set.id == 2) false 257 block.v6 fun _ => rfl
  unfold templateSetCount
  rw [splitMessage_messageBytes nowUnix odid due seq block sorted bound, Option.elim_some,
    blockSets, List.countP_append, List.countP_append, data4, data6]
  cases due <;> rfl

/-- Every message holds data. -/
theorem dataSetCount_messageBytes (nowUnix odid : U32) (due : Bool) (seq : U32)
    (block : Block (Flow P)) (sorted : block.Sorted) (bound : block.charge due < 2 ^ 16)
    (positive : 0 < block.size) : 0 < dataSetCount (messageBytes nowUnix odid due seq block) := by
  have data4 := countP_dataSets (fun set => decide (256 ≤ set.id)) true 256 block.v4 fun _ => rfl
  have data6 := countP_dataSets (fun set => decide (256 ≤ set.id)) true 257 block.v6 fun _ => rfl
  unfold dataSetCount
  rw [splitMessage_messageBytes nowUnix odid due seq block sorted bound, Option.elim_some,
    blockSets, List.countP_append, List.countP_append, data4, data6]
  unfold Block.size at positive
  rcases List.eq_nil_or_concat block.v4 with none | ⟨_, _, some4⟩
  · rw [none, List.length_nil, Nat.zero_add] at positive
    have some6 : block.v6.isEmpty = false := by
      rw [List.isEmpty_eq_false_iff]
      exact List.ne_nil_of_length_pos positive
    rw [some6, Bool.not_false, Bool.and_true, if_pos rfl]
    omega
  · have nonempty : block.v4.isEmpty = false := by rw [some4]; simp
    rw [nonempty, Bool.not_false, Bool.and_true, if_pos rfl]
    omega

/-- The datagrams of one call: the first has the Template Set when it is due,
the others never. -/
theorem templateSetCount_at (limit : Mtu) {nowUnix odid : U32} {due : Bool} {seq : U32}
    {blocks : List (Block (Flow P))} (well : AllWellFormed limit.size.toNat due blocks) {i : Nat}
    {datagram : List Byte}
    (found : (messages nowUnix odid due seq blocks)[i]? = some datagram) :
    templateSetCount datagram = if due && i == 0 then 1 else 0 := by
  have limitBound : limit.size.toNat < 2 ^ 16 := limit.size.isLt
  rw [messages_at] at found
  obtain ⟨block, at_i, rfl⟩ := Option.map_eq_some_iff.mp found
  obtain ⟨sorted, _, charge⟩ := well.at at_i
  exact templateSetCount_messageBytes _ _ _ _ _ sorted (by omega)

end Datagrams

/-! ## One flush -/

section Steps
variable {P : Type} [Protocol P]

/-- Some datagram of the flush holds a Template Set. -/
def FlushEvent.carriesTemplate (event : FlushEvent P) : Bool :=
  event.datagrams.any fun datagram => decide (0 < templateSetCount datagram)

theorem Exporter.templateDue_iff (self : Exporter) (clock : Clock) :
    self.templateDue clock = true ↔
      ∀ t, self.lastTemplateSend = some t → t + refreshInterval ≤ clock.elapsedNow := by
  unfold Exporter.templateDue
  cases stored : self.lastTemplateSend with
  | none => simp
  | some t =>
      have positive : 0 < refreshInterval := by unfold refreshInterval; omega
      constructor
      · intro due s same
        cases same
        have elapsed : refreshInterval ≤ clock.elapsedNow - t := of_decide_eq_true due
        omega
      · intro all
        have elapsed := all t rfl
        exact decide_eq_true (by omega)

omit [Protocol P] in
theorem nonempty_of_flows {limit : Nat} {due : Bool} {flows : List (Flow P)}
    {blocks : List (Block (Flow P))}
    (packs : Packs limit due (v4Flows flows) (v6Flows flows) blocks) (hasFlows : flows ≠ []) :
    blocks ≠ [] := by
  rintro rfl
  have none : wireOrder flows = [] := by
    unfold wireOrder
    cases packs4 : v4Flows flows with
    | nil =>
        cases packs6 : v6Flows flows with
        | nil => rfl
        | cons flow rest => rw [packs4, packs6] at packs; cases packs
    | cons flow rest => rw [packs4] at packs; cases packs
  have length := length_wireOrder flows
  rw [none, List.length_nil] at length
  exact hasFlows (List.eq_nil_of_length_eq_zero length.symm)

/-- The shape of the datagrams of a flush that carries the Template Set. -/
theorem FlushStep.once {self next : Exporter} {event : FlushEvent P}
    (step : FlushStep self event next) (carries : self.carries event.call = true) :
    ∃ first rest, event.datagrams = first :: rest ∧ templateSetCount first = 1 ∧
      ∀ datagram ∈ rest, templateSetCount datagram = 0 := by
  obtain ⟨blocks, packs, datagrams⟩ := step.datagrams
  obtain ⟨well, _⟩ := packing_of_flows mtu packs
  have hasFlows : event.call.flows ≠ [] := by
    rintro none
    simp [Exporter.carries, none] at carries
  rw [carries] at datagrams well
  cases shape : event.datagrams with
  | nil =>
      have count := congrArg List.length (shape.symm.trans datagrams)
      rw [List.length_nil, length_messages] at count
      exact absurd (List.eq_nil_of_length_eq_zero count.symm) (nonempty_of_flows packs hasFlows)
  | cons first rest =>
      rw [shape] at datagrams
      refine ⟨first, rest, rfl, ?_, ?_⟩
      · exact templateSetCount_at mtu well (i := 0) (by rw [← datagrams]; rfl)
      · intro datagram member
        obtain ⟨i, found⟩ := List.mem_iff_getElem?.mp member
        exact templateSetCount_at mtu well (i := i + 1) (by rw [← datagrams]; exact found)

/-- What the collector sees is what the timer decided. -/
theorem FlushStep.carriesTemplate {self next : Exporter} {event : FlushEvent P}
    (step : FlushStep self event next) : event.carriesTemplate = self.carries event.call := by
  cases carries : self.carries event.call with
  | true =>
      obtain ⟨first, rest, shape, one, _⟩ := step.once carries
      rw [FlushEvent.carriesTemplate, shape, List.any_cons, one]
      rfl
  | false =>
      obtain ⟨blocks, packs, datagrams⟩ := step.datagrams
      obtain ⟨well, _⟩ := packing_of_flows mtu packs
      rw [FlushEvent.carriesTemplate, List.any_eq_false]
      intro datagram member
      rw [datagrams] at member
      obtain ⟨i, found⟩ := List.mem_iff_getElem?.mp member
      have none := templateSetCount_at mtu well found
      rw [carries, Bool.false_and, if_neg Bool.false_ne_true] at none
      rw [none]
      simp

end Steps

/-! ## The schedule -/

section Schedule
variable {P : Type} [Protocol P]

/-- The reading stored by the most recent flush that carried the Template Set. -/
def lastTemplate (history : List (FlushEvent P)) : Option Nat :=
  history.foldl (fun last event =>
    if event.carriesTemplate then some event.call.clock.stampNow else last) none

omit [Protocol P] in
theorem lastTemplate_snoc (history : List (FlushEvent P)) (event : FlushEvent P) :
    lastTemplate (history ++ [event]) =
      if event.carriesTemplate then some event.call.clock.stampNow else lastTemplate history := by
  rw [lastTemplate, List.foldl_append, List.foldl_cons, List.foldl_nil, lastTemplate]

omit [Protocol P] in
theorem lastTemplate_of_last (earlier between : List (FlushEvent P)) (event : FlushEvent P)
    (carried : event.carriesTemplate = true)
    (silent : ∀ other ∈ between, other.carriesTemplate = false) :
    lastTemplate (earlier ++ event :: between) = some event.call.clock.stampNow := by
  induction between using List.reverseRecOn with
  | nil => rw [lastTemplate_snoc, if_pos carried]
  | append_singleton between other ih =>
      have quiet : other.carriesTemplate = false := silent other (by simp)
      rw [← List.cons_append, ← List.append_assoc, lastTemplate_snoc, quiet,
        if_neg Bool.false_ne_true]
      exact ih fun another member => silent another (by simp [member])

/-- The timer after a history: the stored reading is that of the last flush
with the Template Set, and there is one as soon as a batch was not empty. -/
structure Scheduled (history : List (FlushEvent P)) (exporter : Exporter) : Prop where
  stored : exporter.lastTemplateSend = lastTemplate history
  unset : lastTemplate history = none ↔ ∀ event ∈ history, event.call.flows = []

theorem Scheduled.step {history : List (FlushEvent P)} {exporter next : Exporter}
    {event : FlushEvent P} (scheduled : Scheduled history exporter)
    (step : FlushStep exporter event next) : Scheduled (history ++ [event]) next := by
  obtain ⟨_, after, _⟩ := step.shape
  have carried := step.carriesTemplate
  have nextStored : next.lastTemplateSend = lastTemplate (history ++ [event]) := by
    rw [lastTemplate_snoc, after, carried, ← scheduled.stored]
    rfl
  refine ⟨nextStored, ?_⟩
  rw [lastTemplate_snoc, carried]
  by_cases empty : event.call.flows = []
  · have silent : exporter.carries event.call = false := by simp [Exporter.carries, empty]
    rw [silent, if_neg Bool.false_ne_true, scheduled.unset, List.forall_mem_append]
    simp [empty]
  · have notAll : ¬ ∀ other ∈ history ++ [event], other.call.flows = [] :=
      fun all => empty (all event (by simp))
    refine iff_of_false ?_ notAll
    cases carries : exporter.carries event.call with
    | true => simp
    | false =>
        rw [if_neg Bool.false_ne_true]
        intro none
        have due : exporter.templateDue event.call.clock = true := by
          rw [Exporter.templateDue_iff, scheduled.stored, none]
          simp
        simp [Exporter.carries, due, empty] at carries

/-- A flush in the light of the flushes before it. -/
structure OnSchedule (history : List (FlushEvent P)) (event : FlushEvent P) : Prop where
  /-- An empty batch sends nothing and leaves the exporter as it was. -/
  empty : event.call.flows = [] → event.datagrams = [] ∧ FlushStep event.before event event.before
  first : event.call.flows ≠ [] → (∀ earlier ∈ history, earlier.call.flows = []) →
    event.carriesTemplate = true
  later : event.call.flows ≠ [] → (∃ earlier ∈ history, earlier.call.flows ≠ []) →
    ∃ t, lastTemplate history = some t ∧
      (event.carriesTemplate = true ↔ t + refreshInterval ≤ event.call.clock.elapsedNow)
  /-- In the first datagram only, once, and there is a first datagram. -/
  once : event.carriesTemplate = true → ∃ first rest, event.datagrams = first :: rest ∧
    templateSetCount first = 1 ∧ ∀ datagram ∈ rest, templateSetCount datagram = 0
  /-- At every datagram the Template Set is less than 30 seconds old. -/
  recent : ∀ datagram ∈ event.datagrams, event.carriesTemplate = true ∨
    ∃ t, lastTemplate history = some t ∧ event.call.clock.elapsedNow < t + refreshInterval
  apart : event.carriesTemplate = true → ∀ earlier other between,
    history = earlier ++ other :: between → other.carriesTemplate = true →
    (∀ silent ∈ between, silent.carriesTemplate = false) →
    other.call.clock.stampNow + refreshInterval ≤ event.call.clock.elapsedNow

/-- The Template Set goes with a batch unless the last one is too young. -/
theorem Scheduled.carries_iff {history : List (FlushEvent P)} {exporter next : Exporter}
    {event : FlushEvent P} (scheduled : Scheduled history exporter)
    (step : FlushStep exporter event next) :
    event.carriesTemplate = true ↔ event.call.flows ≠ [] ∧
      ∀ t, lastTemplate history = some t →
        t + refreshInterval ≤ event.call.clock.elapsedNow := by
  rw [step.carriesTemplate, Exporter.carries, Bool.and_eq_true, Exporter.templateDue_iff,
    scheduled.stored]
  simp

theorem onSchedule_of_step {history : List (FlushEvent P)} {exporter next : Exporter}
    {event : FlushEvent P} (scheduled : Scheduled history exporter)
    (step : FlushStep exporter event next) : OnSchedule history event := by
  have before : event.before = exporter := step.1
  have carries_iff := scheduled.carries_iff step
  refine ⟨?_, ?_, ?_, ?_, ?_, ?_⟩
  · intro empty
    obtain ⟨none, same⟩ := step.empty empty
    rw [same] at step
    rw [before]
    exact ⟨none, step⟩
  · intro hasFlows noneBefore
    have unset := scheduled.unset.mpr noneBefore
    rw [carries_iff, unset]
    simp [hasFlows]
  · intro hasFlows someBefore
    have isSet : lastTemplate history ≠ none := by
      rw [Ne, scheduled.unset]
      obtain ⟨earlier, member, nonempty⟩ := someBefore
      exact fun all => nonempty (all earlier member)
    obtain ⟨t, stored⟩ := Option.ne_none_iff_exists'.mp isSet
    refine ⟨t, stored, ?_⟩
    rw [carries_iff, stored]
    simp [hasFlows]
  · intro carries
    exact step.once (step.carriesTemplate ▸ carries)
  · intro datagram member
    have hasFlows : event.call.flows ≠ [] := by
      intro empty
      rw [(step.empty empty).1] at member
      cases member
    by_cases carries : event.carriesTemplate = true
    · exact Or.inl carries
    · rw [carries_iff] at carries
      push Not at carries
      obtain ⟨t, stored, young⟩ := carries hasFlows
      exact Or.inr ⟨t, stored, young⟩
  · intro carries earlier other between shape otherCarried silent
    have stored := lastTemplate_of_last earlier between other otherCarried silent
    rw [← shape] at stored
    exact (carries_iff.mp carries).2 _ stored

theorem scheduled_of_run {addr : SocketAddr} {odid : U32} {history : List (FlushEvent P)}
    {exporter : Exporter} (run : Run FlushStep (Exporter.fresh addr odid) history exporter) :
    Scheduled history exporter := by
  refine run.invariant Scheduled ⟨rfl, ?_⟩ ?_
  · simp [lastTemplate]
  · exact fun history s event t scheduled step => scheduled.step step

/-- Every flush of every session of a fresh exporter is on schedule. -/
theorem session_on_schedule (addr : SocketAddr) (odid : U32) (calls : List (FlushCall P)) :
    ∃ exporter log, (Exporter.fresh addr odid).session calls = .ok (exporter, log) ∧
      log.map FlushEvent.call = calls ∧
      ∀ history event rest, log = history ++ event :: rest → OnSchedule history event := by
  obtain ⟨exporter, log, session, run, inputs⟩ := session_run (Exporter.fresh addr odid) calls
  refine ⟨exporter, log, session, inputs, ?_⟩
  intro history event rest shape
  rw [shape] at run
  obtain ⟨s, t, before, step, _⟩ := run.split
  exact onSchedule_of_step (scheduled_of_run before) step

end Schedule

end SniffnetAgent
