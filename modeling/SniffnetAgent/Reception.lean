import SniffnetAgent.Delivery
import SniffnetAgent.Lib.Transducer

/-!
# Collectors that miss datagrams

UDP may lose, repeat and reorder datagrams, and a collector may be started while
the agent is running.  A collector in the field does not refuse a message it
cannot use: it passes over the sets whose template it does not have yet.
-/

set_option autoImplicit false

namespace SniffnetAgent

namespace Collector

open WireCodec Transducer

/-- A set that cannot be used is passed over. -/
def offerSet (store : TemplateStore) (set : RawSet) : TemplateStore × List DataRecord :=
  (processSet store set).getD (store, [])

def offerMessage (store : TemplateStore) (datagram : List Byte) :
    TemplateStore × List DataRecord :=
  match splitMessage datagram with
  | some (_, sets) => feed offerSet store sets
  | none => (store, [])

def offerStream (store : TemplateStore) (datagrams : List (List Byte)) :
    TemplateStore × List DataRecord :=
  feed offerMessage store datagrams

/-- Where the strict collector goes on, the lenient one does the same. -/
theorem feed_of_processSets {store final : TemplateStore} {sets : List RawSet}
    {records : List DataRecord} (strict : processSets store sets = some (final, records)) :
    feed offerSet store sets = (final, records) := by
  induction sets generalizing store records with
  | nil => exact Option.some.inj strict
  | cons set sets ih =>
      simp only [processSets, Option.bind_eq_bind, Option.bind_eq_some_iff] at strict
      obtain ⟨⟨next, here⟩, head, ⟨last, others⟩, tail, result⟩ := strict
      cases Option.some.inj result
      have first : offerSet store set = (next, here) := by rw [offerSet, head, Option.getD_some]
      rw [feed, first, ih tail]

theorem offerMessage_of_decodeMessage {store final : TemplateStore} {datagram : List Byte}
    {records : List DataRecord} (strict : decodeMessage store datagram = some (final, records)) :
    offerMessage store datagram = (final, records) := by
  rw [decodeMessage, Option.bind_eq_bind, Option.bind_eq_some_iff] at strict
  obtain ⟨⟨header, sets⟩, split, processed⟩ := strict
  rw [offerMessage, split]
  exact feed_of_processSets processed

/-- The records of a datagram, for a collector that has the agent's templates. -/
def contents (datagram : List Byte) : List DataRecord :=
  (decodeMessage Ipfix.agentTemplates datagram).elim [] Prod.snd

/-- The datagram holds a Template Set. -/
def bearsTemplate (datagram : List Byte) : Bool := decide (0 < templateSetCount datagram)

end Collector

open WireCodec CheckedArith LabelledRun Ipfix Collector Transducer

section Messages
variable {P : Type} [Protocol P]

/-- What every datagram of a session is. -/
def Emitted (P : Type) [Protocol P] (datagram : List Byte) : Prop :=
  ∃ (nowUnix odid : U32) (due : Bool) (seq : U32) (block : Block (Flow P)),
    block.Sorted ∧ block.charge due < 2 ^ 16 ∧
      datagram = messageBytes nowUnix odid due seq block

theorem emitted_messages {limit : Mtu} {nowUnix odid : U32} {due : Bool} {seq : U32}
    {blocks : List (Block (Flow P))} (well : AllWellFormed limit.size.toNat due blocks) :
    ∀ datagram ∈ messages nowUnix odid due seq blocks, Emitted P datagram := by
  intro datagram member
  have limitBound : limit.size.toNat < 2 ^ 16 := limit.size.isLt
  obtain ⟨i, found⟩ := List.mem_iff_getElem?.mp member
  rw [messages_at] at found
  obtain ⟨block, at_i, rfl⟩ := Option.map_eq_some_iff.mp found
  obtain ⟨sorted, _, charge⟩ := well.at at_i
  exact ⟨_, _, _, _, block, sorted, by omega, rfl⟩

theorem emitted_of_step {self next : Exporter} {event : FlushEvent P}
    (step : FlushStep self event next) : ∀ datagram ∈ event.datagrams, Emitted P datagram := by
  obtain ⟨blocks, packs, datagrams⟩ := step.datagrams
  obtain ⟨well, _⟩ := packing_of_flows mtu packs
  rw [datagrams]
  exact emitted_messages well

theorem contents_messageBytes (nowUnix odid : U32) (due : Bool) (seq : U32)
    (block : Block (Flow P)) (sorted : block.Sorted) (bound : block.charge due < 2 ^ 16) :
    contents (messageBytes nowUnix odid due seq block) = block.flows.map collectorRecord := by
  have reference := decodeMessage_messageBytes agentTemplates nowUnix odid due seq block sorted
    bound (knows_storeAfter due)
  rw [contents, reference, Option.elim_some]

theorem contents_messages {limit : Mtu} {nowUnix odid : U32} {due : Bool} {seq : U32}
    {blocks : List (Block (Flow P))} (well : AllWellFormed limit.size.toNat due blocks) :
    (messages nowUnix odid due seq blocks).flatMap contents =
      (blocks.flatMap Block.flows).map collectorRecord := by
  have limitBound : limit.size.toNat < 2 ^ 16 := limit.size.isLt
  induction blocks generalizing due seq with
  | nil => rfl
  | cons block blocks ih =>
      obtain ⟨⟨sorted, _, charge⟩, tail⟩ := well
      rw [messages, List.flatMap_cons, List.flatMap_cons, List.map_append, ih tail,
        contents_messageBytes _ _ _ _ _ sorted (by omega)]

/-- The datagrams of a flush hold its flows. -/
theorem contents_of_step {self next : Exporter} {event : FlushEvent P}
    (step : FlushStep self event next) :
    event.datagrams.flatMap contents = (wireOrder event.call.flows).map collectorRecord := by
  obtain ⟨blocks, packs, datagrams⟩ := step.datagrams
  obtain ⟨well, order⟩ := packing_of_flows mtu packs
  rw [datagrams, contents_messages well, order]

/-- Without templates every data set is passed over. -/
theorem feed_dataSets (id : Nat) (large : 256 ≤ id) (flows : List (Flow P)) :
    feed offerSet [] (dataSets id flows) = ([], []) := by
  have passed : ∀ payload, offerSet [] ⟨id, payload⟩ = ([], []) := by
    intro payload
    have notTemplate : id ≠ 2 := by omega
    rw [offerSet, processSet, if_neg notTemplate, if_pos large]
    rfl
  cases flows with
  | nil => rfl
  | cons flow flows =>
      rw [dataSets, List.isEmpty_cons, if_neg Bool.false_ne_true, feed, passed]
      rfl

/-- The lenient collector on the agent's datagrams. -/
theorem wakes_offerMessage :
    Wakes offerMessage (Emitted P) Knows contents [] bearsTemplate := by
  have decodes : ∀ (store : TemplateStore) (nowUnix odid : U32) (due : Bool) (seq : U32)
      (block : Block (Flow P)), block.Sorted → block.charge due < 2 ^ 16 →
      Knows (storeAfter due store) →
      offerMessage store (messageBytes nowUnix odid due seq block) =
        (storeAfter due store, contents (messageBytes nowUnix odid due seq block)) := by
    intro store nowUnix odid due seq block sorted bound knows
    rw [contents_messageBytes nowUnix odid due seq block sorted bound]
    exact offerMessage_of_decodeMessage
      (decodeMessage_messageBytes store nowUnix odid due seq block sorted bound knows)
  have keeps : ∀ (store : TemplateStore) (due : Bool), Knows store →
      Knows (storeAfter due store) := by
    intro store due knows
    cases due with
    | false => exact knows
    | true => exact knows_agentTemplates store
  have dueOf : ∀ (nowUnix odid : U32) (due : Bool) (seq : U32) (block : Block (Flow P)),
      block.Sorted → block.charge due < 2 ^ 16 →
      bearsTemplate (messageBytes nowUnix odid due seq block) = due := by
    intro nowUnix odid due seq block sorted bound
    rw [bearsTemplate, templateSetCount_messageBytes nowUnix odid due seq block sorted bound]
    cases due <;> rfl
  constructor
  case toSteady =>
    constructor
    case stays =>
      rintro store _ ⟨nowUnix, odid, due, seq, block, sorted, bound, rfl⟩ knows
      rw [decodes store _ _ _ _ _ sorted bound (keeps store due knows)]
      exact keeps store due knows
    case answers =>
      rintro store _ ⟨nowUnix, odid, due, seq, block, sorted, bound, rfl⟩ knows
      rw [decodes store _ _ _ _ _ sorted bound (keeps store due knows)]
  case woken =>
    rintro store _ ⟨nowUnix, odid, due, seq, block, sorted, bound, rfl⟩ bears
    rw [dueOf _ _ _ _ _ sorted bound] at bears
    subst bears
    rw [decodes store _ _ _ _ _ sorted bound (knows_agentTemplates store)]
    exact knows_agentTemplates store
  case answered =>
    rintro store _ ⟨nowUnix, odid, due, seq, block, sorted, bound, rfl⟩ bears
    rw [dueOf _ _ _ _ _ sorted bound] at bears
    subst bears
    rw [decodes store _ _ _ _ _ sorted bound (knows_agentTemplates store)]
  case sleeps =>
    rintro _ ⟨nowUnix, odid, due, seq, block, sorted, bound, rfl⟩ silent
    rw [dueOf _ _ _ _ _ sorted bound] at silent
    subst silent
    rw [offerMessage, splitMessage_messageBytes _ _ _ _ _ sorted bound]
    simp only [blockSets, templateSets, Bool.false_eq_true, if_false, List.nil_append,
      feed_append, feed_dataSets 256 (by omega) block.v4, feed_dataSets 257 (by omega) block.v6]

end Messages

/-! ## Sessions over a lossy network -/

section Sessions
variable {P : Type} [Protocol P]

theorem emitted_of_run {exporter final : Exporter} {log : List (FlushEvent P)}
    (run : Run FlushStep exporter log final) :
    ∀ datagram ∈ log.flatMap FlushEvent.datagrams, Emitted P datagram := by
  have each := run.forall_event (fun event => ∀ datagram ∈ event.datagrams, Emitted P datagram)
    fun _ _ _ step => emitted_of_step step
  intro datagram member
  obtain ⟨event, inLog, inEvent⟩ := List.mem_flatMap.mp member
  exact each event inLog datagram inEvent

/-- Whatever is lost, repeated or reordered of a session: a collector that starts
with nothing learns the records of the datagrams that arrive from the first one
with a Template Set on, all of them and nothing else. -/
theorem received_from_first_template (addr : SocketAddr) (odid : U32) (log : List (FlushEvent P))
    (final : Exporter) (run : Run FlushStep (Exporter.fresh addr odid) log final)
    (arrived : List (List Byte))
    (sent : ∀ datagram ∈ arrived, datagram ∈ log.flatMap FlushEvent.datagrams) :
    (offerStream [] arrived).2 =
        (arrived.dropWhile fun datagram => !bearsTemplate datagram).flatMap contents ∧
      ∀ event ∈ log,
        event.datagrams.flatMap contents = (wireOrder event.call.flows).map collectorRecord := by
  refine ⟨?_, run.forall_event _ fun _ _ _ step => contents_of_step step⟩
  exact wakes_offerMessage.feed fun datagram member =>
    emitted_of_run run datagram (sent datagram member)

/-- The datagrams of two flushes arrive in the reverse order. -/
theorem received_from_first_template_reversed :
    ∃ (log : List (FlushEvent SampleProtocol)) (final : Exporter),
      Run FlushStep (Exporter.fresh sampleCollector 0) log final ∧
      log.map FlushEvent.call = [lostTemplate, dataAfter] ∧
      (offerStream [] (log.flatMap FlushEvent.datagrams).reverse).2 =
        ((log.flatMap FlushEvent.datagrams).reverse.dropWhile fun datagram =>
          !bearsTemplate datagram).flatMap contents := by
  obtain ⟨final, log, _, run, inputs⟩ :=
    session_run (Exporter.fresh sampleCollector 0) [lostTemplate, dataAfter]
  exact ⟨log, final, run, inputs, (received_from_first_template sampleCollector 0 log final run _
    fun _ member => List.mem_reverse.mp member).1⟩

omit [Protocol P] in
theorem lastTemplate_append_silent (history between : List (FlushEvent P))
    (silent : ∀ other ∈ between, other.carriesTemplate = false) :
    lastTemplate (history ++ between) = lastTemplate history := by
  induction between using List.reverseRecOn with
  | nil => rw [List.append_nil]
  | append_singleton between other ih =>
      have quiet : other.carriesTemplate = false := silent other (by simp)
      rw [← List.append_assoc, lastTemplate_snoc, quiet, if_neg Bool.false_ne_true]
      exact ih fun another member => silent another (by simp [member])

omit [Protocol P] in
theorem mem_of_lastTemplate {history : List (FlushEvent P)} {t : Nat}
    (stored : lastTemplate history = some t) :
    ∃ event ∈ history, event.call.clock.stampNow = t := by
  induction history using List.reverseRecOn with
  | nil => cases stored
  | append_singleton history event ih =>
      rw [lastTemplate_snoc] at stored
      split at stored
      · exact ⟨event, by simp, Option.some.inj stored⟩
      · obtain ⟨other, member, same⟩ := ih stored
        exact ⟨other, by simp [member], same⟩

/-- A collector that is started between two flushes has the templates for every
flush that begins 30 seconds after the start or later. -/
theorem restarted_collector_catches_up (addr : SocketAddr) (odid : U32)
    (before between : List (FlushEvent P)) (event : FlushEvent P) (s t u : Exporter)
    (run : Run FlushStep (Exporter.fresh addr odid) before s) (run' : Run FlushStep s between t)
    (step : FlushStep t event u) (start : Nat)
    (started : ∀ earlier ∈ before, earlier.call.clock.stampNow ≤ start)
    (late : start + refreshInterval ≤ event.call.clock.elapsedNow) :
    (offerStream (offerStream [] (between.flatMap FlushEvent.datagrams)).1 event.datagrams).2 =
      (wireOrder event.call.flows).map collectorRecord := by
  have scheduled : Scheduled (before ++ between) t := by
    refine (run.append run').invariant Scheduled ⟨rfl, ?_⟩ ?_
    · simp [lastTemplate]
    · exact fun history s event t scheduled step => scheduled.step step
  have emitted := emitted_of_step step
  rw [← contents_of_step step]
  by_cases carried : ∃ other ∈ between, other.carriesTemplate = true
  · obtain ⟨other, member, carries⟩ := carried
    obtain ⟨datagram, inOther, bears⟩ := List.any_eq_true.mp carries
    have knows := wakes_offerMessage.awake [] (emitted_of_run run')
      ⟨datagram, List.mem_flatMap.mpr ⟨other, member, inOther⟩, bears⟩
    exact (wakes_offerMessage.toSteady.feed knows emitted).2
  · push Not at carried
    have silent : ∀ other ∈ between, other.carriesTemplate = false := fun other member =>
      Bool.eq_false_of_not_eq_true (carried other member)
    by_cases empty : event.call.flows = []
    · rw [(step.empty empty).1]
      rfl
    · have carries : event.carriesTemplate = true := by
        rw [scheduled.carries_iff step, lastTemplate_append_silent before between silent]
        refine ⟨empty, ?_⟩
        intro stamp stored
        obtain ⟨earlier, member, same⟩ := mem_of_lastTemplate stored
        have bound := started earlier member
        omega
      obtain ⟨first, rest, shape, one, _⟩ := step.once (step.carriesTemplate ▸ carries)
      rw [shape] at emitted ⊢
      exact wakes_offerMessage.feed_cons _ emitted (by rw [bearsTemplate, one]; rfl)

/-- Every call is a step. -/
theorem exists_flushStep (self : Exporter) (call : FlushCall P) :
    ∃ event next, FlushStep self event next ∧ event.call = call := by
  obtain ⟨blocks, result, _, flushed⟩ := flush_spec self call
  exact ⟨⟨self, call, _⟩, _, ⟨rfl, result, flushed⟩, rfl⟩

/-- The second flush of a session, 30 seconds after the collector was started. -/
theorem restarted_collector_catches_up_sample :
    ∃ event : FlushEvent SampleProtocol,
      event.call = ⟨[sampleFlow 3], ⟨31000000000, 31000000001, none⟩, fun _ => none⟩ ∧
      (offerStream [] event.datagrams).2 = [collectorRecord (sampleFlow 3)] := by
  obtain ⟨first, s, step, firstCall⟩ :=
    exists_flushStep (Exporter.fresh sampleCollector 0) lostTemplate
  obtain ⟨event, u, step', call⟩ := exists_flushStep (P := SampleProtocol) s
    ⟨[sampleFlow 3], ⟨31000000000, 31000000001, none⟩, fun _ => none⟩
  have learned := restarted_collector_catches_up sampleCollector 0 [first] [] event s s u
    (Run.cons step (Run.nil s)) (Run.nil s) step' 1000000000
    (by
      intro earlier member
      rw [List.mem_singleton.mp member, firstCall]
      decide)
    (by
      rw [call]
      decide)
  rw [call] at learned
  exact ⟨event, call, learned⟩

end Sessions

end SniffnetAgent
