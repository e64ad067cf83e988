import SniffnetAgent.Ledger

/-!
# What a collector adds up

A collector that merges the records of one tuple, however many flushes they came
in, arrives at the totals of a table that was never drained.  The counters
saturate on both sides; the times are the earliest and the latest.
-/

set_option autoImplicit false

namespace SniffnetAgent

open CheckedArith LabelledRun Ipfix Collector Aggregate

/-- Running totals of one flow; the counters are 64 bits wide. -/
structure Volume where
  octets : Nat
  packets : Nat
  start : Nat
  finish : Nat
  deriving DecidableEq, Repr

def Volume.merge (a b : Volume) : Volume where
  octets := min (a.octets + b.octets) (2 ^ 64 - 1)
  packets := min (a.packets + b.packets) (2 ^ 64 - 1)
  start := min a.start b.start
  finish := max a.finish b.finish

instance volume_associative : Std.Associative Volume.merge where
  assoc a b c := by
    simp only [Volume.merge, Volume.mk.injEq]
    omega

def FlowVal.volume (val : FlowVal) : Volume where
  octets := val.bytes.toNat
  packets := val.packets.toNat
  start := val.firstSeenMs.toNat
  finish := val.lastSeenMs.toNat

/-- The delta counts, `flowStartMilliseconds` and `flowEndMilliseconds`. -/
def volumeOf (record : DataRecord) : Volume where
  octets := (record.value 352).getD 0
  packets := (record.value 2).getD 0
  start := (record.value 152).getD 0
  finish := (record.value 153).getD 0

theorem volume_accumulate (val packet : FlowVal) :
    (val.accumulate packet).volume = val.volume.merge packet.volume := by
  simp only [FlowVal.volume, FlowVal.accumulate, Volume.merge, Volume.mk.injEq]
  exact ⟨toNat_saturatingAdd .., toNat_saturatingAdd .., (toNat_minimum ..), toNat_maximum ..⟩

section Records
variable {P : Type} [Protocol P]

theorem volumeOf_collectorRecord (flow : Flow P) :
    volumeOf (collectorRecord flow) = flow.2.volume := by
  unfold volumeOf collectorRecord
  cases flow.1.addrs <;> rfl

end Records

/-! ## Summaries as totals -/

section Totals

theorem isSummary_of_total {history : List FlowVal} {val : FlowVal}
    (merged : total FlowVal.accumulate history = some val) : IsSummary history val := by
  induction history using List.reverseRecOn generalizing val with
  | nil => cases merged
  | append_singleton history packet ih =>
      rw [total_append] at merged
      cases before : total FlowVal.accumulate history with
      | none =>
          rw [before] at merged
          cases Option.some.inj merged
          rw [(total_eq_none FlowVal.accumulate).mp before]
          exact IsSummary.opened packet
      | some old =>
          rw [before] at merged
          cases Option.some.inj merged
          exact (ih before).accumulate packet

end Totals

/-! ## One window and its report -/

section Windows
variable {P : Type} [DecidableEq P]

theorem filter_key_of_mem {flows : List (Flow P)} (nodup : (flows.map Prod.fst).Nodup)
    {flow : Flow P} (member : flow ∈ flows) :
    flows.filter (fun other => other.1 = flow.1) = [flow] := by
  obtain ⟨before, after, rfl⟩ := List.append_of_mem member
  rw [List.map_append, List.map_cons, List.nodup_append, List.nodup_cons] at nodup
  obtain ⟨_, ⟨notAfter, _⟩, disjoint⟩ := nodup
  have notBefore : flow.1 ∉ before.map Prod.fst :=
    fun listed => disjoint flow.1 listed flow.1 (List.mem_cons_self ..) rfl
  rw [List.filter_append, List.filter_cons_of_pos (by simp), filter_key_eq_nil notBefore,
    filter_key_eq_nil notAfter]
  rfl

variable [Protocol P]

/-- What the records of the tuple say, in the order in which they arrive. -/
def received (tuple : WireTuple) (receipt : Receipt P) : List Volume :=
  (receipt.records.filter fun record => wireTuple record = tuple).map volumeOf

/-- The totals of a collector after some flushes. -/
def collected (tuple : WireTuple) (flushes : List (Receipt P)) : Option Volume :=
  total Volume.merge (flushes.flatMap (received tuple))

/-- A reported flow has the tuple of no other key. -/
theorem Amounts.wireTuple_iff {hasSrcPort hasDstPort : P → Bool} (numbers : ProtocolNumbers P)
    {collector : SocketAddr} {addrs : List IpAddr} {window : List (Flow P)} {flow : Flow P}
    (amounts : Amounts collector addrs window flow)
    (ports : ∀ flow ∈ window, flow.1.HasPorts hasSrcPort hasDstPort) {key : FlowKey P}
    (keyPorts : key.HasPorts hasSrcPort hasDstPort) :
    wireTuple (collectorRecord flow) = key.wireTuple ↔ flow.1 = key := by
  obtain ⟨_, val, summary, _⟩ := amounts
  have listed : flow.1 ∈ window.map Prod.fst := by
    by_contra absent
    exact summary.ne_nil (packetsOf_eq_nil absent)
  obtain ⟨packet, inWindow, same⟩ := List.mem_map.mp listed
  have flowPorts := same ▸ ports packet inWindow
  rw [wireTuple_collectorRecord]
  constructor
  · exact key_eq_of_wireTuple numbers flowPorts keyPorts
  · rintro rfl
    rfl

theorem received_eq_total {hasSrcPort hasDstPort : P → Bool} (numbers : ProtocolNumbers P)
    {collector : SocketAddr} {window : List (Flow P)} {receipt : Receipt P}
    (reports : Reports collector window receipt)
    (ports : ∀ flow ∈ window, flow.1.HasPorts hasSrcPort hasDstPort) {key : FlowKey P}
    (keyPorts : key.HasPorts hasSrcPort hasDstPort)
    (foreign : key.isSelfExport collector = false) :
    received key.wireTuple receipt =
      (total Volume.merge ((packetsOf key window).map FlowVal.volume)).toList := by
  obtain ⟨reported, records, nodup, flows⟩ := reports
  have keyOnly : ∀ flow ∈ reported, decide (wireTuple (collectorRecord flow) = key.wireTuple) =
      decide (flow.1 = key) := by
    intro flow member
    rw [decide_eq_decide]
    exact ((flows flow).mp member).wireTuple_iff numbers ports keyPorts
  have mine : received key.wireTuple receipt =
      (reported.filter fun flow => flow.1 = key).map fun flow => flow.2.volume := by
    rw [received, records, List.filter_map, List.map_map, ← List.filter_congr keyOnly]
    exact List.map_congr_left fun flow _ => volumeOf_collectorRecord flow
  have summed := map_total FlowVal.accumulate FlowVal.volume Volume.merge volume_accumulate
    (packetsOf key window)
  rw [mine, ← summed]
  cases merged : total FlowVal.accumulate (packetsOf key window) with
  | none =>
      have unlisted : ∀ flow ∈ reported, ¬ decide (flow.1 = key) = true := by
        intro flow member same
        obtain ⟨_, val, summary, _⟩ := (flows flow).mp member
        rw [of_decide_eq_true same] at summary
        exact summary.ne_nil ((total_eq_none FlowVal.accumulate).mp merged)
      rw [List.filter_eq_nil_iff.mpr unlisted]
      rfl
  | some val =>
      have amounts : (key, val.withDirection key receipt.addrs) ∈ reported :=
        (flows _).mpr ⟨foreign, val, isSummary_of_total merged, rfl⟩
      have only := filter_key_of_mem nodup amounts
      rw [only]
      rfl

end Windows

/-! ## Whole runs -/

section Runs
variable {P : Type}

theorem mem_windows {flow : Flow P} {window : List (Flow P)} {ops : List (TableOp P)}
    {current : List (Flow P)} (closed : window ∈ windows current ops) (member : flow ∈ window) :
    flow ∈ current ∨ .record flow.1 flow.2 ∈ ops := by
  induction ops generalizing current with
  | nil => cases closed
  | cons op ops ih =>
      cases op with
      | record key packet =>
          rcases ih closed with before | later
          · rcases List.mem_append.mp before with before | new
            · exact Or.inl before
            · rw [List.mem_singleton.mp new]
              exact Or.inr (List.mem_cons_self ..)
          · exact Or.inr (List.mem_cons_of_mem _ later)
      | drain =>
          rcases List.mem_cons.mp closed with rfl | rest
          · exact Or.inl member
          · rcases ih rest with none | later
            · cases none
            · exact Or.inr (List.mem_cons_of_mem _ later)

/-- A flow of a window comes from a captured packet. -/
theorem captured_of_window {events : List (AgentEvent P)} {window : List (Flow P)}
    (closed : window ∈ closedWindows events) {flow : Flow P} (member : flow ∈ window) :
    ∃ parsed tsMs, AgentEvent.packet parsed tsMs ∈ events ∧
      decodePacket parsed tsMs = some flow := by
  rcases mem_windows closed member with none | recorded
  · cases none
  · obtain ⟨event, happened, op⟩ := List.mem_flatMap.mp recorded
    cases event with
    | packet parsed tsMs =>
        rw [AgentEvent.tableOps] at op
        cases decoded : decodePacket parsed tsMs with
        | none =>
            rw [decoded] at op
            cases op
        | some other =>
            rw [decoded] at op
            obtain ⟨key, packet⟩ := flow
            obtain ⟨otherKey, otherPacket⟩ := other
            cases List.mem_singleton.mp op
            exact ⟨parsed, tsMs, happened, decoded⟩
    | drain => cases List.mem_singleton.mp op
    | receive receipt => cases op

theorem hasPorts_of_window {hasSrcPort hasDstPort : P → Bool} {events : List (AgentEvent P)}
    (parses : ∀ packet tsMs, AgentEvent.packet (some packet) tsMs ∈ events →
      packet.HasPorts hasSrcPort hasDstPort) {window : List (Flow P)}
    (closed : window ∈ closedWindows events) :
    ∀ flow ∈ window, flow.1.HasPorts hasSrcPort hasDstPort := by
  intro flow inside
  obtain ⟨parsed, tsMs, happened, decoded⟩ := captured_of_window closed inside
  exact hasPorts_decodePacket (fun packet shape => parses packet tsMs (shape ▸ happened)) decoded

variable [DecidableEq P] [Protocol P]

theorem collected_of_reports {hasSrcPort hasDstPort : P → Bool} (numbers : ProtocolNumbers P)
    {collector : SocketAddr} {reported : List (List (Flow P))} {flushes : List (Receipt P)}
    (reports : List.Forall₂ (Reports collector) reported flushes)
    (ports : ∀ window ∈ reported, ∀ flow ∈ window, flow.1.HasPorts hasSrcPort hasDstPort)
    {key : FlowKey P} (keyPorts : key.HasPorts hasSrcPort hasDstPort)
    (foreign : key.isSelfExport collector = false) :
    collected key.wireTuple flushes =
      total Volume.merge ((packetsOf key reported.flatten).map FlowVal.volume) := by
  have parts : flushes.flatMap (received key.wireTuple) =
      (reported.map fun window => (packetsOf key window).map FlowVal.volume).flatMap
        fun volumes => (total Volume.merge volumes).toList := by
    induction reports with
    | nil => rfl
    | @cons window receipt windows flushes first _ ih =>
        have here := received_eq_total numbers first
          (ports window (List.mem_cons_self ..)) keyPorts foreign
        have rest := ih fun other member => ports other (List.mem_cons_of_mem _ member)
        rw [List.flatMap_cons, List.map_cons, List.flatMap_cons, here, rest]
  have whole : (packetsOf key reported.flatten).map FlowVal.volume =
      (reported.map fun window => (packetsOf key window).map FlowVal.volume).flatten := by
    have values := valuesOf_flatten key reported
    rw [packetsOf, ← valuesOf, values, List.map_flatten, List.map_map]
    rfl
  rw [collected, parts, total_of_totals, whole]

/-- Under any interleaving, and for every key that is not filtered out: what a
collector adds up under the tuple of the key is what one table holds that recorded
every packet of the reported windows and was never drained. -/
theorem collected_eq_undrained {hasSrcPort hasDstPort : P → Bool} (numbers : ProtocolNumbers P)
    (collector : SocketAddr) (odid : U32) (events : List (AgentEvent P)) (agent : Agent P)
    (run : Run (AgentStep collector) (Agent.start collector odid) events agent)
    (parses : ∀ packet tsMs, AgentEvent.packet (some packet) tsMs ∈ events →
      packet.HasPorts hasSrcPort hasDstPort) :
    ∃ reported pending, Ledger collector events agent reported pending ∧
      ∀ key : FlowKey P, key.HasPorts hasSrcPort hasDstPort →
        key.isSelfExport collector = false →
        collected key.wireTuple (receipts events) =
          ((FlowTable.new.recordAll reported.flatten).inner.lookup key).map FlowVal.volume := by
  obtain ⟨reported, pending, ledger⟩ := ledger_of_run run
  refine ⟨reported, pending, ledger, ?_⟩
  intro key keyPorts foreign
  have ports : ∀ window ∈ reported, ∀ flow ∈ window, flow.1.HasPorts hasSrcPort hasDstPort :=
    fun window member => hasPorts_of_window parses (ledger.mem_closed member)
  rw [collected_of_reports numbers ledger.flushed ports keyPorts foreign, inner_recordAll]
  have kept := lookup_absorb_empty FlowVal.accumulate reported.flatten key
  have volumes := map_total FlowVal.accumulate FlowVal.volume Volume.merge volume_accumulate
    (packetsOf key reported.flatten)
  rw [← volumes]
  exact congrArg (Option.map FlowVal.volume) kept.symm

/-- All protocols but ARP have ports. -/
theorem sample_parses (receipt : Receipt SampleProtocol) (packet : ParsedPacket SampleProtocol)
    (tsMs : U64) (captured : AgentEvent.packet (some packet) tsMs ∈
      [.packet (some samplePacket) 0, .drain, .receive receipt]) :
    packet.HasPorts (fun p => p != .arp) fun p => p != .arp := by
  simp only [List.mem_cons, AgentEvent.packet.injEq, Option.some.injEq, reduceCtorEq,
    List.not_mem_nil, or_false] at captured
  rw [captured.1]
  exact ⟨rfl, rfl⟩

theorem collected_eq_undrained_sample :
    ∃ (receipt : Receipt SampleProtocol) (agent : Agent SampleProtocol)
        (reported pending : List (List (Flow SampleProtocol))),
      Run (AgentStep sampleCollector) (Agent.start sampleCollector 0)
        [.packet (some samplePacket) 0, .drain, .receive receipt] agent ∧
      Ledger sampleCollector [.packet (some samplePacket) 0, .drain, .receive receipt] agent
        reported pending ∧
      collected sampleKey.wireTuple [receipt] =
        ((FlowTable.new.recordAll reported.flatten).inner.lookup sampleKey).map
          FlowVal.volume := by
  obtain ⟨receipt, agent, run⟩ := sample_run
  obtain ⟨reported, pending, ledger, adds⟩ :=
    collected_eq_undrained sampleNumbers sampleCollector 0 _ agent run (sample_parses receipt)
  exact ⟨receipt, agent, reported, pending, run, ledger, adds sampleKey ⟨rfl, rfl⟩ (by decide)⟩

end Runs

end SniffnetAgent
