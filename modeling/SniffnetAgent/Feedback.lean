import SniffnetAgent.Conservation

/-!
# The agent's own exports

A captured own export must leave no trace in what is exported.  It is the
filter of the main thread that sees to it, and the filter compares the typed
destination with the address the agent was given.  Where the datagrams of the
connected socket really go is the system's choice, so their destination is an
argument: the filter misses them exactly when it is another address, as it is for
an IPv4-mapped collector, which is reached over IPv4, and for an unspecified one,
which stands for the loopback address.
-/

set_option autoImplicit false

namespace SniffnetAgent

open LabelledRun Ipfix

/-- The embedded address of `::ffff:a.b.c.d`. -/
def Ipv6Addr.toIpv4Mapped (addr : Ipv6Addr) : Option Ipv4Addr :=
  if addr.bits >>> 32 = 0xFFFF then some ⟨addr.bits.setWidth 32⟩ else none

/-- What is assumed of the system: a wildcard IPv6 socket reaches an IPv4-mapped
collector over IPv4. -/
def MappedOverIpv4 (collector : SocketAddr) (dst : IpAddr) : Prop :=
  ∀ addr embedded, collector.ip = .v6 addr → addr.toIpv4Mapped = some embedded →
    dst = .v4 embedded

section Events
variable {P : Type} [Protocol P] [DecidableEq P]

/-- A captured packet that the agent's exporter sent; `dst` is the address to which
its connected socket sends. -/
def OwnExport (collector : SocketAddr) (dst : IpAddr) (event : AgentEvent P) : Prop :=
  ∃ parsed tsMs, event = .packet (some parsed) tsMs ∧
    parsed.transportInfo.protocol = Protocol.udp ∧
    parsed.transportInfo.dstPort = some collector.port ∧
    parsed.netInfo.dstIp = dst

/-- The same packet, a drain in both runs, or a receive with the same clock and
the same addresses; the iteration order and the sends may differ. -/
inductive SameInput : AgentEvent P → AgentEvent P → Prop where
  | packet (parsed : Option (ParsedPacket P)) (tsMs : U64) :
      SameInput (.packet parsed tsMs) (.packet parsed tsMs)
  | drain : SameInput .drain .drain
  | receive (receipt receipt' : Receipt P) : receipt.clock = receipt'.clock →
      receipt.addrs = receipt'.addrs → SameInput (.receive receipt) (.receive receipt')

/-- Two flushes export the same (key, value) records. -/
def SameExport (collector : SocketAddr) (receipt receipt' : Receipt P) : Prop :=
  (receipt.flows collector).Perm (receipt'.flows collector) ∧
    receipt.records.Perm receipt'.records

def receipts (events : List (AgentEvent P)) : List (Receipt P) :=
  events.filterMap fun event => match event with
    | .receive receipt => some receipt
    | _ => none

/-- Own exports to `dst` do not feed back: inserting them anywhere into the captured
packets changes no flush and nothing of the exporter, and a run that captures
nothing else sends nothing. -/
def FeedbackFree (P : Type) [Protocol P] [DecidableEq P] (collector : SocketAddr) (odid : U32)
    (dst : IpAddr) : Prop :=
  (∀ (events events' : List (AgentEvent P)) (agent agent' : Agent P),
    Run (AgentStep collector) (Agent.start collector odid) events agent →
    Run (AgentStep collector) (Agent.start collector odid) events' agent' →
    Inserted SameInput (OwnExport collector dst) events events' →
    List.Forall₂ (SameExport collector) (receipts events) (receipts events') ∧
      agent.exporter.seq = agent'.exporter.seq ∧
      agent.exporter.lastTemplateSend = agent'.exporter.lastTemplateSend) ∧
  ∀ (events : List (AgentEvent P)) (agent : Agent P),
    Run (AgentStep collector) (Agent.start collector odid) events agent →
    (∀ parsed tsMs, AgentEvent.packet parsed tsMs ∈ events →
      OwnExport collector dst (.packet parsed tsMs : AgentEvent P)) →
    ∀ receipt ∈ receipts events, receipt.attempts = []

end Events

/-! ## Maps that agree where it matters -/

section Maps
variable {P : Type} [Protocol P] [DecidableEq P]

/-- The maps agree on every key that is not filtered out. -/
def SameForeign (collector : SocketAddr) (map map' : FlowMap P) : Prop :=
  ∀ key, key.isSelfExport collector = false → map.lookup key = map'.lookup key

theorem SameForeign.record {collector : SocketAddr} {table table' : FlowTable P}
    (same : SameForeign collector table.inner table'.inner) (key : FlowKey P)
    (packet : FlowVal) :
    SameForeign collector (table.record key packet).inner (table'.record key packet).inner := by
  intro other foreign
  by_cases equal : other = key
  · subst equal
    rw [FlowTable.lookup_record_self, FlowTable.lookup_record_self, same other foreign]
  · rw [FlowTable.lookup_record_of_ne table packet equal,
      FlowTable.lookup_record_of_ne table' packet equal, same other foreign]

theorem SameForeign.capture {collector : SocketAddr} {table table' : FlowTable P}
    (same : SameForeign collector table.inner table'.inner)
    (parsed : Option (ParsedPacket P)) (tsMs : U64) :
    SameForeign collector (table.capture parsed tsMs).inner (table'.capture parsed tsMs).inner := by
  unfold FlowTable.capture
  cases decodePacket parsed tsMs with
  | none => exact same
  | some flow => exact same.record flow.1 flow.2

/-- An own export to the given address makes a key that the filter knows, or no key
at all. -/
theorem isSelfExport_of_ownExport {collector : SocketAddr} {parsed : Option (ParsedPacket P)}
    {tsMs : U64} (own : OwnExport collector collector.ip (.packet parsed tsMs : AgentEvent P))
    {flow : Flow P} (decoded : decodePacket parsed tsMs = some flow) :
    flow.1.isSelfExport collector = true := by
  obtain ⟨packet, ts, shape, protocol, port, address⟩ := own
  cases shape
  simp only [decodePacket, Option.bind_eq_bind, Option.bind_some] at decoded
  obtain ⟨addrs, paired, result⟩ := Option.bind_eq_some_iff.mp decoded
  cases Option.some.inj result
  have dst : addrs.dst = packet.netInfo.dstIp := by
    revert paired
    cases packet.netInfo.srcIp <;> cases packet.netInfo.dstIp <;> intro paired <;> cases paired <;>
      rfl
  simp [FlowKey.isSelfExport, protocol, port, dst, address]

theorem SameForeign.ownExport {collector : SocketAddr} {map : FlowMap P} {table : FlowTable P}
    (same : SameForeign collector map table.inner) {parsed : Option (ParsedPacket P)} {tsMs : U64}
    (own : OwnExport collector collector.ip (.packet parsed tsMs : AgentEvent P)) :
    SameForeign collector map (table.capture parsed tsMs).inner := by
  intro key foreign
  unfold FlowTable.capture
  cases decoded : decodePacket parsed tsMs with
  | none => exact same key foreign
  | some flow =>
      have known := isSelfExport_of_ownExport own decoded
      have ne : key ≠ flow.1 := by
        rintro rfl
        rw [foreign] at known
        cases known
      exact (same key foreign).trans (FlowTable.lookup_record_of_ne table flow.2 ne).symm

/-- Whatever the two iteration orders. -/
theorem SameForeign.exportFlows_perm {collector : SocketAddr} {map map' : FlowMap P}
    (same : SameForeign collector map map') {entries entries' : List (Flow P)}
    (enumerates : FlowMap.Enumerates map entries) (enumerates' : FlowMap.Enumerates map' entries')
    (addrs : List IpAddr) :
    (exportFlows collector addrs entries).Perm (exportFlows collector addrs entries') := by
  have nodup : ∀ {map : FlowMap P} {entries : List (Flow P)}, FlowMap.Enumerates map entries →
      (entries.filter fun flow => !flow.1.isSelfExport collector).Nodup :=
    fun enumerates => (List.Nodup.of_map Prod.fst enumerates.nodup_keys).filter _
  refine List.Perm.map _ ?_
  rw [List.perm_ext_iff_of_nodup (nodup enumerates) (nodup enumerates')]
  rintro ⟨key, val⟩
  rw [List.mem_filter, List.mem_filter, enumerates.mem_iff, enumerates'.mem_iff]
  constructor
  · rintro ⟨found, foreign⟩
    exact ⟨same key (by simpa using foreign) ▸ found, foreign⟩
  · rintro ⟨found, foreign⟩
    exact ⟨(same key (by simpa using foreign)).symm ▸ found, foreign⟩

theorem mem_exportFlows {collector : SocketAddr} {map : FlowMap P} {entries : List (Flow P)}
    (enumerates : FlowMap.Enumerates map entries) {flow : Flow P}
    (foreign : flow.1.isSelfExport collector = false) (found : map.lookup flow.1 = some flow.2)
    (addrs : List IpAddr) :
    (flow.1, flow.2.withDirection flow.1 addrs) ∈ exportFlows collector addrs entries := by
  have listed : flow ∈ entries := (enumerates.mem_iff flow.1 flow.2).mpr found
  exact List.mem_map_of_mem (List.mem_filter.mpr ⟨listed, by simp [foreign]⟩)

end Maps

/-! ## The two runs -/

section Runs
variable {P : Type} [Protocol P] [DecidableEq P]

/-- The agents differ at most in filtered entries. -/
structure SameAgent (collector : SocketAddr) (agent agent' : Agent P) : Prop where
  table : SameForeign collector agent.table.inner agent'.table.inner
  channel : List.Forall₂ (SameForeign collector) agent.channel agent'.channel
  exporter : agent.exporter = agent'.exporter

omit [Protocol P] [DecidableEq P] in
theorem after_congr (exporter : Exporter) {call call' : FlushCall P}
    (flows : call.flows.Perm call'.flows) (clock : call.clock = call'.clock) :
    exporter.after call = exporter.after call' := by
  unfold Exporter.after Exporter.carries
  rw [flows.isEmpty_eq, flows.length_eq, clock]

/-- A pair of matching steps: of the flushes, the records are the same. -/
inductive SameFlush (collector : SocketAddr) : AgentEvent P → AgentEvent P → Prop where
  | packet (parsed : Option (ParsedPacket P)) (tsMs : U64) :
      SameFlush collector (.packet parsed tsMs) (.packet parsed tsMs)
  | drain : SameFlush collector .drain .drain
  | receive {receipt receipt' : Receipt P} : SameExport collector receipt receipt' →
      SameFlush collector (.receive receipt) (.receive receipt')

theorem SameAgent.both {collector : SocketAddr} {agent agent' next next' : Agent P}
    {event event' : AgentEvent P} (same : SameAgent collector agent agent')
    (alike : SameInput event event') (step : AgentStep collector agent event next)
    (step' : AgentStep collector agent' event' next') :
    SameAgent collector next next' ∧ SameFlush collector event event' := by
  obtain ⟨table, channel, exporter⟩ := same
  cases alike with
  | packet parsed tsMs =>
      cases step
      cases step'
      exact ⟨⟨table.capture parsed tsMs, channel, exporter⟩, SameFlush.packet parsed tsMs⟩
  | drain =>
      cases step
      cases step'
      refine ⟨⟨fun key _ => rfl, ?_, exporter⟩, SameFlush.drain⟩
      exact List.rel_append channel (List.Forall₂.cons table List.Forall₂.nil)
  | receive receipt receipt' clock addrs =>
      cases step with
      | receive map rest _ exported result waiting enumerates flushed =>
          cases step' with
          | receive map' rest' _ exported' result' waiting' enumerates' flushed' =>
              rw [waiting, waiting'] at channel
              obtain ⟨oldest, queued⟩ := List.forall₂_cons.mp channel
              have flows : (receipt.flows collector).Perm (receipt'.flows collector) := by
                unfold Receipt.flows
                rw [addrs]
                exact oldest.exportFlows_perm enumerates enumerates' _
              have flush := flushStep_of_receive flushed
              have flush' := flushStep_of_receive flushed'
              refine ⟨⟨table, queued, ?_⟩, SameFlush.receive ⟨flows, ?_⟩⟩
              · obtain ⟨_, after, _⟩ := flush.shape
                obtain ⟨_, after', _⟩ := flush'.shape
                dsimp only
                rw [after, after', exporter]
                exact after_congr agent'.exporter flows clock
              · rw [records_of_flushStep flush, records_of_flushStep flush']
                exact ((wireOrder_perm _).trans (flows.trans (wireOrder_perm _).symm)).map _

theorem SameAgent.extra {collector : SocketAddr} {agent agent' next' : Agent P}
    {event : AgentEvent P} (same : SameAgent collector agent agent')
    (own : OwnExport collector collector.ip event) (step : AgentStep collector agent' event next') :
    SameAgent collector agent next' := by
  obtain ⟨table, channel, exporter⟩ := same
  cases step with
  | packet parsed tsMs => exact ⟨table.ownExport own, channel, exporter⟩
  | drain => obtain ⟨_, _, shape, _⟩ := own; cases shape
  | receive => obtain ⟨_, _, shape, _⟩ := own; cases shape

theorem receipts_of_inserted {collector : SocketAddr} {dst : IpAddr}
    {events events' : List (AgentEvent P)}
    (inserted : Inserted (SameFlush collector) (OwnExport collector dst) events events') :
    List.Forall₂ (SameExport collector) (receipts events) (receipts events') := by
  induction inserted with
  | nil => exact .nil
  | both same _ ih =>
      cases same with
      | packet parsed tsMs => exact ih
      | drain => exact ih
      | receive same => exact .cons same ih
  | extra own _ ih =>
      obtain ⟨parsed, tsMs, rfl, _⟩ := own
      exact ih

theorem flushes_same_of_inserted {collector : SocketAddr} {odid : U32}
    {events events' : List (AgentEvent P)} {agent agent' : Agent P}
    (run : Run (AgentStep collector) (Agent.start collector odid) events agent)
    (run' : Run (AgentStep collector) (Agent.start collector odid) events' agent')
    (inserted : Inserted SameInput (OwnExport collector collector.ip) events events') :
    List.Forall₂ (SameExport collector) (receipts events) (receipts events') ∧
      agent.exporter = agent'.exporter := by
  have started : SameAgent collector (Agent.start collector odid : Agent P)
      (Agent.start collector odid) := ⟨fun _ _ => rfl, .nil, rfl⟩
  obtain ⟨same, flushes⟩ := inserted.unwind (SameAgent collector) (SameFlush collector)
    (fun same alike step step' => same.both alike step step')
    (fun same own step => same.extra own step) started run run'
  exact ⟨receipts_of_inserted flushes, same.exporter⟩

/-! ## Nothing but own exports -/

theorem exportFlows_idle {collector : SocketAddr} {map : FlowMap P}
    (idle : SameForeign collector ∅ map) {entries : List (Flow P)}
    (enumerates : FlowMap.Enumerates map entries) (addrs : List IpAddr) :
    exportFlows collector addrs entries = [] := by
  have nothing : FlowMap.Enumerates (∅ : FlowMap P) [] := rfl
  exact (idle.exportFlows_perm nothing enumerates addrs).nil_eq.symm

/-- Every map that is flushed holds own exports only. -/
theorem quiet_of_own_exports {collector : SocketAddr} {odid : U32}
    {events : List (AgentEvent P)} {agent : Agent P}
    (run : Run (AgentStep collector) (Agent.start collector odid) events agent)
    (own : ∀ parsed tsMs, AgentEvent.packet parsed tsMs ∈ events →
      OwnExport collector collector.ip (.packet parsed tsMs : AgentEvent P)) :
    ∀ receipt ∈ receipts events, receipt.attempts = [] := by
  have taken := takes_of_run (Q := SameForeign collector ∅) (fun _ _ => rfl) run
    fun parsed tsMs member _ idle => idle.ownExport (own parsed tsMs member)
  intro receipt member
  obtain ⟨event, inEvents, shape⟩ := List.mem_filterMap.mp member
  cases event with
  | packet _ _ => cases shape
  | drain => cases shape
  | receive other =>
      cases Option.some.inj shape
      obtain ⟨map, before, next, idle, enumerates, step⟩ := taken _ inEvents
      have sent := (step.empty (exportFlows_idle idle enumerates _)).1
      rwa [FlushEvent.datagrams, List.map_eq_nil_iff] at sent

end Runs

/-! ## Which destinations are safe -/

section Destinations
variable {P : Type} [Protocol P] [DecidableEq P]

/-- An own export as it is captured on its way to `dst`, from a host of that family. -/
def exportTo (P : Type) [Protocol P] (collector : SocketAddr) (dst : IpAddr) : ParsedPacket P :=
  let transportInfo := ⟨some 40000, some collector.port, Protocol.udp⟩
  match dst with
  | .v4 _ => ⟨⟨none, none, none⟩, ⟨0x0800, .v4 ⟨0x0A000001⟩, dst⟩, transportInfo, 124⟩
  | .v6 _ => ⟨⟨none, none, none⟩, ⟨0x86DD, .v6 ⟨1⟩, dst⟩, transportInfo, 144⟩

omit [DecidableEq P] in
theorem ownExport_exportTo (collector : SocketAddr) (dst : IpAddr) :
    OwnExport collector dst (.packet (some (exportTo P collector dst)) 0 : AgentEvent P) := by
  cases dst <;> exact ⟨_, 0, rfl, rfl, rfl, rfl⟩

/-- The filter looks for the address that the agent was given. -/
theorem unfiltered_of_ne {collector : SocketAddr} {dst : IpAddr} (elsewhere : dst ≠ collector.ip) :
    ∃ flow : Flow P, decodePacket (some (exportTo P collector dst)) 0 = some flow ∧
      flow.1.isSelfExport collector = false := by
  cases dst with
  | v4 addr => exact ⟨_, rfl, by simp [FlowKey.isSelfExport, FlowAddrs.dst, elsewhere]⟩
  | v6 addr => exact ⟨_, rfl, by simp [FlowKey.isSelfExport, FlowAddrs.dst, elsewhere]⟩

/-- One own export, drained and flushed, shows up in the export. -/
theorem feeds_back_of_ne {collector : SocketAddr} {dst : IpAddr} (elsewhere : dst ≠ collector.ip)
    (odid : U32) : ¬ FeedbackFree P collector odid dst := by
  let packet := exportTo P collector dst
  have own : OwnExport collector dst (.packet (some packet) 0 : AgentEvent P) :=
    ownExport_exportTo collector dst
  obtain ⟨flow, decoded, foreign⟩ : ∃ flow : Flow P, decodePacket (some packet) 0 = some flow ∧
    flow.1.isSelfExport collector = false := unfiltered_of_ne elsewhere
  let table : FlowTable P := FlowTable.new.capture (some packet) 0
  have found : table.inner.lookup flow.1 = some flow.2 := by
    simp only [table, FlowTable.capture, decoded]
    rw [FlowTable.lookup_record_self, FlowTable.new, Finmap.lookup_empty, Option.elim_none]
  obtain ⟨plain, last, received, addrs, clock, _⟩ := receive_enabled collector
    ⟨FlowTable.new, [(∅ : FlowMap P)], Exporter.fresh collector odid⟩ ∅ [] rfl []
    ⟨0, 0, none⟩ fun _ => none
  obtain ⟨looped, last', received', addrs', clock', _⟩ := receive_enabled collector
    ⟨FlowTable.new, [table.inner], Exporter.fresh collector odid⟩ table.inner [] rfl []
    ⟨0, 0, none⟩ fun _ => none
  rintro ⟨twoRuns, _⟩
  have run : Run (AgentStep collector) (Agent.start collector odid)
      [.drain, .receive plain] last := .cons (.drain _) (.cons received (.nil _))
  have run' : Run (AgentStep collector) (Agent.start collector odid)
      [.packet (some packet) 0, .drain, .receive looped] last' :=
    .cons (.packet _ _ _) (.cons (.drain _) (.cons received' (.nil _)))
  have inserted : Inserted SameInput (OwnExport collector dst)
      [.drain, .receive plain] [.packet (some packet) 0, .drain, .receive looped] :=
    .extra own (.both .drain (.both (.receive plain looped (clock.trans clock'.symm)
      (addrs.trans addrs'.symm)) .nil))
  obtain ⟨flushes, _⟩ := twoRuns _ _ _ _ run run' inserted
  obtain ⟨⟨flows, _⟩, _⟩ := List.forall₂_cons.mp flushes
  have none : plain.flows collector = [] :=
    exportFlows_idle (fun _ _ => rfl) (receive_oldest received rfl) plain.addrs
  have sent := mem_exportFlows (receive_oldest received' rfl) foreign found looped.addrs
  rw [none] at flows
  rw [Receipt.flows] at flows
  rw [flows.nil_eq.symm] at sent
  cases sent

theorem feeds_back_of_mapped {collector : SocketAddr} {dst : IpAddr}
    (overIpv4 : MappedOverIpv4 collector dst) {addr : Ipv6Addr} (given : collector.ip = .v6 addr)
    {embedded : Ipv4Addr} (mapped : addr.toIpv4Mapped = some embedded) (odid : U32) :
    ¬ FeedbackFree P collector odid dst := by
  apply feeds_back_of_ne
  rw [overIpv4 addr embedded given mapped, given]
  exact IpAddr.noConfusion

/-- Own exports never feed back exactly when they are sent to the very address that
the agent was given. -/
theorem feedbackFree_iff (collector : SocketAddr) (odid : U32) (dst : IpAddr) :
    FeedbackFree P collector odid dst ↔ dst = collector.ip := by
  constructor
  · intro free
    by_contra elsewhere
    exact feeds_back_of_ne elsewhere odid free
  · rintro rfl
    refine ⟨?_, ?_⟩
    · intro events events' agent agent' run run' inserted
      obtain ⟨flushes, exporter⟩ := flushes_same_of_inserted run run' inserted
      rw [exporter]
      exact ⟨flushes, rfl, rfl⟩
    · exact fun events agent run own => quiet_of_own_exports run own

/-- [::ffff:127.0.0.1]:4739. -/
theorem mapped_loopback_feeds_back :
    MappedOverIpv4 ⟨.v6 ⟨0xFFFF7F000001⟩, 4739⟩ (.v4 ⟨0x7F000001⟩) ∧
      ¬ FeedbackFree SampleProtocol ⟨.v6 ⟨0xFFFF7F000001⟩, 4739⟩ 0 (.v4 ⟨0x7F000001⟩) := by
  have mapped : Ipv6Addr.toIpv4Mapped ⟨0xFFFF7F000001⟩ = some ⟨0x7F000001⟩ := by decide
  have overIpv4 : MappedOverIpv4 ⟨.v6 ⟨0xFFFF7F000001⟩, 4739⟩ (.v4 ⟨0x7F000001⟩) := by
    intro addr embedded given found
    cases given
    rw [Option.some.inj (mapped.symm.trans found)]
  exact ⟨overIpv4, feeds_back_of_mapped overIpv4 rfl mapped 0⟩

end Destinations

end SniffnetAgent
