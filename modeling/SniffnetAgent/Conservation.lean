import SniffnetAgent.Pipeline

/-!
# Nothing is lost or counted twice

The counters are deltas: what a key was recorded with is, at any moment of any
interleaving, split between the table, the maps in the channel and the records
handed to the socket.  A record belongs to the key at its position in the wire
order of its flush; the records are those a collector decodes.
-/

set_option autoImplicit false

namespace SniffnetAgent

open WireCodec CheckedArith LabelledRun Ipfix Collector

/-- The two delta counters of a flow. -/
inductive Counter where
  | octets
  | packets
  deriving DecidableEq, Repr

def Counter.of : Counter → FlowVal → U64
  | .octets => FlowVal.bytes
  | .packets => FlowVal.packets

/-- The information element that carries the counter. -/
def Counter.element : Counter → Nat
  | .octets => 352
  | .packets => 2

def amount (c : Counter) (val : FlowVal) : Nat := (c.of val).toNat

section Amounts
variable {P : Type}

theorem amount_accumulate (c : Counter) (val packet : FlowVal) :
    amount c (val.accumulate packet) = min (amount c val + amount c packet) (2 ^ 64 - 1) := by
  cases c with
  | octets => exact toNat_saturatingAdd val.bytes packet.bytes
  | packets => exact toNat_saturatingAdd val.packets packet.packets

theorem amount_withDirection (c : Counter) (val : FlowVal) (key : FlowKey P)
    (addrs : List IpAddr) : amount c (val.withDirection key addrs) = amount c val := by
  cases c <;> rfl

theorem value_collectorRecord [Protocol P] (c : Counter) (flow : Flow P) :
    (collectorRecord flow).value c.element = some (amount c flow.2) := by
  unfold collectorRecord
  cases c <;> cases flow.1.addrs <;> rfl

end Amounts

/-! ## Where an amount can be -/

section Places
variable {P : Type} [DecidableEq P]

def recordedBy (c : Counter) (key : FlowKey P) : AgentEvent P → Nat
  | .packet parsed tsMs =>
      (decodePacket parsed tsMs).elim 0 fun flow => if flow.1 = key then amount c flow.2 else 0
  | .drain => 0
  | .receive _ => 0

/-- The total of all packets recorded under the key. -/
def recorded (c : Counter) (key : FlowKey P) (events : List (AgentEvent P)) : Nat :=
  (events.map (recordedBy c key)).sum

def inMap (c : Counter) (key : FlowKey P) (map : FlowMap P) : Nat :=
  (map.lookup key).elim 0 (amount c)

def inChannel (c : Counter) (key : FlowKey P) (channel : List (FlowMap P)) : Nat :=
  (channel.map (inMap c key)).sum

variable [Protocol P]

/-- The data records in the datagrams of one flush. -/
def Receipt.records (receipt : Receipt P) : List DataRecord :=
  (decodeStream agentTemplates (receipt.attempts.map Attempt.datagram)).elim [] Prod.snd

/-- The records at the positions of the key in the wire order. -/
def Receipt.recordsFor (receipt : Receipt P) (collector : SocketAddr) (key : FlowKey P) :
    List DataRecord :=
  (((wireOrder (receipt.flows collector)).zip receipt.records).filter
    fun pair => pair.1.1 = key).map Prod.snd

def exportedBy (c : Counter) (collector : SocketAddr) (key : FlowKey P) : AgentEvent P → Nat
  | .packet _ _ => 0
  | .drain => 0
  | .receive receipt =>
      ((receipt.recordsFor collector key).map fun record => (record.value c.element).getD 0).sum

/-- The total of the delta counts handed to the socket for the key. -/
def exported (c : Counter) (collector : SocketAddr) (key : FlowKey P)
    (events : List (AgentEvent P)) : Nat :=
  (events.map (exportedBy c collector key)).sum

omit [Protocol P] in
theorem recorded_snoc (c : Counter) (key : FlowKey P) (events : List (AgentEvent P))
    (event : AgentEvent P) :
    recorded c key (events ++ [event]) = recorded c key events + recordedBy c key event := by
  rw [recorded, List.map_append, List.sum_append, List.map_singleton, List.sum_singleton,
    recorded]

theorem exported_snoc (c : Counter) (collector : SocketAddr) (key : FlowKey P)
    (events : List (AgentEvent P)) (event : AgentEvent P) :
    exported c collector key (events ++ [event]) =
      exported c collector key events + exportedBy c collector key event := by
  rw [exported, List.map_append, List.sum_append, List.map_singleton, List.sum_singleton,
    exported]

end Places

/-! ## One flush -/

section Flushes
variable {P : Type} [Protocol P] [DecidableEq P]

/-- What is exported under a key is what the map holds, unless the key is
filtered out. -/
theorem exportFlows_filter_key (collector : SocketAddr) (addrs : List IpAddr)
    {map : FlowMap P} {entries : List (Flow P)} (enumerates : FlowMap.Enumerates map entries)
    (key : FlowKey P) :
    (exportFlows collector addrs entries).filter (fun flow => flow.1 = key) =
      if key.isSelfExport collector then []
      else (map.lookup key).elim [] fun val => [(key, val.withDirection key addrs)] := by
  have sameKey : ((fun flow : Flow P => decide (flow.1 = key)) ∘ fun flow : Flow P =>
      (flow.1, flow.2.withDirection flow.1 addrs)) = fun flow => decide (flow.1 = key) := rfl
  rw [exportFlows, List.filter_map, sameKey, List.filter_filter]
  have swap : (entries.filter fun flow =>
      decide (flow.1 = key) && !flow.1.isSelfExport collector) =
      (entries.filter fun flow => flow.1 = key).filter
        fun flow => !flow.1.isSelfExport collector := by
    rw [List.filter_filter]
    congr 1
    funext flow
    exact Bool.and_comm _ _
  rw [swap, enumerates.filter_key key]
  cases map.lookup key <;> cases self : key.isSelfExport collector <;> simp [self]

theorem records_of_flushStep {collector : SocketAddr} {before next : Exporter}
    {receipt : Receipt P}
    (step : FlushStep before ⟨before, receipt.call collector, receipt.attempts⟩ next) :
    receipt.records = (wireOrder (receipt.flows collector)).map collectorRecord := by
  obtain ⟨store, decoded⟩ := step.records
  have sent : decodeStream agentTemplates (receipt.attempts.map Attempt.datagram) =
      some (store, (wireOrder (receipt.flows collector)).map collectorRecord) := decoded
  rw [Receipt.records, sent, Option.elim_some]

theorem recordsFor_eq {collector : SocketAddr} {receipt : Receipt P}
    (records : receipt.records = (wireOrder (receipt.flows collector)).map collectorRecord)
    (key : FlowKey P) :
    receipt.recordsFor collector key =
      ((wireOrder (receipt.flows collector)).filter fun flow => flow.1 = key).map
        collectorRecord := by
  rw [Receipt.recordsFor, records, ← List.map_prod_left_eq_zip, List.filter_map, List.map_map]
  rfl

theorem exportedBy_receive {collector : SocketAddr} {receipt : Receipt P} {map : FlowMap P}
    (records : receipt.records = (wireOrder (receipt.flows collector)).map collectorRecord)
    (enumerates : FlowMap.Enumerates map receipt.entries) (c : Counter) (key : FlowKey P)
    (foreign : key.isSelfExport collector = false) :
    exportedBy c collector key (.receive receipt) = inMap c key map := by
  have own := exportFlows_filter_key collector receipt.addrs enumerates key
  rw [foreign, if_neg Bool.false_ne_true] at own
  have counts : (fun record : DataRecord => (record.value c.element).getD 0) ∘ collectorRecord =
      fun flow : Flow P => amount c flow.2 := by
    funext flow
    rw [Function.comp_apply, value_collectorRecord, Option.getD_some]
  have order := ((wireOrder_perm (receipt.flows collector)).filter
    fun flow => flow.1 = key).map fun flow => amount c flow.2
  rw [exportedBy, recordsFor_eq records, List.map_map, counts, order.sum_eq, Receipt.flows, own,
    inMap]
  cases map.lookup key with
  | none => rfl
  | some val => simp [amount_withDirection]

theorem recordsFor_selfExport {collector : SocketAddr} {receipt : Receipt P} {map : FlowMap P}
    (records : receipt.records = (wireOrder (receipt.flows collector)).map collectorRecord)
    (enumerates : FlowMap.Enumerates map receipt.entries) (key : FlowKey P)
    (self : key.isSelfExport collector = true) : receipt.recordsFor collector key = [] := by
  have own := exportFlows_filter_key collector receipt.addrs enumerates key
  rw [self, if_pos rfl] at own
  have order := (wireOrder_perm (receipt.flows collector)).filter fun flow => flow.1 = key
  rw [Receipt.flows, own] at order
  rw [recordsFor_eq records, Receipt.flows, order.eq_nil, List.map_nil]

end Flushes

/-! ## Every interleaving -/

section Runs
variable {P : Type} [DecidableEq P]

theorem inMap_record_self (c : Counter) (table : FlowTable P) (key : FlowKey P) (packet : FlowVal)
    (bound : inMap c key table.inner + amount c packet < 2 ^ 64) :
    inMap c key (table.record key packet).inner = inMap c key table.inner + amount c packet := by
  unfold inMap at bound ⊢
  rw [FlowTable.lookup_record_self, Option.elim_some]
  cases found : table.inner.lookup key with
  | none => rw [Option.elim_none, Option.elim_none, Nat.zero_add]
  | some val =>
      rw [found, Option.elim_some] at bound
      rw [Option.elim_some, Option.elim_some, amount_accumulate]
      omega

theorem inMap_record_of_ne (c : Counter) (table : FlowTable P) {key other : FlowKey P}
    (packet : FlowVal) (ne : other ≠ key) :
    inMap c other (table.record key packet).inner = inMap c other table.inner := by
  rw [inMap, FlowTable.lookup_record_of_ne table packet ne, inMap]

/-- A captured packet adds to the table what it recorded. -/
theorem inMap_capture (c : Counter) (key : FlowKey P) (table : FlowTable P)
    (parsed : Option (ParsedPacket P)) (tsMs : U64)
    (bound : inMap c key table.inner + recordedBy c key (.packet parsed tsMs) < 2 ^ 64) :
    inMap c key (table.capture parsed tsMs).inner =
      inMap c key table.inner + recordedBy c key (.packet parsed tsMs) := by
  unfold FlowTable.capture
  simp only [recordedBy] at bound ⊢
  cases decoded : decodePacket parsed tsMs with
  | none => rfl
  | some flow =>
      obtain ⟨flowKey, packet⟩ := flow
      rw [decoded, Option.elim_some] at bound
      rw [Option.elim_some]
      by_cases same : flowKey = key
      · subst same
        rw [if_pos rfl] at bound ⊢
        exact inMap_record_self c table flowKey packet bound
      · rw [if_neg same, Nat.add_zero]
        exact inMap_record_of_ne c table packet fun equal => same equal.symm

variable [Protocol P]

/-- Each key's account after a history: what was recorded is in the table, in
the channel, or exported. -/
def Balanced (collector : SocketAddr) (events : List (AgentEvent P)) (agent : Agent P) : Prop :=
  ∀ c key, key.isSelfExport collector = false → recorded c key events < 2 ^ 64 →
    recorded c key events = inMap c key agent.table.inner + inChannel c key agent.channel +
      exported c collector key events

theorem balanced_start (collector : SocketAddr) (odid : U32) :
    Balanced collector [] (Agent.start collector odid : Agent P) := by
  intro c key _ _
  simp [recorded, exported, inMap, inChannel, Agent.start, FlowTable.new]

theorem Balanced.step {collector : SocketAddr} {events : List (AgentEvent P)}
    {agent next : Agent P} {event : AgentEvent P} (balanced : Balanced collector events agent)
    (step : AgentStep collector agent event next) :
    Balanced collector (events ++ [event]) next := by
  intro c key foreign bound
  rw [recorded_snoc] at bound
  have before := balanced c key foreign (by omega)
  rw [recorded_snoc, exported_snoc, before]
  cases step with
  | packet parsed tsMs =>
      have table := inMap_capture c key agent.table parsed tsMs (by omega)
      rw [table]
      simp only [exportedBy]
      omega
  | drain =>
      have emptied : inMap c key agent.table.drain.2.inner = 0 := by
        simp [inMap, FlowTable.drain, FlowTable.new]
      have sent : inChannel c key (agent.channel ++ [agent.table.drain.1]) =
          inChannel c key agent.channel + inMap c key agent.table.inner := by
        simp [inChannel, FlowTable.drain]
      rw [emptied, sent]
      simp only [recordedBy, exportedBy]
      omega
  | receive map rest receipt exporter result waiting enumerates flushed =>
      have own := records_of_flushStep (flushStep_of_receive flushed)
      have taken : inChannel c key agent.channel = inMap c key map + inChannel c key rest := by
        rw [waiting, inChannel, List.map_cons, List.sum_cons, inChannel]
      rw [exportedBy_receive own enumerates c key foreign, taken]
      simp only [recordedBy]
      omega

/-- In every reachable state, under any interleaving of the two threads. -/
theorem conservation (collector : SocketAddr) (odid : U32) (events : List (AgentEvent P))
    (agent : Agent P)
    (run : Run (AgentStep collector) (Agent.start collector odid) events agent) :
    (∀ receipt, AgentEvent.receive receipt ∈ events →
      receipt.records = (wireOrder (receipt.flows collector)).map collectorRecord) ∧
    (∀ c key, key.isSelfExport collector = false → recorded c key events < 2 ^ 64 →
      recorded c key events = inMap c key agent.table.inner + inChannel c key agent.channel +
        exported c collector key events) ∧
    (∀ key, key.isSelfExport collector = true → ∀ receipt,
      AgentEvent.receive receipt ∈ events → receipt.recordsFor collector key = []) := by
  have taken := takes_of_run (Q := fun _ => True) trivial run fun _ _ _ _ _ => trivial
  refine ⟨?_, ?_, ?_⟩
  · intro receipt member
    obtain ⟨_, _, _, _, _, step⟩ := taken receipt member
    exact records_of_flushStep step
  · exact run.invariant (Balanced collector) (balanced_start collector odid)
      fun _ _ _ _ balanced step => balanced.step step
  · intro key self receipt member
    obtain ⟨_, _, _, _, enumerates, step⟩ := taken receipt member
    exact recordsFor_selfExport (records_of_flushStep step) enumerates key self

/-- A packet of 100 bytes from 10.0.0.1:1001 to 10.0.0.2:443. -/
def samplePacket : ParsedPacket SampleProtocol :=
  ⟨⟨none, none, none⟩, ⟨0x0800, .v4 ⟨0x0A000001⟩, .v4 ⟨0x0A000002⟩⟩,
    ⟨some 1001, some 443, .tcp⟩, 100⟩

def sampleKey : FlowKey SampleProtocol :=
  ⟨.v4 ⟨0x0A000001⟩ ⟨0x0A000002⟩, some 1001, some 443, .tcp⟩

/-- Two packets, one flushed and one still in the table. -/
theorem conservation_sample :
    ∃ events agent, Run (AgentStep sampleCollector) (Agent.start sampleCollector 0) events agent ∧
      inMap .octets sampleKey agent.table.inner = 100 ∧ agent.channel = [] ∧
      exported .octets sampleCollector sampleKey events = 100 := by
  let opened := (FlowTable.new (P := SampleProtocol)).capture (some samplePacket) 0
  obtain ⟨receipt, next, received, _⟩ := receive_enabled sampleCollector
    ⟨FlowTable.new, [opened.inner], Exporter.fresh sampleCollector 0⟩ opened.inner [] rfl []
    ⟨0, 0, none⟩ fun _ => none
  obtain ⟨table, channel⟩ := receive_frame received
  have run : Run (AgentStep sampleCollector) (Agent.start sampleCollector 0)
      [.packet (some samplePacket) 0, .drain, .receive receipt, .packet (some samplePacket) 0]
      { next with table := next.table.capture (some samplePacket) 0 } :=
    .cons (.packet _ _ _) (.cons (.drain _) (.cons received (.cons (.packet _ _ _) (.nil _))))
  obtain ⟨_, balance, _⟩ := conservation sampleCollector 0 _ _ run
  have held : inMap .octets sampleKey (next.table.capture (some samplePacket) 0).inner = 100 := by
    rw [table]
    decide +kernel
  have none : next.channel = [] := channel
  have all : recorded .octets sampleKey [.packet (some samplePacket) 0, .drain, .receive receipt,
      .packet (some samplePacket) 0] = 200 := rfl
  have total := balance .octets sampleKey (by decide) (by rw [all]; decide)
  have queued : inChannel .octets sampleKey next.channel = 0 := by rw [none]; rfl
  refine ⟨_, _, run, held, none, ?_⟩
  rw [all] at total
  dsimp only at total
  omega

end Runs

end SniffnetAgent
