import SniffnetAgent.Outcomes
import SniffnetAgent.Tracing

/-!
# The addresses of the interface

`interface_addresses` of `direction.rs`, asked before every flush.  The device
list comes from the system, in an order of its own; the warnings that go to the
log are left out.
-/

set_option autoImplicit false

namespace SniffnetAgent

open LabelledRun Ipfix Collector

/-- What the agent reads of a device. -/
structure Device where
  name : String
  addresses : List IpAddr
  deriving DecidableEq, Repr

/-- Linux's cooked captures, and the link types that the agent does not tell
apart. -/
inductive LinkType where
  | linuxSll
  | linuxSll2
  | other
  deriving DecidableEq, Repr

def LinkType.isSll : LinkType → Bool
  | .linuxSll => true
  | .linuxSll2 => true
  | .other => false

/-- The loop over the devices. -/
def collectAddresses (interfaceName : String) (isSll : Bool) :
    List IpAddr → List Device → List IpAddr
  | addresses, [] => addresses
  | addresses, dev :: devices =>
      if isSll then collectAddresses interfaceName isSll (addresses ++ dev.addresses) devices
      -- the first device of the name ends the loop
      else if dev.name = interfaceName then addresses ++ dev.addresses
      else collectAddresses interfaceName isSll addresses devices

def interfaceAddresses (interfaceName : String) (linkType : LinkType)
    (list : Except IoError (List Device)) : List IpAddr :=
  match list with
  | .ok devices => collectAddresses interfaceName linkType.isSll [] devices
  | .error _ => []

/-! ## Which addresses they are -/

section Listings

/-- A cooked capture runs on all devices at once. -/
theorem collectAddresses_sll (interfaceName : String) (addresses : List IpAddr)
    (devices : List Device) : collectAddresses interfaceName true addresses devices =
      addresses ++ devices.flatMap Device.addresses := by
  induction devices generalizing addresses with
  | nil => exact (List.append_nil addresses).symm
  | cons dev devices ih =>
      rw [collectAddresses, if_pos rfl, ih, List.flatMap_cons, List.append_assoc]

theorem collectAddresses_named (interfaceName : String) (addresses : List IpAddr)
    (devices : List Device) : collectAddresses interfaceName false addresses devices =
      addresses ++ (devices.find? fun dev => dev.name = interfaceName).elim []
        Device.addresses := by
  induction devices with
  | nil => exact (List.append_nil addresses).symm
  | cons dev devices ih =>
      rw [collectAddresses, if_neg Bool.false_ne_true]
      by_cases named : dev.name = interfaceName
      · rw [if_pos named, List.find?_cons_of_pos (by simp [named])]
        rfl
      · rw [if_neg named, ih, List.find?_cons_of_neg (by simp [named])]

/-- The devices whose addresses count as the agent's own. -/
def Listens (interfaceName : String) (linkType : LinkType) (devices : List Device)
    (dev : Device) : Prop :=
  if linkType.isSll then dev ∈ devices
  else devices.find? (fun dev => dev.name = interfaceName) = some dev

/-- An address of such a device; there is none when the devices cannot be listed. -/
def IsLocal (interfaceName : String) (linkType : LinkType)
    (list : Except IoError (List Device)) (addr : IpAddr) : Prop :=
  ∃ devices, list = .ok devices ∧
    ∃ dev, Listens interfaceName linkType devices dev ∧ addr ∈ dev.addresses

theorem mem_interfaceAddresses (interfaceName : String) (linkType : LinkType)
    (list : Except IoError (List Device)) (addr : IpAddr) :
    addr ∈ interfaceAddresses interfaceName linkType list ↔
      IsLocal interfaceName linkType list addr := by
  cases list with
  | error e => simp [interfaceAddresses, IsLocal]
  | ok devices =>
      simp only [interfaceAddresses, IsLocal, Except.ok.injEq, exists_eq_left', Listens]
      cases linkType.isSll with
      | true => rw [collectAddresses_sll, List.nil_append, List.mem_flatMap]; rfl
      | false =>
          rw [collectAddresses_named, List.nil_append]
          cases devices.find? fun dev => dev.name = interfaceName <;> simp

/-! ## Other orders of the list -/

theorem find?_named_iff {interfaceName : String} {devices : List Device}
    (distinct : (devices.map Device.name).Nodup) (dev : Device) :
    devices.find? (fun dev => dev.name = interfaceName) = some dev ↔
      dev ∈ devices ∧ dev.name = interfaceName := by
  constructor
  · intro found
    exact ⟨List.mem_of_find?_eq_some found, by simpa using List.find?_some found⟩
  · rintro ⟨listed, named⟩
    cases found : devices.find? fun dev => dev.name = interfaceName with
    | none => simpa [named] using List.find?_eq_none.mp found dev listed
    | some other =>
        have alike : other.name = dev.name := by
          rw [named]
          simpa using List.find?_some found
        rw [List.inj_on_of_nodup_map distinct (List.mem_of_find?_eq_some found) listed alike]

/-- The same devices, with the addresses of each in some order. -/
structure SameDevice (dev dev' : Device) : Prop where
  name : dev'.name = dev.name
  addresses : dev.addresses.Perm dev'.addresses

/-- The same devices in some order. -/
def SameListing (devices devices' : List Device) : Prop :=
  ∃ between, devices.Perm between ∧ List.Forall₂ SameDevice between devices'

theorem names_of_forall₂ {devices devices' : List Device}
    (same : List.Forall₂ SameDevice devices devices') :
    devices'.map Device.name = devices.map Device.name := by
  induction same with
  | nil => rfl
  | cons here _ ih => exact congrArg₂ List.cons here.name ih

theorem exists_device_iff {devices devices' : List Device} (same : SameListing devices devices')
    (named : String → Prop) (addr : IpAddr) :
    (∃ dev ∈ devices', named dev.name ∧ addr ∈ dev.addresses) ↔
      ∃ dev ∈ devices, named dev.name ∧ addr ∈ dev.addresses := by
  obtain ⟨between, reordered, pairs⟩ := same
  have across : (∃ dev ∈ devices', named dev.name ∧ addr ∈ dev.addresses) ↔
      ∃ dev ∈ between, named dev.name ∧ addr ∈ dev.addresses := by
    clear reordered
    induction pairs with
    | nil => exact Iff.rfl
    | cons here _ ih => simp only [List.exists_mem_cons_iff, ih, here.name, here.addresses.mem_iff]
  rw [across]
  simp only [reordered.mem_iff]

theorem isLocal_iff {interfaceName : String} {linkType : LinkType} {devices : List Device}
    (distinct : (devices.map Device.name).Nodup) (addr : IpAddr) :
    IsLocal interfaceName linkType (.ok devices) addr ↔
      ∃ dev ∈ devices, (linkType.isSll = true ∨ dev.name = interfaceName) ∧
        addr ∈ dev.addresses := by
  simp only [IsLocal, Except.ok.injEq, exists_eq_left', Listens, find?_named_iff distinct]
  cases linkType.isSll <;> simp [and_assoc]

theorem mem_interfaceAddresses_iff (interfaceName : String) (linkType : LinkType)
    {devices devices' : List Device} (same : SameListing devices devices')
    (distinct : (devices.map Device.name).Nodup) (addr : IpAddr) :
    addr ∈ interfaceAddresses interfaceName linkType (.ok devices') ↔
      addr ∈ interfaceAddresses interfaceName linkType (.ok devices) := by
  have distinct' : (devices'.map Device.name).Nodup := by
    obtain ⟨between, reordered, pairs⟩ := same
    rw [names_of_forall₂ pairs, ← (reordered.map Device.name).nodup_iff]
    exact distinct
  rw [mem_interfaceAddresses, mem_interfaceAddresses, isLocal_iff distinct, isLocal_iff distinct']
  exact exists_device_iff same (fun name => linkType.isSll = true ∨ name = interfaceName) addr

end Listings

/-! ## Directions -/

section Directions
variable {P : Type}

/-- What element 61 says of a flow: 1 is egress, 0 ingress, 255 neither.  Between
two loopback addresses the ports decide, otherwise the local addresses do. -/
structure Directed (isLocal : IpAddr → Prop) (key : FlowKey P) (direction : Option Nat) :
    Prop where
  ported : key.PortedLoopback →
    direction = some (if key.dstPort.getD 0 < key.srcPort.getD 0 then 1 else 0)
  undirected : direction = some 255 ↔ ¬ key.PortedLoopback ∧ ∀ addr, ¬ isLocal addr
  egress : ¬ key.PortedLoopback → (direction = some 1 ↔ isLocal key.addrs.src ∨
    ((∃ addr, isLocal addr) ∧ key.addrs.src.IsUnspecified ∧ ¬ isLocal key.addrs.dst))
  ingress : ¬ key.PortedLoopback → (direction = some 0 ↔ (∃ addr, isLocal addr) ∧
    ¬ isLocal key.addrs.src ∧ (key.addrs.src.IsUnspecified → isLocal key.addrs.dst))

theorem directed_of_members {isLocal : IpAddr → Prop} {addrs : List IpAddr}
    (members : ∀ addr, addr ∈ addrs ↔ isLocal addr) (key : FlowKey P) (val : FlowVal) :
    Directed isLocal key (some (directionValue (val.withDirection key addrs).direction)) := by
  by_cases ported : key.PortedLoopback
  · obtain ⟨sport, srcIs⟩ := Option.isSome_iff_exists.mp ported.2.1
    obtain ⟨dport, dstIs⟩ := Option.isSome_iff_exists.mp ported.2.2
    rw [direction_ported ported srcIs dstIs]
    constructor
    case ported =>
      intro _
      rw [srcIs, dstIs, Option.getD_some, Option.getD_some]
      split <;> rfl
    case undirected =>
      simp only [ported, not_true, false_and, iff_false]
      split <;> simp [directionValue]
    case egress => exact fun unported => absurd ported unported
    case ingress => exact fun unported => absurd ported unported
  · rw [direction_unported ported]
    have known : (∃ addr, isLocal addr) ↔ addrs ≠ [] := by
      simp only [← members]
      constructor
      · rintro ⟨_, member⟩
        exact List.ne_nil_of_mem member
      · exact List.exists_mem_of_ne_nil addrs
    have unknown : (∀ addr, ¬ isLocal addr) ↔ addrs = [] := by
      rw [← not_exists, known, not_not]
    constructor
    case ported => exact fun always => absurd always ported
    case undirected =>
      rw [Option.some_inj, directionValue_eq_255, unknown, classified]
      simp [ported]
    all_goals
      simp only [ported, not_false_eq_true, forall_const, known, classified]
      simp only [← members]
      by_cases none : addrs = []
      · subst none
        simp [directionValue]
      · by_cases src : key.addrs.src ∈ addrs <;> by_cases dst : key.addrs.dst ∈ addrs <;>
          by_cases blank : key.addrs.src.IsUnspecified <;>
          simp [none, src, dst, blank, directionValue]

end Directions

/-! ## Every run -/

section Runs
variable {P : Type}

/-- The same event, but for the order in which the system lists the devices of a
receive, and the addresses of each. -/
inductive Relisted (interfaceName : String) (linkType : LinkType) :
    AgentEvent P → AgentEvent P → Prop where
  | packet (parsed : Option (ParsedPacket P)) (tsMs : U64) :
      Relisted interfaceName linkType (.packet parsed tsMs) (.packet parsed tsMs)
  | drain : Relisted interfaceName linkType .drain .drain
  | unlisted (receipt : Receipt P) (error : IoError) :
      receipt.addrs = interfaceAddresses interfaceName linkType (.error error) →
      Relisted interfaceName linkType (.receive receipt) (.receive receipt)
  | listed (receipt : Receipt P) (devices devices' : List Device) :
      receipt.addrs = interfaceAddresses interfaceName linkType (.ok devices) →
      SameListing devices devices' → (devices.map Device.name).Nodup →
      Relisted interfaceName linkType (.receive receipt)
        (.receive { receipt with
          addrs := interfaceAddresses interfaceName linkType (.ok devices') })

variable [DecidableEq P] [Protocol P]

theorem agentStep_relisted {interfaceName : String} {linkType : LinkType}
    {collector : SocketAddr} (agent : Agent P) (event event' : AgentEvent P) (next : Agent P)
    (relisted : Relisted interfaceName linkType event event')
    (step : AgentStep collector agent event next) : AgentStep collector agent event' next := by
  cases relisted with
  | packet parsed tsMs => exact step
  | drain => exact step
  | unlisted receipt error _ => exact step
  | listed receipt devices devices' addrs same distinct =>
      cases step with
      | receive map rest _ exporter result waiting enumerates flushed =>
          have members := mem_interfaceAddresses_iff interfaceName linkType same distinct
          rw [← addrs] at members
          have flows := exportFlows_congr members collector receipt.entries
          rw [Receipt.flows, ← flows] at flushed
          exact AgentStep.receive agent map rest { receipt with addrs := _ } exporter result waiting
            enumerates flushed

/-- The order in which the system lists the devices, which may change from flush
to flush, has no influence on a run, as long as a capture that is not cooked
finds its interface under one name only. -/
theorem device_order_does_not_matter (interfaceName : String) (linkType : LinkType)
    (collector : SocketAddr) (odid : U32) (events events' : List (AgentEvent P))
    (agent : Agent P)
    (run : Run (AgentStep collector) (Agent.start collector odid) events agent)
    (relisted : List.Forall₂ (Relisted interfaceName linkType) events events') :
    Run (AgentStep collector) (Agent.start collector odid) events' agent :=
  run.relabel (Relisted interfaceName linkType) agentStep_relisted relisted

/-- The direction of an exported flow is the one seen from the addresses. -/
theorem directed_of_exported {isLocal : IpAddr → Prop} {addrs : List IpAddr}
    (members : ∀ addr, addr ∈ addrs ↔ isLocal addr) {collector : SocketAddr}
    {entries : List (Flow P)} {flow : Flow P}
    (listed : flow ∈ exportFlows collector addrs entries) :
    Directed isLocal flow.1 ((collectorRecord flow).value 61) := by
  obtain ⟨⟨key, val⟩, _, rfl⟩ := List.mem_map.mp listed
  obtain ⟨_, _, _, _, _, _, _, _, direction⟩ := value_fields (key, val.withDirection key addrs)
  rw [direction]
  exact directed_of_members members key val

/-- The records of a flush are those of its flows, and the filter lets these
through. -/
theorem filtered_of_run {collector : SocketAddr} {odid : U32} {events : List (AgentEvent P)}
    {agent : Agent P}
    (run : Run (AgentStep collector) (Agent.start collector odid) events agent)
    {receipt : Receipt P} (flushed : receipt ∈ receipts events) :
    List.Forall₂ (fun flow record =>
      record = collectorRecord flow ∧ flow.1.isSelfExport collector = false)
      (wireOrder (receipt.flows collector)) receipt.records := by
  obtain ⟨before, next, step⟩ := flushStep_of_run run receipt flushed
  rw [records_of_flushStep step, List.forall₂_map_right_iff, List.forall₂_same]
  intro flow listed
  rw [(wireOrder_perm _).mem_iff] at listed
  obtain ⟨⟨key, val⟩, entry, rfl⟩ := List.mem_map.mp listed
  exact ⟨rfl, by simpa using (List.mem_filter.mp entry).2⟩

theorem directed_of_run {interfaceName : String} {linkType : LinkType} {collector : SocketAddr}
    {odid : U32} {events : List (AgentEvent P)} {agent : Agent P}
    (run : Run (AgentStep collector) (Agent.start collector odid) events agent)
    {receipt : Receipt P} (flushed : receipt ∈ receipts events)
    {list : Except IoError (List Device)}
    (snapshot : receipt.addrs = interfaceAddresses interfaceName linkType list) :
    List.Forall₂ (fun flow record =>
      Directed (IsLocal interfaceName linkType list) flow.1 (record.value 61))
      (wireOrder (receipt.flows collector)) receipt.records := by
  obtain ⟨before, next, step⟩ := flushStep_of_run run receipt flushed
  rw [records_of_flushStep step, List.forall₂_map_right_iff, List.forall₂_same]
  intro flow listed
  rw [(wireOrder_perm _).mem_iff, Receipt.flows, snapshot] at listed
  exact directed_of_exported (mem_interfaceAddresses interfaceName linkType list) listed

/-- In every run, for a flush whose addresses came from a device list: the records
are those of its flows, and the direction of each is what the list says of the
flow. -/
theorem direction_from_devices (interfaceName : String) (linkType : LinkType)
    (collector : SocketAddr) (odid : U32) (events : List (AgentEvent P)) (agent : Agent P)
    (run : Run (AgentStep collector) (Agent.start collector odid) events agent)
    (receipt : Receipt P) (flushed : receipt ∈ receipts events)
    (list : Except IoError (List Device))
    (snapshot : receipt.addrs = interfaceAddresses interfaceName linkType list) :
    List.Forall₂ (fun flow record => record = collectorRecord flow ∧
        flow.1.isSelfExport collector = false)
      (wireOrder (receipt.flows collector)) receipt.records ∧
    List.Forall₂ (fun flow record =>
        Directed (IsLocal interfaceName linkType list) flow.1 (record.value 61))
      (wireOrder (receipt.flows collector)) receipt.records :=
  ⟨filtered_of_run run flushed, directed_of_run run flushed snapshot⟩

/-- Two devices of the host `10.0.0.1`, and the first of them. -/
def sampleDevices : List Device :=
  [⟨"lo", [.v4 ⟨0x7F000001⟩]⟩, ⟨"eth0", [.v4 ⟨0x0A000001⟩]⟩]

theorem device_order_does_not_matter_sample :
    ∃ (receipt : Receipt SampleProtocol) (agent : Agent SampleProtocol),
      Run (AgentStep sampleCollector) (Agent.start sampleCollector 0)
        [.packet (some samplePacket) 0, .drain, .receive { receipt with
          addrs := interfaceAddresses "eth0" .other (.ok sampleDevices.reverse) }] agent := by
  obtain ⟨receipt, agent, run, addrs⟩ :=
    sample_run_with (interfaceAddresses "eth0" .other (.ok sampleDevices))
  have same : SameListing sampleDevices sampleDevices.reverse :=
    ⟨_, (List.reverse_perm _).symm, List.forall₂_same.mpr fun _ _ => ⟨rfl, .refl _⟩⟩
  exact ⟨receipt, agent, device_order_does_not_matter "eth0" .other sampleCollector 0 _ _ agent run
    (.cons (.packet _ _) (.cons .drain (.cons
      (.listed receipt sampleDevices sampleDevices.reverse addrs same (by decide)) .nil)))⟩

/-- A flow of the host. -/
theorem direction_from_devices_sample :
    ∃ (receipt : Receipt SampleProtocol) (agent : Agent SampleProtocol),
      Run (AgentStep sampleCollector) (Agent.start sampleCollector 0)
        [.packet (some samplePacket) 0, .drain, .receive receipt] agent ∧
      List.Forall₂ (fun flow record =>
          Directed (IsLocal "eth0" .other (.ok sampleDevices)) flow.1 (record.value 61))
        (wireOrder (receipt.flows sampleCollector)) receipt.records := by
  obtain ⟨receipt, agent, run, addrs⟩ :=
    sample_run_with (interfaceAddresses "eth0" .other (.ok sampleDevices))
  obtain ⟨_, directed⟩ := direction_from_devices "eth0" .other sampleCollector 0 _ agent run
    receipt (List.mem_singleton_self _) _ addrs
  exact ⟨receipt, agent, run, directed⟩

end Runs

end SniffnetAgent
