import SniffnetAgent.Cli
import SniffnetAgent.Header

/-!
# From the command line to the wire

`main` of `main.rs` up to its loop, with `open` of `capture.rs`: the options are
parsed, what they leave open is asked, the socket and the capture are opened and
the capture thread is spawned.  The system calls and the capture library are
arguments; what goes to the log is left out.
-/

set_option autoImplicit false

namespace SniffnetAgent

open TypedNumber CheckedArith LabelledRun Ipfix Collector

/-! ## Opening the capture -/

structure CaptureSettings where
  promisc : Bool
  bufferSize : Nat
  snaplen : Nat
  immediateMode : Bool
  timeout : Nat
  deriving DecidableEq, Repr

/-- The capture library: `I` is an inactive capture, `A` an active one.  The flag of
`filter` asks for an optimised program. -/
structure Pcap (I A : Type) where
  fromDevice : Device → Except IoError I
  activate : CaptureSettings → I → Except IoError A
  filter : A → List Char → Bool → Except IoError A
  linkType : A → LinkType

/-- The expression that is compiled, if any. -/
def captureFilter (filter : Option (List Char)) : Option (List Char) :=
  (filter.map trim).filter fun expr => !expr.isEmpty

section Opening
variable {I A : Type}

def openCapture (pcap : Pcap I A) (cfg : Config) : Except IoError A := do
  let inactive ← pcap.fromDevice cfg.interface
  let cap ← pcap.activate ⟨false, 2000000, 200, false, 150⟩ inactive
  match captureFilter cfg.filter with
  | some expr => pcap.filter cap expr true
  | none => return cap

/-- `open`: an unsupported link type is only logged. -/
def openLinked (pcap : Pcap I A) (cfg : Config) : Except IoError (A × LinkType) := do
  let cap ← openCapture pcap cfg
  return (cap, pcap.linkType cap)

end Opening

/-- Without an expression, or with a blank one, everything is captured. -/
theorem captureFilter_eq_none (filter : Option (List Char)) :
    captureFilter filter = none ↔
      ∀ text, filter = some text → ∀ c ∈ text, isWhitespace c = true := by
  cases filter with
  | none => simp [captureFilter]
  | some text =>
      simp [captureFilter, Option.filter_eq_none_iff, trim_eq_nil_iff]

/-! ## Starting -/

/-- The options as they are typed. -/
structure CommandLine where
  interface : Option String
  collector : Option (List Char)
  filter : Option (List Char)
  odid : U32
  verbose : Bool

/-- The option parser runs the value parser and exits with 2 when it refuses. -/
def parseOption {α β ε : Type} (valueParser : α → Except ε β) :
    Option α → Except Nat (Option β)
  | none => .ok none
  | some value =>
      match valueParser value with
      | .ok parsed => .ok (some parsed)
      | .error _ => .error 2

/-- The system that the program is started on. -/
structure Host (I A : Type) where
  isTerminal : Bool
  terminal : Terminal
  list : Except IoError (List Device)
  toSocketAddrs : List Char → Except IoError (List SocketAddr)
  bind : SocketAddr → Except IoError Unit
  connect : SocketAddr → Except IoError Unit
  pcap : Pcap I A
  spawn : Except IoError Unit
  /-- The first clock reading of the capture thread. -/
  started : Nat

section Starting
variable {P I A : Type}

/-- `Args::parse`. -/
def CommandLine.parse (self : CommandLine) (host : Host I A) : Except Nat Args := do
  let interface ← parseOption (parseInterface · host.list) self.interface
  let collector ← parseOption (parseCollector host.toSocketAddrs) self.collector
  return ⟨interface, collector, self.filter, self.odid, self.verbose⟩

/-- Where `main` is after everything before its loop. -/
inductive Started (P : Type) where
  | running (cfg : Config) (linkType : LinkType) (process : Process P)
  | exited (status : Nat)
  | panicked
  /-- A question is still open. -/
  | asking

def main (line : CommandLine) (w : Nat) (host : Host I A) : Started P :=
  match line.parse host with
  | .error status => .exited status
  | .ok args =>
      match args.resolve w host.isTerminal host.list host.toSocketAddrs host.terminal with
      | .exited status => .exited status
      | .panicked => .panicked
      | .waiting => .asking
      | .answered cfg _ =>
          match Exporter.connect cfg.collector cfg.odid (host.bind (bindAddr cfg.collector))
              (host.connect cfg.collector) with
          | .error _ => .exited 1
          | .ok exporter =>
              match openLinked host.pcap cfg with
              | .error _ => .exited 1
              | .ok (_, linkType) =>
                  match host.spawn with
                  | .error _ => .exited 1
                  | .ok _ =>
                      .running cfg linkType
                        ⟨CaptureThread.spawned host.started, [], exporter, true⟩

/-- An option that was given went through its parser; the other is asked. -/
theorem given_or_asked {α β ε : Type} {valueParser : α → Except ε β} {given : Option α}
    {result : Option β} {answer : β} {prompted : Prop}
    (parsed : parseOption valueParser given = .ok result)
    (source : result = some answer ∨ result = none ∧ prompted) :
    (∃ value, given = some value ∧ valueParser value = .ok answer) ∨ given = none ∧ prompted := by
  cases given with
  | none =>
      cases parsed
      rcases source with absent | ⟨_, asked⟩
      · cases absent
      · exact Or.inr ⟨rfl, asked⟩
  | some value =>
      rw [parseOption] at parsed
      cases found : valueParser value with
      | error e =>
          rw [found] at parsed
          cases parsed
      | ok answer' =>
          rw [found] at parsed
          cases parsed
          rcases source with same | ⟨absent, _⟩
          · exact Or.inl ⟨value, rfl, Option.some.inj same ▸ found⟩
          · cases absent

theorem parse_eq_ok {line : CommandLine} {host : Host I A} {args : Args}
    (parsed : line.parse host = .ok args) :
    parseOption (parseInterface · host.list) line.interface = .ok args.interface ∧
      parseOption (parseCollector host.toSocketAddrs) line.collector = .ok args.collector ∧
      args.filter = line.filter ∧ args.odid = line.odid ∧ args.verbose = line.verbose := by
  rw [CommandLine.parse] at parsed
  cases first : parseOption (parseInterface · host.list) line.interface with
  | error status =>
      rw [first] at parsed
      cases parsed
  | ok interface =>
      cases second : parseOption (parseCollector host.toSocketAddrs) line.collector with
      | error status =>
          rw [first, second] at parsed
          cases parsed
      | ok collector =>
          rw [first, second] at parsed
          cases parsed
          exact ⟨rfl, rfl, rfl, rfl, rfl⟩

/-- The configuration that `main` gets out of the options and the prompts. -/
structure Configured (line : CommandLine) (host : Host I A) (devices : List Device)
    (cfg : Config) : Prop where
  interface : cfg.interface ∈ devices
  named : ∀ name, line.interface = some name → cfg.interface.name = name
  collector : ∃ address, parseCollector host.toSocketAddrs address = .ok cfg.collector ∧
    ∀ given, line.collector = some given → address = given
  terminal : host.isTerminal = false → line.interface.isSome ∧ line.collector.isSome
  rest : cfg.filter = line.filter ∧ cfg.odid = line.odid ∧ cfg.verbose = line.verbose

theorem configured_of_resolve {line : CommandLine} {w : Nat} {host : Host I A}
    {devices : List Device} (listed : host.list = .ok devices) {args : Args}
    (parsed : line.parse host = .ok args) {cfg : Config} {rest : Terminal}
    (resolved : args.resolve w host.isTerminal host.list host.toSocketAddrs host.terminal =
      .answered cfg rest) : Configured line host devices cfg := by
  obtain ⟨interface, collector, filter, odid, verbose⟩ := parse_eq_ok parsed
  rw [listed] at interface resolved
  obtain ⟨fromInterface, fromCollector, filter', odid', verbose'⟩ := resolve_eq_answered resolved
  have chosen := given_or_asked interface fromInterface
  have connected := given_or_asked collector fromCollector
  constructor
  case interface =>
    rcases chosen with ⟨name, _, found⟩ | ⟨_, _, member⟩
    · exact mem_of_parseInterface found
    · exact member
  case named =>
    intro name given
    rcases chosen with ⟨name', given', found⟩ | ⟨absent, _⟩
    · obtain rfl := Option.some.inj (given.symm.trans given')
      exact name_of_parseInterface found
    · rw [given] at absent
      cases absent
  case collector =>
    rcases connected with ⟨address, given', found⟩ | ⟨absent, _, typed, found⟩
    · exact ⟨address, found, fun given same => Option.some.inj (given'.symm.trans same)⟩
    · refine ⟨trim typed, found, ?_⟩
      intro given same
      rw [same] at absent
      cases absent
  case terminal =>
    intro piped
    constructor
    · rcases chosen with ⟨name, given, _⟩ | ⟨_, tty, _⟩
      · rw [given]
        rfl
      · exact absurd (tty.symm.trans piped) Bool.noConfusion
    · rcases connected with ⟨address, given, _⟩ | ⟨_, tty, _⟩
      · rw [given]
        rfl
      · exact absurd (tty.symm.trans piped) Bool.noConfusion
  case rest => exact ⟨filter'.trans filter, odid'.trans odid, verbose'.trans verbose⟩

/-- `main` reaches its loop with the process at its start. -/
theorem main_eq_running {line : CommandLine} {w : Nat} {host : Host I A} {cfg : Config}
    {linkType : LinkType} {process : Process P}
    (launched : main line w host = .running cfg linkType process) :
    (∃ args rest, line.parse host = .ok args ∧
      args.resolve w host.isTerminal host.list host.toSocketAddrs host.terminal =
        .answered cfg rest) ∧
    (∃ cap, openLinked host.pcap cfg = .ok (cap, linkType)) ∧
    process = Process.start cfg.collector cfg.odid host.started := by
  rw [main] at launched
  split at launched
  · cases launched
  · rename_i args parsed
    split at launched
    · cases launched
    · cases launched
    · cases launched
    · rename_i cfg' rest resolved
      split at launched
      · cases launched
      · rename_i exporter connected
        split at launched
        · cases launched
        · rename_i cap linkType' opened
          split at launched
          · cases launched
          · cases launched
            rw [fresh_of_connect connected]
            exact ⟨⟨args, rest, parsed, resolved⟩, ⟨cap, opened⟩, rfl⟩

end Starting

/-! ## Running -/

/-- The addresses that count as the host's own: those of the interface, or those of
every device in a cooked capture. -/
def Config.IsOwn (cfg : Config) (linkType : LinkType) (devices : List Device) (addr : IpAddr) :
    Prop :=
  if linkType.isSll then ∃ dev ∈ devices, addr ∈ dev.addresses
  else addr ∈ cfg.interface.addresses

theorem isLocal_iff_isOwn {cfg : Config} {devices : List Device}
    (distinct : (devices.map Device.name).Nodup) (listed : cfg.interface ∈ devices)
    (linkType : LinkType) (addr : IpAddr) :
    IsLocal cfg.interface.name linkType (.ok devices) addr ↔
      cfg.IsOwn linkType devices addr := by
  simp only [IsLocal, Except.ok.injEq, exists_eq_left', Listens, Config.IsOwn]
  cases linkType.isSll with
  | true => rfl
  | false =>
      simp only [Bool.false_eq_true, if_false, (find?_named_iff distinct cfg.interface).mpr
        ⟨listed, rfl⟩, Option.some.injEq, exists_eq_left']

section Running
variable {P I A : Type} [DecidableEq P] [Protocol P]

/-- What the options make of a flush.  A record is looked at beside the flow of which
it is the record. -/
structure AsConfigured (cfg : Config) (linkType : LinkType) (devices : List Device)
    (receipt : Receipt P) : Prop where
  stamped : receipt.Stamped cfg.odid
  filtered : List.Forall₂ (fun flow record =>
    record = collectorRecord flow ∧ flow.1.isSelfExport cfg.collector = false)
    (wireOrder (receipt.flows cfg.collector)) receipt.records
  directed : (devices.map Device.name).Nodup →
    receipt.addrs = interfaceAddresses cfg.interface.name linkType (.ok devices) →
    List.Forall₂ (fun flow record =>
      Directed (cfg.IsOwn linkType devices) flow.1 (record.value 61))
      (wireOrder (receipt.flows cfg.collector)) receipt.records

/-- From the command line to the wire.  Whatever was given and whatever had to be
asked: when `main` reaches its loop, the configuration is what was given and asked
for, and in every run from there the socket is the one connected to its collector,
the datagrams carry its domain, and every record is of a flow that the filter for
the agent's own exports lets through.  As long as the devices stay as they are,
under distinct names, the directions are those seen from its interface. -/
theorem options_reach_wire (line : CommandLine) (w : Nat) (host : Host I A)
    (devices : List Device) (listed : host.list = .ok devices) (cfg : Config)
    (linkType : LinkType) (start : Process P)
    (launched : main line w host = .running cfg linkType start)
    (overflowChecks : Bool) (history : List (ProcessEvent P)) (process : Process P)
    (run : Run (ProcessStep cfg.collector overflowChecks) start history process) :
    Configured line host devices cfg ∧ process.exporter.sock.peer = cfg.collector ∧
      ∀ receipt ∈ receipts (history.flatMap (ProcessEvent.agentEvents overflowChecks)),
        AsConfigured cfg linkType devices receipt := by
  obtain ⟨⟨args, rest, parsed, resolved⟩, _, rfl⟩ := main_eq_running launched
  have configured := configured_of_resolve listed parsed resolved
  have agentRun := agent_run_of_process_run run
  obtain ⟨sock, stamped⟩ := stamped_of_run agentRun
  refine ⟨configured, congrArg UdpSocket.peer sock, ?_⟩
  intro receipt member
  refine ⟨stamped receipt member, filtered_of_run agentRun member, ?_⟩
  intro distinct snapshot
  have own : IsLocal cfg.interface.name linkType (.ok devices) = cfg.IsOwn linkType devices :=
    funext fun addr => propext (isLocal_iff_isOwn distinct configured.interface linkType addr)
  have directed := directed_of_run agentRun member snapshot
  rwa [own] at directed

/-- Both options are asked, and every call of the system succeeds. -/
def sampleHost : Host Unit Unit where
  isTerminal := true
  terminal := [.ok ['2', '\n'], .ok ['l', 'o', '\n']]
  list := .ok sampleDevices
  toSocketAddrs := fun _ => .ok [sampleCollector]
  bind := fun _ => .ok ()
  connect := fun _ => .ok ()
  pcap := ⟨fun _ => .ok (), fun _ _ => .ok (), fun _ _ _ => .ok (), fun _ => .other⟩
  spawn := .ok ()
  started := 0

theorem options_reach_wire_typed :
    ∃ (history : List (ProcessEvent SampleProtocol)) (process : Process SampleProtocol)
        (receipt : Receipt SampleProtocol),
      Run (ProcessStep sampleCollector true) (Process.start sampleCollector 0 0) history process ∧
      history.flatMap (ProcessEvent.agentEvents true) =
        [.packet (some samplePacket) 0, .drain, .receive receipt] ∧
      receipt.addrs = [.v4 ⟨0x0A000001⟩] ∧
      AsConfigured ⟨⟨"eth0", [.v4 ⟨0x0A000001⟩]⟩, sampleCollector, none, 0, false⟩ .other
        sampleDevices receipt := by
  obtain ⟨receipt, agent, agentRun, addrs⟩ := sample_run_with [.v4 ⟨0x0A000001⟩]
  obtain ⟨history, process, run, seen, _⟩ := process_run_of_agent_run 0 true agentRun
  have launched : main ⟨none, none, none, 0, false⟩ 64 sampleHost =
      .running ⟨⟨"eth0", [.v4 ⟨0x0A000001⟩]⟩, sampleCollector, none, 0, false⟩ .other
        (Process.start (P := SampleProtocol) sampleCollector 0 0) := rfl
  obtain ⟨_, _, configured⟩ := options_reach_wire ⟨none, none, none, 0, false⟩ 64 sampleHost
    sampleDevices rfl _ _ _ launched true history process run
  rw [seen] at configured
  exact ⟨history, process, receipt, run, seen, addrs,
    configured receipt (List.mem_singleton_self receipt)⟩

end Running

end SniffnetAgent
