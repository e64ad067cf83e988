import SniffnetAgent.Interfaces
import SniffnetAgent.Lib.TypedNumber

/-!
# The configuration

`cli.rs`: what an option leaves open is asked on the terminal.  The results of
`read_line` are an argument, one for each call, as are the device list and the
resolver behind `to_socket_addrs`.  What is printed is left out, and so is the
option parser, which calls `parse_interface` and `parse_collector`.
-/

set_option autoImplicit false

namespace SniffnetAgent

open TypedNumber

/-- The calls of `read_line` that are still to come; at the end of the input a
line is empty. -/
abbrev Terminal := List (Except IoError (List Char))

/-- What becomes of a question. -/
inductive Asked (α : Type) where
  | answered (answer : α) (rest : Terminal)
  | exited (status : Nat)
  | panicked
  /-- The question is still open after all the lines. -/
  | waiting

inductive Reply (α : Type) where
  | accept (answer : α)
  | again
  | panic

/-- The loop of both prompts. -/
def ask {α : Type} (reply : List Char → Reply α) : Terminal → Asked α
  | [] => .waiting
  | .error _ :: _ => .exited 1
  | .ok line :: rest =>
      match reply line with
      | .accept answer => .answered answer rest
      | .again => ask reply rest
      | .panic => .panicked

/-- `require_tty`. -/
def requireTty {α : Type} (isTerminal : Bool) (question : Asked α) : Asked α :=
  if isTerminal then question else .exited 2

/-- One line at the prompt of `prompt_interface`; `usize` has `w` bits. -/
def interfaceReply (w : Nat) (devices : List Device) (line : List Char) : Reply Device :=
  match parse w (trim line) with
  | some n =>
      if 1 ≤ n ∧ n ≤ devices.length then
        match devices[n - 1]? with
        | some dev => .accept dev
        | none => .panic
      else .again
  | none => .again

def promptInterface (w : Nat) (isTerminal : Bool) (list : Except IoError (List Device))
    (terminal : Terminal) : Asked Device :=
  requireTty isTerminal
    (match list with
    | .error _ => .exited 1
    | .ok devices =>
        if devices.isEmpty then .exited 1
        else ask (interfaceReply w devices) terminal)

inductive InterfaceError where
  | notListed (error : IoError)
  | notFound (name : String)
  deriving DecidableEq, Repr

def parseInterface (name : String) (list : Except IoError (List Device)) :
    Except InterfaceError Device :=
  match list with
  | .error e => .error (.notListed e)
  | .ok devices =>
      match devices.find? fun dev => dev.name = name with
      | some dev => .ok dev
      | none => .error (.notFound name)

inductive CollectorError where
  | notResolved (address : List Char) (error : IoError)
  | noAddress (address : List Char)
  deriving DecidableEq, Repr

def parseCollector (toSocketAddrs : List Char → Except IoError (List SocketAddr))
    (address : List Char) : Except CollectorError SocketAddr :=
  match toSocketAddrs address with
  | .error e => .error (.notResolved address e)
  | .ok [] => .error (.noAddress address)
  | .ok (addr :: _) => .ok addr

def collectorReply (toSocketAddrs : List Char → Except IoError (List SocketAddr))
    (line : List Char) : Reply SocketAddr :=
  match parseCollector toSocketAddrs (trim line) with
  | .ok addr => .accept addr
  | .error _ => .again

def promptCollector (isTerminal : Bool)
    (toSocketAddrs : List Char → Except IoError (List SocketAddr)) (terminal : Terminal) :
    Asked SocketAddr :=
  requireTty isTerminal (ask (collectorReply toSocketAddrs) terminal)

structure Args where
  interface : Option Device
  collector : Option SocketAddr
  filter : Option (List Char)
  odid : U32
  verbose : Bool

structure Config where
  interface : Device
  collector : SocketAddr
  filter : Option (List Char)
  odid : U32
  verbose : Bool

def Asked.bind {α β : Type} (asked : Asked α) (next : α → Terminal → Asked β) : Asked β :=
  match asked with
  | .answered answer rest => next answer rest
  | .exited status => .exited status
  | .panicked => .panicked
  | .waiting => .waiting

/-- `unwrap_or_else`. -/
def orAsk {α : Type} (given : Option α) (prompt : Terminal → Asked α) (terminal : Terminal) :
    Asked α :=
  match given with
  | some answer => .answered answer terminal
  | none => prompt terminal

/-- The interface is asked for before the collector. -/
def Args.resolve (self : Args) (w : Nat) (isTerminal : Bool) (list : Except IoError (List Device))
    (toSocketAddrs : List Char → Except IoError (List SocketAddr)) (terminal : Terminal) :
    Asked Config :=
  (orAsk self.interface (promptInterface w isTerminal list) terminal).bind fun interface rest =>
    (orAsk self.collector (promptCollector isTerminal toSocketAddrs) rest).bind
      fun collector rest =>
        .answered ⟨interface, collector, self.filter, self.odid, self.verbose⟩ rest

/-! ## Asking -/

section Asking
variable {α : Type}

/-- The answer is that of the first line that gets one. -/
theorem ask_eq_answered {reply : List Char → Reply α} (sane : ∀ line, reply line ≠ .panic)
    {terminal rest : Terminal} {answer : α} :
    ask reply terminal = .answered answer rest ↔ ∃ (rejected : List (List Char)) (line : List Char),
      terminal = rejected.map .ok ++ .ok line :: rest ∧
        (∀ other ∈ rejected, reply other = .again) ∧ reply line = .accept answer := by
  induction terminal with
  | nil => simp [ask]
  | cons input terminal ih =>
      cases input with
      | error e =>
          simp only [ask, reduceCtorEq, false_iff]
          rintro ⟨rejected, line, shape, _⟩
          cases rejected <;> simp at shape
      | ok first =>
          rw [ask]
          cases said : reply first with
          | accept here =>
              simp only [Asked.answered.injEq]
              constructor
              · rintro ⟨rfl, rfl⟩
                exact ⟨[], first, rfl, by simp, said⟩
              · rintro ⟨rejected, line, shape, refused, accepted⟩
                cases rejected with
                | nil =>
                    obtain ⟨same, rfl⟩ := List.cons.inj shape
                    cases Except.ok.inj same
                    rw [said] at accepted
                    exact ⟨Reply.accept.inj accepted, rfl⟩
                | cons other rejected =>
                    obtain ⟨same, _⟩ := List.cons.inj shape
                    cases Except.ok.inj same
                    have again := refused first (List.mem_cons_self ..)
                    rw [said] at again
                    cases again
          | again =>
              simp only [ih]
              constructor
              · rintro ⟨rejected, line, rfl, refused, accepted⟩
                refine ⟨first :: rejected, line, rfl, ?_, accepted⟩
                exact List.forall_mem_cons.mpr ⟨said, refused⟩
              · rintro ⟨rejected, line, shape, refused, accepted⟩
                cases rejected with
                | nil =>
                    obtain ⟨same, _⟩ := List.cons.inj shape
                    cases Except.ok.inj same
                    rw [said] at accepted
                    cases accepted
                | cons other rejected =>
                    obtain ⟨_, tail⟩ := List.cons.inj shape
                    exact ⟨rejected, line, tail, (List.forall_mem_cons.mp refused).2, accepted⟩
          | panic => exact absurd said (sane first)

theorem ask_ne_panicked {reply : List Char → Reply α} (sane : ∀ line, reply line ≠ .panic)
    (terminal : Terminal) : ask reply terminal ≠ .panicked := by
  induction terminal with
  | nil => simp [ask]
  | cons input terminal ih =>
      cases input with
      | error e => simp [ask]
      | ok line =>
          rw [ask]
          cases said : reply line with
          | accept answer => simp
          | again => exact ih
          | panic => exact absurd said (sane line)

end Asking

/-! ## The interface prompt -/

section Interface
variable {w : Nat} {devices : List Device}

/-- The number that a line denotes, less one, is the position of the device. -/
theorem interfaceReply_eq_accept {line : List Char} {dev : Device} :
    interfaceReply w devices line = .accept dev ↔
      ∃ i, Denotes w line (i + 1) ∧ devices[i]? = some dev := by
  simp only [← parse_trim_iff]
  rw [interfaceReply]
  cases parse w (trim line) with
  | none => simp
  | some n =>
      simp only [Option.some_inj]
      constructor
      · intro accepted
        split at accepted
        · rename_i inRange
          cases found : devices[n - 1]? with
          | none =>
              rw [found] at accepted
              cases accepted
          | some other =>
              rw [found] at accepted
              cases accepted
              exact ⟨n - 1, by omega, found⟩
        · cases accepted
      · rintro ⟨i, rfl, found⟩
        obtain ⟨bound, _⟩ := List.getElem?_eq_some_iff.mp found
        rw [if_pos (by omega), Nat.add_sub_cancel, found]

theorem interfaceReply_ne_panic (line : List Char) : interfaceReply w devices line ≠ .panic := by
  rw [interfaceReply]
  cases parse w (trim line) with
  | none => simp
  | some n =>
      simp only
      split
      · have bound : n - 1 < devices.length := by omega
        rw [List.getElem?_eq_getElem bound]
        simp
      · simp

theorem interfaceReply_eq_again {line : List Char} :
    interfaceReply w devices line = .again ↔
      ∀ i < devices.length, ¬ Denotes w line (i + 1) := by
  constructor
  · intro again i bound denotes
    have accepted : interfaceReply w devices line = .accept devices[i] :=
      interfaceReply_eq_accept.mpr ⟨i, denotes, List.getElem?_eq_getElem bound⟩
    rw [again] at accepted
    cases accepted
  · intro none
    cases said : interfaceReply w devices line with
    | accept dev =>
        obtain ⟨i, denotes, found⟩ := interfaceReply_eq_accept.mp said
        obtain ⟨bound, _⟩ := List.getElem?_eq_some_iff.mp found
        exact absurd denotes (none i bound)
    | again => rfl
    | panic => exact absurd said (interfaceReply_ne_panic line)

theorem promptInterface_ok (listed : devices ≠ []) (terminal : Terminal) :
    promptInterface w true (.ok devices) terminal =
      ask (interfaceReply w devices) terminal := by
  rw [promptInterface, requireTty, if_pos rfl]
  exact if_neg (by simpa using listed)

/-- At the prompt, the first line that denotes the number of a listed device
chooses that device, every line before it is asked again, and no line makes the
agent panic.  Each device can be chosen by its number as it was printed. -/
theorem prompt_interface_chooses (w : Nat) (devices : List Device) (terminal : Terminal) :
    (∀ dev rest, promptInterface w true (.ok devices) terminal = .answered dev rest ↔
      ∃ (rejected : List (List Char)) (line : List Char) (i : Nat),
        terminal = rejected.map .ok ++ .ok line :: rest ∧
        (∀ other ∈ rejected, ∀ j < devices.length, ¬ Denotes w other (j + 1)) ∧
        Denotes w line (i + 1) ∧ devices[i]? = some dev) ∧
    promptInterface w true (.ok devices) terminal ≠ .panicked ∧
    ∀ i dev, devices[i]? = some dev → i + 1 < 2 ^ w →
      promptInterface w true (.ok devices)
        (.ok (Nat.toDigits 10 (i + 1) ++ ['\n']) :: terminal) = .answered dev terminal := by
  have sane : ∀ line, interfaceReply w devices line ≠ .panic := interfaceReply_ne_panic
  cases devices with
  -- without devices the agent exits before it asks
  | nil => simp [promptInterface, requireTty]
  | cons first others =>
      have prompt := promptInterface_ok (w := w) (List.cons_ne_nil first others)
      refine ⟨?_, ?_, ?_⟩
      · intro dev rest
        rw [prompt, ask_eq_answered sane]
        simp only [interfaceReply_eq_accept, interfaceReply_eq_again]
        constructor
        · rintro ⟨rejected, line, shape, refused, i, denotes, found⟩
          exact ⟨rejected, line, i, shape, refused, denotes, found⟩
        · rintro ⟨rejected, line, i, shape, refused, denotes, found⟩
          exact ⟨rejected, line, shape, refused, i, denotes, found⟩
      · rw [prompt]
        exact ask_ne_panicked sane terminal
      · intro i dev found fits
        rw [prompt, ask_eq_answered sane]
        exact ⟨[], _, rfl, by simp, interfaceReply_eq_accept.mpr ⟨i, denotes_printed fits, found⟩⟩

/-- The second of two devices. -/
theorem prompt_interface_chooses_second :
    promptInterface 64 true (.ok sampleDevices) [.ok ['2', '\n']] =
      .answered ⟨"eth0", [.v4 ⟨0x0A000001⟩]⟩ [] :=
  (prompt_interface_chooses 64 sampleDevices []).2.2 1 _ rfl (by decide)

end Interface

/-! ## The configuration and the device list -/

section Resolving

theorem find?_of_parseInterface {name : String} {devices : List Device} {dev : Device}
    (parsed : parseInterface name (.ok devices) = .ok dev) :
    devices.find? (fun dev => dev.name = name) = some dev := by
  simp only [parseInterface] at parsed
  cases found : devices.find? fun dev => dev.name = name with
  | none =>
      rw [found] at parsed
      cases parsed
  | some other =>
      rw [found] at parsed
      cases parsed
      rfl

theorem mem_of_parseInterface {name : String} {devices : List Device} {dev : Device}
    (parsed : parseInterface name (.ok devices) = .ok dev) : dev ∈ devices :=
  List.mem_of_find?_eq_some (find?_of_parseInterface parsed)

theorem name_of_parseInterface {name : String} {devices : List Device} {dev : Device}
    (parsed : parseInterface name (.ok devices) = .ok dev) : dev.name = name := by
  simpa using List.find?_some (find?_of_parseInterface parsed)

theorem promptInterface_eq_answered {w : Nat} {isTerminal : Bool} {devices : List Device}
    {terminal rest : Terminal} {dev : Device}
    (chosen : promptInterface w isTerminal (.ok devices) terminal = .answered dev rest) :
    isTerminal = true ∧ dev ∈ devices := by
  rw [promptInterface, requireTty] at chosen
  split at chosen
  · rename_i tty
    refine ⟨tty, ?_⟩
    split at chosen
    · cases chosen
    · obtain ⟨_, line, _, _, accepted⟩ := (ask_eq_answered interfaceReply_ne_panic).mp chosen
      obtain ⟨i, _, found⟩ := interfaceReply_eq_accept.mp accepted
      exact List.mem_of_getElem? found
  · cases chosen

theorem promptCollector_eq_answered {isTerminal : Bool}
    {toSocketAddrs : List Char → Except IoError (List SocketAddr)} {terminal rest : Terminal}
    {addr : SocketAddr}
    (chosen : promptCollector isTerminal toSocketAddrs terminal = .answered addr rest) :
    isTerminal = true ∧ ∃ line, parseCollector toSocketAddrs (trim line) = .ok addr := by
  rw [promptCollector, requireTty] at chosen
  split at chosen
  · rename_i tty
    have sane : ∀ line, collectorReply toSocketAddrs line ≠ .panic := by
      intro line
      rw [collectorReply]
      cases parseCollector toSocketAddrs (trim line) <;> simp
    obtain ⟨_, line, _, _, accepted⟩ := (ask_eq_answered sane).mp chosen
    refine ⟨tty, line, ?_⟩
    rw [collectorReply] at accepted
    cases parsed : parseCollector toSocketAddrs (trim line) with
    | error e =>
        rw [parsed] at accepted
        cases accepted
    | ok other =>
        rw [parsed] at accepted
        cases accepted
        rfl
  · cases chosen

theorem Asked.bind_eq_answered {α β : Type} {asked : Asked α} {next : α → Terminal → Asked β}
    {result : β} {rest : Terminal} (answered : asked.bind next = .answered result rest) :
    ∃ answer left, asked = .answered answer left ∧ next answer left = .answered result rest := by
  cases asked with
  | answered answer left => exact ⟨answer, left, rfl, answered⟩
  | exited status => cases answered
  | panicked => cases answered
  | waiting => cases answered

/-- An answer is the one that was given, or one of the prompt. -/
theorem orAsk_eq_answered {α : Type} {given : Option α} {prompt : Terminal → Asked α}
    {terminal rest : Terminal} {answer : α}
    (answered : orAsk given prompt terminal = .answered answer rest) :
    given = some answer ∨ given = none ∧ prompt terminal = .answered answer rest := by
  cases given with
  | some other =>
      cases answered
      exact Or.inl rfl
  | none => exact Or.inr ⟨rfl, answered⟩

/-- Where the parts of a configuration come from: an option, or a prompt, which
needs a terminal. -/
theorem resolve_eq_answered {args : Args} {w : Nat} {isTerminal : Bool} {devices : List Device}
    {toSocketAddrs : List Char → Except IoError (List SocketAddr)} {terminal rest : Terminal}
    {config : Config}
    (resolved : args.resolve w isTerminal (.ok devices) toSocketAddrs terminal =
      .answered config rest) :
    (args.interface = some config.interface ∨
      args.interface = none ∧ isTerminal = true ∧ config.interface ∈ devices) ∧
    (args.collector = some config.collector ∨ args.collector = none ∧ isTerminal = true ∧
      ∃ line, parseCollector toSocketAddrs (trim line) = .ok config.collector) ∧
    config.filter = args.filter ∧ config.odid = args.odid ∧ config.verbose = args.verbose := by
  obtain ⟨interface, afterInterface, chosen, resolved⟩ := Asked.bind_eq_answered resolved
  obtain ⟨collector, afterCollector, connected, resolved⟩ := Asked.bind_eq_answered resolved
  cases resolved
  refine ⟨?_, ?_, rfl, rfl, rfl⟩
  · rcases orAsk_eq_answered chosen with given | ⟨absent, prompted⟩
    · exact Or.inl given
    · exact Or.inr ⟨absent, promptInterface_eq_answered prompted⟩
  · rcases orAsk_eq_answered connected with given | ⟨absent, prompted⟩
    · exact Or.inl given
    · exact Or.inr ⟨absent, promptCollector_eq_answered prompted⟩

end Resolving

end SniffnetAgent
