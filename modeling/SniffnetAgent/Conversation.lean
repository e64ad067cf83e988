import SniffnetAgent.Flow

/-!
# The two directions of a conversation

A conversation is two flows, each the reverse of the other.  They are classified
separately, against the same interface addresses; what follows says when the two
results tell them apart.
-/

set_option autoImplicit false

namespace SniffnetAgent

def FlowAddrs.reverse : FlowAddrs → FlowAddrs
  | .v4 src dst => .v4 dst src
  | .v6 src dst => .v6 dst src

def FlowDirection.opposite : FlowDirection → FlowDirection
  | .incoming => .outgoing
  | .outgoing => .incoming

/-- `0.0.0.0` or `::`. -/
def IpAddr.IsUnspecified (ip : IpAddr) : Prop := ip = .v4 .unspecified ∨ ip = .v6 .unspecified

instance (ip : IpAddr) : Decidable ip.IsUnspecified :=
  inferInstanceAs (Decidable (_ ∨ _))

def Opposite (forward backward : Option FlowDirection) : Prop :=
  ∃ direction, forward = some direction ∧ backward = some direction.opposite

def Agree (forward backward : Option FlowDirection) : Prop :=
  ∃ direction, forward = some direction ∧ backward = some direction

/-- Exactly one end is an interface address, or neither is and exactly one is
unspecified. -/
def AddressesDiffer (src dst : IpAddr) (addrs : List IpAddr) : Prop :=
  Xor (src ∈ addrs) (dst ∈ addrs) ∨
    (src ∉ addrs ∧ dst ∉ addrs ∧ Xor src.IsUnspecified dst.IsUnspecified)

section Conversations
variable {P : Type}

def FlowKey.reverse (key : FlowKey P) : FlowKey P :=
  { key with addrs := key.addrs.reverse, srcPort := key.dstPort, dstPort := key.srcPort }

/-- Both addresses are loopback and both ports are known. -/
def FlowKey.PortedLoopback (key : FlowKey P) : Prop :=
  (key.addrs.src.isLoopback ∧ key.addrs.dst.isLoopback) ∧ key.srcPort.isSome ∧ key.dstPort.isSome

/-- What tells a flow from its reverse: the ports of a loopback conversation, the
addresses of any other. -/
def FlowKey.ToldApart (key : FlowKey P) (addrs : List IpAddr) : Prop :=
  (key.PortedLoopback ∧ key.srcPort ≠ key.dstPort) ∨
    (¬ key.PortedLoopback ∧ addrs ≠ [] ∧ AddressesDiffer key.addrs.src key.addrs.dst addrs)

theorem src_reverse (addrs : FlowAddrs) : addrs.reverse.src = addrs.dst := by
  cases addrs <;> rfl

theorem dst_reverse (addrs : FlowAddrs) : addrs.reverse.dst = addrs.src := by
  cases addrs <;> rfl

theorem portedLoopback_reverse (key : FlowKey P) :
    key.reverse.PortedLoopback ↔ key.PortedLoopback := by
  simp only [FlowKey.PortedLoopback, FlowKey.reverse, src_reverse, dst_reverse]
  rw [and_comm (a := key.addrs.dst.isLoopback), and_comm (a := key.dstPort.isSome)]

/-- The ports decide between two loopback addresses. -/
theorem getDirection_ported {src dst : IpAddr} (loopback : src.isLoopback ∧ dst.isLoopback)
    (sport dport : U16) (addrs : List IpAddr) :
    getDirection src dst (some sport) (some dport) addrs =
      some (if dport < sport then .outgoing else .incoming) := by
  rw [getDirection, loopback.1, loopback.2]
  rfl

/-- The interface addresses decide otherwise. -/
def classified (src dst : IpAddr) (addrs : List IpAddr) : Option FlowDirection :=
  if addrs = [] then none
  else some (
    if src ∈ addrs then .outgoing
    else if ¬ src.IsUnspecified then .incoming
    else if dst ∉ addrs then .outgoing
    else .incoming)

theorem getDirection_unported {src dst : IpAddr} {srcPort dstPort : Option U16}
    (unported : ¬ ((src.isLoopback ∧ dst.isLoopback) ∧ srcPort.isSome ∧ dstPort.isSome))
    (addrs : List IpAddr) :
    getDirection src dst srcPort dstPort addrs = classified src dst addrs := by
  have noPorts : (if src.isLoopback && dst.isLoopback then zipPorts srcPort dstPort else none) =
      none := by
    split
    · rename_i loopback
      rw [Bool.and_eq_true] at loopback
      cases srcPort with
      | none => rfl
      | some sport =>
          cases dstPort with
          | none => rfl
          | some dport => exact absurd ⟨loopback, rfl, rfl⟩ unported
    · rfl
  have isLocal : ∀ ip : IpAddr, (addrs.any fun a => a == ip) = decide (ip ∈ addrs) := by
    intro ip
    rw [List.any_beq', List.contains_eq_mem]
  rw [getDirection, noPorts]
  simp only [isLocal, List.isEmpty_iff, decide_eq_true_eq, Bool.and_eq_true, bne_iff_ne, ne_eq,
    Bool.not_eq_true', decide_eq_false_iff_not, classified, IpAddr.IsUnspecified, not_or]

/-- Two classifications that differ or agree as `apart` says. -/
theorem opposite_and_agree {forward backward : Option FlowDirection} {apart : Prop}
    (opposite : apart → Opposite forward backward) (agree : ¬ apart → Agree forward backward) :
    (Opposite forward backward ↔ apart) ∧ (Agree forward backward ↔ ¬ apart) := by
  have exclusive : Opposite forward backward → ¬ Agree forward backward := by
    rintro ⟨direction, rfl, rfl⟩ ⟨other, same, same'⟩
    cases direction <;> cases other <;> simp [FlowDirection.opposite] at same same'
  by_cases decided : apart
  · have differ := opposite decided
    exact ⟨⟨fun _ => decided, fun _ => differ⟩, ⟨fun same => absurd same (exclusive differ),
      fun undecided => absurd decided undecided⟩⟩
  · have same := agree decided
    exact ⟨⟨fun differ => absurd same (exclusive differ), fun other => absurd other decided⟩,
      ⟨fun _ => decided, fun _ => same⟩⟩

theorem ports_reverse (sport dport : U16) :
    let forward := some (if dport < sport then FlowDirection.outgoing else .incoming)
    let backward := some (if sport < dport then FlowDirection.outgoing else .incoming)
    (Opposite forward backward ↔ sport ≠ dport) ∧ (Agree forward backward ↔ ¬ sport ≠ dport) := by
  apply opposite_and_agree
  · intro differ
    rcases BitVec.lt_trichotomy sport dport with less | same | more
    · exact ⟨.incoming, by rw [if_neg (BitVec.lt_asymm less)], by rw [if_pos less]; rfl⟩
    · exact absurd same differ
    · exact ⟨.outgoing, by rw [if_pos more], by rw [if_neg (BitVec.lt_asymm more)]; rfl⟩
  · intro same
    have equal : sport = dport := Decidable.not_not.mp same
    subst equal
    exact ⟨_, rfl, rfl⟩

theorem classified_reverse (src dst : IpAddr) {addrs : List IpAddr} (known : addrs ≠ []) :
    (Opposite (classified src dst addrs) (classified dst src addrs) ↔
        AddressesDiffer src dst addrs) ∧
      (Agree (classified src dst addrs) (classified dst src addrs) ↔
        ¬ AddressesDiffer src dst addrs) := by
  simp only [classified, if_neg known, Opposite, Agree, AddressesDiffer, Xor]
  by_cases srcLocal : src ∈ addrs
  · by_cases dstLocal : dst ∈ addrs <;> simp [srcLocal, dstLocal, FlowDirection.opposite]
  · by_cases dstLocal : dst ∈ addrs
    · simp [srcLocal, dstLocal, FlowDirection.opposite]
    · by_cases srcNone : src.IsUnspecified <;> by_cases dstNone : dst.IsUnspecified <;>
        simp [srcLocal, dstLocal, srcNone, dstNone, FlowDirection.opposite]

/-! ## A flow and its reverse -/

theorem direction_ported {key : FlowKey P} (ported : key.PortedLoopback) {sport dport : U16}
    (srcIs : key.srcPort = some sport) (dstIs : key.dstPort = some dport) (val : FlowVal)
    (addrs : List IpAddr) :
    (val.withDirection key addrs).direction =
      some (if dport < sport then .outgoing else .incoming) := by
  rw [FlowVal.withDirection, srcIs, dstIs]
  exact getDirection_ported ported.1 sport dport addrs

theorem direction_unported {key : FlowKey P} (unported : ¬ key.PortedLoopback) (val : FlowVal)
    (addrs : List IpAddr) :
    (val.withDirection key addrs).direction = classified key.addrs.src key.addrs.dst addrs :=
  getDirection_unported unported addrs

theorem direction_reverse_unported {key : FlowKey P} (unported : ¬ key.PortedLoopback)
    (val : FlowVal) (addrs : List IpAddr) :
    (val.withDirection key.reverse addrs).direction =
      classified key.addrs.dst key.addrs.src addrs := by
  rw [direction_unported (mt (portedLoopback_reverse key).mp unported), FlowKey.reverse,
    src_reverse, dst_reverse]

theorem toldApart_ported {key : FlowKey P} (ported : key.PortedLoopback) (addrs : List IpAddr) :
    key.ToldApart addrs ↔ key.srcPort ≠ key.dstPort := by
  simp only [FlowKey.ToldApart, ported, true_and, not_true, false_and, or_false]

theorem toldApart_unported {key : FlowKey P} (unported : ¬ key.PortedLoopback)
    (addrs : List IpAddr) :
    key.ToldApart addrs ↔ addrs ≠ [] ∧ AddressesDiffer key.addrs.src key.addrs.dst addrs := by
  simp only [FlowKey.ToldApart, unported, false_and, false_or, not_false_eq_true, true_and]

/-- A flow and its reverse get opposite directions exactly when they are told
apart, no direction exactly when nothing can tell, and one direction otherwise. -/
theorem withDirection_reverse (key : FlowKey P) (val val' : FlowVal) (addrs : List IpAddr) :
    let forward := (val.withDirection key addrs).direction
    let backward := (val'.withDirection key.reverse addrs).direction
    (Opposite forward backward ↔ key.ToldApart addrs) ∧
      (forward = none ∧ backward = none ↔ addrs = [] ∧ ¬ key.PortedLoopback) ∧
      (forward = none ↔ backward = none) ∧
      (Agree forward backward ↔
        ¬ key.ToldApart addrs ∧ ¬ (addrs = [] ∧ ¬ key.PortedLoopback)) := by
  dsimp only
  by_cases ported : key.PortedLoopback
  · obtain ⟨sport, srcIs⟩ := Option.isSome_iff_exists.mp ported.2.1
    obtain ⟨dport, dstIs⟩ := Option.isSome_iff_exists.mp ported.2.2
    have forward := direction_ported ported srcIs dstIs val addrs
    have backward := direction_ported ((portedLoopback_reverse key).mpr ported) dstIs srcIs val'
      addrs
    have told : key.ToldApart addrs ↔ sport ≠ dport := by
      rw [toldApart_ported ported, srcIs, dstIs, Ne, Option.some_inj]
    obtain ⟨opposite, agree⟩ := ports_reverse sport dport
    rw [forward, backward, told]
    refine ⟨opposite, by simp [ported], by simp, ?_⟩
    rw [agree]
    simp [ported]
  · have forward := direction_unported ported val addrs
    have backward := direction_reverse_unported ported val' addrs
    rw [forward, backward, toldApart_unported ported]
    by_cases unknown : addrs = []
    · subst unknown
      simp [classified, Opposite, Agree, ported]
    · have known : ∀ src dst : IpAddr, classified src dst addrs ≠ none := by
        intro src dst
        rw [classified, if_neg unknown]
        exact Option.some_ne_none _
      obtain ⟨opposite, agree⟩ := classified_reverse key.addrs.src key.addrs.dst unknown
      refine ⟨?_, by simp [known, unknown], by simp [known], ?_⟩
      · rw [opposite, and_iff_right unknown]
      · rw [agree, and_iff_right unknown]
        simp [unknown]

end Conversations

end SniffnetAgent
