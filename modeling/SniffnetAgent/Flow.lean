import Mathlib.Data.Finmap
import SniffnetAgent.Lib.CheckedArith
import SniffnetAgent.Direction

/-!
# Flow keys, flow values and the flow table

The packet parser's `Protocol` is a parameter of the development: `P` is its
type, and `Protocol P` names the three things the agent reads of it.

A `HashMap<FlowKey, FlowVal>` is a `Finmap`: two maps are equal when they hold
the same entries, and there is no iteration order.  `FlowMap.Enumerates m l`
says that `l` is one of the orders in which `into_iter` can yield the entries.
-/

set_option autoImplicit false

namespace SniffnetAgent

open CheckedArith

class Protocol (P : Type) where
  number : P → Option U8
  udp : P
  arp : P

/-- Three protocols of the parser, with their numbers, for concrete runs. -/
inductive SampleProtocol where
  | tcp
  | udp
  | arp
  deriving DecidableEq, Repr

instance : Protocol SampleProtocol where
  number
    | .tcp => some 6
    | .udp => some 17
    | .arp => none
  udp := .udp
  arp := .arp

/-- 127.0.0.1:4739. -/
def sampleCollector : SocketAddr := ⟨.v4 ⟨0x7F000001⟩, 4739⟩

inductive FlowAddrs where
  | v4 (src dst : Ipv4Addr)
  | v6 (src dst : Ipv6Addr)
  deriving DecidableEq, Repr

def FlowAddrs.src : FlowAddrs → IpAddr
  | .v4 src _ => .v4 src
  | .v6 src _ => .v6 src

def FlowAddrs.dst : FlowAddrs → IpAddr
  | .v4 _ dst => .v4 dst
  | .v6 _ dst => .v6 dst

structure FlowKey (P : Type) where
  addrs : FlowAddrs
  srcPort : Option U16
  dstPort : Option U16
  protocol : P
  deriving DecidableEq, Repr

abbrev MacAddr := BitVec 48

structure FlowVal where
  bytes : U64
  packets : U64
  srcMac : Option MacAddr
  dstMac : Option MacAddr
  vlanId : Option U16
  etherType : U16
  direction : Option FlowDirection
  firstSeenMs : U64
  lastSeenMs : U64
  deriving DecidableEq, Repr

abbrev Flow (P : Type) := FlowKey P × FlowVal

abbrev FlowMap (P : Type) := Finmap fun _ : FlowKey P => FlowVal

variable {P : Type}

/-- Filtered out on the main thread, by typed equality of the addresses. -/
def FlowKey.isSelfExport [Protocol P] [DecidableEq P] (self : FlowKey P)
    (collector : SocketAddr) : Bool :=
  self.protocol == Protocol.udp && self.addrs.dst == collector.ip &&
    self.dstPort == some collector.port

def FlowVal.withDirection (self : FlowVal) (key : FlowKey P) (myAddresses : List IpAddr) :
    FlowVal :=
  { self with
    direction :=
      getDirection key.addrs.src key.addrs.dst key.srcPort key.dstPort myAddresses }

/-- The closure given to `and_modify`: `ether_type` and `direction` keep the
value of the packet that opened the entry. -/
def FlowVal.accumulate (val packet : FlowVal) : FlowVal :=
  { val with
    bytes := saturatingAdd val.bytes packet.bytes
    packets := saturatingAdd val.packets packet.packets
    srcMac := if val.srcMac.isNone then packet.srcMac else val.srcMac
    dstMac := if val.dstMac.isNone then packet.dstMac else val.dstMac
    vlanId := if val.vlanId.isNone then packet.vlanId else val.vlanId
    firstSeenMs :=
      if packet.firstSeenMs < val.firstSeenMs then packet.firstSeenMs else val.firstSeenMs
    lastSeenMs :=
      if packet.lastSeenMs > val.lastSeenMs then packet.lastSeenMs else val.lastSeenMs }

structure FlowTable (P : Type) where
  inner : FlowMap P

def FlowTable.new : FlowTable P := ⟨∅⟩

section Table
variable [DecidableEq P]

def FlowTable.record (self : FlowTable P) (key : FlowKey P) (packet : FlowVal) : FlowTable P :=
  match self.inner.lookup key with
  | some val => ⟨self.inner.insert key (val.accumulate packet)⟩
  | none => ⟨self.inner.insert key packet⟩

end Table

/-- `mem::take`: the map handed over and the table left behind. -/
def FlowTable.drain (self : FlowTable P) : FlowMap P × FlowTable P := (self.inner, .new)

def FlowMap.Enumerates (map : FlowMap P) (flows : List (Flow P)) : Prop :=
  ((flows.map fun flow => (⟨flow.1, flow.2⟩ : Sigma fun _ : FlowKey P => FlowVal)) :
    Multiset (Sigma fun _ : FlowKey P => FlowVal)) = map.entries

/-! ## One operation on the table -/

section Lemmas
variable [DecidableEq P]

theorem FlowTable.lookup_record_self (table : FlowTable P) (key : FlowKey P) (packet : FlowVal) :
    (table.record key packet).inner.lookup key =
      some ((table.inner.lookup key).elim packet fun val => val.accumulate packet) := by
  cases found : table.inner.lookup key with
  | none => simp [FlowTable.record, found]
  | some val => simp [FlowTable.record, found]

theorem FlowTable.lookup_record_of_ne (table : FlowTable P) {key other : FlowKey P}
    (packet : FlowVal) (ne : other ≠ key) :
    (table.record key packet).inner.lookup other = table.inner.lookup other := by
  cases found : table.inner.lookup key with
  | none => simp [FlowTable.record, found, Finmap.lookup_insert_of_ne _ ne]
  | some val => simp [FlowTable.record, found, Finmap.lookup_insert_of_ne _ ne]

omit [DecidableEq P] in
theorem FlowMap.exists_enumeration (map : FlowMap P) :
    ∃ flows : List (Flow P), FlowMap.Enumerates map flows := by
  obtain ⟨entries, shape⟩ := Quot.exists_rep map.entries
  refine ⟨entries.map fun entry => (entry.1, entry.2), ?_⟩
  have same : (entries.map fun entry => (entry.1, entry.2)).map
      (fun flow => (⟨flow.1, flow.2⟩ : Sigma fun _ : FlowKey P => FlowVal)) = entries := by
    rw [List.map_map]
    exact List.map_id entries
  rw [FlowMap.Enumerates, same]
  exact shape

theorem FlowMap.Enumerates.mem_iff {map : FlowMap P} {flows : List (Flow P)}
    (enumerates : FlowMap.Enumerates map flows) (key : FlowKey P) (val : FlowVal) :
    (key, val) ∈ flows ↔ map.lookup key = some val := by
  rw [Finmap.lookup_eq_some_iff, ← enumerates, Multiset.mem_coe, List.mem_map]
  constructor
  · intro member
    exact ⟨(key, val), member, rfl⟩
  · rintro ⟨⟨otherKey, otherVal⟩, member, same⟩
    cases same
    exact member

omit [DecidableEq P] in
theorem FlowMap.Enumerates.nodup_keys {map : FlowMap P} {flows : List (Flow P)}
    (enumerates : FlowMap.Enumerates map flows) : (flows.map Prod.fst).Nodup := by
  have distinct := map.nodupKeys
  rw [← enumerates, Multiset.coe_nodupKeys, List.NodupKeys, List.keys, List.map_map] at distinct
  exact distinct

theorem filter_key_eq_nil {key : FlowKey P} {flows : List (Flow P)}
    (absent : key ∉ flows.map Prod.fst) : flows.filter (fun flow => flow.1 = key) = [] := by
  rw [List.filter_eq_nil_iff]
  intro flow member same
  exact absent (List.mem_map.mpr ⟨flow, member, of_decide_eq_true same⟩)

/-- An iteration visits a key once, if it is in the map. -/
theorem FlowMap.Enumerates.filter_key {map : FlowMap P} {entries : List (Flow P)}
    (enumerates : FlowMap.Enumerates map entries) (key : FlowKey P) :
    entries.filter (fun flow => flow.1 = key) =
      (map.lookup key).elim [] fun val => [(key, val)] := by
  have distinct := enumerates.nodup_keys
  have contents := fun val => enumerates.mem_iff key val
  clear enumerates
  cases found : map.lookup key with
  | none =>
      apply filter_key_eq_nil
      intro listed
      obtain ⟨⟨_, val⟩, member, rfl⟩ := List.mem_map.mp listed
      have present := (contents val).mp member
      rw [found] at present
      cases present
  | some val =>
      have member : (key, val) ∈ entries := (contents val).mpr found
      obtain ⟨before, after, rfl⟩ := List.append_of_mem member
      rw [List.map_append, List.map_cons, List.nodup_append, List.nodup_cons] at distinct
      obtain ⟨_, ⟨notAfter, _⟩, disjoint⟩ := distinct
      have notBefore : key ∉ before.map Prod.fst :=
        fun listed => disjoint key listed key (List.mem_cons_self ..) rfl
      rw [List.filter_append, List.filter_cons_of_pos (by simp), filter_key_eq_nil notBefore,
        filter_key_eq_nil notAfter]
      rfl

end Lemmas

end SniffnetAgent
