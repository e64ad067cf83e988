import SniffnetAgent.Lib.WireCodec

/-!
# Addresses and flow direction

`std::net` addresses are their bits in network order, so that `octets()` is the
big-endian encoding and equality of addresses is equality of the bits.  An IPv4
address and the IPv6 address that embeds it are different `IpAddr` values, as in
Rust.
-/

set_option autoImplicit false

namespace SniffnetAgent

open WireCodec

abbrev U8 := BitVec 8
abbrev U16 := BitVec 16
abbrev U32 := BitVec 32
abbrev U64 := BitVec 64

structure Ipv4Addr where
  bits : BitVec 32
  deriving DecidableEq, Repr

structure Ipv6Addr where
  bits : BitVec 128
  deriving DecidableEq, Repr

inductive IpAddr where
  | v4 (addr : Ipv4Addr)
  | v6 (addr : Ipv6Addr)
  deriving DecidableEq, Repr

/-- The flow label and scope of a V6 socket address are read nowhere. -/
structure SocketAddr where
  ip : IpAddr
  port : U16
  deriving DecidableEq, Repr

def Ipv4Addr.octets (addr : Ipv4Addr) : List Byte := toBeBytes addr.bits

def Ipv6Addr.octets (addr : Ipv6Addr) : List Byte := toBeBytes addr.bits

def Ipv4Addr.unspecified : Ipv4Addr := ⟨0⟩

def Ipv6Addr.unspecified : Ipv6Addr := ⟨0⟩

/-- `127.0.0.0/8`. -/
def Ipv4Addr.isLoopback (addr : Ipv4Addr) : Bool := addr.octets.head? == some 127

/-- `::1`. -/
def Ipv6Addr.isLoopback (addr : Ipv6Addr) : Bool := addr == ⟨1⟩

def IpAddr.isLoopback : IpAddr → Bool
  | .v4 addr => addr.isLoopback
  | .v6 addr => addr.isLoopback

inductive FlowDirection where
  | incoming
  | outgoing
  deriving DecidableEq, Repr

/-- The pair of ports tested by `src_port.zip(dst_port)`. -/
def zipPorts : Option U16 → Option U16 → Option (U16 × U16)
  | some sport, some dport => some (sport, dport)
  | _, _ => none

def getDirection (srcIp dstIp : IpAddr) (srcPort dstPort : Option U16)
    (myInterfaceAddresses : List IpAddr) : Option FlowDirection :=
  match if srcIp.isLoopback && dstIp.isLoopback then zipPorts srcPort dstPort else none with
  | some (sport, dport) => some (if dport < sport then .outgoing else .incoming)
  | none =>
      if myInterfaceAddresses.isEmpty then none
      else
        let isLocal := fun ip => myInterfaceAddresses.any fun a => a == ip
        some (
          if isLocal srcIp then .outgoing
          else if srcIp != .v4 .unspecified && srcIp != .v6 .unspecified then .incoming
          else if !isLocal dstIp then .outgoing
          else .incoming)

end SniffnetAgent
