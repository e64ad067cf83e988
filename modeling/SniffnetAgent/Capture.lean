import SniffnetAgent.Flow

/-!
# Decoding captured packets

`decode_packet` of `capture.rs`.  The packet parser is a library: its result,
or its refusal of the bytes, is an argument, so every theorem about captured
packets holds for whatever it returns.
-/

set_option autoImplicit false

namespace SniffnetAgent

structure LinkInfo where
  srcMac : Option MacAddr
  dstMac : Option MacAddr
  vlanId : Option U16
  deriving Repr

structure NetInfo where
  etherType : U16
  srcIp : IpAddr
  dstIp : IpAddr
  deriving Repr

structure TransportInfo (P : Type) where
  srcPort : Option U16
  dstPort : Option U16
  protocol : P
  deriving Repr

/-- What the agent reads of a parsed packet; `bytesCount` is a `usize`. -/
structure ParsedPacket (P : Type) where
  linkInfo : LinkInfo
  netInfo : NetInfo
  transportInfo : TransportInfo P
  bytesCount : Nat
  deriving Repr

section Decode
variable {P : Type}

/-- Mixed families make no flow. -/
def pairAddrs : IpAddr → IpAddr → Option FlowAddrs
  | .v4 src, .v4 dst => some (.v4 src dst)
  | .v6 src, .v6 dst => some (.v6 src dst)
  | _, _ => none

def decodePacket (parsed : Option (ParsedPacket P)) (tsMs : U64) : Option (Flow P) := do
  let parsed ← parsed
  let addrs ← pairAddrs parsed.netInfo.srcIp parsed.netInfo.dstIp
  return (
    { addrs
      srcPort := parsed.transportInfo.srcPort
      dstPort := parsed.transportInfo.dstPort
      protocol := parsed.transportInfo.protocol },
    { bytes := BitVec.ofNat 64 parsed.bytesCount
      packets := 1
      srcMac := parsed.linkInfo.srcMac
      dstMac := parsed.linkInfo.dstMac
      vlanId := parsed.linkInfo.vlanId
      etherType := parsed.netInfo.etherType
      -- filled in after the drain
      direction := none
      firstSeenMs := tsMs
      lastSeenMs := tsMs })

variable [DecidableEq P]

/-- The arm of `run` that handles a captured packet. -/
def FlowTable.capture (self : FlowTable P) (parsed : Option (ParsedPacket P)) (tsMs : U64) :
    FlowTable P :=
  match decodePacket parsed tsMs with
  | some (key, val) => self.record key val
  | none => self

end Decode

end SniffnetAgent
