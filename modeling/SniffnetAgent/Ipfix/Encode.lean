import SniffnetAgent.Flow
import SniffnetAgent.Ipfix.Template
import SniffnetAgent.Lib.WhileLoop

/-!
# The IPFIX message encoder

`buildDatagrams` as `ipfix/encode.rs` computes it: two index cursors, a `u16`
message length kept by hand beside the buffer, a length field patched at the
end.  Every `u16` operation, subtraction, slice and indexed store is checked.
A `usize` is a `Nat`; the slice bound keeps every index inside its vector.

The MTU is a parameter.  `Mtu` is a `u16` that passes the compile-time
assertion of the source, so the encoder exists for no other value.
-/

set_option autoImplicit false

namespace SniffnetAgent.Ipfix

open WireCodec CheckedArith WhileLoop

structure Mtu where
  size : U16
  /-- `const _: () = assert!(MTU >= ...)`. -/
  holdsRecord : msgHeaderLen.toNat + templateSetLen.toNat + setHeaderLen.toNat +
    recordSizeV6.toNat ≤ size.toNat

/-- The value of the constant `MTU`. -/
def mtu : Mtu := ⟨1200, by decide⟩

section Writers
variable {P : Type} [Protocol P]

def writeCommonTail (out : List Byte) (key : FlowKey P) (val : FlowVal) : List Byte :=
  let out := out ++ toBeBytes (key.srcPort.getD 0)
  let out := out ++ toBeBytes (key.dstPort.getD 0)
  -- ARP has no protocol number; `etherType` is what identifies it
  let out := out ++ [(Protocol.number key.protocol).getD 0]
  let out := out ++ toBeBytes (val.srcMac.getD 0)
  let out := out ++ toBeBytes (val.dstMac.getD 0)
  let out := out ++ toBeBytes (val.vlanId.getD 0)
  let out := out ++ toBeBytes val.etherType
  let direction : U8 := match val.direction with
    | some .incoming => 0x00
    | some .outgoing => 0x01
    | none => 0xFF
  let out := out ++ [direction]
  let out := out ++ toBeBytes val.bytes
  let out := out ++ toBeBytes val.packets
  let out := out ++ toBeBytes val.firstSeenMs
  out ++ toBeBytes val.lastSeenMs

def writeRecord (out : List Byte) (key : FlowKey P) (val : FlowVal) : List Byte :=
  match key.addrs with
  | .v4 src dst => writeCommonTail (out ++ src.octets ++ dst.octets) key val
  | .v6 src dst => writeCommonTail (out ++ src.octets ++ dst.octets) key val

def writeSetHeader (out : List Byte) (setId payloadLen : U16) : Exec (List Byte) := do
  let setLen ← checkedAdd setHeaderLen payloadLen
  return out ++ toBeBytes setId ++ toBeBytes setLen

/-- How many records fit alongside one set header in the remaining budget,
capped at the number still owed. -/
def takeRecords (mtu : Mtu) (remaining : Nat) (msgLen recordSize : U16) : Exec U16 := do
  let budget := saturatingSub (saturatingSub mtu.size msgLen) setHeaderLen
  let fit ← checkedDiv budget recordSize
  let remainingCapped : U16 :=
    if remaining < 2 ^ 16 then BitVec.ofNat 16 remaining else BitVec.allOnes 16
  return if fit.toNat ≤ remainingCapped.toNat then fit else remainingCapped

/-- The buffer under construction and the length counted beside it. -/
structure Message where
  buf : List Byte
  msgLen : U16

/-- What `pack_set` leaves behind: the message, the cursor, the records written. -/
structure Packed where
  msg : Message
  idx : Nat
  take : U16

def packSet (mtu : Mtu) (msg : Message) (flows : List (Flow P)) (idx : Nat)
    (templateId recordSize : U16) : Exec Packed := do
  let remaining ← checkedSub flows.length idx
  let take ← takeRecords mtu remaining msg.msgLen recordSize
  if take = 0 then
    return ⟨msg, idx, 0⟩
  let payloadLen ← checkedMul take recordSize
  let buf ← writeSetHeader msg.buf templateId payloadLen
  let part ← slice flows idx (idx + take.toNat)
  let buf := part.foldl (fun buf flow => writeRecord buf flow.1 flow.2) buf
  let setLen ← checkedAdd setHeaderLen payloadLen
  let msgLen ← checkedAdd msg.msgLen setLen
  return ⟨⟨buf, msgLen⟩, idx + take.toNat, take⟩

/-- The message header, with zeros in the length field, and the Template Set
when it is due. -/
def openMessage (includeTemplateSet : Bool) (nowUnix seq odid : U32) : Exec Message := do
  let buf := toBeBytes version
  let buf := buf ++ [0, 0]
  let buf := buf ++ toBeBytes nowUnix
  let buf := buf ++ toBeBytes seq
  let buf := buf ++ toBeBytes odid
  if includeTemplateSet then
    let msgLen ← checkedAdd msgHeaderLen templateSetLen
    return ⟨writeTemplateSet buf, msgLen⟩
  return ⟨buf, msgHeaderLen⟩

/-- Back-patch the message length at offsets 2..4. -/
def patchLength (msg : Message) : Exec (List Byte) := do
  let lenBe := toBeBytes msg.msgLen
  let buf ← store msg.buf 2 (lenBe.getD 0 0)
  store buf 3 (lenBe.getD 1 0)

structure LoopState where
  datagrams : List (List Byte)
  seq : U32
  includeTemplateSet : Bool
  v4Idx : Nat
  v6Idx : Nat

def owes (v4 v6 : List (Flow P)) (s : LoopState) : Bool :=
  decide (s.v4Idx < v4.length) || decide (s.v6Idx < v6.length)

/-- One iteration of the `while` loop. -/
def packDatagram (mtu : Mtu) (v4 v6 : List (Flow P)) (nowUnix odid : U32) (s : LoopState) :
    Exec LoopState := do
  let msg ← openMessage s.includeTemplateSet nowUnix s.seq odid
  let packedV4 ← packSet mtu msg v4 s.v4Idx templateIdV4 recordSizeV4
  let recordsInMsg ← checkedAdd (0 : U16) packedV4.take
  let packedV6 ← packSet mtu packedV4.msg v6 s.v6Idx templateIdV6 recordSizeV6
  let recordsInMsg ← checkedAdd recordsInMsg packedV6.take
  let buf ← patchLength packedV6.msg
  return {
    datagrams := s.datagrams ++ [buf]
    -- `wrapping_add`: the sequence number is the one sum that may wrap
    seq := s.seq + recordsInMsg.setWidth 32
    includeTemplateSet := false
    v4Idx := packedV4.idx
    v6Idx := packedV6.idx }

/-- Pushes one flow onto the vector of its family. -/
def pushFlow (acc : List (Flow P) × List (Flow P)) (flow : Flow P) :
    List (Flow P) × List (Flow P) :=
  match flow.1.addrs with
  | .v4 _ _ => (acc.1 ++ [flow], acc.2)
  | .v6 _ _ => (acc.1, acc.2 ++ [flow])

def splitFamilies (flows : List (Flow P)) : List (Flow P) × List (Flow P) :=
  flows.foldl pushFlow ([], [])

/-- The fuel is the number of flows.  `buildDatagrams_spec` shows that it is
enough, so the loop never stops for want of it. -/
def buildDatagrams (mtu : Mtu) (flows : List (Flow P)) (seqStart : U32)
    (includeTemplateSet : Bool) (nowUnix odid : U32) : Exec (List (List Byte) × U32) := do
  let (v4, v6) := splitFamilies flows
  let final ← whileLoop (owes v4 v6) (packDatagram mtu v4 v6 nowUnix odid) flows.length
    ⟨[], seqStart, includeTemplateSet, 0, 0⟩
  return (final.datagrams, final.seq)

end Writers

end SniffnetAgent.Ipfix
