import SniffnetAgent.Direction

/-!
# IPFIX constants and templates

The constants of `ipfix/mod.rs` and the Template Set of `ipfix/template.rs`.
Writers append to the buffer they are given.
-/

set_option autoImplicit false

namespace SniffnetAgent.Ipfix

open WireCodec

def version : U16 := 0x000A
def templateSetId : U16 := 2
def templateIdV4 : U16 := 256
def templateIdV6 : U16 := 257

def msgHeaderLen : U16 := 16
def recordSizeV4 : U16 := 62
def recordSizeV6 : U16 := 86
def setHeaderLen : U16 := 4

def iePacketDeltaCount : U16 := 2
def ieProtocolIdentifier : U16 := 4
def ieSourceTransportPort : U16 := 7
def ieSourceIpv4Address : U16 := 8
def ieDestinationTransportPort : U16 := 11
def ieDestinationIpv4Address : U16 := 12
def ieSourceIpv6Address : U16 := 27
def ieDestinationIpv6Address : U16 := 28
def ieSourceMacAddress : U16 := 56
def ieFlowDirection : U16 := 61
def ieDestinationMacAddress : U16 := 80
def ieFlowStartMilliseconds : U16 := 152
def ieFlowEndMilliseconds : U16 := 153
def ieDot1qVlanId : U16 := 243
def ieEthernetType : U16 := 256
def ieLayer2OctetDeltaCount : U16 := 352

def fieldCount : U16 := 14
def templateRecordLen : U16 := 4 + fieldCount * 4
def templateSetLen : U16 := 4 + 2 * templateRecordLen

/-- Field specifiers (element, length), as many as the template header says. -/
abbrev FieldTable := Vector (U16 × U16) fieldCount.toNat

def v4Fields : FieldTable := #v[
  (ieSourceIpv4Address, 4),
  (ieDestinationIpv4Address, 4),
  (ieSourceTransportPort, 2),
  (ieDestinationTransportPort, 2),
  (ieProtocolIdentifier, 1),
  (ieSourceMacAddress, 6),
  (ieDestinationMacAddress, 6),
  (ieDot1qVlanId, 2),
  (ieEthernetType, 2),
  (ieFlowDirection, 1),
  (ieLayer2OctetDeltaCount, 8),
  (iePacketDeltaCount, 8),
  (ieFlowStartMilliseconds, 8),
  (ieFlowEndMilliseconds, 8)]

def v6Fields : FieldTable := #v[
  (ieSourceIpv6Address, 16),
  (ieDestinationIpv6Address, 16),
  (ieSourceTransportPort, 2),
  (ieDestinationTransportPort, 2),
  (ieProtocolIdentifier, 1),
  (ieSourceMacAddress, 6),
  (ieDestinationMacAddress, 6),
  (ieDot1qVlanId, 2),
  (ieEthernetType, 2),
  (ieFlowDirection, 1),
  (ieLayer2OctetDeltaCount, 8),
  (iePacketDeltaCount, 8),
  (ieFlowStartMilliseconds, 8),
  (ieFlowEndMilliseconds, 8)]

def writeTemplateRecord (out : List Byte) (templateId : U16) (fields : FieldTable) : List Byte :=
  fields.toList.foldl (fun out field => out ++ toBeBytes field.1 ++ toBeBytes field.2)
    (out ++ toBeBytes templateId ++ toBeBytes fieldCount)

def writeTemplateSet (out : List Byte) : List Byte :=
  let out := out ++ toBeBytes templateSetId
  let out := out ++ toBeBytes templateSetLen
  let out := writeTemplateRecord out templateIdV4 v4Fields
  writeTemplateRecord out templateIdV6 v6Fields

/-! ## The writers append -/

/-- The bytes of one template record. -/
def templateRecordBytes (templateId : U16) (fields : FieldTable) : List Byte :=
  toBeBytes templateId ++ toBeBytes fieldCount ++
    fields.toList.flatMap fun field => toBeBytes field.1 ++ toBeBytes field.2

def templateSetBytes : List Byte :=
  toBeBytes templateSetId ++ toBeBytes templateSetLen ++
    templateRecordBytes templateIdV4 v4Fields ++ templateRecordBytes templateIdV6 v6Fields

theorem writeTemplateRecord_eq (out : List Byte) (templateId : U16) (fields : FieldTable) :
    writeTemplateRecord out templateId fields = out ++ templateRecordBytes templateId fields := by
  have append : ∀ (rest : List (U16 × U16)) (start : List Byte),
      rest.foldl (fun out field => out ++ toBeBytes field.1 ++ toBeBytes field.2) start =
        start ++ rest.flatMap fun field => toBeBytes field.1 ++ toBeBytes field.2 := by
    intro rest
    induction rest with
    | nil => intro start; simp
    | cons field rest ih =>
        intro start
        rw [List.foldl_cons, ih]
        simp [List.append_assoc]
  rw [writeTemplateRecord, append, templateRecordBytes]
  simp [List.append_assoc]

theorem writeTemplateSet_eq (out : List Byte) :
    writeTemplateSet out = out ++ templateSetBytes := by
  simp only [writeTemplateSet, writeTemplateRecord_eq, templateSetBytes, List.append_assoc]

theorem length_templateSetBytes : templateSetBytes.length = templateSetLen.toNat := by decide

end SniffnetAgent.Ipfix
