import SniffnetAgent.Lib.WireCodec

/-!
# A reference collector

RFC 7011 read from the other side: a 16-byte message header, then sets until
the declared length is used up.  A Template Set stores each template's list of
(element, length); a data set is cut into records by the stored lengths of its
template, and each field is read big-endian.  The collector knows none of the
agent's constants.  It refuses whatever it cannot use: a wrong version, bytes
left over, an enterprise element, a set without a stored template.
-/

set_option autoImplicit false

namespace SniffnetAgent.Collector

open WireCodec

structure MessageHeader where
  version : Nat
  length : Nat
  exportTime : Nat
  sequence : Nat
  domain : Nat
  deriving DecidableEq, Repr

structure RawSet where
  id : Nat
  payload : List Byte
  deriving DecidableEq, Repr

structure FieldSpec where
  element : Nat
  length : Nat
  deriving DecidableEq, Repr

/-- The latest definition of a template comes first. -/
abbrev TemplateStore := List (Nat × List FieldSpec)

structure DataRecord where
  templateId : Nat
  /-- (element, value) in template order. -/
  fields : List (Nat × Nat)
  deriving DecidableEq, Repr

def DataRecord.value (record : DataRecord) (element : Nat) : Option Nat :=
  record.fields.lookup element

def readHeader : Reader MessageHeader := do
  let version ← readNat 2
  let length ← readNat 2
  let exportTime ← readNat 4
  let sequence ← readNat 4
  let domain ← readNat 4
  return ⟨version, length, exportTime, sequence, domain⟩

def readSet : Reader RawSet := do
  let id ← readNat 2
  let length ← readNat 2
  require (4 ≤ length)
  let payload ← readBytes (length - 4)
  return ⟨id, payload⟩

/-- Bit 15 of the element announces an enterprise number, length 65535 a
variable-length field; neither is supported. -/
def readFieldSpec : Reader FieldSpec := do
  let element ← readNat 2
  let length ← readNat 2
  require (element < 0x8000 && length < 0xFFFF)
  return ⟨element, length⟩

def readTemplate : Reader (Nat × List FieldSpec) := do
  let id ← readNat 2
  let count ← readNat 2
  let fields ← (List.range count).mapM fun _ => readFieldSpec
  return (id, fields)

def readField (field : FieldSpec) : Reader (Nat × Nat) := do
  let value ← readNat field.length
  return (field.element, value)

def readRecord (templateId : Nat) (template : List FieldSpec) : Reader DataRecord := do
  let fields ← template.mapM readField
  return ⟨templateId, fields⟩

/-- The header and the sets of one datagram, which they must tile. -/
def splitMessage (datagram : List Byte) : Option (MessageHeader × List RawSet) := do
  let (header, body) ← readHeader datagram
  if header.version = 10 ∧ header.length = datagram.length then
    let sets ← readAll readSet body
    return (header, sets)
  else none

def processSet (store : TemplateStore) (set : RawSet) :
    Option (TemplateStore × List DataRecord) :=
  if set.id = 2 then do
    let templates ← readAll readTemplate set.payload
    return (templates.reverse ++ store, [])
  else if 256 ≤ set.id then do
    let template ← store.lookup set.id
    let records ← readAll (readRecord set.id template) set.payload
    return (store, records)
  else none

def processSets : TemplateStore → List RawSet → Option (TemplateStore × List DataRecord)
  | store, [] => some (store, [])
  | store, set :: sets => do
      let (next, records) ← processSet store set
      let (final, others) ← processSets next sets
      return (final, records ++ others)

def decodeMessage (store : TemplateStore) (datagram : List Byte) :
    Option (TemplateStore × List DataRecord) := do
  let (_, sets) ← splitMessage datagram
  processSets store sets

def decodeStream : TemplateStore → List (List Byte) → Option (TemplateStore × List DataRecord)
  | store, [] => some (store, [])
  | store, datagram :: datagrams => do
      let (next, records) ← decodeMessage store datagram
      let (final, others) ← decodeStream next datagrams
      return (final, records ++ others)

/-- How many data records a datagram holds for a collector with this store. -/
def recordCount (store : TemplateStore) (datagram : List Byte) : Nat :=
  ((decodeMessage store datagram).elim [] Prod.snd).length

/-- The sequence field of the message header. -/
def sequenceField (datagram : List Byte) : Option Nat :=
  (splitMessage datagram).map fun message => message.1.sequence

/-- How many Template Sets the datagram holds. -/
def templateSetCount (datagram : List Byte) : Nat :=
  ((splitMessage datagram).elim [] fun message => message.2).countP fun set => set.id == 2

/-- How many sets of data records the datagram holds. -/
def dataSetCount (datagram : List Byte) : Nat :=
  ((splitMessage datagram).elim [] fun message => message.2).countP fun set => 256 ≤ set.id

section Composition

theorem processSets_append (store middle final : TemplateStore) (left right : List RawSet)
    (leftRecords rightRecords : List DataRecord)
    (first : processSets store left = some (middle, leftRecords))
    (second : processSets middle right = some (final, rightRecords)) :
    processSets store (left ++ right) = some (final, leftRecords ++ rightRecords) := by
  induction left generalizing store leftRecords with
  | nil =>
      simp only [processSets, Option.some.injEq, Prod.mk.injEq] at first
      obtain ⟨rfl, rfl⟩ := first
      simpa using second
  | cons set sets ih =>
      simp only [processSets, Option.bind_eq_bind, Option.bind_eq_some_iff] at first
      obtain ⟨⟨next, records⟩, head, ⟨last, others⟩, tail, result⟩ := first
      cases Option.some.inj result
      have whole := ih next others tail
      simp only [List.cons_append, processSets, head, whole, Option.bind_eq_bind,
        Option.bind_some]
      simp

end Composition

end SniffnetAgent.Collector
