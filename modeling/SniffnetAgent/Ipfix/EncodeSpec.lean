import SniffnetAgent.Ipfix.Encode
import SniffnetAgent.Ipfix.Packing

/-!
# The encoder realises the packing

Each encoder function has one specification lemma.  Together they say that
`buildDatagrams` never faults, whatever the flows, and that its datagrams are
the messages of a packing: the loop with its cursors, its hand-kept length and
its back-patched header computes `messages` of the blocks of `Packs`.
-/

set_option autoImplicit false

namespace SniffnetAgent.Ipfix

open WireCodec CheckedArith WhileLoop

section Bytes
variable {P : Type} [Protocol P]

def recordBytes (flow : Flow P) : List Byte := writeRecord [] flow.1 flow.2

def dataSetBytes (setId : U16) (size : Nat) (flows : List (Flow P)) : List Byte :=
  if flows.isEmpty then []
  else toBeBytes setId ++ toBeBytes (BitVec.ofNat 16 (4 + size * flows.length)) ++
    flows.flatMap recordBytes

def headerBytes (length : Nat) (nowUnix seq odid : U32) : List Byte :=
  toBeBytes version ++ toBeBytes (BitVec.ofNat 16 length) ++ toBeBytes nowUnix ++
    toBeBytes seq ++ toBeBytes odid

def bodyBytes (due : Bool) (block : Block (Flow P)) : List Byte :=
  (if due then templateSetBytes else []) ++ dataSetBytes templateIdV4 62 block.v4 ++
    dataSetBytes templateIdV6 86 block.v6

def messageBytes (nowUnix odid : U32) (due : Bool) (seq : U32) (block : Block (Flow P)) :
    List Byte :=
  headerBytes (block.charge due) nowUnix seq odid ++ bodyBytes due block

/-- Every message carries the count from before its own records. -/
def messages (nowUnix odid : U32) : Bool → U32 → List (Block (Flow P)) → List (List Byte)
  | _, _, [] => []
  | due, seq, block :: blocks =>
      messageBytes nowUnix odid due seq block ::
        messages nowUnix odid false (seq + BitVec.ofNat 32 block.size) blocks

/-! ## Writers -/

theorem writeCommonTail_eq (out : List Byte) (key : FlowKey P) (val : FlowVal) :
    writeCommonTail out key val = out ++ writeCommonTail [] key val := by
  simp only [writeCommonTail, List.append_assoc, List.nil_append]

theorem writeRecord_eq (out : List Byte) (flow : Flow P) :
    writeRecord out flow.1 flow.2 = out ++ recordBytes flow := by
  obtain ⟨⟨addrs, srcPort, dstPort, protocol⟩, val⟩ := flow
  cases addrs with
  | v4 src dst =>
      simp only [recordBytes, writeRecord]
      rw [writeCommonTail_eq, writeCommonTail_eq ([] ++ src.octets ++ dst.octets)]
      simp only [List.append_assoc, List.nil_append]
  | v6 src dst =>
      simp only [recordBytes, writeRecord]
      rw [writeCommonTail_eq, writeCommonTail_eq ([] ++ src.octets ++ dst.octets)]
      simp only [List.append_assoc, List.nil_append]

theorem foldl_writeRecord (flows : List (Flow P)) (out : List Byte) :
    flows.foldl (fun buf flow => writeRecord buf flow.1 flow.2) out =
      out ++ flows.flatMap recordBytes := by
  induction flows generalizing out with
  | nil => simp
  | cons flow flows ih =>
      rw [List.foldl_cons, ih, writeRecord_eq, List.flatMap_cons, List.append_assoc]

theorem setHeaderLen_eq : setHeaderLen = BitVec.ofNat 16 4 := rfl

theorem recordSizeV4_eq : recordSizeV4 = BitVec.ofNat 16 62 := rfl

theorem recordSizeV6_eq : recordSizeV6 = BitVec.ofNat 16 86 := rfl

theorem writeSetHeader_spec (out : List Byte) (setId : U16) (payload : Nat)
    (bound : 4 + payload < 2 ^ 16) :
    writeSetHeader out setId (BitVec.ofNat 16 payload) =
      .ok (out ++ toBeBytes setId ++ toBeBytes (BitVec.ofNat 16 (4 + payload))) := by
  have added : checkedAdd setHeaderLen (BitVec.ofNat 16 payload) =
      .ok (BitVec.ofNat 16 (4 + payload)) := by
    rw [setHeaderLen_eq]
    exact checkedAdd_ofNat bound
  simp only [writeSetHeader, added, ok_bind, pure_eq_ok]

end Bytes

/-! ## Taking records -/

theorem takeRecords_spec (limit : Mtu) (remaining : Nat) {used size : Nat}
    (usedBound : used < 2 ^ 16) (sizeBound : size < 2 ^ 16) (positive : 0 < size) :
    takeRecords limit remaining (BitVec.ofNat 16 used) (BitVec.ofNat 16 size) =
      .ok (BitVec.ofNat 16 (min (room limit.size.toNat used size) remaining)) := by
  have limitBound : limit.size.toNat < 2 ^ 16 := limit.size.isLt
  have inner : saturatingSub limit.size (BitVec.ofNat 16 used) =
      BitVec.ofNat 16 (limit.size.toNat - used) := by
    have words := saturatingSub_ofNat (w := 16) limitBound usedBound
    rwa [BitVec.ofNat_toNat, BitVec.setWidth_eq] at words
  have budget : saturatingSub (saturatingSub limit.size (BitVec.ofNat 16 used)) setHeaderLen =
      BitVec.ofNat 16 (limit.size.toNat - used - 4) := by
    rw [inner, setHeaderLen_eq]
    exact saturatingSub_ofNat (by omega) (by omega)
  have fit : checkedDiv (BitVec.ofNat 16 (limit.size.toNat - used - 4)) (BitVec.ofNat 16 size) =
      .ok (BitVec.ofNat 16 (room limit.size.toNat used size)) :=
    checkedDiv_ofNat (by omega) sizeBound positive
  have roomBound : room limit.size.toNat used size < 2 ^ 16 := by
    have quotient : room limit.size.toNat used size ≤ limit.size.toNat - used - 4 :=
      Nat.div_le_self _ _
    omega
  simp only [takeRecords, budget, fit, ok_bind, pure_eq_ok]
  congr 1
  rw [toNat_ofNat_of_lt roomBound]
  by_cases small : remaining < 2 ^ 16
  · rw [if_pos small, toNat_ofNat_of_lt small]
    by_cases le : room limit.size.toNat used size ≤ remaining
    · rw [if_pos le, Nat.min_eq_left le]
    · rw [if_neg le, Nat.min_eq_right (by omega)]
  · rw [if_neg small, BitVec.toNat_allOnes, if_pos (by omega), Nat.min_eq_left (by omega)]

section Sets
variable {P : Type} [Protocol P]

/-- One set: the records taken are those of the packing, and the length is
advanced by the charge of the set. -/
theorem packSet_spec (limit : Mtu) (buf : List Byte) (flows : List (Flow P)) (templateId : U16)
    {used idx size : Nat} (usedBound : used ≤ limit.size.toNat) (idxBound : idx ≤ flows.length)
    (sizeBound : size < 2 ^ 16) (positive : 0 < size) :
    packSet limit ⟨buf, BitVec.ofNat 16 used⟩ flows idx templateId (BitVec.ofNat 16 size) =
      .ok ⟨⟨buf ++ dataSetBytes templateId size
              ((flows.drop idx).take (room limit.size.toNat used size)),
            BitVec.ofNat 16 (used + setCharge size
              ((flows.drop idx).take (room limit.size.toNat used size)).length)⟩,
          idx + ((flows.drop idx).take (room limit.size.toNat used size)).length,
          BitVec.ofNat 16 ((flows.drop idx).take (room limit.size.toNat used size)).length⟩ := by
  have limitBound : limit.size.toNat < 2 ^ 16 := limit.size.isLt
  have takes := takeRecords_spec limit (flows.length - idx) (show used < 2 ^ 16 by omega)
    sizeBound positive
  have charged := setCharge_le_of_room usedBound
    (Nat.min_le_left (room limit.size.toNat used size) (flows.length - idx))
  set part := (flows.drop idx).take (room limit.size.toNat used size) with partDef
  have count : part.length = min (room limit.size.toNat used size) (flows.length - idx) := by
    rw [partDef, List.length_take, List.length_drop]
  rw [← count] at takes charged
  simp only [packSet, checkedSub_ok idxBound, takes, ok_bind, pure_eq_ok]
  by_cases empty : part.length = 0
  · have nil : part = [] := List.eq_nil_of_length_eq_zero empty
    simp only [nil, List.length_nil, dataSetBytes, setCharge, List.isEmpty_nil, if_true,
      List.append_nil, Nat.add_zero, BitVec.ofNat_eq_ofNat]
  · have charge : setCharge size part.length = 4 + size * part.length := if_neg empty
    rw [charge] at charged ⊢
    have product : part.length * size = size * part.length := Nat.mul_comm _ _
    have atMost : part.length ≤ part.length * size := Nat.le_mul_of_pos_right _ positive
    have countBound : part.length < 2 ^ 16 := by omega
    have nonzero : BitVec.ofNat 16 part.length ≠ 0 := by
      intro zero
      have value := congrArg BitVec.toNat zero
      rw [toNat_ofNat_of_lt countBound] at value
      exact empty value
    have payload : checkedMul (BitVec.ofNat 16 part.length) (BitVec.ofNat 16 size) =
        .ok (BitVec.ofNat 16 (size * part.length)) := by
      rw [checkedMul_ofNat countBound sizeBound (by rw [product]; omega), product]
    have sliced : slice flows idx (idx + part.length) = .ok part := slice_taken flows idxBound _
    have setLen : checkedAdd setHeaderLen (BitVec.ofNat 16 (size * part.length)) =
        .ok (BitVec.ofNat 16 (4 + size * part.length)) := by
      rw [setHeaderLen_eq]
      exact checkedAdd_ofNat (by omega)
    have total : checkedAdd (BitVec.ofNat 16 used) (BitVec.ofNat 16 (4 + size * part.length)) =
        .ok (BitVec.ofNat 16 (used + (4 + size * part.length))) := checkedAdd_ofNat (by omega)
    have nonempty : part.isEmpty = false := by
      cases shape : part with
      | nil => simp [shape] at empty
      | cons => rfl
    have header := writeSetHeader_spec buf templateId (size * part.length) (by omega)
    rw [if_neg nonzero]
    simp only [payload, header, toNat_ofNat_of_lt countBound, sliced, setLen, total, ok_bind,
      foldl_writeRecord, dataSetBytes, nonempty, List.append_assoc, Bool.false_eq_true, if_false]

/-! ## One message -/

/-- The message under construction: opened, with its V4 set, with its V6 set. -/
def openedMessage (due : Bool) (nowUnix seq odid : U32) : Message :=
  ⟨headerBytes 0 nowUnix seq odid ++ (if due then templateSetBytes else []),
    BitVec.ofNat 16 (openCharge due)⟩

def messageWithV4 (due : Bool) (nowUnix seq odid : U32) (block : Block (Flow P)) : Message :=
  ⟨(openedMessage due nowUnix seq odid).buf ++ dataSetBytes templateIdV4 62 block.v4,
    BitVec.ofNat 16 (openCharge due + setCharge 62 block.v4.length)⟩

def messageWithV6 (due : Bool) (nowUnix seq odid : U32) (block : Block (Flow P)) : Message :=
  ⟨(messageWithV4 due nowUnix seq odid block).buf ++ dataSetBytes templateIdV6 86 block.v6,
    BitVec.ofNat 16 (block.charge due)⟩

theorem openMessage_spec (due : Bool) (nowUnix seq odid : U32) :
    openMessage due nowUnix seq odid = .ok (openedMessage due nowUnix seq odid) := by
  cases due with
  | false =>
      simp only [openMessage, openedMessage, headerBytes, Bool.false_eq_true, if_false,
        List.append_nil]
      rfl
  | true =>
      simp only [openMessage, openedMessage, headerBytes, if_true, writeTemplateSet_eq]
      rfl

theorem patchLength_spec (length : Nat) (nowUnix seq odid : U32) (body : List Byte) :
    patchLength ⟨headerBytes 0 nowUnix seq odid ++ body, BitVec.ofNat 16 length⟩ =
      .ok (headerBytes length nowUnix seq odid ++ body) := by
  have front : headerBytes 0 nowUnix seq odid ++ body =
      0 :: 10 :: 0 :: 0 :: (toBeBytes nowUnix ++ (toBeBytes seq ++ (toBeBytes odid ++ body))) := by
    simp only [headerBytes, List.append_assoc]
    rfl
  have patched : headerBytes length nowUnix seq odid ++ body =
      0 :: 10 :: (toBeBytes (BitVec.ofNat 16 length)).getD 0 0 ::
        (toBeBytes (BitVec.ofNat 16 length)).getD 1 0 ::
          (toBeBytes nowUnix ++ (toBeBytes seq ++ (toBeBytes odid ++ body))) := by
    simp only [headerBytes, List.append_assoc]
    rfl
  rw [patched, front]
  simp only [patchLength]
  rw [store_ok _ (by simp), ok_bind, store_ok _ (by simp)]
  rfl

theorem patchLength_messageWithV6 (due : Bool) (nowUnix seq odid : U32) (block : Block (Flow P)) :
    patchLength (messageWithV6 due nowUnix seq odid block) =
      .ok (messageBytes nowUnix odid due seq block) := by
  have assembled : messageWithV6 due nowUnix seq odid block =
      ⟨headerBytes 0 nowUnix seq odid ++ bodyBytes due block,
        BitVec.ofNat 16 (block.charge due)⟩ := by
    simp only [messageWithV6, messageWithV4, openedMessage, bodyBytes, List.append_assoc]
  rw [assembled, patchLength_spec, messageBytes]

section Iteration
variable (limit : Mtu) (v4 v6 : List (Flow P)) (nowUnix odid : U32) (s : LoopState)

/-- The block that the iteration from `s` packs. -/
def blockAt : Block (Flow P) :=
  nextBlock limit.size.toNat s.includeTemplateSet (v4.drop s.v4Idx) (v6.drop s.v6Idx)

omit [Protocol P] in
theorem blockAt_charge :
    openCharge s.includeTemplateSet + setCharge 62 (blockAt limit v4 v6 s).v4.length ≤
        limit.size.toNat ∧
      (blockAt limit v4 v6 s).charge s.includeTemplateSet ≤ limit.size.toNat := by
  have large : 230 ≤ limit.size.toNat := limit.holdsRecord
  exact ⟨nextBlock_v4_charge _ (by omega) _ _ _, nextBlock_charge _ (by omega) _ _ _⟩

theorem packV4_spec (bound : s.v4Idx ≤ v4.length) :
    packSet limit (openedMessage s.includeTemplateSet nowUnix s.seq odid) v4 s.v4Idx templateIdV4
        recordSizeV4 =
      .ok ⟨messageWithV4 s.includeTemplateSet nowUnix s.seq odid (blockAt limit v4 v6 s),
        s.v4Idx + (blockAt limit v4 v6 s).v4.length,
        BitVec.ofNat 16 (blockAt limit v4 v6 s).v4.length⟩ := by
  have opened := openCharge_le s.includeTemplateSet
  have large : 230 ≤ limit.size.toNat := limit.holdsRecord
  rw [recordSizeV4_eq]
  exact packSet_spec limit (openedMessage s.includeTemplateSet nowUnix s.seq odid).buf v4
    templateIdV4 (by omega) bound (by omega) (by omega)

theorem packV6_spec (bound : s.v6Idx ≤ v6.length) :
    packSet limit
        (messageWithV4 s.includeTemplateSet nowUnix s.seq odid (blockAt limit v4 v6 s)) v6 s.v6Idx
        templateIdV6 recordSizeV6 =
      .ok ⟨messageWithV6 s.includeTemplateSet nowUnix s.seq odid (blockAt limit v4 v6 s),
        s.v6Idx + (blockAt limit v4 v6 s).v6.length,
        BitVec.ofNat 16 (blockAt limit v4 v6 s).v6.length⟩ := by
  rw [recordSizeV6_eq]
  exact packSet_spec limit
    (messageWithV4 s.includeTemplateSet nowUnix s.seq odid (blockAt limit v4 v6 s)).buf v6
    templateIdV6 (blockAt_charge limit v4 v6 s).1 bound (by omega) (by omega)

omit [Protocol P] in
/-- The counter of one message is far from overflowing: a record is more than
one byte. -/
theorem countRecords_spec :
    checkedAdd (0 : U16) (BitVec.ofNat 16 (blockAt limit v4 v6 s).v4.length) =
      .ok (BitVec.ofNat 16 (blockAt limit v4 v6 s).v4.length) ∧
    checkedAdd (BitVec.ofNat 16 (blockAt limit v4 v6 s).v4.length)
        (BitVec.ofNat 16 (blockAt limit v4 v6 s).v6.length) =
      .ok (BitVec.ofNat 16 (blockAt limit v4 v6 s).size) ∧
    (BitVec.ofNat 16 (blockAt limit v4 v6 s).size).setWidth 32 =
      BitVec.ofNat 32 (blockAt limit v4 v6 s).size := by
  have limitBound : limit.size.toNat < 2 ^ 16 := limit.size.isLt
  have charged := (blockAt_charge limit v4 v6 s).2
  set block := blockAt limit v4 v6 s
  have few : block.v4.length + block.v6.length < 2 ^ 16 := by
    have grows4 := count_le_setCharge 62 block.v4.length (by omega)
    have grows6 := count_le_setCharge 86 block.v6.length (by omega)
    simp only [Block.charge] at charged
    omega
  have zero : (0 : U16) = BitVec.ofNat 16 0 := rfl
  refine ⟨?_, checkedAdd_ofNat few, ?_⟩
  · rw [zero, checkedAdd_ofNat (by omega), Nat.zero_add]
  · apply BitVec.eq_of_toNat_eq
    rw [BitVec.toNat_setWidth, Block.size, toNat_ofNat_of_lt few, BitVec.toNat_ofNat]

/-- One iteration emits the next block of the packing. -/
theorem packDatagram_spec (bound4 : s.v4Idx ≤ v4.length) (bound6 : s.v6Idx ≤ v6.length) :
    packDatagram limit v4 v6 nowUnix odid s = .ok {
      datagrams := s.datagrams ++
        [messageBytes nowUnix odid s.includeTemplateSet s.seq (blockAt limit v4 v6 s)]
      seq := s.seq + BitVec.ofNat 32 (blockAt limit v4 v6 s).size
      includeTemplateSet := false
      v4Idx := s.v4Idx + (blockAt limit v4 v6 s).v4.length
      v6Idx := s.v6Idx + (blockAt limit v4 v6 s).v6.length } := by
  have pack4 := packV4_spec limit v4 v6 nowUnix odid s bound4
  have pack6 := packV6_spec limit v4 v6 nowUnix odid s bound6
  obtain ⟨count4, count6, widened⟩ := countRecords_spec limit v4 v6 s
  have patched := patchLength_messageWithV6 s.includeTemplateSet nowUnix s.seq odid
    (blockAt limit v4 v6 s)
  rw [packDatagram, openMessage_spec, ok_bind, pack4, ok_bind, count4, ok_bind, pack6, ok_bind,
    count6, ok_bind, patched, ok_bind]
  simp only [pure_eq_ok, widened]

end Iteration

end Sets

end SniffnetAgent.Ipfix
