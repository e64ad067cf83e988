import SniffnetAgent.Ipfix.Decoding

/-!
# Framing

Under the MTU of the source every datagram is at most 1200 bytes, its length
field is its length, and its sets tile it: a Template Set when one is due, at
most one V4 and one V6 data set, at least one of them.  The length kept beside
the buffer is the length of the buffer after every set.
-/

set_option autoImplicit false

namespace SniffnetAgent.Ipfix

open WireCodec CheckedArith WhileLoop Collector

section Lengths
variable {P : Type} [Protocol P]

/-- The `u16` counted by hand is the length of the buffer. -/
def LengthTracked (msg : Message) : Prop := msg.msgLen.toNat = msg.buf.length

/-- The three points of an iteration at which a set may just have been
written: after the opening, after the V4 set and after the V6 set.  The last of
them is patched into the datagram that the iteration appends. -/
def StagesTracked (limit : Mtu) (v4 v6 : List (Flow P)) (nowUnix odid : U32) (s : LoopState) :
    Prop :=
  ∃ opened packedV4 packedV6 datagram next,
    openMessage s.includeTemplateSet nowUnix s.seq odid = .ok opened ∧
    packSet limit opened v4 s.v4Idx templateIdV4 recordSizeV4 = .ok packedV4 ∧
    packSet limit packedV4.msg v6 s.v6Idx templateIdV6 recordSizeV6 = .ok packedV6 ∧
    patchLength packedV6.msg = .ok datagram ∧
    packDatagram limit v4 v6 nowUnix odid s = .ok next ∧
    next.datagrams = s.datagrams ++ [datagram] ∧
    LengthTracked opened ∧ LengthTracked packedV4.msg ∧ LengthTracked packedV6.msg ∧
    packedV6.msg.msgLen.toNat = datagram.length

theorem tracked_of_length {buf : List Byte} {length : Nat} (bound : length < 2 ^ 16)
    (same : buf.length = length) : LengthTracked ⟨buf, BitVec.ofNat 16 length⟩ := by
  rw [LengthTracked, toNat_ofNat_of_lt bound, same]

theorem length_openedMessage (due : Bool) (nowUnix seq odid : U32) :
    (openedMessage due nowUnix seq odid).buf.length = openCharge due := by
  rw [openedMessage, List.length_append, ← length_opening due]
  simp [headerBytes]

theorem length_messageWithV4 (due : Bool) (nowUnix seq odid : U32) (block : Block (Flow P))
    (sorted : block.Sorted) :
    (messageWithV4 due nowUnix seq odid block).buf.length =
      openCharge due + setCharge 62 block.v4.length := by
  rw [messageWithV4, List.length_append, length_openedMessage,
    length_dataSetBytes _ 62 _ (length_records block.v4 true sorted.1)]

theorem length_messageWithV6 (due : Bool) (nowUnix seq odid : U32) (block : Block (Flow P))
    (sorted : block.Sorted) :
    (messageWithV6 due nowUnix seq odid block).buf.length = block.charge due := by
  rw [messageWithV6, List.length_append, length_messageWithV4 due nowUnix seq odid block sorted,
    length_dataSetBytes _ 86 _ (length_records block.v6 false sorted.2), Block.charge]

omit [Protocol P] in
theorem blockAt_sorted (limit : Mtu) (flows : List (Flow P)) (s : LoopState) :
    (blockAt limit (v4Flows flows) (v6Flows flows) s).Sorted := by
  constructor
  · intro flow member
    exact (List.mem_filter.mp (List.mem_of_mem_drop (List.mem_of_mem_take member))).2
  · intro flow member
    simpa using (List.mem_filter.mp (List.mem_of_mem_drop (List.mem_of_mem_take member))).2

theorem stagesTracked_of_inBounds (limit : Mtu) (flows : List (Flow P)) (nowUnix odid : U32)
    (s : LoopState) (bounds : InBounds (v4Flows flows) (v6Flows flows) s) :
    StagesTracked limit (v4Flows flows) (v6Flows flows) nowUnix odid s := by
  have limitBound : limit.size.toNat < 2 ^ 16 := limit.size.isLt
  have sorted := blockAt_sorted limit flows s
  obtain ⟨charged4, charged⟩ := blockAt_charge limit (v4Flows flows) (v6Flows flows) s
  refine ⟨_, _, _, _, _, openMessage_spec _ nowUnix s.seq odid,
    packV4_spec limit (v4Flows flows) (v6Flows flows) nowUnix odid s bounds.1,
    packV6_spec limit (v4Flows flows) (v6Flows flows) nowUnix odid s bounds.2,
    patchLength_messageWithV6 s.includeTemplateSet nowUnix s.seq odid _,
    packDatagram_spec limit _ _ nowUnix odid s bounds.1 bounds.2, rfl, ?_, ?_, ?_, ?_⟩
  · exact tracked_of_length (by omega) (length_openedMessage _ _ _ _)
  · exact tracked_of_length (by omega) (length_messageWithV4 _ _ _ _ _ sorted)
  · exact tracked_of_length (by omega) (length_messageWithV6 _ _ _ _ _ sorted)
  · rw [length_messageBytes nowUnix odid s.includeTemplateSet s.seq _ sorted]
    exact toNat_ofNat_of_lt (by omega)

theorem inBounds_of_reaches (limit : Mtu) (v4 v6 : List (Flow P)) (nowUnix odid : U32)
    {start s : LoopState}
    (reached : Reaches (owes v4 v6) (packDatagram limit v4 v6 nowUnix odid) start s)
    (bounds : InBounds v4 v6 start) : InBounds v4 v6 s := by
  refine reached.invariant (InBounds v4 v6) bounds ?_
  intro s next bounds _ run
  rw [packDatagram_spec limit v4 v6 nowUnix odid s bounds.1 bounds.2] at run
  cases run
  exact blockAt_length_le limit v4 v6 s bounds

end Lengths

/-! ## The sets of a datagram -/

section Sets
variable {P : Type} [Protocol P]

/-- Each set with its id and the length its header declares: the reader took
four bytes of header and the rest of the declared length. -/
def frames (sets : List RawSet) : List (Nat × Nat) :=
  sets.map fun set => (set.id, 4 + set.payload.length)

structure Framed (due : Bool) (datagram : List Byte) : Prop where
  lengthField : bigEndianValue ((datagram.drop 2).take 2) = datagram.length
  withinMtu : datagram.length ≤ 1200
  tiled : ∃ header sets n4 n6, splitMessage datagram = some (header, sets) ∧ 1 ≤ n4 + n6 ∧
    frames sets = (if due then [(2, 124)] else []) ++
      (if 1 ≤ n4 then [(256, 4 + 62 * n4)] else []) ++
      (if 1 ≤ n6 then [(257, 4 + 86 * n6)] else [])

theorem frames_dataSets (id : Nat) (v4 : Bool) (flows : List (Flow P))
    (family : ∀ flow ∈ flows, isV4 flow = v4) :
    frames (dataSets id flows) =
      if 1 ≤ flows.length then [(id, 4 + (if v4 then 62 else 86) * flows.length)] else [] := by
  have length := length_records flows v4 family
  cases flows with
  | nil => simp [dataSets, frames]
  | cons flow flows =>
      rw [if_pos (by simp), dataSets, if_neg (by simp), frames, List.map_singleton, length]

theorem frames_blockSets (due : Bool) (block : Block (Flow P)) (sorted : block.Sorted) :
    frames (blockSets due block) = (if due then [(2, 124)] else []) ++
      (if 1 ≤ block.v4.length then [(256, 4 + 62 * block.v4.length)] else []) ++
      (if 1 ≤ block.v6.length then [(257, 4 + 86 * block.v6.length)] else []) := by
  have data4 := frames_dataSets 256 true block.v4 sorted.1
  have data6 := frames_dataSets 257 false block.v6 sorted.2
  have template : frames (templateSets due) = if due then [(2, 124)] else [] := by
    cases due with
    | false => rfl
    | true => simp only [templateSets, if_true, frames, List.map_singleton, length_templatePayload]
  simp only [frames] at data4 data6 template ⊢
  rw [blockSets, List.map_append, List.map_append, data4, data6, template]
  rfl

theorem lengthField_messageBytes (nowUnix odid : U32) (due : Bool) (seq : U32)
    (block : Block (Flow P)) (bound : block.charge due < 2 ^ 16) :
    bigEndianValue (((messageBytes nowUnix odid due seq block).drop 2).take 2) =
      block.charge due := by
  have field : ((messageBytes nowUnix odid due seq block).drop 2).take 2 =
      toBeBytes (BitVec.ofNat 16 (block.charge due)) := rfl
  rw [field, bigEndianValue_toBeBytes _ (by rfl), toNat_ofNat_of_lt bound]

theorem framed_messageBytes (nowUnix odid : U32) (due : Bool) (seq : U32)
    (block : Block (Flow P)) (well : WellFormed 1200 due block) :
    Framed due (messageBytes nowUnix odid due seq block) := by
  obtain ⟨sorted, positive, charge⟩ := well
  have length := length_messageBytes nowUnix odid due seq block sorted
  refine ⟨?_, ?_, ?_⟩
  · rw [lengthField_messageBytes nowUnix odid due seq block (by omega), length]
  · rw [length]
    exact charge
  · exact ⟨_, _, block.v4.length, block.v6.length,
      splitMessage_messageBytes nowUnix odid due seq block sorted (by omega), positive,
      frames_blockSets due block sorted⟩

/-- Under the MTU of the source `buildDatagrams` never faults and every datagram
is framed; in every iteration the counted length is the length of the buffer
after each set; and capping the records still owed to a `u16` changes nothing. -/
theorem buildDatagrams_framed (flows : List (Flow P)) (seqStart : U32) (due : Bool)
    (nowUnix odid : U32) :
    (∃ datagrams seq, buildDatagrams mtu flows seqStart due nowUnix odid = .ok (datagrams, seq) ∧
      ∀ (i : Nat) (datagram : List Byte), datagrams[i]? = some datagram →
        Framed (due && i == 0) datagram) ∧
    (∀ s, Reaches (owes (v4Flows flows) (v6Flows flows))
        (packDatagram mtu (v4Flows flows) (v6Flows flows) nowUnix odid)
        ⟨[], seqStart, due, 0, 0⟩ s →
      StagesTracked mtu (v4Flows flows) (v6Flows flows) nowUnix odid s) ∧
    ∀ (remaining : Nat) (msgLen recordSize : U16), 0 < recordSize.toNat →
      ∃ take, takeRecords mtu remaining msgLen recordSize = .ok take ∧
        take.toNat = min ((1200 - msgLen.toNat - 4) / recordSize.toNat) remaining := by
  refine ⟨?_, ?_, ?_⟩
  · obtain ⟨blocks, packs, run⟩ := buildDatagrams_spec mtu flows seqStart due nowUnix odid
    refine ⟨_, _, run, ?_⟩
    intro i datagram found
    rw [messages_at] at found
    obtain ⟨block, at_i, rfl⟩ := Option.map_eq_some_iff.mp found
    exact framed_messageBytes _ _ _ _ _ ((packing_of_flows mtu packs).1.at at_i)
  · intro s reached
    apply stagesTracked_of_inBounds
    exact inBounds_of_reaches mtu _ _ nowUnix odid reached ⟨Nat.zero_le _, Nat.zero_le _⟩
  · intro remaining msgLen recordSize positive
    have takes := takeRecords_spec mtu remaining msgLen.isLt recordSize.isLt positive
    rw [BitVec.ofNat_toNat, BitVec.setWidth_eq, BitVec.ofNat_toNat, BitVec.setWidth_eq] at takes
    refine ⟨_, takes, ?_⟩
    have small : room mtu.size.toNat msgLen.toNat recordSize.toNat ≤ 1200 - msgLen.toNat - 4 :=
      Nat.div_le_self _ _
    rw [toNat_ofNat_of_lt (by omega)]
    rfl

end Sets

end SniffnetAgent.Ipfix
