import SniffnetAgent.Ipfix.RoundTrip

/-!
# The packing is minimal for its order

Any other way to cut the wire order into consecutive blocks that fit the MTU
falls behind: after `k` blocks it has placed at most as many records as the
first `k` datagrams hold.
-/

set_option autoImplicit false

namespace SniffnetAgent.Ipfix

open WireCodec CheckedArith GreedyCut Collector

section Charges
variable {P : Type}

/-- The bytes a block of records is charged: the message header, the Template
Set when it is due, a set header for each family present, and the records. -/
def chargeOf (due : Bool) (records : List (Flow P)) : Nat :=
  openCharge due + setCharge 62 (v4Flows records).length +
    setCharge 86 (v6Flows records).length

theorem chargeOf_mono (due : Bool) {part whole : List (Flow P)} (contiguous : part <:+: whole) :
    chargeOf due part ≤ chargeOf due whole := by
  have fewer4 : (v4Flows part).length ≤ (v4Flows whole).length :=
    (contiguous.sublist.filter isV4).length_le
  have fewer6 : (v6Flows part).length ≤ (v6Flows whole).length :=
    (contiguous.sublist.filter fun flow => !isV4 flow).length_le
  have less4 := setCharge_mono 62 fewer4
  have less6 := setCharge_mono 86 fewer6
  unfold chargeOf
  omega

theorem Block.Sorted.v4Flows_eq {block : Block (Flow P)} (sorted : block.Sorted) :
    v4Flows block.flows = block.v4 := by
  have all : block.v4.filter isV4 = block.v4 := List.filter_eq_self.mpr sorted.1
  have none : block.v6.filter isV4 = [] := by
    rw [List.filter_eq_nil_iff]
    intro flow member
    rw [sorted.2 flow member]
    exact Bool.false_ne_true
  rw [v4Flows, Block.flows, List.filter_append, all, none, List.append_nil]

theorem Block.Sorted.v6Flows_eq {block : Block (Flow P)} (sorted : block.Sorted) :
    v6Flows block.flows = block.v6 := by
  have none : block.v4.filter (fun flow => !isV4 flow) = [] := by
    rw [List.filter_eq_nil_iff]
    intro flow member
    rw [sorted.1 flow member]
    exact Bool.false_ne_true
  have all : block.v6.filter (fun flow => !isV4 flow) = block.v6 := by
    rw [List.filter_eq_self]
    intro flow member
    rw [sorted.2 flow member]
    rfl
  rw [v6Flows, Block.flows, List.filter_append, all, none, List.nil_append]

/-- One record more than a block. -/
theorem chargeOf_extended (due : Bool) {block : Block (Flow P)} (sorted : block.Sorted)
    (more : Flow P) :
    chargeOf due (block.flows ++ [more]) =
      if isV4 more then
        openCharge due + setCharge 62 (block.v4.length + 1) + setCharge 86 block.v6.length
      else openCharge due + setCharge 62 block.v4.length + setCharge 86 (block.v6.length + 1) := by
  have split4 : v4Flows (block.flows ++ [more]) = block.v4 ++ v4Flows [more] := by
    rw [v4Flows, List.filter_append, ← v4Flows, sorted.v4Flows_eq, ← v4Flows]
  have split6 : v6Flows (block.flows ++ [more]) = block.v6 ++ v6Flows [more] := by
    rw [v6Flows, List.filter_append, ← v6Flows, sorted.v6Flows_eq, ← v6Flows]
  rw [chargeOf, split4, split6, List.length_append, List.length_append]
  cases family : isV4 more <;> simp [v4Flows, v6Flows, family]

end Charges

/-! ## No block could have taken more -/

section Full
variable {P : Type}

/-- A V6 record costs more than a V4 record. -/
theorem overflows_v6_of_v4 {limit used count : Nat}
    (full : limit < used + setCharge 62 (count + 1)) :
    limit < used + setCharge 62 count + setCharge 86 1 := by
  unfold setCharge at full ⊢
  split <;> simp at full ⊢ <;> omega

/-- Whatever is left over after a block, one record of it would not fit. -/
theorem nextBlock_full (limit : Nat) (large : 230 ≤ limit) (due : Bool) (v4 v6 : List (Flow P))
    (family4 : ∀ flow ∈ v4, isV4 flow = true) (family6 : ∀ flow ∈ v6, isV4 flow = false)
    (more : Flow P)
    (left : more ∈ v4.drop (nextBlock limit due v4 v6).v4.length ++
      v6.drop (nextBlock limit due v4 v6).v6.length) :
    limit < chargeOf due ((nextBlock limit due v4 v6).flows ++ [more]) := by
  have sorted : (nextBlock limit due v4 v6).Sorted := by
    refine ⟨fun flow member => family4 flow ?_, fun flow member => family6 flow ?_⟩
    · exact List.mem_of_mem_take member
    · exact List.mem_of_mem_take member
  rw [chargeOf_extended due sorted more]
  have longer : ∀ {count : Nat} {flows : List (Flow P)} {flow : Flow P},
      flow ∈ flows.drop count → count < flows.length := by
    intro count flows flow member
    have positive := List.length_pos_of_mem member
    rw [List.length_drop] at positive
    omega
  rcases List.mem_append.mp left with left4 | left6
  · have full := nextBlock_overflows_v4 limit due v4 v6 (longer left4)
    rw [if_pos (family4 more (List.mem_of_mem_drop left4))]
    omega
  · rw [if_neg (by rw [family6 more (List.mem_of_mem_drop left6)]; exact Bool.false_ne_true)]
    by_cases owed : (nextBlock limit due v4 v6).v4.length < v4.length
    · have none := nextBlock_v6_nil limit large due v4 v6 owed
      have full := overflows_v6_of_v4 (nextBlock_overflows_v4 limit due v4 v6 owed)
      rw [none]
      exact full
    · exact nextBlock_overflows_v6 limit due v4 v6 (longer left6)

theorem Packs.full_at {limit : Nat} (large : 230 ≤ limit) {due : Bool} {v4 v6 : List (Flow P)}
    {blocks : List (Block (Flow P))} (packs : Packs limit due v4 v6 blocks)
    (family4 : ∀ flow ∈ v4, isV4 flow = true) (family6 : ∀ flow ∈ v6, isV4 flow = false)
    {i : Nat} {block : Block (Flow P)} (found : blocks[i]? = some block) :
    ∀ more ∈ (blocks.drop (i + 1)).flatMap Block.flows,
      limit < chargeOf (due && i == 0) (block.flows ++ [more]) := by
  induction packs generalizing i with
  | done due => simp at found
  | @next due v4 v6 blocks _ rest ih =>
      cases i with
      | zero =>
          cases Option.some.inj found
          intro more left
          rw [List.drop_one, List.tail_cons, rest.flows_eq large] at left
          simpa using nextBlock_full limit large due v4 v6 family4 family6 more left
      | succ i =>
          have tail := ih (fun flow member => family4 flow (List.mem_of_mem_drop member))
            (fun flow member => family6 flow (List.mem_of_mem_drop member)) (i := i) found
          simpa using tail

end Full

/-! ## Against another cut -/

section Cuts
variable {P : Type}

/-- The Template Set is charged to the first block only. -/
def FitsAt (due : Bool) (i : Nat) (records : List (Flow P)) : Prop :=
  chargeOf (due && i == 0) records ≤ 1200

theorem fitsAt_part (due : Bool) (i : Nat) {part whole : List (Flow P)}
    (contiguous : part <:+: whole) (fits : FitsAt due i whole) : FitsAt due i part :=
  Nat.le_trans (chargeOf_mono _ contiguous) fits

variable {flows : List (Flow P)} {due : Bool} {blocks : List (Block (Flow P))}

theorem full_of_packs
    (packs : Packs mtu.size.toNat due (v4Flows flows) (v6Flows flows) blocks) {i : Nat}
    {block : Block (Flow P)} (found : blocks[i]? = some block) :
    ∀ more ∈ (blocks.drop (i + 1)).flatMap Block.flows,
      1200 < chargeOf (due && i == 0) (block.flows ++ [more]) := by
  refine packs.full_at mtu.holdsRecord ?_ ?_ found
  · exact fun flow member => (List.mem_filter.mp member).2
  · intro flow member
    simpa using (List.mem_filter.mp member).2

theorem maximal_of_packs
    (packs : Packs mtu.size.toNat due (v4Flows flows) (v6Flows flows) blocks) :
    Maximal (FitsAt due) (blocks.map Block.flows) := by
  apply Maximal.of_at
  intro i part found record rest after
  rw [List.getElem?_map] at found
  obtain ⟨block, at_i, rfl⟩ := Option.map_eq_some_iff.mp found
  rw [← List.map_drop, ← List.flatMap_def] at after
  have exceeds := full_of_packs packs at_i record (by rw [after]; exact List.mem_cons_self ..)
  exact Nat.not_le.mpr exceeds

theorem nonempty_of_packs
    (packs : Packs mtu.size.toNat due (v4Flows flows) (v6Flows flows) blocks) :
    ∀ records ∈ blocks.map Block.flows, records ≠ [] := by
  intro records member empty
  obtain ⟨block, inBlocks, rfl⟩ := List.mem_map.mp member
  have positive := packs.size_pos mtu.holdsRecord block inBlocks
  rw [Block.size, ← List.length_append, ← Block.flows, empty] at positive
  exact Nat.lt_irrefl 0 positive

/-- The blocks of the packing stay ahead of every cut that fits. -/
theorem ahead_of_packs
    (packs : Packs mtu.size.toNat due (v4Flows flows) (v6Flows flows) blocks)
    {cut : List (List (Flow P))} (same : cut.flatten = wireOrder flows)
    (fits : ∀ (i : Nat) (block : List (Flow P)), cut[i]? = some block → FitsAt due i block) :
    (∀ k, covered cut k ≤ ((blocks.take k).flatMap Block.flows).length) ∧
      blocks.length ≤ cut.length := by
  have whole : cut.flatten = (blocks.map Block.flows).flatten := by
    rw [same, ← List.flatMap_def, (packing_of_flows mtu packs).2]
  have admissible := AllFit.of_at (FitsAt due) cut fits
  have maximal := maximal_of_packs packs
  constructor
  · intro k
    have ahead := covered_le_of_maximal (FitsAt due) (fun i => fitsAt_part due i)
      (blocks.map Block.flows) cut whole maximal admissible k
    rw [List.flatMap_def, List.length_flatten, List.map_take]
    exact ahead
  · have fewer := length_le_of_maximal (FitsAt due) (fun i => fitsAt_part due i)
      (blocks.map Block.flows) cut whole (nonempty_of_packs packs) maximal admissible
    rwa [List.length_map] at fewer

end Cuts

section Minimal
variable {P : Type} [Protocol P]

/-- Against every cut of the wire order into consecutive blocks that fit, the
datagrams stay ahead and are no more numerous; and no record left over after a
datagram would still have fitted into it. -/
theorem buildDatagrams_minimal (flows : List (Flow P)) (seqStart : U32) (due : Bool)
    (nowUnix odid : U32) :
    ∃ datagrams seq, buildDatagrams mtu flows seqStart due nowUnix odid = .ok (datagrams, seq) ∧
      (∀ cut : List (List (Flow P)), cut.flatten = wireOrder flows →
        (∀ (i : Nat) (block : List (Flow P)), cut[i]? = some block →
          chargeOf (due && i == 0) block ≤ 1200) →
        (∀ k, ((cut.take k).map List.length).sum ≤ recordsIn (datagrams.take k)) ∧
          datagrams.length ≤ cut.length) ∧
      ∀ (i : Nat) (datagram : List Byte), datagrams[i]? = some datagram →
        ∃ before part rest, wireOrder flows = before ++ (part ++ rest) ∧
          before.length = recordsIn (datagrams.take i) ∧
          (decodeMessage agentTemplates datagram).map Prod.snd =
            some (part.map collectorRecord) ∧
          ∀ more ∈ rest, 1200 < chargeOf (due && i == 0) (part ++ [more]) := by
  obtain ⟨blocks, packs, run⟩ := buildDatagrams_spec mtu flows seqStart due nowUnix odid
  obtain ⟨well, order⟩ := packing_of_flows mtu packs
  refine ⟨_, _, run, ?_, ?_⟩
  · intro cut same fits
    obtain ⟨ahead, fewer⟩ := ahead_of_packs packs same fits
    refine ⟨?_, ?_⟩
    · intro k
      rw [recordsIn_take mtu well]
      exact ahead k
    · rwa [length_messages]
  · intro i datagram found
    rw [messages_at] at found
    obtain ⟨block, at_i, rfl⟩ := Option.map_eq_some_iff.mp found
    obtain ⟨sorted, _, charge⟩ := well.at at_i
    have limitBound : mtu.size.toNat < 2 ^ 16 := mtu.size.isLt
    have decoded := decodeMessage_messageBytes agentTemplates nowUnix odid (due && i == 0)
      (seqStart + BitVec.ofNat 32 ((blocks.take i).map Block.size).sum) block sorted (by omega)
      (knows_storeAfter _)
    obtain ⟨position, here⟩ := List.getElem?_eq_some_iff.mp at_i
    refine ⟨(blocks.take i).flatMap Block.flows, block.flows,
      (blocks.drop (i + 1)).flatMap Block.flows, ?_, ?_, ?_, full_of_packs packs at_i⟩
    · rw [← order, ← here, ← List.flatMap_cons, ← List.flatMap_append,
        ← List.drop_eq_getElem_cons position, List.take_append_drop]
    · exact (recordsIn_take mtu well i).symm
    · rw [decoded, Option.map_some]

end Minimal

end SniffnetAgent.Ipfix
