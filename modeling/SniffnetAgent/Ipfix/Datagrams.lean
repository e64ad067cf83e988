import SniffnetAgent.Ipfix.EncodeSpec

/-!
# The whole of `build_datagrams`

`buildDatagrams_spec` is the refinement theorem: for every MTU the assertion
accepts and every list of flows the encoder returns, its datagrams are the
messages of a packing of the V4 flows followed by the V6 flows, and the
sequence number has advanced by the number of flows.
-/

set_option autoImplicit false

namespace SniffnetAgent.Ipfix

open WireCodec CheckedArith WhileLoop GreedyCut

section Families
variable {P : Type}

def isV4 (flow : Flow P) : Bool :=
  match flow.1.addrs with
  | .v4 _ _ => true
  | .v6 _ _ => false

def v4Flows (flows : List (Flow P)) : List (Flow P) := flows.filter isV4

def v6Flows (flows : List (Flow P)) : List (Flow P) := flows.filter fun flow => !isV4 flow

/-- The order of the records on the wire, through all datagrams. -/
def wireOrder (flows : List (Flow P)) : List (Flow P) := v4Flows flows ++ v6Flows flows

theorem splitFamilies_eq (flows : List (Flow P)) :
    splitFamilies flows = (v4Flows flows, v6Flows flows) := by
  have push : ∀ (rest left right : List (Flow P)),
      rest.foldl pushFlow (left, right) = (left ++ v4Flows rest, right ++ v6Flows rest) := by
    intro rest
    induction rest with
    | nil => intro left right; simp [v4Flows, v6Flows]
    | cons flow rest ih =>
        intro left right
        rw [List.foldl_cons]
        cases family : flow.1.addrs with
        | v4 src dst => simp [pushFlow, ih, v4Flows, v6Flows, isV4, family]
        | v6 src dst => simp [pushFlow, ih, v4Flows, v6Flows, isV4, family]
  simpa [splitFamilies] using push flows [] []

theorem wireOrder_perm (flows : List (Flow P)) : (wireOrder flows).Perm flows := by
  rw [wireOrder, v4Flows, v6Flows]
  exact List.filter_append_perm isV4 flows

theorem length_wireOrder (flows : List (Flow P)) : (wireOrder flows).length = flows.length :=
  (wireOrder_perm flows).length_eq

/-- The family of each half of a block. -/
def Block.Sorted (block : Block (Flow P)) : Prop :=
  (∀ flow ∈ block.v4, isV4 flow = true) ∧ (∀ flow ∈ block.v6, isV4 flow = false)

end Families

section Packing
variable {α : Type}

theorem Packs.size_pos {limit : Nat} (large : 230 ≤ limit) {due : Bool} {v4 v6 : List α}
    {blocks : List (Block α)} (packs : Packs limit due v4 v6 blocks) :
    ∀ block ∈ blocks, 0 < block.size := by
  induction packs with
  | done due => intro block member; cases member
  | @next due v4 v6 blocks more _ ih =>
      intro block member
      rcases List.mem_cons.mp member with rfl | member
      · exact nextBlock_size_pos limit large due v4 v6 more
      · exact ih block member

theorem Packs.size_sum {limit : Nat} (large : 230 ≤ limit) {due : Bool} {v4 v6 : List α}
    {blocks : List (Block α)} (packs : Packs limit due v4 v6 blocks) :
    (blocks.map Block.size).sum = v4.length + v6.length := by
  have flows := congrArg List.length (packs.flows_eq large)
  rw [List.length_flatMap, List.length_append] at flows
  rw [← flows]
  congr 1
  apply List.map_congr_left
  intro block _
  rw [Block.size, Block.flows, List.length_append]

end Packing

/-! ## The loop -/

section Loop
variable {P : Type} [Protocol P]

/-- The cursors never pass the ends of their lists. -/
def InBounds (v4 v6 : List (Flow P)) (s : LoopState) : Prop :=
  s.v4Idx ≤ v4.length ∧ s.v6Idx ≤ v6.length

omit [Protocol P] in
theorem owes_iff (v4 v6 : List (Flow P)) (s : LoopState) :
    owes v4 v6 s = true ↔ v4.drop s.v4Idx ≠ [] ∨ v6.drop s.v6Idx ≠ [] := by
  simp [owes, List.drop_eq_nil_iff]

omit [Protocol P] in
theorem blockAt_length_le (limit : Mtu) (v4 v6 : List (Flow P)) (s : LoopState)
    (bounds : InBounds v4 v6 s) :
    s.v4Idx + (blockAt limit v4 v6 s).v4.length ≤ v4.length ∧
      s.v6Idx + (blockAt limit v4 v6 s).v6.length ≤ v6.length := by
  have left4 : (blockAt limit v4 v6 s).v4.length ≤ (v4.drop s.v4Idx).length := by
    rw [blockAt, nextBlock_v4]
    exact List.length_take_le' _ _
  have left6 : (blockAt limit v4 v6 s).v6.length ≤ (v6.drop s.v6Idx).length := by
    rw [blockAt, nextBlock_v6]
    exact List.length_take_le' _ _
  rw [List.length_drop] at left4 left6
  obtain ⟨bound4, bound6⟩ := bounds
  omega

/-- The loop from `s` stops, and what it appends is a packing of what is owed. -/
theorem loop_spec (limit : Mtu) (v4 v6 : List (Flow P)) (nowUnix odid : U32) (fuel : Nat)
    (s : LoopState) (bounds : InBounds v4 v6 s)
    (enough : (v4.length - s.v4Idx) + (v6.length - s.v6Idx) ≤ fuel) :
    ∃ t, whileLoop (owes v4 v6) (packDatagram limit v4 v6 nowUnix odid) fuel s = .ok t ∧
      ∃ blocks, Packs limit.size.toNat s.includeTemplateSet (v4.drop s.v4Idx)
          (v6.drop s.v6Idx) blocks ∧
        t.datagrams = s.datagrams ++ messages nowUnix odid s.includeTemplateSet s.seq blocks ∧
        t.seq = s.seq + BitVec.ofNat 32 (blocks.map Block.size).sum := by
  have large : 230 ≤ limit.size.toNat := limit.holdsRecord
  refine whileLoop_total (owes v4 v6) (packDatagram limit v4 v6 nowUnix odid) (InBounds v4 v6)
    (fun s => (v4.length - s.v4Idx) + (v6.length - s.v6Idx))
    (fun s t => ∃ blocks, Packs limit.size.toNat s.includeTemplateSet (v4.drop s.v4Idx)
        (v6.drop s.v6Idx) blocks ∧
      t.datagrams = s.datagrams ++ messages nowUnix odid s.includeTemplateSet s.seq blocks ∧
      t.seq = s.seq + BitVec.ofNat 32 (blocks.map Block.size).sum) ?_ ?_ fuel s bounds enough
  · intro s bounds exit
    have nothing : ¬ (v4.drop s.v4Idx ≠ [] ∨ v6.drop s.v6Idx ≠ []) := by
      rw [← owes_iff, exit]
      exact Bool.false_ne_true
    simp only [not_or, not_not] at nothing
    obtain ⟨none4, none6⟩ := nothing
    refine ⟨[], ?_, ?_, ?_⟩
    · rw [none4, none6]
      exact Packs.done _
    · simp [messages]
    · simp
  · intro s bounds enter
    have more := (owes_iff v4 v6 s).mp enter
    have lengths := blockAt_length_le limit v4 v6 s bounds
    have positive : 0 < (blockAt limit v4 v6 s).size :=
      nextBlock_size_pos _ large s.includeTemplateSet _ _ more
    rw [Block.size] at positive
    refine ⟨_, packDatagram_spec limit v4 v6 nowUnix odid s bounds.1 bounds.2,
      ⟨lengths.1, lengths.2⟩, ?_, ?_⟩
    · dsimp only
      omega
    · rintro t ⟨blocks, packs, datagrams, seq⟩
      refine ⟨blockAt limit v4 v6 s :: blocks, ?_, ?_, ?_⟩
      · apply Packs.next more
        dsimp only at packs
        rwa [← List.drop_drop, ← List.drop_drop] at packs
      · rw [datagrams, messages, List.append_assoc]
        rfl
      · rw [seq, List.map_cons, List.sum_cons, BitVec.ofNat_add, BitVec.add_assoc]

theorem buildDatagrams_spec (limit : Mtu) (flows : List (Flow P)) (seqStart : U32) (due : Bool)
    (nowUnix odid : U32) :
    ∃ blocks, Packs limit.size.toNat due (v4Flows flows) (v6Flows flows) blocks ∧
      buildDatagrams limit flows seqStart due nowUnix odid =
        .ok (messages nowUnix odid due seqStart blocks,
          seqStart + BitVec.ofNat 32 flows.length) := by
  have large : 230 ≤ limit.size.toNat := limit.holdsRecord
  have total : (v4Flows flows).length + (v6Flows flows).length = flows.length := by
    rw [← List.length_append]
    exact length_wireOrder flows
  obtain ⟨t, run, blocks, packs, datagrams, seq⟩ := loop_spec limit (v4Flows flows)
    (v6Flows flows) nowUnix odid flows.length ⟨[], seqStart, due, 0, 0⟩
    ⟨Nat.zero_le _, Nat.zero_le _⟩ (by dsimp only; omega)
  rw [List.drop_zero, List.drop_zero] at packs
  refine ⟨blocks, packs, ?_⟩
  rw [packs.size_sum large, total] at seq
  rw [buildDatagrams, splitFamilies_eq]
  simp only [run, ok_bind, pure_eq_ok, datagrams, seq, List.nil_append]

end Loop

/-! ## What every message satisfies -/

section Blocks
variable {P : Type}

/-- What every message of a packing satisfies, with its own `due` flag. -/
def WellFormed (limit : Nat) (due : Bool) (block : Block (Flow P)) : Prop :=
  block.Sorted ∧ 0 < block.size ∧ block.charge due ≤ limit

/-- Only the first message may carry the Template Set. -/
def AllWellFormed (limit : Nat) : Bool → List (Block (Flow P)) → Prop
  | _, [] => True
  | due, block :: blocks => WellFormed limit due block ∧ AllWellFormed limit false blocks

theorem Packs.allWellFormed {limit : Nat} (large : 230 ≤ limit) {due : Bool}
    {v4 v6 : List (Flow P)} {blocks : List (Block (Flow P))} (packs : Packs limit due v4 v6 blocks)
    (family4 : ∀ flow ∈ v4, isV4 flow = true) (family6 : ∀ flow ∈ v6, isV4 flow = false) :
    AllWellFormed limit due blocks := by
  induction packs with
  | done due => trivial
  | @next due v4 v6 blocks more _ ih =>
      refine ⟨⟨⟨?_, ?_⟩, ?_, ?_⟩, ih ?_ ?_⟩
      · exact fun flow member => family4 flow (List.mem_of_mem_take member)
      · exact fun flow member => family6 flow (List.mem_of_mem_take member)
      · exact nextBlock_size_pos limit large due v4 v6 more
      · exact nextBlock_charge limit (by omega) due v4 v6
      · exact fun flow member => family4 flow (List.mem_of_mem_drop member)
      · exact fun flow member => family6 flow (List.mem_of_mem_drop member)

/-- The blocks of one call, with the facts every later result starts from. -/
theorem packing_of_flows (limit : Mtu) {due : Bool} {flows : List (Flow P)}
    {blocks : List (Block (Flow P))}
    (packs : Packs limit.size.toNat due (v4Flows flows) (v6Flows flows) blocks) :
    AllWellFormed limit.size.toNat due blocks ∧ blocks.flatMap Block.flows = wireOrder flows := by
  have large : 230 ≤ limit.size.toNat := limit.holdsRecord
  refine ⟨packs.allWellFormed large ?_ ?_, packs.flows_eq large⟩
  · exact fun flow member => (List.mem_filter.mp member).2
  · intro flow member
    simpa using (List.mem_filter.mp member).2

end Blocks

section Members
variable {P : Type}

theorem AllWellFormed.at {limit : Nat} {due : Bool} {blocks : List (Block (Flow P))}
    (well : AllWellFormed limit due blocks) {i : Nat} {block : Block (Flow P)}
    (found : blocks[i]? = some block) : WellFormed limit (due && i == 0) block := by
  induction blocks generalizing due i with
  | nil => simp at found
  | cons first blocks ih =>
      cases i with
      | zero =>
          cases Option.some.inj found
          simpa using well.1
      | succ i => simpa using ih well.2 found

variable [Protocol P]

/-- The `i`-th datagram: only the first can carry the Template Set, and the
sequence number counts the records before it. -/
theorem messages_at (nowUnix odid : U32) (blocks : List (Block (Flow P))) (due : Bool)
    (seq : U32) (i : Nat) :
    (messages nowUnix odid due seq blocks)[i]? = blocks[i]?.map fun block =>
      messageBytes nowUnix odid (due && i == 0)
        (seq + BitVec.ofNat 32 ((blocks.take i).map Block.size).sum) block := by
  induction blocks generalizing due seq i with
  | nil => simp [messages]
  | cons block blocks ih =>
      cases i with
      | zero => simp [messages]
      | succ i =>
          have notFirst : (due && i + 1 == 0) = (false && i == 0) := by simp
          rw [messages, List.getElem?_cons_succ, ih, List.getElem?_cons_succ, List.take_succ_cons,
            List.map_cons, List.sum_cons, BitVec.ofNat_add, BitVec.add_assoc, notFirst]

@[simp] theorem length_messages (nowUnix odid : U32) (blocks : List (Block (Flow P))) (due : Bool)
    (seq : U32) : (messages nowUnix odid due seq blocks).length = blocks.length := by
  induction blocks generalizing due seq with
  | nil => rfl
  | cons block blocks ih => rw [messages, List.length_cons, ih, List.length_cons]

/-- Every datagram is the message of some well-formed block; only a call that
includes the Template Set emits a message with it. -/
theorem mem_messages {limit : Nat} {nowUnix odid : U32} {blocks : List (Block (Flow P))}
    {due : Bool} {seq : U32} (well : AllWellFormed limit due blocks) {datagram : List Byte}
    (member : datagram ∈ messages nowUnix odid due seq blocks) :
    ∃ (own : Bool) (start : U32) (block : Block (Flow P)),
      datagram = messageBytes nowUnix odid own start block ∧ WellFormed limit own block ∧
        (own = true → due = true) := by
  obtain ⟨i, found⟩ := List.mem_iff_getElem?.mp member
  rw [messages_at] at found
  obtain ⟨block, at_i, rfl⟩ := Option.map_eq_some_iff.mp found
  refine ⟨due && i == 0, _, block, rfl, well.at at_i, ?_⟩
  intro both
  exact (Bool.and_eq_true_iff.mp both).1

end Members

end SniffnetAgent.Ipfix
