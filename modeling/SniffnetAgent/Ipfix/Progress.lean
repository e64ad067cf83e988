import SniffnetAgent.Ipfix.Framing
import SniffnetAgent.Ipfix.RoundTrip

/-!
# The packing loop makes progress

The one assertion on the MTU is enough for every MTU it accepts: an iteration
packs at least one record, the cursors only move forward and never leave their
lists, and the loop is done after at most one iteration for each flow.
-/

set_option autoImplicit false

namespace SniffnetAgent.Ipfix

open WireCodec CheckedArith WhileLoop Collector

section Progress
variable {P : Type} [Protocol P]

/-- The flows between two positions of a cursor. -/
def between (flows : List (Flow P)) (lo hi : Nat) : List (Flow P) :=
  (flows.drop lo).take (hi - lo)

/-- What one iteration does: its datagram holds the flows its cursors passed. -/
structure Advances (v4 v6 : List (Flow P)) (s next : LoopState) : Prop where
  inBounds : InBounds v4 v6 next
  forward4 : s.v4Idx ≤ next.v4Idx
  forward6 : s.v6Idx ≤ next.v6Idx
  packs : s.v4Idx + s.v6Idx < next.v4Idx + next.v6Idx
  emits : ∃ datagram, next.datagrams = s.datagrams ++ [datagram] ∧
    (decodeMessage agentTemplates datagram).map Prod.snd =
      some ((between v4 s.v4Idx next.v4Idx ++ between v6 s.v6Idx next.v6Idx).map collectorRecord)

omit [Protocol P] in
theorem between_taken (flows : List (Flow P)) (lo limit : Nat) :
    between flows lo (lo + ((flows.drop lo).take limit).length) = (flows.drop lo).take limit := by
  rw [between, Nat.add_sub_cancel_left, List.length_take]
  exact List.take_eq_take_min.symm

theorem advances_of_inBounds (limit : Mtu) (flows : List (Flow P)) (nowUnix odid : U32)
    (s : LoopState) (bounds : InBounds (v4Flows flows) (v6Flows flows) s)
    (enter : owes (v4Flows flows) (v6Flows flows) s = true) :
    ∃ next, packDatagram limit (v4Flows flows) (v6Flows flows) nowUnix odid s = .ok next ∧
      Advances (v4Flows flows) (v6Flows flows) s next := by
  have large : 230 ≤ limit.size.toNat := limit.holdsRecord
  have limitBound : limit.size.toNat < 2 ^ 16 := limit.size.isLt
  have more := (owes_iff (v4Flows flows) (v6Flows flows) s).mp enter
  have lengths := blockAt_length_le limit (v4Flows flows) (v6Flows flows) s bounds
  have charged := (blockAt_charge limit (v4Flows flows) (v6Flows flows) s).2
  have sorted := blockAt_sorted limit flows s
  have positive : 0 < (blockAt limit (v4Flows flows) (v6Flows flows) s).size :=
    nextBlock_size_pos _ large s.includeTemplateSet _ _ more
  rw [Block.size] at positive
  have taken4 : between (v4Flows flows) s.v4Idx
      (s.v4Idx + (blockAt limit (v4Flows flows) (v6Flows flows) s).v4.length) =
        (blockAt limit (v4Flows flows) (v6Flows flows) s).v4 := between_taken _ _ _
  have taken6 : between (v6Flows flows) s.v6Idx
      (s.v6Idx + (blockAt limit (v4Flows flows) (v6Flows flows) s).v6.length) =
        (blockAt limit (v4Flows flows) (v6Flows flows) s).v6 := between_taken _ _ _
  refine ⟨_, packDatagram_spec limit _ _ nowUnix odid s bounds.1 bounds.2, ?_, ?_, ?_, ?_, ?_⟩
  · exact ⟨lengths.1, lengths.2⟩
  · exact Nat.le_add_right _ _
  · exact Nat.le_add_right _ _
  · dsimp only
    omega
  · refine ⟨_, rfl, ?_⟩
    dsimp only
    rw [taken4, taken6, decodeMessage_messageBytes agentTemplates nowUnix odid
      s.includeTemplateSet s.seq _ sorted (by omega) (knows_storeAfter _), Option.map_some]
    rfl

omit [Protocol P] in
/-- Where the loop may stop, nothing is owed. -/
theorem cursors_at_end {v4 v6 : List (Flow P)} {s : LoopState} (bounds : InBounds v4 v6 s)
    (exit : owes v4 v6 s = false) : s.v4Idx = v4.length ∧ s.v6Idx = v6.length := by
  obtain ⟨bound4, bound6⟩ := bounds
  simp only [owes, Bool.or_eq_false_iff, decide_eq_false_iff_not] at exit
  omega

omit [Protocol P] in
/-- A message for each record at most. -/
theorem messages_le_flows (limit : Mtu) {due : Bool} {flows : List (Flow P)}
    {blocks : List (Block (Flow P))}
    (packs : Packs limit.size.toNat due (v4Flows flows) (v6Flows flows) blocks) :
    blocks.length ≤ flows.length := by
  have large : 230 ≤ limit.size.toNat := limit.holdsRecord
  have total := packs.size_sum large
  rw [← List.length_append, ← wireOrder, length_wireOrder] at total
  have each : ∀ size ∈ blocks.map Block.size, 1 ≤ size := by
    intro size member
    obtain ⟨block, inBlocks, rfl⟩ := List.mem_map.mp member
    exact packs.size_pos large block inBlocks
  have fewer := List.length_le_sum_of_one_le _ each
  rwa [List.length_map, total] at fewer

/-- The result is read off the state in which the loop stops. -/
theorem loop_of_buildDatagrams {limit : Mtu} {flows : List (Flow P)} {seqStart : U32} {due : Bool}
    {nowUnix odid : U32} {result : List (List Byte) × U32}
    (build : buildDatagrams limit flows seqStart due nowUnix odid = .ok result) :
    ∃ final, whileLoop (owes (v4Flows flows) (v6Flows flows))
        (packDatagram limit (v4Flows flows) (v6Flows flows) nowUnix odid) flows.length
        ⟨[], seqStart, due, 0, 0⟩ = .ok final ∧
      result = (final.datagrams, final.seq) := by
  rw [buildDatagrams, splitFamilies_eq] at build
  cases run : whileLoop (owes (v4Flows flows) (v6Flows flows))
      (packDatagram limit (v4Flows flows) (v6Flows flows) nowUnix odid) flows.length
      ⟨[], seqStart, due, 0, 0⟩ with
  | error fault =>
      simp only [run] at build
      cases build
  | ok final =>
      simp only [run, ok_bind, pure_eq_ok] at build
      exact ⟨final, rfl, (Except.ok.inj build).symm⟩

/-- For every MTU that passes the assertion.  The loop runs on checked `u16`
arithmetic; its fuel is the number of flows. -/
theorem buildDatagrams_progress (limit : Mtu) (flows : List (Flow P)) (seqStart : U32)
    (due : Bool) (nowUnix odid : U32) :
    (∀ s, Reaches (owes (v4Flows flows) (v6Flows flows))
        (packDatagram limit (v4Flows flows) (v6Flows flows) nowUnix odid)
        ⟨[], seqStart, due, 0, 0⟩ s → InBounds (v4Flows flows) (v6Flows flows) s) ∧
    (∀ s, InBounds (v4Flows flows) (v6Flows flows) s →
      owes (v4Flows flows) (v6Flows flows) s = true →
      ∃ next, packDatagram limit (v4Flows flows) (v6Flows flows) nowUnix odid s = .ok next ∧
        Advances (v4Flows flows) (v6Flows flows) s next) ∧
    ∃ final store,
      whileLoop (owes (v4Flows flows) (v6Flows flows))
          (packDatagram limit (v4Flows flows) (v6Flows flows) nowUnix odid) flows.length
          ⟨[], seqStart, due, 0, 0⟩ = .ok final ∧
      buildDatagrams limit flows seqStart due nowUnix odid =
        .ok (final.datagrams, final.seq) ∧
      final.v4Idx = (v4Flows flows).length ∧ final.v6Idx = (v6Flows flows).length ∧
      final.datagrams.length ≤ flows.length ∧
      decodeStream agentTemplates final.datagrams =
        some (store, (v4Flows flows ++ v6Flows flows).map collectorRecord) := by
  have started : InBounds (v4Flows flows) (v6Flows flows) ⟨[], seqStart, due, 0, 0⟩ :=
    ⟨Nat.zero_le _, Nat.zero_le _⟩
  refine ⟨?_, ?_, ?_⟩
  · exact fun s reached => inBounds_of_reaches limit _ _ nowUnix odid reached started
  · exact fun s bounds enter => advances_of_inBounds limit flows nowUnix odid s bounds enter
  · obtain ⟨blocks, packs, build⟩ := buildDatagrams_spec limit flows seqStart due nowUnix odid
    obtain ⟨well, order⟩ := packing_of_flows limit packs
    obtain ⟨store, decoded, _⟩ := decodeStream_messages limit.size.toNat limit.size.isLt nowUnix
      odid blocks due seqStart agentTemplates well (knows_storeAfter _)
    have few := messages_le_flows limit packs
    rw [← length_messages nowUnix odid blocks due seqStart] at few
    obtain ⟨final, run, result⟩ := loop_of_buildDatagrams build
    obtain ⟨reached, exit⟩ := reaches_of_whileLoop _ _ run
    obtain ⟨end4, end6⟩ := cursors_at_end
      (inBounds_of_reaches limit _ _ nowUnix odid reached started) exit
    have emitted : final.datagrams = messages nowUnix odid due seqStart blocks :=
      (congrArg Prod.fst result).symm
    refine ⟨final, store, run, build.trans (congrArg Except.ok result), end4, end6, ?_, ?_⟩
    · rw [emitted]
      exact few
    · rw [emitted, decoded, order, wireOrder]

end Progress

end SniffnetAgent.Ipfix
