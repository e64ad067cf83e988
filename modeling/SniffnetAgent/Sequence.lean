import SniffnetAgent.Exporter

/-!
# Sequence numbers over a session

Each datagram carries, modulo 2^32, the number of data records handed to the
socket before it in the session, whatever became of them.  `Numbered` is that
invariant; it is kept by every flush, and the exporter's `seq` continues it.
-/

set_option autoImplicit false

namespace SniffnetAgent

open WireCodec CheckedArith LabelledRun Ipfix Collector

section Numbering
variable {P : Type} [Protocol P]

/-- Datagrams numbered from `start`. -/
def Numbered (start : Nat) (datagrams : List (List Byte)) : Prop :=
  ∀ (i : Nat) (datagram : List Byte), datagrams[i]? = some datagram →
    sequenceField datagram = some ((start + recordsIn (datagrams.take i)) % 2 ^ 32)

theorem recordsIn_append (left right : List (List Byte)) :
    recordsIn (left ++ right) = recordsIn left + recordsIn right := by
  rw [recordsIn, List.map_append, List.sum_append, recordsIn, recordsIn]

theorem Numbered.append {start : Nat} {left right : List (List Byte)}
    (first : Numbered start left) (second : Numbered (start + recordsIn left) right) :
    Numbered start (left ++ right) := by
  intro i datagram found
  rcases Nat.lt_or_ge i left.length with inside | beyond
  · rw [List.getElem?_append_left inside] at found
    rw [List.take_append_of_le_length inside.le]
    exact first i datagram found
  · rw [List.getElem?_append_right beyond] at found
    have numbered := second (i - left.length) datagram found
    rw [List.take_append, List.take_of_length_le beyond, recordsIn_append, ← Nat.add_assoc]
    exact numbered

theorem numbered_congr {start start' : Nat} {datagrams : List (List Byte)}
    (same : start % 2 ^ 32 = start' % 2 ^ 32) (numbered : Numbered start datagrams) :
    Numbered start' datagrams := by
  intro i datagram found
  rw [numbered i datagram found, Nat.add_mod, same, ← Nat.add_mod]

theorem sequenceField_messageBytes (nowUnix odid : U32) (due : Bool) (seq : U32)
    (block : Block (Flow P)) (sorted : block.Sorted) (bound : block.charge due < 2 ^ 16) :
    sequenceField (messageBytes nowUnix odid due seq block) = some seq.toNat := by
  rw [sequenceField, splitMessage_messageBytes nowUnix odid due seq block sorted bound,
    Option.map_some]

theorem numbered_messages (limit : Mtu) (nowUnix odid : U32) (due : Bool) (seq : U32)
    (blocks : List (Block (Flow P))) (well : AllWellFormed limit.size.toNat due blocks) :
    Numbered seq.toNat (messages nowUnix odid due seq blocks) := by
  have limitBound : limit.size.toNat < 2 ^ 16 := limit.size.isLt
  intro i datagram found
  rw [messages_at] at found
  obtain ⟨block, at_i, rfl⟩ := Option.map_eq_some_iff.mp found
  obtain ⟨sorted, _, charge⟩ := well.at at_i
  have sizes : ((blocks.take i).map Block.size).sum =
      recordsIn ((messages nowUnix odid due seq blocks).take i) := by
    rw [recordsIn, List.map_take, List.map_take, recordCounts_messages _ limitBound nowUnix odid
      blocks due seq well]
  rw [sequenceField_messageBytes _ _ _ _ _ sorted (by omega), BitVec.toNat_add,
    BitVec.toNat_ofNat, Nat.add_mod_mod, sizes]

end Numbering

section Sessions
variable {P : Type} [Protocol P]

/-- All datagrams handed to the socket, in order. -/
def handedOver (log : List (FlushEvent P)) : List (List Byte) :=
  log.flatMap FlushEvent.datagrams

def totalFlows (log : List (FlushEvent P)) : Nat :=
  (log.map fun event => event.call.flows.length).sum

/-- What holds after any number of flushes. -/
structure Accounted (log : List (FlushEvent P)) (exporter : Exporter) : Prop where
  numbered : Numbered 0 (handedOver log)
  records : recordsIn (handedOver log) = totalFlows log
  seq : exporter.seq = BitVec.ofNat 32 (totalFlows log)

theorem Accounted.step {log : List (FlushEvent P)} {exporter next : Exporter}
    {event : FlushEvent P} (accounted : Accounted log exporter)
    (step : FlushStep exporter event next) : Accounted (log ++ [event]) next := by
  obtain ⟨_, after, _⟩ := step.shape
  obtain ⟨blocks, packs, datagrams⟩ := step.datagrams
  obtain ⟨well, _⟩ := packing_of_flows mtu packs
  have handed : handedOver (log ++ [event]) = handedOver log ++ event.datagrams := by
    rw [handedOver, List.flatMap_append, List.flatMap_singleton, handedOver]
  have total : totalFlows (log ++ [event]) = totalFlows log + event.call.flows.length := by
    rw [totalFlows, List.map_append, List.sum_append, List.map_singleton, List.sum_singleton,
      totalFlows]
  have own : recordsIn event.datagrams = event.call.flows.length := by
    rw [datagrams, recordsIn_messages mtu well, packs.size_sum mtu.holdsRecord,
      ← List.length_append, ← wireOrder, length_wireOrder]
  refine ⟨?_, ?_, ?_⟩
  · rw [handed]
    refine accounted.numbered.append ?_
    have numbered := numbered_messages mtu (unixSeconds event.call.clock) exporter.odid
      (exporter.carries event.call) exporter.seq blocks well
    rw [← datagrams] at numbered
    refine numbered_congr ?_ numbered
    rw [accounted.seq, BitVec.toNat_ofNat, Nat.mod_mod, accounted.records, Nat.zero_add]
  · rw [handed, recordsIn_append, accounted.records, own, total]
  · rw [after, total, BitVec.ofNat_add, ← accounted.seq]
    rfl

/-- Over any session of a fresh exporter: the first datagram is numbered 0, two
datagrams differ by the records from the first to just before the second, and
what a collector misses between two datagrams it received is what was lost. -/
theorem session_sequence_numbers (addr : SocketAddr) (odid : U32) (calls : List (FlushCall P)) :
    ∃ exporter log, (Exporter.fresh addr odid).session calls = .ok (exporter, log) ∧
      (∀ first, (handedOver log)[0]? = some first → sequenceField first = some 0) ∧
      (∀ (i j : Nat) (di dj : List Byte), i ≤ j → (handedOver log)[i]? = some di →
        (handedOver log)[j]? = some dj →
        ∃ si sj, sequenceField di = some si ∧ sequenceField dj = some sj ∧
          sj = (si + recordsIn (((handedOver log).take j).drop i)) % 2 ^ 32 ∧
          (i < j → sj = (si + recordCount agentTemplates di +
            recordsIn (((handedOver log).take j).drop (i + 1))) % 2 ^ 32)) ∧
      recordsIn (handedOver log) = (calls.map fun call => call.flows.length).sum ∧
      exporter.seq = BitVec.ofNat 32 (calls.map fun call => call.flows.length).sum := by
  obtain ⟨exporter, log, session, run, inputs⟩ := session_run (Exporter.fresh addr odid) calls
  have accounted : Accounted log exporter := by
    refine run.invariant Accounted ⟨?_, rfl, rfl⟩ ?_
    · intro i datagram found
      simp [handedOver] at found
    · exact fun history s event t accounted step => accounted.step step
  have total : totalFlows log = (calls.map fun call => call.flows.length).sum := by
    rw [totalFlows, ← inputs, List.map_map]
    rfl
  refine ⟨exporter, log, session, ?_, ?_, ?_, ?_⟩
  · intro first found
    exact accounted.numbered 0 first found
  · intro i j di dj le foundI foundJ
    have cut : recordsIn ((handedOver log).take j) =
        recordsIn ((handedOver log).take i) + recordsIn (((handedOver log).take j).drop i) := by
      rw [← recordsIn_append, ← Nat.min_eq_left le, ← List.take_take, Nat.min_eq_left le,
        List.take_append_drop]
    refine ⟨_, _, accounted.numbered i di foundI, accounted.numbered j dj foundJ, ?_, ?_⟩
    · rw [Nat.mod_add_mod, cut, Nat.add_assoc]
    · intro lt
      have within : ((handedOver log).take j)[i]? = some di := by
        rw [List.getElem?_take_of_lt lt, foundI]
      obtain ⟨bound, here⟩ := List.getElem?_eq_some_iff.mp within
      have head : recordsIn (((handedOver log).take j).drop i) = recordCount agentTemplates di +
          recordsIn (((handedOver log).take j).drop (i + 1)) := by
        rw [List.drop_eq_getElem_cons bound, here, recordsIn, List.map_cons, List.sum_cons,
          recordsIn]
      rw [Nat.add_assoc, Nat.mod_add_mod, cut, head, Nat.add_assoc]
  · rw [accounted.records, total]
  · rw [accounted.seq, total]

end Sessions

end SniffnetAgent
