import SniffnetAgent.Loss

/-!
# Several agents, one collector

The agents of several hosts export to one place, and all of them in domain 0 unless
they are told otherwise.  Their datagrams arrive mixed, with losses.  The collector
has one template store for all of them and keeps the sender of each record.
-/

set_option autoImplicit false

namespace SniffnetAgent

open WireCodec LabelledRun Ipfix Collector Transducer

section Fleet
variable {ι P : Type} [DecidableEq ι] [DecidableEq P] [Protocol P]

/-- An agent, with everything that has happened to it. -/
structure Member (P : Type) [DecidableEq P] [Protocol P] where
  collector : SocketAddr
  odid : U32
  events : List (AgentEvent P)
  agent : Agent P
  run : Run (AgentStep collector) (Agent.start collector odid) events agent

def Member.datagrams (self : Member P) : List (List Byte) :=
  (receipts self.events).flatMap Receipt.datagrams

def Member.records (self : Member P) : List DataRecord :=
  (receipts self.events).flatMap Receipt.records

/-- The records of the datagrams that have arrived, with their senders. -/
def learned (arrived : List (ι × List Byte)) : List (ι × DataRecord) :=
  (feed (labelled offerMessage) [] arrived).2

/-- One template store is enough for all agents: whatever is lost and however their
datagrams are mixed, from the first Template Set of any of them on each datagram
gives the records that its own sender put into it.  For each agent these are no
less than with a store of its own, each is a record that it sent and counted at
most once, and no sum of a delta count exceeds what the agent captured. -/
theorem fleet_kept_apart {hasSrcPort hasDstPort : P → Bool} (numbers : ProtocolNumbers P)
    (fleet : ι → Member P)
    (parses : ∀ i packet tsMs, AgentEvent.packet (some packet) tsMs ∈ (fleet i).events →
      packet.HasPorts hasSrcPort hasDstPort)
    (arrived : List (ι × List Byte))
    (lossy : ∀ i, (only i arrived).Subperm (fleet i).datagrams) (i : ι) :
    only i (learned arrived) =
        (only i (arrived.dropWhile fun input => !bearsTemplate input.2)).flatMap contents ∧
      (offerStream [] (only i arrived)).2 <:+ only i (learned arrived) ∧
      (only i (learned arrived)).Subperm (fleet i).records ∧
      ∀ (c : Counter) (key : FlowKey P), key.HasPorts hasSrcPort hasDstPort →
        countOf c key.wireTuple (only i (learned arrived)) ≤ recorded c key (fleet i).events := by
  have emitted : ∀ input ∈ arrived, Emitted P input.2 := by
    intro input member
    have sent := (lossy input.1).subset (mem_only.mpr member)
    exact emitted_of_agent_run (fleet input.1).run input.2 sent
  have answers := wakes_offerMessage.feed_only emitted i
  have sent : (only i (learned arrived)).Subperm (fleet i).records := by
    rw [learned, answers, Member.records, ← contents_of_run (fleet i).run]
    apply flatMap_subperm
    exact (only_sublist i (List.dropWhile_sublist _)).subperm.trans (lossy i)
  refine ⟨answers, wakes_offerMessage.own_suffix emitted i, sent, ?_⟩
  intro c key keyPorts
  exact countOf_le_recorded numbers (fleet i).run (parses i) sent c keyPorts

/-- Two agents that captured the same packet; the datagrams of the second arrive
first. -/
theorem fleet_kept_apart_sample :
    ∃ (first second : Receipt SampleProtocol) (agent₁ agent₂ : Agent SampleProtocol),
      Run (AgentStep sampleCollector) (Agent.start sampleCollector 0)
        [.packet (some samplePacket) 0, .drain, .receive first] agent₁ ∧
      Run (AgentStep sampleCollector) (Agent.start sampleCollector 0)
        [.packet (some samplePacket) 0, .drain, .receive second] agent₂ ∧
      ∀ i : Bool, countOf .packets sampleKey.wireTuple (only i (learned
        (second.datagrams.map (fun datagram => (false, datagram)) ++
          first.datagrams.map fun datagram => (true, datagram)))) ≤ 1 := by
  obtain ⟨first, agent₁, run₁⟩ := sample_run
  obtain ⟨second, agent₂, run₂⟩ := sample_run
  let fleet : Bool → Member SampleProtocol := fun i =>
    if i then ⟨sampleCollector, 0, _, agent₁, run₁⟩ else ⟨sampleCollector, 0, _, agent₂, run₂⟩
  have parses : ∀ (i : Bool) (packet : ParsedPacket SampleProtocol) (tsMs : U64),
      AgentEvent.packet (some packet) tsMs ∈ (fleet i).events →
        packet.HasPorts (fun p => p != .arp) fun p => p != .arp := by
    intro i
    cases i with
    | false => exact sample_parses second
    | true => exact sample_parses first
  have own : ∀ i, (fleet i).datagrams = if i then first.datagrams else second.datagrams := by
    intro i
    cases i <;> exact List.flatMap_singleton ..
  refine ⟨first, second, agent₁, agent₂, run₁, run₂, ?_⟩
  intro i
  have lossy : ∀ i, (only i (second.datagrams.map (fun datagram => (false, datagram)) ++
      first.datagrams.map fun datagram => (true, datagram))).Subperm (fleet i).datagrams := by
    intro i
    rw [own, only_append]
    cases i with
    | false =>
      rw [only_map_self, only_map_of_ne (by decide), List.append_nil]
      exact List.Subperm.refl _
    | true =>
      rw [only_map_self, only_map_of_ne (by decide), List.nil_append]
      exact List.Subperm.refl _
  obtain ⟨_, _, _, bound⟩ := fleet_kept_apart sampleNumbers fleet parses _ lossy i
  have one : recorded .packets sampleKey (fleet i).events = 1 := by
    cases i <;> rfl
  exact one ▸ bound .packets sampleKey ⟨rfl, rfl⟩

end Fleet

end SniffnetAgent
