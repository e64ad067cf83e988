import Mathlib.Data.List.MinMax
import SniffnetAgent.Capture
import SniffnetAgent.Summary

/-!
# Packet times

`run` turns the kernel's timestamp of a packet into milliseconds.  The
multiplication of the seconds saturates; the milliseconds are then added with
`+`, which wraps in a release build and panics with overflow checks.  The times
of a drained value are those of the earliest and the latest packet of its flow
as long as no sum leaves the range.
-/

set_option autoImplicit false

namespace SniffnetAgent

open CheckedArith

/-- `libc::timeval` of a 64-bit target: two `i64`. -/
structure Timeval where
  tvSec : BitVec 64
  tvUsec : BitVec 64
  deriving DecidableEq, Repr

/-- What the kernel stamps on a packet. -/
structure KernelTime extends Timeval where
  sec_nonneg : 0 ≤ tvSec.toInt
  usec_nonneg : 0 ≤ tvUsec.toInt
  usec_lt : tvUsec.toInt < 1000000

/-- The conversion as a release build computes it; `cast_unsigned` keeps the
bits. -/
def tsMs (ts : Timeval) : U64 := saturatingMul ts.tvSec 1000 + ts.tvUsec / 1000

/-- The conversion with overflow checks. -/
def tsMsChecked (ts : Timeval) : Exec U64 := do
  let millis ← checkedDiv ts.tvUsec 1000
  checkedAdd (saturatingMul ts.tvSec 1000) millis

/-! ## One timestamp -/

namespace KernelTime

def sec (ts : KernelTime) : Nat := ts.tvSec.toInt.toNat

def usec (ts : KernelTime) : Nat := ts.tvUsec.toInt.toNat

/-- The milliseconds that the conversion is for. -/
def millis (ts : KernelTime) : Nat := min (ts.sec * 1000 + ts.usec / 1000) (2 ^ 64 - 1)

/-- The lexicographic order of seconds and microseconds. -/
def NotAfter (earlier later : KernelTime) : Prop :=
  earlier.sec < later.sec ∨ earlier.sec = later.sec ∧ earlier.usec ≤ later.usec

/-- The addition stays in range: it adds nothing, or the sum is below `2^64`. -/
def Fits (ts : KernelTime) : Prop :=
  ts.usec < 1000 ∨ ts.sec * 1000 + ts.usec / 1000 < 2 ^ 64

theorem toNat_of_nonneg {bits : BitVec 64} (nonneg : 0 ≤ bits.toInt) :
    bits.toNat = bits.toInt.toNat := by
  have bound := bits.isLt
  rw [BitVec.toInt_eq_toNat_cond] at nonneg ⊢
  split at nonneg
  · rename_i positive
    rw [if_pos positive]
    rfl
  · omega

theorem toNat_seconds (ts : KernelTime) :
    (saturatingMul ts.tvSec 1000).toNat = min (ts.sec * 1000) (2 ^ 64 - 1) := by
  rw [toNat_saturatingMul, toNat_of_nonneg ts.sec_nonneg]
  rfl

theorem toNat_subsecond (ts : KernelTime) : (ts.tvUsec / 1000).toNat = ts.usec / 1000 := by
  rw [BitVec.toNat_udiv, toNat_of_nonneg ts.usec_nonneg]
  rfl

theorem usec_bound (ts : KernelTime) : ts.usec < 1000000 := by
  have nonneg := ts.usec_nonneg
  have below := ts.usec_lt
  rw [usec]
  omega

/-- The sum is in range when `Fits` says so. -/
theorem fits_iff (ts : KernelTime) :
    ts.Fits ↔ (saturatingMul ts.tvSec 1000).toNat + (ts.tvUsec / 1000).toNat < 2 ^ 64 := by
  rw [toNat_seconds, toNat_subsecond, Fits]
  omega

theorem tsMsChecked_eq_ok_iff (ts : KernelTime) :
    tsMsChecked ts.toTimeval = .ok (tsMs ts.toTimeval) ↔ ts.Fits := by
  have division : checkedDiv ts.tvUsec 1000 = .ok (ts.tvUsec / 1000) := rfl
  rw [fits_iff, tsMsChecked, division, ok_bind, checkedAdd, tsMs]
  by_cases inRange : (saturatingMul ts.tvSec 1000).toNat + (ts.tvUsec / 1000).toNat < 2 ^ 64
  · simp only [inRange, if_true]
  · simp only [inRange, if_false, iff_false]
    exact fun other => by cases other

theorem Fits.toNat_tsMs {ts : KernelTime} (fits : ts.Fits) :
    (tsMs ts.toTimeval).toNat = ts.millis := by
  have inRange := (fits_iff ts).mp fits
  rw [tsMs, BitVec.toNat_add, Nat.mod_eq_of_lt inRange, toNat_seconds, toNat_subsecond, millis]
  rw [Fits] at fits
  omega

theorem millis_mono {earlier later : KernelTime} (order : earlier.NotAfter later) :
    earlier.millis ≤ later.millis := by
  have below := earlier.usec_bound
  rw [millis, millis]
  rcases order with seconds | ⟨seconds, micros⟩
  · omega
  · have subsecond : earlier.usec / 1000 ≤ later.usec / 1000 := Nat.div_le_div_right micros
    omega

/-- The order of the instants is a linear one. -/
def micros (ts : KernelTime) : Nat := ts.sec * 1000000 + ts.usec

theorem notAfter_of_micros {earlier later : KernelTime} (order : earlier.micros ≤ later.micros) :
    earlier.NotAfter later := by
  have below := earlier.usec_bound
  have below' := later.usec_bound
  rw [micros, micros] at order
  by_cases seconds : earlier.sec < later.sec
  · exact Or.inl seconds
  · exact Or.inr (by omega)

end KernelTime

/-! ## Captured packets -/

/-- A packet as `next_packet` returns it; the bytes are what the parser makes of
them. -/
structure Captured (P : Type) where
  parsed : Option (ParsedPacket P)
  ts : KernelTime

inductive CaptureEvent (P : Type) where
  | packet (captured : Captured P)
  | drain

section Runs
variable {P : Type}

def stamps : List (CaptureEvent P) → List KernelTime
  | [] => []
  | .packet captured :: events => captured.ts :: stamps events
  | .drain :: events => stamps events

/-- The packets captured before each drain, since the drain before it. -/
def captureWindows (current : List (Captured P)) :
    List (CaptureEvent P) → List (List (Captured P))
  | [] => []
  | .packet captured :: events => captureWindows (current ++ [captured]) events
  | .drain :: events => current :: captureWindows [] events

def Captured.flow (captured : Captured P) : Option (Flow P) :=
  decodePacket captured.parsed (tsMs captured.ts.toTimeval)

/-- A packet opens or extends its flow with its own time at both ends. -/
theorem Captured.times_of_flow {captured : Captured P} {flow : Flow P}
    (decoded : captured.flow = some flow) :
    flow.2.firstSeenMs = tsMs captured.ts.toTimeval ∧
      flow.2.lastSeenMs = tsMs captured.ts.toTimeval := by
  simp only [Captured.flow, decodePacket, Option.bind_eq_bind, Option.bind_eq_some_iff,
    Option.pure_def, Option.some.injEq] at decoded
  obtain ⟨parsed, _, addrs, _, rfl⟩ := decoded
  exact ⟨rfl, rfl⟩

variable [DecidableEq P]

/-- The loop of `run`: the maps it sends, in order. -/
def FlowTable.run (self : FlowTable P) : List (CaptureEvent P) → List (FlowMap P)
  | [] => []
  | .packet captured :: events =>
      (self.capture captured.parsed (tsMs captured.ts.toTimeval)).run events
  | .drain :: events => self.drain.1 :: self.drain.2.run events

def packetsOfFlow (key : FlowKey P) (window : List (Captured P)) : List (Captured P) :=
  window.filter fun captured => captured.flow.map Prod.fst = some key

/-- The times of a value against the packets of its flow. -/
structure TimesOf (packets : List (Captured P)) (val : FlowVal) : Prop where
  first : ∃ earliest ∈ packets, (∀ packet ∈ packets, earliest.ts.NotAfter packet.ts) ∧
    val.firstSeenMs.toNat = earliest.ts.millis
  last : ∃ latest ∈ packets, (∀ packet ∈ packets, packet.ts.NotAfter latest.ts) ∧
    val.lastSeenMs.toNat = latest.ts.millis
  ordered : val.firstSeenMs ≤ val.lastSeenMs

/-- No conversion of the run overflows, later timestamps give no smaller times,
and every value of a drained map has the times of its packets. -/
structure TrueTimes (events : List (CaptureEvent P)) : Prop where
  noOverflow : ∀ ts ∈ stamps events, tsMsChecked ts.toTimeval = .ok (tsMs ts.toTimeval)
  monotone : ∀ earlier ∈ stamps events, ∀ later ∈ stamps events,
    earlier.NotAfter later → tsMs earlier.toTimeval ≤ tsMs later.toTimeval
  flows : List.Forall₂
    (fun window map => ∀ key val, map.lookup key = some val →
      TimesOf (packetsOfFlow key window) val)
    (captureWindows [] events) ((FlowTable.new (P := P)).run events)

/-! ## One window -/

theorem mem_packetsOf_captured (key : FlowKey P) (window : List (Captured P)) (val : FlowVal) :
    val ∈ packetsOf key (window.filterMap Captured.flow) ↔
      ∃ captured ∈ packetsOfFlow key window, captured.flow = some (key, val) := by
  simp only [packetsOf, packetsOfFlow, List.mem_map, List.mem_filter, List.mem_filterMap,
    decide_eq_true_eq]
  constructor
  · rintro ⟨⟨other, _⟩, ⟨⟨captured, member, decoded⟩, rfl⟩, rfl⟩
    exact ⟨captured, ⟨member, by rw [decoded]; rfl⟩, decoded⟩
  · rintro ⟨captured, ⟨member, _⟩, decoded⟩
    exact ⟨(key, val), ⟨⟨captured, member, decoded⟩, rfl⟩, rfl⟩

/-- Every packet of a flow brings its own time to the summary. -/
theorem exists_val_of_mem {key : FlowKey P} {window : List (Captured P)} {captured : Captured P}
    (member : captured ∈ packetsOfFlow key window) :
    ∃ val ∈ packetsOf key (window.filterMap Captured.flow),
      val.firstSeenMs = tsMs captured.ts.toTimeval ∧
        val.lastSeenMs = tsMs captured.ts.toTimeval := by
  have keyed : captured.flow.map Prod.fst = some key :=
    of_decide_eq_true (List.mem_filter.mp member).2
  obtain ⟨⟨other, val⟩, decoded, same⟩ := Option.map_eq_some_iff.mp keyed
  cases same
  exact ⟨val, (mem_packetsOf_captured _ window val).mpr ⟨captured, member, decoded⟩,
    Captured.times_of_flow decoded⟩

omit [DecidableEq P] in
theorem exists_earliest {packets : List (Captured P)} (nonempty : packets ≠ []) :
    ∃ earliest ∈ packets, ∀ packet ∈ packets, earliest.ts.NotAfter packet.ts := by
  cases found : packets.argmin fun captured => captured.ts.micros with
  | none => exact absurd (List.argmin_eq_none.mp found) nonempty
  | some earliest =>
      refine ⟨earliest, List.argmin_mem found, ?_⟩
      intro packet member
      have order := List.le_of_mem_argmin member found
      exact KernelTime.notAfter_of_micros order

omit [DecidableEq P] in
theorem exists_latest {packets : List (Captured P)} (nonempty : packets ≠ []) :
    ∃ latest ∈ packets, ∀ packet ∈ packets, packet.ts.NotAfter latest.ts := by
  cases found : packets.argmax fun captured => captured.ts.micros with
  | none => exact absurd (List.argmax_eq_none.mp found) nonempty
  | some latest =>
      refine ⟨latest, List.argmax_mem found, ?_⟩
      intro packet member
      have order := List.le_of_mem_argmax member found
      exact KernelTime.notAfter_of_micros order

/-- The summary of a window whose timestamps all fit. -/
theorem timesOf_summary {key : FlowKey P} {window : List (Captured P)} {val : FlowVal}
    (fits : ∀ captured ∈ window, captured.ts.Fits)
    (summary : IsSummary (packetsOf key (window.filterMap Captured.flow)) val) :
    TimesOf (packetsOfFlow key window) val := by
  obtain ⟨⟨first, firstIn, firstIs⟩, firstBound⟩ := summary.firstSeenMs
  obtain ⟨⟨last, lastIn, lastIs⟩, lastBound⟩ := summary.lastSeenMs
  have fitting : ∀ captured ∈ packetsOfFlow key window,
      (tsMs captured.ts.toTimeval).toNat = captured.ts.millis := fun captured member =>
    (fits captured (List.mem_filter.mp member).1).toNat_tsMs
  obtain ⟨opener, opens, decoded⟩ := (mem_packetsOf_captured key window first).mp firstIn
  obtain ⟨closer, closes, closed⟩ := (mem_packetsOf_captured key window last).mp lastIn
  have openTimes := Captured.times_of_flow decoded
  have closeTimes := Captured.times_of_flow closed
  have nonempty : packetsOfFlow key window ≠ [] := List.ne_nil_of_mem opens
  constructor
  case first =>
    obtain ⟨earliest, member, before⟩ := exists_earliest nonempty
    obtain ⟨own, ownIn, ownFirst, _⟩ := exists_val_of_mem member
    have bound := BitVec.le_def.mp (firstBound own ownIn)
    have order := KernelTime.millis_mono (before opener opens)
    rw [ownFirst, fitting earliest member] at bound
    rw [← fitting opener opens, ← openTimes.1, firstIs] at order
    exact ⟨earliest, member, before, Nat.le_antisymm bound order⟩
  case last =>
    obtain ⟨latest, member, after⟩ := exists_latest nonempty
    obtain ⟨own, ownIn, _, ownLast⟩ := exists_val_of_mem member
    have bound := BitVec.le_def.mp (lastBound own ownIn)
    have order := KernelTime.millis_mono (after closer closes)
    rw [ownLast, fitting latest member] at bound
    rw [← fitting closer closes, ← closeTimes.2, lastIs] at order
    exact ⟨latest, member, after, Nat.le_antisymm order bound⟩
  case ordered =>
    have low := firstBound first firstIn
    have high := lastBound first firstIn
    rw [openTimes.1] at low
    rw [openTimes.2] at high
    exact BitVec.le_trans low high

/-! ## Whole runs -/

theorem Summarises.capture {current : List (Captured P)} {table : FlowTable P}
    (summarises : Summarises (current.filterMap Captured.flow) table.inner)
    (captured : Captured P) :
    Summarises ((current ++ [captured]).filterMap Captured.flow)
      (table.capture captured.parsed (tsMs captured.ts.toTimeval)).inner := by
  unfold FlowTable.capture
  rw [List.filterMap_append]
  cases decoded : decodePacket captured.parsed (tsMs captured.ts.toTimeval) with
  | none =>
      have nothing : [captured].filterMap Captured.flow = [] :=
        List.filterMap_cons_none decoded
      rw [nothing, List.append_nil]
      exact summarises
  | some flow =>
      have one : [captured].filterMap Captured.flow = [flow] :=
        List.filterMap_cons_some decoded
      rw [one]
      exact summarises.record flow.1 flow.2

theorem timesOf_run (events : List (CaptureEvent P)) (current : List (Captured P))
    (table : FlowTable P)
    (summarises : Summarises (current.filterMap Captured.flow) table.inner)
    (fits : ∀ captured ∈ current, captured.ts.Fits) (later : ∀ ts ∈ stamps events, ts.Fits) :
    List.Forall₂
      (fun window map => ∀ key val, map.lookup key = some val →
        TimesOf (packetsOfFlow key window) val)
      (captureWindows current events) (table.run events) := by
  induction events generalizing current table with
  | nil => exact .nil
  | cons event events ih =>
      cases event with
      | packet captured =>
          apply ih _ _ (summarises.capture captured)
          · intro other member
            rcases List.mem_append.mp member with before | new
            · exact fits other before
            · rw [List.mem_singleton.mp new]
              exact later captured.ts (List.mem_cons_self ..)
          · exact fun ts member => later ts (List.mem_cons_of_mem _ member)
      | drain =>
          have rest := ih [] FlowTable.new summarises_new (by simp) later
          exact .cons (fun key val found => timesOf_summary fits ((summarises key).2 val found))
            rest

/-- The times of a run are true exactly when every packet's timestamp fits. -/
theorem trueTimes_iff (events : List (CaptureEvent P)) :
    TrueTimes events ↔ ∀ ts ∈ stamps events, ts.Fits := by
  constructor
  · intro times ts member
    exact (KernelTime.tsMsChecked_eq_ok_iff ts).mp (times.noOverflow ts member)
  · intro fits
    constructor
    case noOverflow =>
      intro ts member
      exact (KernelTime.tsMsChecked_eq_ok_iff ts).mpr (fits ts member)
    case monotone =>
      intro earlier member later member' order
      rw [BitVec.le_def, (fits earlier member).toNat_tsMs, (fits later member').toNat_tsMs]
      exact KernelTime.millis_mono order
    case flows => exact timesOf_run events [] FlowTable.new summarises_new (by simp) fits

end Runs

/-! ## Past the last millisecond -/

/-- The first instant whose milliseconds do not fit. -/
def overflowStamp : KernelTime where
  tvSec := 18446744073709551
  tvUsec := 616000
  sec_nonneg := by decide
  usec_nonneg := by decide
  usec_lt := by decide

def overflowCapture : Captured SampleProtocol where
  parsed := some ⟨⟨none, none, none⟩, ⟨0x0800, .v4 ⟨0x0A000001⟩, .v4 ⟨0x0A000002⟩⟩,
    ⟨some 50000, some 443, .tcp⟩, 60⟩
  ts := overflowStamp

/-- Its conversion overflows; where it wraps, the flow of that one packet starts
at time zero. -/
theorem conversion_wraps :
    tsMsChecked overflowStamp.toTimeval = .error .overflow ∧
      ((FlowTable.new.run [.packet overflowCapture, .drain]).map fun map =>
        (map.lookup ⟨.v4 ⟨0x0A000001⟩ ⟨0x0A000002⟩, some 50000, some 443, .tcp⟩).map
          FlowVal.firstSeenMs) = [some 0] ∧
      overflowStamp.millis = 2 ^ 64 - 1 ∧
      ¬ TrueTimes [.packet overflowCapture, .drain] := by
  have wrapped : tsMs overflowStamp.toTimeval = 0 := by decide
  have due : overflowStamp.millis = 2 ^ 64 - 1 := by decide
  let key : FlowKey SampleProtocol := ⟨.v4 ⟨0x0A000001⟩ ⟨0x0A000002⟩, some 50000, some 443, .tcp⟩
  let val : FlowVal := ⟨60, 1, none, none, none, 0x0800, none, 0, 0⟩
  have decoded : decodePacket overflowCapture.parsed (tsMs overflowCapture.ts.toTimeval) =
      some (key, val) := by
    rw [overflowCapture, wrapped]
    rfl
  have kept : (FlowTable.new.record key val).inner.lookup key = some val :=
    FlowTable.lookup_record_self FlowTable.new key val
  have maps : FlowTable.new.run [.packet overflowCapture, .drain] =
      [(FlowTable.new.record key val).inner] := by
    rw [FlowTable.run, FlowTable.capture, decoded]
    rfl
  refine ⟨by decide, ?_, due, ?_⟩
  · rw [maps, List.map_singleton]
    exact congrArg (fun found : Option FlowVal => [found.map FlowVal.firstSeenMs]) kept
  · intro times
    have flows := times.flows
    rw [maps] at flows
    obtain ⟨earliest, member, _, zero⟩ := ((List.forall₂_cons.mp flows).1 key val kept).first
    have only := List.mem_singleton.mp (List.mem_filter.mp member).1
    rw [only] at zero
    exact absurd (zero.trans due) (by decide)

end SniffnetAgent
