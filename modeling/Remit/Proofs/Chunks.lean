import Remit.Library.Bisection
import Remit.Proofs
import Remit.Solana.Encoding

/-!
# The largest chunk

The search for the largest chunk as the machine runs it: with 64-bit sums,
slices that have to be in range, and measurements that may panic.  It ends
after as many rounds as the length has binary digits, and where larger chunks
make no smaller transactions it finds the largest chunk that fits.
-/

namespace Remit

open Bisections

/-- A byte slice, which has at most `isize::MAX` bytes. -/
structure Slice where
  bytes : Bytes
  length_lt : bytes.length < 2 ^ 63

section Chunks

variable (payer : Address) (data : Slice)
  (build : Bytes → List WireInstruction)

/-- Whether what is built from a prefix fits in one transaction, unless
measuring it panics. -/
def prefixFits (n : Nat) : Option Bool :=
  (WireInstruction.measuredSize (build (data.bytes.take n)) payer).map
    fun size => decide (size ≤ PACKET_DATA_SIZE)

/-- `largestChunk` in at most so many rounds. -/
def largestChunk.run (rounds : Nat) : Outcome :=
  bisect (prefixFits payer data build) data.bytes.length (2 ^ 64) rounds 0
    data.bytes.length

/-- Longer prefixes make no smaller transactions, as far as both can be
measured. -/
def Growing : Prop :=
  ∀ shorter longer small large,
    shorter ≤ longer → longer ≤ data.bytes.length →
      WireInstruction.measuredSize (build (data.bytes.take shorter)) payer =
          some small →
        WireInstruction.measuredSize (build (data.bytes.take longer)) payer =
            some large →
          small ≤ large

/-- Whatever is built from a prefix can be measured. -/
def Measured : Prop :=
  ∀ n, n ≤ data.bytes.length → ∃ size,
    WireInstruction.measuredSize (build (data.bytes.take n)) payer = some size

/-- The lengths of the prefixes that fit in one transaction, and zero. -/
def fittingLengths : Set Nat :=
  {n | n ≤ data.bytes.length ∧
    (n = 0 ∨
      WireInstruction.fitsInOneTransaction (build (data.bytes.take n)) payer =
        true)}

end Chunks

section Search

variable {payer : Address} {data : Slice}
  {build : Bytes → List WireInstruction} {rounds n : Nat}

theorem prefixFits_eq_true :
    prefixFits payer data build n = some true ↔
      WireInstruction.fitsInOneTransaction (build (data.bytes.take n)) payer =
        true := by
  constructor
  · intro fits
    obtain ⟨size, measured, small⟩ := Option.map_eq_some_iff.mp fits
    rw [WireInstruction.fitsInOneTransaction,
      WireInstruction.measuredSize_eq_some measured]
    exact small
  · intro fits
    obtain ⟨size, measured, small⟩ := WireInstruction.measuredSize_of_fits fits
    rw [prefixFits, measured]
    exact congrArg some (decide_eq_true small)

/-- The loop ends with a boundary or with a measurement that panics.  It
neither overflows nor underflows nor leaves the slice. -/
theorem largestChunk.run_ends
    (enough : data.bytes.length < 2 ^ rounds) :
    (∃ n, run payer data build (rounds + 1) = .found n ∧
      Boundary (prefixFits payer data build) 0 data.bytes.length n) ∨
      ∃ n, run payer data build (rounds + 1) = .refused n ∧
        n ≤ data.bytes.length ∧
        WireInstruction.measuredSize (build (data.bytes.take n)) payer =
          none := by
  have bound := data.length_lt
  have room : data.bytes.length + data.bytes.length < 2 ^ 64 := by omega
  have ends :=
    bisect_ends (prefixFits payer data build) (Nat.zero_le _) (Nat.le_refl _)
      room enough
  generalize reached : bisect (prefixFits payer data build) _ _ _ _ _ = outcome
    at ends
  cases ends with
  | found boundary => exact .inl ⟨_, reached, boundary⟩
  | refused _ inside unmeasured =>
      exact .inr ⟨_, reached, inside, Option.map_eq_none_iff.mp unmeasured⟩

/-- A boundary among growing transactions is the largest chunk. -/
theorem Growing.isGreatest
    (growing : Growing payer data build)
    (boundary :
      Boundary (prefixFits payer data build) 0 data.bytes.length n) :
    IsGreatest (fittingLengths payer data build) n := by
  have downward : ∀ smaller larger, 0 < smaller → smaller ≤ larger →
      larger ≤ data.bytes.length →
        prefixFits payer data build larger = some true →
          prefixFits payer data build smaller ≠ some false := by
    intro smaller larger _ le inside fits fails
    obtain ⟨large, largeMeasured, largeFits⟩ := Option.map_eq_some_iff.mp fits
    obtain ⟨small, smallMeasured, smallFails⟩ :=
      Option.map_eq_some_iff.mp fails
    have grows :=
      growing smaller larger small large le inside smallMeasured largeMeasured
    have fitting := of_decide_eq_true largeFits
    have failing := of_decide_eq_false smallFails
    exact failing (Nat.le_trans grows fitting)
  have greatest := boundary.isGreatest downward
  simp only [prefixFits_eq_true] at greatest
  exact greatest

/-- The loop finds what the search of the flows finds. -/
theorem largestChunk.bisect_eq_found_iff
    {test : Nat → Option Bool} {size word low high fuel : Nat}
    (ordered : low ≤ high) (inside : high ≤ size)
    (room : size + size < word) (enough : high - low < 2 ^ fuel) :
    bisect test size word (fuel + 1) low high = .found n ↔
      search test low high = some n := by
  induction fuel generalizing low high with
  | zero =>
      rw [Nat.pow_zero] at enough
      have done : ¬ low < high := by omega
      rw [bisect_done done, search, if_neg done, Outcome.found.injEq,
        Option.some.injEq]
  | succ fuel inductionHypothesis =>
      rw [Nat.pow_succ] at enough
      by_cases more : low < high
      case neg =>
          rw [bisect_done more, search, if_neg more, Outcome.found.injEq,
            Option.some.injEq]
      case pos =>
          have below : (low + high + 1) / 2 ≤ high := by omega
          rw [bisect_round test (fuel + 1) more inside room, search,
            if_pos more]
          dsimp only
          cases test ((low + high + 1) / 2) with
          | none => simp
          | some answer =>
              cases answer with
              | true => exact inductionHypothesis below inside (by omega)
              | false =>
                  exact inductionHypothesis (by omega) (by omega) (by omega)

/-- The search has a result where every measurement has one. -/
theorem largestChunk.exists_search
    {test : Nat → Option Bool} {low high : Nat} (ordered : low ≤ high)
    (answers : ∀ mid, low < mid → mid ≤ high → test mid ≠ none) :
    ∃ n, search test low high = some n := by
  fun_induction search test low high with
  | case1 low high more mid passes inductionHypothesis =>
      exact inductionHypothesis (by omega) fun number above =>
        answers number (by omega)
  | case2 low high more mid fails inductionHypothesis =>
      exact inductionHypothesis (by omega) fun number above below =>
        answers number above (by omega)
  | case3 low high more mid unmeasured =>
      exact absurd unmeasured (answers mid (by omega) (by omega))
  | case4 low => exact ⟨low, rfl⟩

/-- What is found fits, and one byte more does not. -/
theorem largestChunk_boundary
    {programs : Programs} {payer : Address} {data : Bytes}
    {build : Bytes → List Instruction}
    (found : largestChunk programs payer data build = some n) :
    Boundary (fun n => measuredFits programs (build (data.take n)) payer)
      0 data.length n := by
  have enough : data.length - 0 < 2 ^ data.length := Nat.lt_two_pow_self
  have ends :=
    bisect_ends (fun n => measuredFits programs (build (data.take n)) payer)
      (Nat.zero_le _) (Nat.le_refl _) (Nat.lt_succ_self _) enough
  rw [(largestChunk.bisect_eq_found_iff (Nat.zero_le _) (Nat.le_refl _)
    (Nat.lt_succ_self _) enough).mpr found] at ends
  cases ends with
  | found boundary => exact boundary

theorem largestChunk_le
    {programs : Programs} {payer : Address} {data : Bytes}
    {build : Bytes → List Instruction}
    (found : largestChunk programs payer data build = some n) :
    n ≤ data.length :=
  (largestChunk_boundary found).below

/-- The largest chunk of the flows is what the loop finds. -/
theorem largestChunk.run_eq_found_iff
    {programs : Programs} {instructionsOf : Bytes → List Instruction}
    (enough : data.bytes.length < 2 ^ rounds) :
    run payer data
          (fun chunk => (instructionsOf chunk).map (Instruction.wire programs))
          (rounds + 1) =
        .found n ↔
      largestChunk programs payer data.bytes instructionsOf = some n := by
  have bound := data.length_lt
  have room : data.bytes.length + data.bytes.length < 2 ^ 64 := by omega
  exact bisect_eq_found_iff (Nat.zero_le _) (Nat.le_refl _) room enough

/-- Where every measurement succeeds, there is a largest chunk. -/
theorem Measured.exists_largestChunk
    {programs : Programs} {instructionsOf : Bytes → List Instruction}
    (measured : Measured payer data fun chunk =>
      (instructionsOf chunk).map (Instruction.wire programs)) :
    ∃ n, largestChunk programs payer data.bytes instructionsOf = some n := by
  refine largestChunk.exists_search (Nat.zero_le _) fun n _ inside => ?_
  obtain ⟨size, sized⟩ := measured n inside
  unfold measuredFits
  rw [sized]
  exact Option.some_ne_none _

end Search

/-! ## Record writes -/

section Writes

variable (programs : Programs) (payer record : Address)

/-- The transaction that creates a record and writes its first chunk. -/
def openingWires (lamports space : Nat) (chunk : Bytes) :
    List WireInstruction :=
  (recordOpening programs payer record lamports space chunk).map
    (Instruction.wire programs)

/-- The transaction that writes a chunk. -/
def writeWires (offset : Nat) (chunk : Bytes) : List WireInstruction :=
  [Instruction.recordWrite record payer offset chunk].map
    (Instruction.wire programs)

/-- A longer chunk makes a write no smaller, whatever comes before it. -/
theorem transactionSize_recordWrite_mono
    {shorter longer : Bytes} (le : shorter.length ≤ longer.length)
    (offset : Nat) (before : List WireInstruction) :
    WireInstruction.transactionSize
        (before ++ writeWires programs payer record offset shorter) payer ≤
      WireInstruction.transactionSize
        (before ++ writeWires programs payer record offset longer) payer := by
  have data :
      ((Instruction.recordWrite record payer offset shorter).wire
          programs).data.length ≤
        ((Instruction.recordWrite record payer offset longer).wire
          programs).data.length := by
    simpa [Instruction.wire] using le
  exact WireInstruction.transactionSize_lengthen data before [] payer

/-- What can be measured is as large as estimated. -/
theorem Growing.of_mono
    {payer : Address} {build : Bytes → List WireInstruction}
    (mono : ∀ shorter longer : Bytes, shorter.length ≤ longer.length →
      WireInstruction.transactionSize (build shorter) payer ≤
        WireInstruction.transactionSize (build longer) payer)
    (data : Slice) : Growing payer data build := by
  intro shorter longer small large le inside smallMeasured largeMeasured
  have grows :=
    mono (data.bytes.take shorter) (data.bytes.take longer) (by
      rw [List.length_take, List.length_take]
      omega)
  rw [WireInstruction.measuredSize_eq_some smallMeasured,
    WireInstruction.measuredSize_eq_some largeMeasured] at grows
  exact grows

theorem growing_writeWires (offset : Nat) (data : Slice) :
    Growing payer data (writeWires programs payer record offset) := by
  apply Growing.of_mono
  intro shorter longer le
  exact transactionSize_recordWrite_mono programs payer record le offset []

theorem growing_openingWires (lamports space : Nat) (data : Slice) :
    Growing payer data
      (openingWires programs payer record lamports space) := by
  apply Growing.of_mono
  intro shorter longer le
  exact transactionSize_recordWrite_mono programs payer record le 0
    ([Instruction.createAccount payer record lamports space programs.record,
      .recordInitialize record payer].map (Instruction.wire programs))

variable {data : Slice}

/-- A write can be serialized as long as its data has a length prefix. -/
theorem serializes_writeWires_iff
    (offset : Nat) (chunk : Bytes) :
    Message.serializes payer (writeWires programs payer record offset chunk) =
        true ↔
      chunk.length + 13 < 2 ^ 16 := by
  rw [Message.serializes_iff_of_few]
  · simp only [writeWires, List.map_singleton, List.mem_singleton,
      forall_eq, Instruction.wire, List.length_cons, List.length_nil,
      List.length_append, length_leBytes]
    omega
  · apply Nat.le_trans (Message.length_accountKeys_le ..)
    simp [writeWires, Instruction.wire]
  · simp [writeWires]

theorem serializes_openingWires_iff
    (lamports space : Nat) (chunk : Bytes) :
    Message.serializes payer
          (openingWires programs payer record lamports space chunk) =
        true ↔
      chunk.length + 13 < 2 ^ 16 := by
  have owner := programs.record.length_eq
  rw [Message.serializes_iff_of_few]
  · simp only [openingWires, recordOpening, List.map_cons, List.map_nil,
      List.mem_cons, List.not_mem_nil, or_false, forall_eq_or_imp, forall_eq,
      Instruction.wire, List.length_cons, List.length_nil,
      List.length_append, length_leBytes, owner]
    omega
  · apply Nat.le_trans (Message.length_accountKeys_le ..)
    simp [openingWires, recordOpening, Instruction.wire]
  · simp [openingWires, recordOpening]

/-- Writes can be measured as long as their data has a length prefix. -/
theorem measured_writeWires
    (short : data.bytes.length + 13 < 2 ^ 16) (offset : Nat) :
    Measured payer data (writeWires programs payer record offset) := by
  intro n inside
  refine ⟨_, if_pos ((serializes_writeWires_iff ..).mpr ?_)⟩
  rw [List.length_take]
  omega

theorem measured_openingWires
    (short : data.bytes.length + 13 < 2 ^ 16) (lamports space : Nat) :
    Measured payer data
      (openingWires programs payer record lamports space) := by
  intro n inside
  refine ⟨_, if_pos ((serializes_openingWires_iff ..).mpr ?_)⟩
  rw [List.length_take]
  omega

end Writes

end Remit
