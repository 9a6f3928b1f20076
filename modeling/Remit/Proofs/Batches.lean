import Remit.Library.Packing
import Remit.Proofs.Transactions
import Remit.Solana.Encoding

/-!
# Cleanup in batches

The loop of `sendBatches` sends the greedy cut of its close instructions: their
budgets fit 32 bits and their messages can be serialized, whatever the number of
accounts, so it never panics.
-/

namespace Remit

open Flows Packing

variable {C : Cluster}

/-- Send transactions one after another, up to the first that fails. -/
def sendAll : List (List Instruction) → Flow (World C) Error Unit
  | [] => pure ()
  | transaction :: rest => do
      let _ ← World.send transaction []
      sendAll rest

/-- A close instruction with its budget. -/
def IsClose (payer : Address) (item : Instruction × Nat) : Prop :=
  (∃ context, item =
      (.closeContextState (contextInfo context payer) payer,
        computeUnits .closeContextState)) ∨
    ∃ record, item =
      (.recordCloseAccount record payer payer, RECORD_CLOSE_UNITS)

/-- The transaction that carries a batch. -/
def batchTransaction (batch : List (Instruction × Nat)) : List Instruction :=
  withComputeUnitLimit ((batch.map Prod.snd).sum + OVERHEAD_UNITS)
    (batch.map Prod.fst)

section Fitting

variable (programs : Programs) (payer : Address)

/-- Whether instructions fit together with a compute budget. -/
def batchFits (instructions : List Instruction) : Bool :=
  fitsInOneTransaction programs (withComputeUnitLimit 0 instructions) payer

variable {programs payer}

theorem fits_withComputeUnitLimit
    (units : Nat) (instructions : List Instruction) :
    fitsInOneTransaction programs (withComputeUnitLimit units instructions)
        payer = batchFits programs payer instructions :=
  fitsInOneTransaction_withComputeUnitLimit ..

theorem fits_batchTransaction (batch : List (Instruction × Nat)) :
    fitsInOneTransaction programs (batchTransaction batch) payer =
      batchFits programs payer (batch.map Prod.fst) :=
  fits_withComputeUnitLimit ..

/-- What fits goes on fitting with instructions left out. -/
theorem batchFits_hereditary : Hereditary (batchFits programs payer) := by
  intro part whole inside fits
  exact fitsInOneTransaction_mono (inside.sublist.cons_cons _) fits

variable {item : Instruction × Nat} {batch : List (Instruction × Nat)}

theorem IsClose.units_le (close : IsClose payer item) :
    item.2 ≤ RECORD_CLOSE_UNITS := by
  rcases close with ⟨_, rfl⟩ | ⟨_, rfl⟩
  · exact show (3300 : Nat) ≤ 5000 by decide
  · exact Nat.le_refl _

/-- Every close instruction fits alone. -/
theorem IsClose.fits
    (close : IsClose payer item) (programs : Programs) :
    batchFits programs payer [item.1] = true := by
  apply decide_eq_true
  apply Nat.le_trans (transactionSize_le ..)
  rcases close with ⟨context, rfl⟩ | ⟨record, rfl⟩ <;>
    simp [withComputeUnitLimit, Instruction.wire, Message.looseSize,
      Message.instructionLength, Message.compactLength, AccountMeta.new,
      AccountMeta.newReadonly, PACKET_DATA_SIZE]

/-- The budget of a batch that is not too long fits 32 bits. -/
theorem budget_fits
    (closes : ∀ item ∈ batch, IsClose payer item)
    (short : batch.length ≤ 411) :
    (batch.map Prod.snd).sum + OVERHEAD_UNITS < 2 ^ 32 := by
  have each : ∀ units ∈ batch.map Prod.snd, units ≤ RECORD_CLOSE_UNITS := by
    intro units member
    obtain ⟨item, among, rfl⟩ := List.mem_map.mp member
    exact (closes item among).units_le
  have total := List.sum_le_card_nsmul _ _ each
  rw [List.length_map, nsmul_eq_mul, Nat.cast_id] at total
  simp only [RECORD_CLOSE_UNITS, OVERHEAD_UNITS] at total ⊢
  omega

/-- A batch that fits is short. -/
theorem length_of_batchFits
    (fits : batchFits programs payer (batch.map Prod.fst) = true) :
    batch.length ≤ 410 := by
  have short := length_of_fits fits
  rw [withComputeUnitLimit, List.length_cons, List.length_map] at short
  unfold PACKET_DATA_SIZE at short
  omega

/-- The message of a batch that fits can be serialized with one more close
instruction in it. -/
theorem IsClose.serializes
    (close : IsClose payer item)
    (fits : batchFits programs payer (batch.map Prod.fst) = true) :
    messageSerializes programs (batchTransaction (batch ++ [item])) payer =
      true := by
  have few := accountKeys_of_fits fits
  have own : (item.1.wire programs).accounts.length = 3 ∧
      (item.1.wire programs).data.length = 1 := by
    rcases close with ⟨_, rfl⟩ | ⟨_, rfl⟩
    · exact ⟨rfl, rfl⟩
    · exact ⟨rfl, rfl⟩
  have more := length_accountKeys_append payer
    ((withComputeUnitLimit 0 (batch.map Prod.fst)).map
      (Instruction.wire programs)) (item.1.wire programs)
  have short := length_of_batchFits fits
  have serializes : messageSerializes programs
      (withComputeUnitLimit 0 (batch.map Prod.fst)) payer = true :=
    WireInstruction.serializes_of_fits (of_decide_eq_true fits)
  have each := (Message.serializes_iff_of_few (Nat.le_trans few (by decide))
    (by simp [withComputeUnitLimit]; omega)).mp serializes
  rw [batchTransaction, messageSerializes_withComputeUnitLimit _ 0]
  unfold messageSerializes withComputeUnitLimit at *
  rw [List.map_append, ← List.cons_append, List.map_append]
  apply Message.serializes_of_few
  · exact Nat.le_trans more (by omega)
  · simp
    omega
  · intro wire member
    rcases List.mem_append.mp member with earlier | last
    · exact each wire earlier
    · rw [List.map_singleton, List.map_singleton, List.mem_singleton] at last
      rw [last]
      omega

end Fitting

/-! ## The loop -/

theorem World.fits_eq
    {instructions : List Instruction}
    (serializes :
      messageSerializes C.programs instructions C.payer = true) :
    (World.fits instructions : Flow (World C) Error Bool) =
      pure (fitsInOneTransaction C.programs instructions C.payer) := by
  unfold World.fits
  rw [measuredFits_of_serializes serializes]

theorem World.fits_panics
    {instructions : List Instruction}
    (broken : messageSerializes C.programs instructions C.payer = false) :
    (World.fits instructions : Flow (World C) Error Bool) =
      Flow.panicking := by
  unfold World.fits
  rw [measuredFits_eq_none_iff.mpr broken]

theorem budgeted_eq
    {batch : List (Instruction × Nat)}
    (fits : (batch.map Prod.snd).sum + OVERHEAD_UNITS < 2 ^ 32) :
    (budgeted batch : Flow (World C) Error (List Instruction)) =
      pure (batchTransaction batch) := by
  unfold budgeted checkedUnits
  rw [if_pos fits, pure_bind]
  rfl

/-- An open batch overflows when it is not empty and the next item does not
fit on it. -/
theorem overflows_eq
    {batch : List (Instruction × Nat)} {item : Instruction × Nat}
    (closes : ∀ one ∈ batch ++ [item], IsClose C.payer one)
    (opened : batch = [] ∨
      batchFits C.programs C.payer (batch.map Prod.fst) = true) :
    (overflows (batch ++ [item]) : Flow (World C) Error Bool) =
      pure (decide (batch ≠ []) &&
        !batchFits C.programs C.payer ((batch ++ [item]).map Prod.fst)) := by
  unfold overflows
  by_cases empty : batch = []
  · subst empty
    rfl
  · have fits := opened.resolve_left empty
    have long : (batch ++ [item]).length > 1 := by
      have filled := List.length_pos_iff.mpr empty
      rw [List.length_append, List.length_singleton]
      omega
    have short := length_of_batchFits fits
    have budget := budget_fits closes (by
      rw [List.length_append, List.length_singleton]
      omega)
    have serializes := (closes item (by simp)).serializes fits
    rw [if_pos long, budgeted_eq budget, pure_bind, World.fits_eq serializes,
      pure_bind, fits_batchTransaction]
    simp [empty]

/-- The loop sends the greedy cut of its items, batch by batch. -/
theorem sendBatches_eq
    {batch items : List (Instruction × Nat)}
    (closes : ∀ one ∈ batch ++ items, IsClose C.payer one)
    (opened : batch = [] ∨
      batchFits C.programs C.payer (batch.map Prod.fst) = true) :
    (sendBatches batch items : Flow (World C) Error Unit) =
      sendAll ((greedy
        (fun one => batchFits C.programs C.payer (one.map Prod.fst)) batch
        items).map batchTransaction) := by
  induction items generalizing batch with
  | nil =>
      unfold sendBatches greedy
      by_cases empty : batch = []
      · simp [empty, sendAll]
      · have short := length_of_batchFits (opened.resolve_left empty)
        have budget := budget_fits (fun one member =>
          closes one (List.mem_append_left _ member)) (by omega)
        rw [if_pos empty, if_neg empty, budgeted_eq budget, pure_bind]
        rfl
  | cons item rest inductionHypothesis =>
      have rearranged : batch ++ item :: rest = batch ++ [item] ++ rest := by
        rw [List.append_assoc, List.singleton_append]
      have extendedCloses : ∀ one ∈ batch ++ [item], IsClose C.payer one :=
        fun one member => closes one (by
          rw [rearranged]
          exact List.mem_append_left _ member)
      have laterClose : ∀ one ∈ [item] ++ rest, IsClose C.payer one :=
        fun one member => closes one (List.mem_append_right _ member)
      have alone : batchFits C.programs C.payer ([item].map Prod.fst) = true :=
        (laterClose item (by simp)).fits _
      unfold sendBatches greedy
      dsimp only
      rw [overflows_eq extendedCloses opened, pure_bind]
      by_cases full : batch ≠ [] ∧
          batchFits C.programs C.payer ((batch ++ [item]).map Prod.fst) = false
      · have short := length_of_batchFits (opened.resolve_left full.1)
        have budget := budget_fits (fun one member =>
          closes one (List.mem_append_left _ member)) (by omega)
        rw [if_pos full, List.map_cons, budgeted_eq budget, pure_bind]
        simp only [full.1, full.2, ne_eq, not_false_eq_true, decide_true,
          Bool.not_false, Bool.and_self, if_true]
        rw [inductionHypothesis laterClose (.inr alone)]
        rfl
      · have room : (decide (batch ≠ []) &&
            !batchFits C.programs C.payer
              ((batch ++ [item]).map Prod.fst)) = false := by
          by_contra overflowing
          exact full (by simpa using overflowing)
        have extendedFits : batchFits C.programs C.payer
            ((batch ++ [item]).map Prod.fst) = true := by
          by_cases empty : batch = []
          · rw [empty]
            exact alone
          · by_contra overflowing
            exact full ⟨empty, by simpa using overflowing⟩
        rw [if_neg full, room, if_neg Bool.false_ne_true]
        exact inductionHypothesis (by rwa [← rearranged]) (.inr extendedFits)

end Remit
