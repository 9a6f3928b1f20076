import Remit.Proofs.Batches
import Remit.Proofs.Soundness

/-!
# What a cleanup leaves behind

When all sends land, cleanup closes every account in as few transactions as
possible.  It stops at the first batch that fails, and whatever was to be
closed in later batches stays open.
-/

namespace Remit

open Flows Packing

variable {C : Cluster}

/-! ## Sending in order -/

/-- All of the transactions were sent, or those up to the first that failed. -/
theorem ensures_sendAll
    (transactions : List (List Instruction)) (world : World C) :
    Flow.Ensures (sendAll transactions) world fun outcome reached =>
      ∃ sent, reached.sent = world.sent ++ sent ∧
        sent.map (·.transaction) <+: transactions ∧
        ((∀ one ∈ sent, one.landed = true) →
          outcome = .ok () ∧ sent.map (·.transaction) = transactions) := by
  induction transactions generalizing world with
  | nil =>
      exact .pure ⟨[], (List.append_nil _).symm, List.prefix_rfl,
        fun _ => ⟨rfl, rfl⟩⟩
  | cons transaction rest inductionHypothesis =>
      unfold sendAll
      refine .bind (World.ensures_send ?_ ?_)
      · intro receipt landed
        refine (inductionHypothesis _).mono fun outcome reached ended => ?_
        obtain ⟨sent, grown, inOrder, complete⟩ := ended
        refine ⟨world.sending transaction [] :: sent,
          grown.trans (List.append_assoc ..), ?_, ?_⟩
        · exact (List.prefix_cons_inj _).mpr inOrder
        · intro all
          obtain ⟨returned, same⟩ :=
            complete fun one member => all one (List.mem_cons_of_mem _ member)
          exact ⟨returned, by rw [List.map_cons, same]; rfl⟩
      · intro error failed
        refine ⟨[world.sending transaction []], rfl, ?_, ?_⟩
        · exact (List.prefix_cons_inj _).mpr (List.nil_prefix)
        · intro all
          have landed := all _ (List.mem_singleton_self _)
          rw [World.not_landed_sending failed] at landed
          cases landed

namespace ProofAccounts

/-- The close instructions of the tracked contexts and records. -/
def closes (self : ProofAccounts) (payer : Address) : List Instruction :=
  (self.contexts.map fun context =>
      .closeContextState (contextInfo context payer) payer) ++
    self.records.map fun record => .recordCloseAccount record payer payer

/-- How cleanup cuts them into batches. -/
def batches (self : ProofAccounts) (programs : Programs) (payer : Address) :
    List (List (Instruction × Nat)) :=
  greedy (fun batch => batchFits programs payer (batch.map Prod.fst)) []
    (self.closing payer)

theorem closing_fst (self : ProofAccounts) (payer : Address) :
    (self.closing payer).map Prod.fst = self.closes payer := by
  simp [closing, closes, Function.comp_def]

theorem isClose_closing (self : ProofAccounts) (payer : Address) :
    ∀ item ∈ self.closing payer, IsClose payer item := by
  intro item member
  rcases List.mem_append.mp member with context | record
  · obtain ⟨address, _, rfl⟩ := List.mem_map.mp context
    exact .inl ⟨address, rfl⟩
  · obtain ⟨address, _, rfl⟩ := List.mem_map.mp record
    exact .inr ⟨address, rfl⟩

/-- Cleanup sends its batches in order. -/
theorem close_eq (self : ProofAccounts) :
    (self.close : Flow (World C) Error Unit) =
      sendAll ((self.batches C.programs C.payer).map batchTransaction) :=
  sendBatches_eq (self.isClose_closing C.payer) (.inl rfl)

variable (self : ProofAccounts) (programs : Programs) (payer : Address)

/-- The batches are the greedy cut of the close instructions. -/
theorem batches_fst :
    (self.batches programs payer).map (List.map Prod.fst) =
      greedy (batchFits programs payer) [] (self.closes payer) := by
  unfold batches
  rw [greedy_map, closing_fst]
  rfl

theorem batches_cut :
    Cut (batchFits programs payer) (self.closes payer)
      ((self.batches programs payer).map (List.map Prod.fst)) := by
  rw [batches_fst]
  apply greedy_cut
  intro instruction member
  rw [← closing_fst] at member
  obtain ⟨item, among, rfl⟩ := List.mem_map.mp member
  exact (self.isClose_closing payer item among).fits _

theorem batches_ne_nil :
    ∀ batch ∈ self.batches programs payer, batch ≠ [] :=
  greedy_ne_nil [] (self.closing payer)

end ProofAccounts

/-- When all sends land, every close instruction was sent once and in order, in
batches that are not empty and fit, and no other cut into batches that fit
takes fewer transactions. -/
theorem cleanup_is_complete_and_minimal
    (C : Cluster) (self : ProofAccounts) (world : World C) :
    Flow.Ensures self.close world fun outcome reached =>
      ∃ sent, reached.sent = world.sent ++ sent ∧
        ((∀ one ∈ sent, one.landed = true) →
          outcome = .ok () ∧
            ∃ batches : List (List Instruction),
              batches.flatten = self.closes C.payer ∧
                List.Forall₂
                  (fun one batch => batch ≠ [] ∧
                    (∃ units,
                      one.transaction = withComputeUnitLimit units batch) ∧
                    fitsInOneTransaction C.programs one.transaction C.payer =
                      true)
                  sent batches ∧
                ∀ other : List (List Instruction),
                  other.flatten = self.closes C.payer →
                  (∀ batch ∈ other, ∃ units,
                    fitsInOneTransaction C.programs
                      (withComputeUnitLimit units batch) C.payer = true) →
                    sent.length ≤ other.length) := by
  rw [self.close_eq]
  refine (ensures_sendAll _ world).mono fun outcome reached ended => ?_
  obtain ⟨sent, grown, inOrder, complete⟩ := ended
  refine ⟨sent, grown, fun all => ?_⟩
  obtain ⟨returned, transactions⟩ := complete all
  have cut := self.batches_cut C.programs C.payer
  refine ⟨returned, _, cut.flatten, ?_, ?_⟩
  · have each : ∀ batch ∈ self.batches C.programs C.payer,
        batch.map Prod.fst ≠ [] ∧
          (∃ units, batchTransaction batch =
            withComputeUnitLimit units (batch.map Prod.fst)) ∧
          fitsInOneTransaction C.programs (batchTransaction batch) C.payer =
            true := by
      intro batch member
      have filled := self.batches_ne_nil C.programs C.payer batch member
      refine ⟨fun empty => filled (List.map_eq_nil_iff.mp empty),
        ⟨_, rfl⟩, ?_⟩
      rw [fits_batchTransaction]
      exact cut.fits _ (List.mem_map_of_mem member)
    generalize self.batches C.programs C.payer = batches at transactions each
    clear complete cut grown all inOrder returned
    induction batches generalizing sent with
    | nil =>
        rw [List.map_eq_nil_iff.mp transactions]
        exact .nil
    | cons batch rest inductionHypothesis =>
        obtain ⟨one, later, rfl, same, others⟩ :=
          List.map_eq_cons_iff.mp transactions
        refine .cons ?_ (inductionHypothesis later others fun other member =>
          each other (List.mem_cons_of_mem _ member))
        rw [same]
        exact each batch List.mem_cons_self
  · intro other flattened fitting
    have otherCut :
        Cut (batchFits C.programs C.payer) (self.closes C.payer) other :=
      ⟨flattened, fun batch member => by
        obtain ⟨units, fits⟩ := fitting batch member
        rwa [fits_withComputeUnitLimit] at fits⟩
    have fewest := greedy_minimal batchFits_hereditary otherCut
    rw [← self.batches_fst, List.length_map] at fewest
    rwa [← List.length_map (·.transaction), transactions, List.length_map]

end Remit
