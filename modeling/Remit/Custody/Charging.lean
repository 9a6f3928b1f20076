import Remit.Custody.Dispatching
import Remit.Proofs.Charges

/-!
# The compute budget covers the transaction

Whatever calls were made, a transaction with proof instructions starts with a
compute budget that covers what all its instructions are charged, as long as
every caller's budget covers the instructions it hands over.
-/

namespace Remit

open Flows

variable {C : Cluster}

/-- What is dispatched and has proof instructions is covered. -/
theorem Dispatched.covered
    {charge : Instruction → Nat} {limit : Nat}
    {transaction : List Instruction}
    (charges : Charges charge) (distinct : DistinctDraws C 0 limit)
    (dispatched : Dispatched C
      (fun drawn instructions units =>
        drawn ≤ limit ∧ (instructions.map charge).sum ≤ units) transaction)
    (proves : Proves C.programs transaction) : Covered charge transaction := by
  obtain ⟨dispatch, fits⟩ := dispatched
  cases dispatch with
  | verifying context lamports space instruction proof =>
      exact covered_verifying charges C.programs C.payer context lamports
        space instruction proof
  | opening record lamports space chunk =>
      exact (not_proves_recordOpening _ _ _ _ _ _ proves).elim
  | writing record offset data =>
      exact (not_proves_writing _ _ _ _ _ proves).elim
  | closing batch closes => exact covered_closing charges closes
  | consuming start drawn accounts instructions units withTails settled
      asked =>
      have apart := settled.draws.nodup distinct (Nat.zero_le _) asked.1
      exact covered_consuming charges settled.staged
        (List.nodup_append.mp apart).2.1 asked.2 fits

/-- Whatever calls on proof accounts were made, each transaction that was sent
with an instruction of the ZK ElGamal Proof program starts with a compute
budget that covers its charges. -/
theorem compute_limit_covers
    (C : Cluster) (state : C.State) (drawn : Nat) (operations : List Operation)
    (onProofs : ∀ operation ∈ operations, operation.OnProofs)
    {charge : Instruction → Nat} (charges : Charges charge)
    (budgets : ∀ operation ∈ operations,
      operation.Asks fun instructions units =>
        (instructions.map charge).sum ≤ units)
    (distinct : DistinctDraws C 0
      ((Desk.initial state drawn : Desk C).run operations).world.drawn) :
    ∀ one ∈ ((Desk.initial state drawn : Desk C).run operations).world.sent,
      Proves C.programs one.transaction → Covered charge one.transaction := by
  have posts := Desk.run_posts (Desk.settled_initial state drawn) onProofs
    budgets (Nat.le_refl _)
  obtain ⟨later, sent, dispatched⟩ := posts.sent
  intro one member
  rw [sent] at member
  exact (dispatched one member).covered charges distinct

namespace Quiet

/-- What the runtime charges for an instruction. -/
def charge : Instruction → Nat
  | .setComputeUnitLimit _ => 150
  | .createAccount .. => 150
  | .recordInitialize .. => 700
  | .recordWrite .. => 650
  | .recordSetAuthority .. => 700
  | .recordCloseAccount .. => 850
  | .verifyProof instruction .. => computeUnits instruction
  | .verifyProofFromAccount instruction .. => computeUnits instruction
  | .closeContextState .. => 3300
  | .token _ => 100000

theorem charges : Charges charge where
  setComputeUnitLimit _ := Nat.le_refl _
  createAccount _ _ _ _ _ := Nat.le_refl _
  verifyProof _ _ _ := Nat.le_refl _
  verifyProofFromAccount _ _ _ _ := Nat.le_refl _
  closeContextState _ _ := Nat.le_refl _
  recordWrite _ _ _ _ := show (650 : Nat) ≤ 2000 by decide
  recordCloseAccount _ _ _ := show (850 : Nat) ≤ 5000 by decide

/-- Proofs are verified both ways and consumed. -/
def proofErrands : List Operation :=
  [.verify 0 .verifyPubkeyValidity ⟨[1, 2, 3], 33⟩,
    .stageFromRecord 0 .verifyBatchedRangeProofU256
      ⟨List.replicate 700 7, 40⟩,
    .stageFromRecord 0 .verifyPercentageWithCap ⟨List.replicate 20 9, 72⟩,
    .consume 0 [.verifyProof .verifyPubkeyValidity none [4, 5, 6]] [] 2600]

theorem proofErrands_drawn :
    ((Desk.initial ⟨fun _ => none, fun _ => none⟩ 0 : Desk cluster).run
      proofErrands).world.drawn = 5 := by
  decide +kernel

/-- Two of the four transactions have proof instructions. -/
theorem proofErrands_are_covered :
    ((Desk.initial ⟨fun _ => none, fun _ => none⟩ 0 : Desk cluster).run
        proofErrands).world.sent.length = 4 ∧
      ∀ one ∈ ((Desk.initial ⟨fun _ => none, fun _ => none⟩ 0 :
          Desk cluster).run proofErrands).world.sent,
        Proves cluster.programs one.transaction →
          Covered charge one.transaction := by
  refine ⟨by decide +kernel, ?_⟩
  refine compute_limit_covers cluster ⟨fun _ => none, fun _ => none⟩ 0
    proofErrands ?_ charges ?_ ?_
  · intro operation member
    simp only [proofErrands, List.mem_cons, List.not_mem_nil, or_false]
      at member
    rcases member with rfl | rfl | rfl | rfl <;> trivial
  · intro operation member session instructions signers units isConsume
    simp only [proofErrands, List.mem_cons, List.not_mem_nil, or_false]
      at member
    rcases member with rfl | rfl | rfl | rfl <;> cases isConsume
    decide
  · rw [proofErrands_drawn]
    intro left leftSmall right rightSmall same
    have leftBelow : left < 5 := leftSmall.2
    have rightBelow : right < 5 := rightSmall.2
    exact keypair_injOn (by omega) (by omega) (congrArg Keypair.mk same)

end Quiet
end Remit
