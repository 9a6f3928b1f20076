import Remit.Cluster.Busy
import Remit.Token.Fees

/-!
# A market

A busy cluster on which tokens are paid publicly and confidentially, under a fee
that can be set.  It refuses payments that state another fee than is charged.
-/

namespace Remit
namespace Busy

/-! ## Misstated fees -/

/-- The error code of Token-2022 for another fee than is charged. -/
def FEE_MISMATCH : Nat :=
  32

/-- The error code of Token-2022 for proofs about another schedule. -/
def FEE_PARAMETERS_MISMATCH : Nat :=
  33

/-- Whether a transaction was refused for a fee. -/
def feeRejected (error : Error) : Prop :=
  error.customCode = some FEE_MISMATCH ∨
    error.customCode = some FEE_PARAMETERS_MISMATCH

/-- The error of an instruction that states another fee than is charged. -/
def feeError (state : State) : TokenInstruction → Option Nat
  | .transferCheckedWithFee _ address _ _ amount _ fee =>
      match state.ledger.chain.mints address with
      | none => none
      | some mint =>
          if mint.chargedFee state.ledger.epoch amount = some fee then none
          else some FEE_MISMATCH
  | .transferWithFee transfer =>
      match state.ledger.chain.mints transfer.mint,
          Quiet.statementOf state.accounts transfer with
      | some mint, some statement =>
          if mint.chargedFee state.ledger.epoch statement.amount =
              some statement.fee then none
          else some FEE_PARAMETERS_MISMATCH
      | _, _ => none
  | _ => none

/-- A public instruction with such an error states another fee. -/
theorem misstates_of_feeError
    {state : State} {instruction : TokenInstruction}
    (isPublic : instruction.isPublic = true)
    (wrong : (feeError state instruction).isSome = true) :
    instruction.Misstates state.ledger.chain := by
  unfold feeError at wrong
  split at wrong
  case h_1 =>
      split at wrong
      case h_1 => cases wrong
      case h_2 mint found =>
          split at wrong
          case isTrue => cases wrong
          case isFalse differs => exact ⟨mint, found, differs⟩
  case h_2 => cases isPublic
  case h_3 => cases wrong

/-- A confidential transfer with such an error has proofs about another fee. -/
theorem chargedFee_ne_of_feeError
    {state : State} {transfer : TransferWithFee}
    {statement : TransferStatement}
    (stated : Quiet.statementOf state.accounts transfer = some statement)
    (wrong : (feeError state (.transferWithFee transfer)).isSome = true) :
    ∃ mint, state.ledger.chain.mints transfer.mint = some mint ∧
      mint.chargedFee state.ledger.epoch statement.amount ≠
        some statement.fee := by
  unfold feeError at wrong
  dsimp only at wrong
  rw [stated] at wrong
  cases found : state.ledger.chain.mints transfer.mint with
  | none =>
      rw [found] at wrong
      cases wrong
  | some mint =>
      rw [found] at wrong
      dsimp only at wrong
      split at wrong
      case isTrue => cases wrong
      case isFalse differs => exact ⟨mint, rfl, differs⟩

/-- The error of the instruction at an index. -/
def refusedAt (state : State) (index : Nat) (instruction : Instruction) :
    Option Error :=
  (instruction.token?.bind (feeError state)).map fun code =>
    .transaction (.instructionError index (.custom code)) []

/-- The first misstated fee, or no reason. -/
def marketRefusal : Refusal := fun state transaction =>
  (transaction.zipIdx.findSome? fun (instruction, index) =>
      refusedAt state index instruction).getD
    (unexplained state transaction)

/-- A transaction that is refused for a fee has an instruction that states
another than is charged. -/
theorem exists_feeError
    {state : State} {transaction : List Instruction}
    (refused : feeRejected (marketRefusal state transaction)) :
    ∃ instruction ∈ tokenInstructions transaction,
      (feeError state instruction).isSome = true := by
  unfold marketRefusal at refused
  cases found : transaction.zipIdx.findSome? fun (instruction, index) =>
      refusedAt state index instruction with
  | none =>
      rw [found] at refused
      rcases refused with refused | refused <;> cases refused
  | some error =>
      obtain ⟨⟨instruction, index⟩, member, here⟩ :=
        List.exists_of_findSome?_eq_some found
      obtain ⟨code, stated, -⟩ := Option.map_eq_some_iff.mp here
      obtain ⟨token, isToken, wrong⟩ := Option.bind_eq_some_iff.mp stated
      have among := List.fst_mem_of_mem_zipIdx member
      exact ⟨token, List.mem_filterMap.mpr ⟨instruction, among, isToken⟩,
        Option.isSome_of_mem wrong⟩

/-! ## The cluster -/

/-- Carry out a confidential transfer, the setting of a fee, or public
instructions. -/
def marketEffect : Effect := fun signers instructions state =>
  match instructions with
  | [.transferWithFee transfer] =>
      match feeError state (.transferWithFee transfer) with
      | some _ => none
      | none =>
          Quiet.carryOut ⟨state.accounts, state.ledger.tokens⟩ transfer
  | [.setTransferFee address authority basisPoints maximumFee] =>
      match state.ledger.chain.setTransferFee signers address authority
          basisPoints maximumFee with
      | none => none
      | some chain => writeBack state.ledger chain [address]
  | instructions => publicEffect signers instructions state

def market : Cluster :=
  clusterOf marketRefusal marketEffect

theorem marketEffect_carriesOutPublic : CarriesOutPublic marketEffect := by
  intro signers instructions state isPublic
  unfold marketEffect
  split
  · cases isPublic
  · cases isPublic
  · rfl

theorem marketContract : PublicContract market :=
  marketEffect_carriesOutPublic.contract

/-- The cluster carries out the transfer that the proofs state. -/
theorem marketEffect_transferWithFee
    {signers : List Address} {transfer : TransferWithFee} {state : State}
    {tokens : Quiet.Tokens}
    (ran : marketEffect signers [.transferWithFee transfer] state =
      some tokens) :
    Quiet.carryOut ⟨state.accounts, state.ledger.tokens⟩ transfer =
      some tokens := by
  unfold marketEffect at ran
  dsimp only at ran
  cases accepted : feeError state (.transferWithFee transfer) with
  | none =>
      rw [accepted] at ran
      exact ran
  | some code =>
      rw [accepted] at ran
      cases ran

/-- The cluster sets fees as Token-2022 does. -/
theorem marketEffect_setTransferFee
    {signers : List Address} {address authority : Address}
    {basisPoints maximumFee : Nat} {state : State} {tokens : Quiet.Tokens}
    (ran : marketEffect signers
      [.setTransferFee address authority basisPoints maximumFee] state =
        some tokens) :
    ∃ chain,
      state.ledger.chain.setTransferFee signers address authority basisPoints
          maximumFee = some chain ∧
        writeBack state.ledger chain [address] = some tokens := by
  unfold marketEffect at ran
  dsimp only at ran
  cases done : state.ledger.chain.setTransferFee signers address authority
      basisPoints maximumFee with
  | none =>
      rw [done] at ran
      cases ran
  | some chain =>
      rw [done] at ran
      exact ⟨chain, rfl, ran⟩

theorem marketTokens (withheldKey : PodElGamalPubkey) :
    TokenContract market Transparent.crypto withheldKey where
  transfers := by
    intro (state : State) transaction signers receipt transfer equality
      amountValidity feeValidity landed carried contexts
    obtain ⟨_, ran, _⟩ := process_eq_some (send_attempts.ok landed)
    rw [carried] at ran
    obtain ⟨statement, stated, executed⟩ :=
      Quiet.carryOut_eq_some (marketEffect_transferWithFee ran)
    change TransferContexts
      (send marketRefusal marketEffect state transaction
        signers).before.accounts transfer
      equality amountValidity feeValidity at contexts
    rw [send_attempts.before] at contexts
    obtain ⟨⟨_, equalityHeld⟩, ⟨_, amountHeld⟩, ⟨_, feeHeld⟩⟩ := contexts
    simp only [Quiet.statementOf, equalityHeld, amountHeld, feeHeld] at stated
    cases stated
    change Executes Transparent.crypto withheldKey
      (Quiet.decoded
        (send marketRefusal marketEffect state transaction
          signers).before.ledger.tokens) _
      (Quiet.decoded
        (send marketRefusal marketEffect state transaction
          signers).after.ledger.tokens)
    rw [send_attempts.before]
    exact Transparent.executeTransfer_sound executed

/-- All accounts with data are those of Token-2022. -/
theorem marketOwned : OwnedContract market fun _ _ => True where
  plain := by
    intro (state : State) transaction signers receipt address plain landed _
    obtain ⟨_, ran, _⟩ := process_eq_some (send_attempts.ok landed)
    rw [plain] at ran
    change (send marketRefusal marketEffect state transaction
        signers).after.ledger.tokens address =
      (send marketRefusal marketEffect state transaction
        signers).before.ledger.tokens address
    rw [send_attempts.before]
    have same : some state.reached.ledger.tokens =
        some (send marketRefusal marketEffect state transaction
          signers).after.ledger.tokens := by
      rw [← ran]
      simp [marketEffect, publicEffect, TokenChain.carryOutAll, writeBack]
    rw [Option.some.inj same]
  notLanded := by
    intro (state : State) transaction signers error address failed _
    exact congrArg (fun state : State => state.ledger.tokens address)
      ((send_attempts.error failed).trans send_attempts.before.symm)

theorem setTransferFee_elsewhere
    {signers : List Address} {chain after : TokenChain}
    {address authority : Address} {basisPoints maximumFee : Nat}
    (done :
      chain.setTransferFee signers address authority basisPoints maximumFee =
        some after) :
    after.accounts = chain.accounts ∧ after.epoch = chain.epoch ∧
      ∀ other, other ≠ address → after.mints other = chain.mints other := by
  unfold TokenChain.setTransferFee at done
  split at done
  case h_1 => cases done
  case h_2 =>
      split at done
      case h_1 => cases done
      case h_2 =>
          split at done
          case isFalse => cases done
          case isTrue =>
              cases done
              exact ⟨rfl, rfl, fun other away => Function.update_of_ne away _ _⟩

/-- The fee proofs show the amount and the fee. -/
def shownFees : FeeProofs Transparent.crypto where
  agrees _ amountValidity feeValidity terms :=
    (TransferFee.mk 0 terms.2 terms.1).calculateFee (leValue amountValidity) =
      some (leValue feeValidity)
  transfer_agrees := by
    intro available decryptable amount source aeKey destination auditor withheld
      basisPoints maximumFee proof generated
    obtain ⟨_, stated, charged⟩ := Transparent.crypto.transfer_statement _ _ _
      _ _ _ _ _ _ _ _ generated
    rw [← stated] at charged
    exact charged

/-- The fee that the proofs show is the one that is charged for the amount. -/
theorem shownFees_agrees_iff
    {config : TransferFeeConfig} {epoch : Nat}
    {percentage amountValidity feeValidity : Bytes} :
    shownFees.agrees percentage amountValidity feeValidity
        (config.getEpochFee epoch).terms ↔
      config.calculateEpochFee epoch (Transparent.crypto.provenAmount
          amountValidity) =
        some (Transparent.crypto.provenFee feeValidity) :=
  Iff.rfl

theorem marketFees : FeeContract market shownFees feeRejected where
  publicFee := by
    intro (state : State) instructions signers error isPublic failed refused
    rw [send_refused failed] at refused
    obtain ⟨instruction, member, wrong⟩ := exists_feeError refused
    rw [tokenInstructions_map] at member
    have misstates := misstates_of_feeError
      (List.all_eq_true.mp isPublic instruction member) wrong
    refine ⟨instruction, member, ?_⟩
    rw [← send_attempts.before] at misstates
    exact misstates
  confidentialFee := by
    intro (state : State) transaction signers error transfer equality
      amountValidity feeValidity authority percentage carried contexts _ failed
      refused
    change TransferContexts
      (send marketRefusal marketEffect state transaction
        signers).before.accounts transfer
      equality amountValidity feeValidity at contexts
    rw [send_attempts.before] at contexts
    obtain ⟨⟨_, equalityHeld⟩, ⟨_, amountHeld⟩, ⟨_, feeHeld⟩⟩ := contexts
    rw [send_refused failed] at refused
    obtain ⟨instruction, member, wrong⟩ := exists_feeError refused
    rw [carried] at member
    obtain rfl := List.mem_singleton.mp member
    have stated : Quiet.statementOf state.reached.accounts transfer =
        some ⟨Transparent.crypto.provenBalance equality,
          Transparent.crypto.provenAmount amountValidity,
          Transparent.crypto.provenFee feeValidity⟩ := by
      simp only [Quiet.statementOf, equalityHeld, amountHeld, feeHeld]
    obtain ⟨mint, found, differs⟩ := chargedFee_ne_of_feeError stated wrong
    have landing : market.tokenChain
        (market.send state transaction signers).before =
          state.reached.ledger.chain :=
      congrArg (fun state : State => state.ledger.chain) send_attempts.before
    rw [landing]
    refine ⟨mint, found, fun config present agrees => differs ?_⟩
    unfold MintSnapshot.chargedFee
    rw [present]
    exact shownFees_agrees_iff.mp agrees
  setsFee := by
    intro (state : State) address authority basisPoints maximumFee signers
      receipt transaction landed
    obtain ⟨_, ran, sameEpoch⟩ := process_eq_some (send_attempts.ok landed)
    obtain ⟨chain, done, wrote⟩ := marketEffect_setTransferFee ran
    obtain ⟨accounts, epoch, mints⟩ := setTransferFee_elsewhere done
    have left := writeBack_eq_some wrote (fun other away => by
      rw [accounts]
      exact ⟨rfl, mints other (by simpa using away)⟩) epoch
    change (send marketRefusal marketEffect state transaction
        signers).before.ledger.chain.setTransferFee _ _ _ _ _ =
      some (send marketRefusal marketEffect state transaction
        signers).after.ledger.chain
    rw [send_attempts.before]
    refine done.trans (congrArg some (left.symm.trans ?_))
    rw [← sameEpoch]
  plainFee := by
    intro (state : State) transaction signers error plain failed refused
    rw [send_refused failed] at refused
    obtain ⟨instruction, member, _⟩ := exists_feeError refused
    rw [plain] at member
    cases member

end Busy
end Remit
