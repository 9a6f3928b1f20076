import Remit.Token.Landing

/-!
# Fee schedules

`SetTransferFee` schedules a fee two epochs ahead and overwrites one that is
still scheduled.  In the epoch in which it lands it changes no fee.  Token-2022
rejects a public transfer that states another fee than the one that it charges,
and a confidential one whose proof is about another rate or cap than those in
force.
-/

namespace Remit

/-! ## Histories -/

namespace TransferFeeConfig

variable (config : TransferFeeConfig)

/-- `SetTransferFee`. -/
def setFee (epoch transferFeeBasisPoints maximumFee : Nat) :
    TransferFeeConfig :=
  { config with
    olderTransferFee :=
      if config.newerTransferFee.epoch ≤ epoch then config.newerTransferFee
      else config.olderTransferFee
    newerTransferFee := ⟨epoch + 2, maximumFee, transferFeeBasisPoints⟩ }

/-- A fee that is scheduled now is not charged yet. -/
theorem getEpochFee_setFee (epoch transferFeeBasisPoints maximumFee : Nat) :
    (config.setFee epoch transferFeeBasisPoints maximumFee).getEpochFee epoch =
      config.getEpochFee epoch := by
  have ahead : ¬ epoch + 2 ≤ epoch := by omega
  exact if_neg ahead

/-- What can happen to the fee extension of a mint: a fee is set, an epoch
begins, or something else in it changes. -/
inductive Step :
    TransferFeeConfig × Nat → TransferFeeConfig × Nat → Prop where
  | setFee {config : TransferFeeConfig} {epoch : Nat}
      (transferFeeBasisPoints maximumFee : Nat) :
      Step (config, epoch)
        (config.setFee epoch transferFeeBasisPoints maximumFee, epoch)
  | begin {config : TransferFeeConfig} {epoch later : Nat} :
      epoch ≤ later → Step (config, epoch) (config, later)
  | other {config changed : TransferFeeConfig} {epoch : Nat} :
      changed.olderTransferFee = config.olderTransferFee →
      changed.newerTransferFee = config.newerTransferFee →
      Step (config, epoch) (changed, epoch)

abbrev History :=
  Relation.ReflTransGen Step

variable {config}

/-- Only a new epoch changes the schedule in force. -/
theorem Step.getEpochFee_eq
    {later : TransferFeeConfig} {epoch next : Nat}
    (step : Step (config, epoch) (later, next)) :
    epoch ≤ next ∧
      (next = epoch → later.getEpochFee epoch = config.getEpochFee epoch) := by
  cases step with
  | setFee transferFeeBasisPoints maximumFee =>
      exact ⟨Nat.le_refl _, fun _ => getEpochFee_setFee ..⟩
  | begin forward => exact ⟨forward, fun _ => rfl⟩
  | other older newer =>
      refine ⟨Nat.le_refl _, fun _ => ?_⟩
      unfold getEpochFee
      rw [older, newer]

/-- Whatever is set how often, the schedule in force stays within an epoch. -/
theorem History.getEpochFee_eq
    {later : TransferFeeConfig} {epoch next : Nat}
    (history : History (config, epoch) (later, next)) :
    epoch ≤ next ∧
      (next = epoch → later.getEpochFee epoch = config.getEpochFee epoch) := by
  suffices general : ∀ reached : TransferFeeConfig × Nat,
      History (config, epoch) reached →
        epoch ≤ reached.2 ∧
          (reached.2 = epoch →
            reached.1.getEpochFee epoch = config.getEpochFee epoch) from
    general _ history
  intro reached history
  induction history with
  | refl => exact ⟨Nat.le_refl _, fun _ => rfl⟩
  | @tail middle last _ step inductionHypothesis =>
      obtain ⟨forward, kept⟩ := inductionHypothesis
      obtain ⟨onward, keptOn⟩ :=
        Step.getEpochFee_eq step
      refine ⟨forward.trans onward, fun same => ?_⟩
      have middleSame : middle.2 = epoch := by omega
      rw [middleSame] at keptOn
      exact (keptOn same).trans (kept middleSame)

end TransferFeeConfig

/-! ## Whether a fee is the one that is charged -/

/-- The rate and the cap of a schedule. -/
def TransferFee.terms (fee : TransferFee) : Nat × Nat :=
  (fee.transferFeeBasisPoints, fee.maximumFee)

theorem TransferFee.calculateFee_congr
    {fee other : TransferFee} (same : fee.terms = other.terms)
    (amount : Nat) : fee.calculateFee amount = other.calculateFee amount := by
  have rate : fee.transferFeeBasisPoints = other.transferFeeBasisPoints :=
    congrArg Prod.fst same
  have cap : fee.maximumFee = other.maximumFee := congrArg Prod.snd same
  unfold TransferFee.calculateFee
  rw [rate, cap]

/-- The schedule in force for a mint of a chain is the one that was read. -/
def TokenChain.KeepsSchedule (landing : TokenChain) (address : Address)
    (read : MintSnapshot) (epoch : Nat) : Prop :=
  ∀ config, read.transferFee = some config →
    ∀ mint, landing.mints address = some mint →
      ∃ later, mint.transferFee = some later ∧
        (later.getEpochFee landing.epoch).terms =
          (config.getEpochFee epoch).terms

theorem TokenChain.KeepsSchedule.of_history
    {landing : TokenChain} {address : Address} {read : MintSnapshot}
    (history : ∀ config, read.transferFee = some config →
      ∀ mint, landing.mints address = some mint →
        ∃ later, mint.transferFee = some later ∧
          TransferFeeConfig.History (config, landing.epoch)
            (later, landing.epoch)) :
    landing.KeepsSchedule address read landing.epoch := by
  intro config present mint found
  obtain ⟨later, laterPresent, happened⟩ := history config present mint found
  exact ⟨later, laterPresent,
    congrArg _ (happened.getEpochFee_eq.2 rfl)⟩

/-- The fee that was worked out is charged as long as the schedule stays. -/
theorem TokenChain.KeepsSchedule.chargedFee
    {landing : TokenChain} {address : Address} {read mint : MintSnapshot}
    {epoch amount fee : Nat}
    (kept : landing.KeepsSchedule address read epoch)
    (expected : expectedFee read epoch amount = .ok fee)
    (found : landing.mints address = some mint) :
    mint.chargedFee landing.epoch amount = some fee := by
  obtain ⟨config, required, computed⟩ := expectedFee_eq_ok expected
  have present := MintSnapshot.requireTransferFee_eq_ok required
  obtain ⟨later, laterPresent, same⟩ := kept config present mint found
  unfold MintSnapshot.chargedFee
  rw [laterPresent]
  exact (TransferFee.calculateFee_congr same amount).trans computed

theorem TokenChain.KeepsSchedule.refl
    {landing : TokenChain} {address : Address} {mint : MintSnapshot}
    (found : landing.mints address = some mint) :
    landing.KeepsSchedule address mint landing.epoch := by
  intro config present other same
  obtain rfl := Option.some.inj (found.symm.trans same)
  exact ⟨config, present, rfl⟩

/-- `SetTransferFee`, signed by the authority of the fee. -/
def TokenChain.setTransferFee (signers : List Address) (chain : TokenChain)
    (address authority : Address) (basisPoints maximumFee : Nat) :
    Option TokenChain :=
  match chain.mints address with
  | none => none
  | some mint =>
      match mint.transferFee with
      | none => none
      | some config =>
          if config.transferFeeConfigAuthority = some authority ∧
              authority ∈ signers ∧
              basisPoints ≤ TransferFee.ONE_IN_BASIS_POINTS then
            some
              { chain with
                mints := Function.update chain.mints address <| some
                  { mint with
                    transferFee :=
                      some (config.setFee chain.epoch basisPoints
                        maximumFee) } }
          else none

/-- Setting a fee is a step of the history, and the schedule stays. -/
theorem TokenChain.KeepsSchedule.of_setTransferFee
    {signers : List Address} {chain after : TokenChain}
    {address authority : Address} {basisPoints maximumFee : Nat}
    {mint : MintSnapshot}
    (done :
      chain.setTransferFee signers address authority basisPoints maximumFee =
        some after)
    (found : chain.mints address = some mint) :
    after.KeepsSchedule address mint chain.epoch := by
  unfold setTransferFee at done
  rw [found] at done
  dsimp only at done
  split at done
  case h_1 => cases done
  case h_2 config present =>
      split at done
      case isFalse => cases done
      case isTrue =>
          cases done
          apply of_history
          intro other otherPresent left leftFound
          obtain rfl := Option.some.inj (present.symm.trans otherPresent)
          dsimp only at leftFound
          rw [Function.update_self] at leftFound
          cases leftFound
          exact ⟨_, rfl, .single (.setFee basisPoints maximumFee)⟩

/-- Whether the fee that an instruction states is not the one that would be
charged. -/
def TokenInstruction.Misstates (landing : TokenChain) :
    TokenInstruction → Prop
  | transferCheckedWithFee _ address _ _ amount _ fee =>
      ∃ mint, landing.mints address = some mint ∧
        mint.chargedFee landing.epoch amount ≠ some fee
  | _ => False

/-! ## What is held publicly -/

/-- The balance of an account and the fees withheld in it. -/
def TokenChain.holdings (chain : TokenChain) (address : Address) :
    Option (Nat × Option Nat) :=
  (chain.accounts address).map fun account =>
    (account.amount, account.withheldFee)

/-- What a transfer to another account has done. -/
structure FeePaid (source destination : Address) (moved : FeeTransfer)
    (before after : TokenChain) : Prop where
  debit : ∃ balance withheld,
    before.holdings source = some (balance + moved.amount, withheld) ∧
      after.holdings source = some (balance, withheld)
  credit : ∃ balance withheld left net,
    moved.net = .ok net ∧
      before.holdings destination = some (balance, withheld) ∧
      after.holdings destination = some (balance + net, left) ∧
      left.getD 0 = withheld.getD 0 + moved.fee

/-- A debit leaves the withheld fees alone. -/
theorem AccountSnapshot.debitedBy_withheldFee
    {account after : AccountSnapshot} {permanentDelegate : Option Address}
    {authority : Address} {amount : Nat}
    (debited : account.debitedBy permanentDelegate authority amount =
      some after) :
    after.withheldFee = account.withheldFee := by
  unfold debitedBy spendAllowance at debited
  grind

/-- A credit keeps the fee back. -/
theorem AccountSnapshot.creditedWith_holdings
    {account after : AccountSnapshot} {amount fee : Nat}
    (credited : account.creditedWith amount fee = some after) :
    fee ≤ amount ∧ after.amount = account.amount + (amount - fee) ∧
      after.withheldFee.getD 0 = account.withheldFee.getD 0 + fee := by
  have total := (creditedWith_eq_some credited).2.1
  have fits : fee ≤ amount ∧
      after.amount = account.amount + (amount - fee) := by
    unfold creditedWith at credited
    grind
  exact ⟨fits.1, fits.2, by omega⟩

namespace TokenChain

variable {signers : List Address} {chain after : TokenChain}
  {source mint destination authority : Address}
  {amount decimals fee epoch : Nat}

/-- Freezing and thawing move nothing. -/
theorem toggleFreeze_holdings
    {address : Address} {freeze : Bool}
    (toggled :
      chain.toggleFreeze signers address mint authority freeze = some after) :
    after.holdings = chain.holdings := by
  obtain ⟨account, found, _, _, rfl⟩ := toggleFreeze_eq_some toggled
  funext other
  unfold holdings
  by_cases here : other = address
  · subst here
    rw [setAccount_self, found]
    rfl
  · rw [setAccount_of_ne _ here]

theorem transferChecked_feePaid
    (transferred :
      chain.transferChecked signers source mint destination authority amount
        decimals fee = some after)
    (different : source ≠ destination) :
    FeePaid source destination ⟨amount, fee, epoch⟩ chain after := by
  obtain ⟨payer, payee, _, debited, payerFound, payeeFound, _, _, _, _, debits,
    moved⟩ := transferChecked_eq_some transferred
  rcases moved with ⟨same, _⟩ | ⟨_, credited, credits, rfl⟩
  · exact absurd same different
  have debit := AccountSnapshot.debitedBy_eq_some debits
  have credit := AccountSnapshot.creditedWith_holdings credits
  have enough := debit.1
  constructor
  · refine ⟨debited.amount, debited.withheldFee, ?_, ?_⟩
    · have whole : payer.amount = debited.amount + amount := by
        rw [debit.2.1]
        omega
      simp only [holdings, payerFound, Option.map_some, whole,
        AccountSnapshot.debitedBy_withheldFee debits]
    · simp only [holdings, setAccount_of_ne _ different, setAccount_self,
        Option.map_some]
  · refine ⟨payee.amount, payee.withheldFee, credited.withheldFee,
      amount - fee, ?_, ?_, ?_, credit.2.2⟩
    · exact if_neg (Nat.not_lt.mpr credit.1)
    · simp only [holdings, payeeFound, Option.map_some]
    · simp only [holdings, setAccount_self, Option.map_some, credit.2.1]

/-- A transfer between a thaw and a freeze. -/
theorem seizeFrozen_feePaid
    {freezeAuthority : Address}
    (carried :
      chain.carryOutAll signers
        [.thawAccount source mint freezeAuthority,
          .transferCheckedWithFee source mint destination authority amount
            decimals fee,
          .freezeAccount source mint freezeAuthority] = some after)
    (different : source ≠ destination) :
    FeePaid source destination ⟨amount, fee, epoch⟩ chain after := by
  obtain ⟨thawed, thaws, carried⟩ := Option.bind_eq_some_iff.mp carried
  obtain ⟨moved, transferred, carried⟩ := Option.bind_eq_some_iff.mp carried
  obtain ⟨frozen, freezes, rest⟩ := Option.bind_eq_some_iff.mp carried
  cases rest
  have paid : FeePaid source destination ⟨amount, fee, epoch⟩ thawed moved :=
    transferChecked_feePaid transferred different
  have before := toggleFreeze_holdings thaws
  have left := toggleFreeze_holdings freezes
  constructor
  · rw [← before, left]
    exact paid.debit
  · rw [← before, left]
    exact paid.credit

end TokenChain

/-! ## What Token-2022 promises -/

/-- The rates and caps with which the fee proofs of a transfer agree: its
percentage-with-cap proof and the validity proofs of its amount and its fee. -/
structure FeeProofs (crypto : Crypto) where
  agrees : (percentage amountValidity feeValidity : Bytes) → Nat × Nat → Prop
  transfer_agrees :
    ∀ available decryptable amount source aeKey destination auditor withheld
      basisPoints maximumFee proof,
    crypto.transferWithFeeSplitProofData available decryptable amount source
        aeKey destination auditor withheld basisPoints maximumFee = .ok proof →
      agrees proof.percentageWithCapProofData.bytes
        proof.transferAmountCiphertextValidityProofDataWithCiphertext.proofData.bytes
        proof.feeCiphertextValidityProofData.bytes (basisPoints, maximumFee)

/-- Where Token-2022 rejects a public transfer for its fee. -/
def PublicFeeContract (C : Cluster) (rejected : Error → Prop) : Prop :=
  ∀ state (instructions : List TokenInstruction) signers error,
    instructions.all TokenInstruction.isPublic = true →
    (C.send state (instructions.map .token) signers).outcome = .error error →
    rejected error →
      ∃ instruction ∈ instructions, instruction.Misstates
        (C.tokenChain (C.send state (instructions.map .token) signers).before)

/-- Where Token-2022 rejects a transaction for the fee of a transfer. -/
structure FeeContract {crypto : Crypto} (C : Cluster)
    (proofs : FeeProofs crypto) (rejected : Error → Prop) : Prop where
  publicFee : PublicFeeContract C rejected
  confidentialFee : ∀ state transaction signers error transfer equality
      amountValidity feeValidity authority percentage,
    tokenInstructions transaction = [.transferWithFee transfer] →
    TransferContexts (C.accounts (C.send state transaction signers).before)
      transfer equality amountValidity feeValidity →
    C.accounts (C.send state transaction signers).before transfer.feeSigma =
      some (.context authority .verifyPercentageWithCap percentage) →
    (C.send state transaction signers).outcome = .error error →
    rejected error →
      let landing := C.tokenChain (C.send state transaction signers).before
      ∃ mint, landing.mints transfer.mint = some mint ∧
        ∀ config, mint.transferFee = some config →
          ¬ proofs.agrees percentage amountValidity feeValidity
            (config.getEpochFee landing.epoch).terms
  setsFee : ∀ state address authority basisPoints maximumFee signers receipt,
    let transaction : List Instruction :=
      [.token (.setTransferFee address authority basisPoints maximumFee)]
    (C.send state transaction signers).outcome = .ok receipt →
      (C.tokenChain (C.send state transaction signers).before).setTransferFee
          (C.payer :: signers.map (·.pubkey)) address authority basisPoints
          maximumFee =
        some (C.tokenChain (C.send state transaction signers).after)
  plainFee : ∀ state transaction signers error,
    tokenInstructions transaction = [] →
    (C.send state transaction signers).outcome = .error error →
      ¬ rejected error

/-- Token-2022 owns some accounts, and they change by its instructions only. -/
structure OwnedContract (C : Cluster) (owned : C.State → Address → Prop) :
    Prop where
  plain : ∀ state transaction signers receipt address,
    tokenInstructions transaction = [] →
    (C.send state transaction signers).outcome = .ok receipt →
    owned (C.send state transaction signers).before address →
      C.accountData (C.send state transaction signers).after address =
        C.accountData (C.send state transaction signers).before address
  notLanded : ∀ state transaction signers error address,
    (C.send state transaction signers).outcome = .error error →
    owned (C.send state transaction signers).before address →
      C.accountData (C.send state transaction signers).after address =
        C.accountData (C.send state transaction signers).before address

end Remit
