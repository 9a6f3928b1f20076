import Remit.Probe.Separation

/-!
# How often a keeper is paid for

A keeper calls the agent again and again with the same bytes.  The calls succeed
for as long as both the allowance and the balance cover one more payment, and
not any longer, in whatever epoch and whether CPI Guard is on or not.
-/

namespace Remit
namespace Agent

open Flows Runs
open Probe (ProgramCall ProgramSetting)

variable {Data : Type}

/-- What a payment is about. -/
structure Mandate where
  source : Address
  mint : Address
  destination : Address
  amount : UInt64
  address : Address
deriving DecidableEq

/-- A call of the agent as a client builds it, with the mint as it is. -/
structure KeeperCall (setting : ProgramSetting Data) (mandate : Mandate)
    (snapshot : MintSnapshot) (call : ProgramCall Data) : Prop where
  program : call.program = .agent
  built : ∃ instruction,
    executeMandate setting.hash setting.programs mandate.source mandate.mint
        mandate.destination mandate.amount = some instruction ∧
      Passes instruction call.accounts ∧
      call.instructionData = instruction.data
  derived : ∃ bump,
    mandateAddress setting.hash mandate.source mandate.destination
      mandate.amount = some (mandate.address, bump)
  current : ∃ mintInfo lamports,
    call.accounts[1]? = some mintInfo ∧
      mintInfo.owner = setting.programs.token2022 ∧
      MintSnapshot.decode setting.interface mandate.mint mintInfo.data
        lamports = .ok snapshot

/-- The transfer that pays once. -/
def Mandate.transfer (mandate : Mandate) (decimals fee : Nat) :
    TokenInstruction :=
  .transferCheckedWithFee mandate.source mandate.mint mandate.destination
    mandate.address mandate.amount.toNat decimals fee

section Calling

variable {setting : ProgramSetting Data} {mandate : Mandate}
  {snapshot : MintSnapshot} {call : ProgramCall Data}
  {chain after : TokenChain} {fee : Nat}

/-- What a keeper calls is the payment. -/
theorem KeeperCall.executes_iff
    (builds : BuildsTransfers setting.programs)
    (keeper : KeeperCall setting mandate snapshot call)
    (charged : snapshot.chargedFee chain.epoch mandate.amount.toNat =
      some fee) :
    setting.Executes call chain after ↔
      (mandate.transfer snapshot.decimals fee).performInvoked
        (call.signers ++ [mandate.address]) chain = some after := by
  obtain ⟨instruction, isBuilt, passes, packed⟩ := keeper.built
  obtain ⟨bump, derived⟩ := keeper.derived
  obtain ⟨mintInfo, lamports, second, owned, decoded⟩ := keeper.current
  obtain ⟨state, unpacked, decimals, feeConfig⟩ :=
    MintSnapshot.decode_state decoded
  have serves : ∃ address bump, Served setting.hash setting.programs
      setting.interface chain.epoch mandate.source mandate.mint
      mandate.destination mandate.amount instruction call.accounts address
      bump :=
    executeMandate_served builds isBuilt passes
  obtain ⟨address, otherBump, served⟩ := serves
  cases derived.symm.trans served.derived
  have mintFee : mintFee setting.interface state chain.epoch mandate.amount =
      some fee := by
    rw [← charged]
    unfold mintFee MintSnapshot.chargedFee
    rw [feeConfig]
    cases state.getExtension .transferFeeConfig 108
        setting.interface.transferFeeConfig with
    | ok config => rfl
    | error error => rfl
  have processed := served.paid mintInfo state fee second owned unpacked mintFee
  rw [← packed, ← decimals] at processed
  have outcome : setting.process call chain.epoch =
      .ok
        { program := setting.programs.token2022
          instruction := mandate.transfer snapshot.decimals fee
          accounts := call.accounts
          signerSeeds :=
            [mandateSeeds mandate.source mandate.destination mandate.amount ++
              [[bump]]] } := by
    unfold ProgramSetting.process
    rw [keeper.program]
    exact processed
  have created : [mandateSeeds mandate.source mandate.destination
      mandate.amount ++ [[bump]]].mapM
        (createProgramAddress setting.hash · call.program.id) =
          some [mandate.address] := by
    rw [keeper.program]
    simp [Probe.OnChain.id, served.signable]
  constructor
  · rintro ⟨again, derives, invokes⟩
    cases outcome.symm.trans again
    cases created.symm.trans derives
    cases invokes with
    | token _ performed => exact performed
    | older other => exact absurd rfl other
    | foreign _ other => exact absurd rfl other
  · intro performed
    exact ⟨outcome, created, .token rfl performed⟩

end Calling

/-! ## One payment -/

/-- What makes payments possible at all: there is something to pay and somebody
else to pay it to, the mint charges at most what is paid, and the payee has room
for all that the payer has. -/
structure Payable (mandate : Mandate) (snapshot : MintSnapshot)
    (balance credit : Nat) : Prop where
  positive : 0 < mandate.amount.toNat
  different : mandate.source ≠ mandate.destination
  notPermanent : snapshot.permanentDelegate ≠ some mandate.address
  rates : ∀ config, snapshot.transferFee = some config → ∀ epoch,
    (config.getEpochFee epoch).transferFeeBasisPoints ≤
      TransferFee.ONE_IN_BASIS_POINTS
  fits : balance + credit < 2 ^ 64

/-- So many payments were made out of a balance and an allowance. -/
structure Paying (mandate : Mandate) (snapshot : MintSnapshot)
    (balance allowance credit paid : Nat) (chain : TokenChain) : Prop where
  mint : chain.mints mandate.mint = some snapshot
  payer : ∃ payer, chain.accounts mandate.source = some payer ∧
    payer.mint = mandate.mint ∧ payer.isFrozen = false ∧
    payer.owner ≠ mandate.address ∧
    payer.amount + paid * mandate.amount.toNat = balance ∧
    payer.delegatedAmount + paid * mandate.amount.toNat = allowance ∧
    (payer.delegate = some mandate.address ∨ payer.delegatedAmount = 0)
  payee : ∃ payee, chain.accounts mandate.destination = some payee ∧
    payee.mint = mandate.mint ∧ payee.isFrozen = false ∧
    payee.amount + payee.withheldFee.getD 0 =
      credit + paid * mandate.amount.toNat ∧
    (payee.withheldFee.isSome ∨ snapshot.transferFee = none)

section Paying

variable {mandate : Mandate} {snapshot : MintSnapshot}
  {balance allowance credit paid fee : Nat} {signers : List Address}
  {chain after : TokenChain}

/-- The mint charges at most what is paid, and nothing if it takes no fees. -/
theorem Payable.chargedFee
    (payable : Payable mandate snapshot balance credit) (epoch : Nat) :
    ∃ fee, snapshot.chargedFee epoch mandate.amount.toNat = some fee ∧
      fee ≤ mandate.amount.toNat ∧ (snapshot.transferFee = none → fee = 0) := by
  unfold MintSnapshot.chargedFee
  cases hasFee : snapshot.transferFee with
  | none => exact ⟨0, rfl, Nat.zero_le _, fun _ => rfl⟩
  | some config =>
      obtain ⟨fee, charged, small⟩ := TransferFee.calculateFee_isSome
        (payable.rates config hasFee epoch) mandate.amount.toNat_lt
      exact ⟨fee, charged, small, fun none => by cases none⟩

theorem debitedBy_of_delegate
    {payer : AccountSnapshot} {permanent : Option Address}
    {delegate : Address} {amount : Nat}
    (enough : amount ≤ payer.amount) (notPermanent : permanent ≠ some delegate)
    (delegated : payer.delegate = some delegate)
    (allowed : amount ≤ payer.delegatedAmount) :
    ∃ debited, payer.debitedBy permanent delegate amount = some debited := by
  unfold AccountSnapshot.debitedBy
  rw [if_pos enough, if_neg notPermanent, if_pos delegated, if_pos allowed]
  exact ⟨_, rfl⟩

theorem creditedWith_of_room
    {payee : AccountSnapshot} {amount fee : Nat} (small : fee ≤ amount)
    (room : payee.amount + payee.withheldFee.getD 0 + amount < 2 ^ 64)
    (withholds : payee.withheldFee.isSome ∨ fee = 0) :
    ∃ credited, payee.creditedWith amount fee = some credited := by
  unfold AccountSnapshot.creditedWith
  rw [if_pos ⟨small, by omega⟩]
  dsimp only
  by_cases free : fee = 0
  · rw [if_pos free]
    exact ⟨_, rfl⟩
  · rw [if_neg free]
    cases withheld : payee.withheldFee with
    | none =>
        rw [withheld] at withholds
        rcases withholds with impossible | nothing
        · cases impossible
        · exact absurd nothing free
    | some already =>
        rw [withheld] at room
        dsimp only [Option.getD_some] at room ⊢
        rw [if_pos (by omega)]
        exact ⟨_, rfl⟩

/-- A delegate goes when its allowance is used up. -/
theorem debitedBy_left
    {payer debited : AccountSnapshot} {permanent : Option Address}
    {delegate : Address} {amount : Nat}
    (debits : payer.debitedBy permanent delegate amount = some debited)
    (notPermanent : permanent ≠ some delegate)
    (delegated : payer.delegate = some delegate) :
    debited.delegate = some delegate ∨ debited.delegatedAmount = 0 := by
  unfold AccountSnapshot.debitedBy at debits
  split at debits
  case isFalse => cases debits
  case isTrue =>
      split at debits
      case isFalse => cases debits
      case isTrue =>
          cases debits
          by_cases used : payer.delegatedAmount = amount
          · right
            simp [AccountSnapshot.spendAllowance, used]
          · left
            simp [AccountSnapshot.spendAllowance, used]

/-- Who could withhold fees still can. -/
theorem creditedWith_withholds
    {payee credited : AccountSnapshot} {amount fee : Nat}
    (credits : payee.creditedWith amount fee = some credited)
    (withholds : payee.withheldFee.isSome) : credited.withheldFee.isSome := by
  unfold AccountSnapshot.creditedWith at credits
  split at credits
  case isFalse => cases credits
  case isTrue =>
      dsimp only at credits
      split at credits
      case isTrue =>
          cases credits
          exact withholds
      case isFalse =>
          split at credits
          case h_1 => cases credits
          case h_2 =>
              split at credits
              case isFalse => cases credits
              case isTrue =>
                  cases credits
                  rfl

/-- A payment that both the allowance and the balance cover is made. -/
theorem Paying.lands
    (payable : Payable mandate snapshot balance credit)
    (paying : Paying mandate snapshot balance allowance credit paid chain)
    (signed : mandate.address ∈ signers)
    (charged : snapshot.chargedFee chain.epoch mandate.amount.toNat = some fee)
    (covered : (paid + 1) * mandate.amount.toNat ≤ min allowance balance) :
    ∃ after, (mandate.transfer snapshot.decimals fee).performInvoked signers
      chain = some after := by
  obtain ⟨payer, found, ofMint, unfrozen, unowned, balanceLeft, allowanceLeft,
    delegated⟩ := paying.payer
  obtain ⟨payee, payeeFound, payeeOfMint, payeeUnfrozen, total, withholds⟩ :=
    paying.payee
  obtain ⟨other, otherCharged, small, free⟩ := payable.chargedFee chain.epoch
  cases charged.symm.trans otherCharged
  have positive := payable.positive
  have fits := payable.fits
  rw [Nat.add_mul, Nat.one_mul] at covered
  have isDelegate : payer.delegate = some mandate.address :=
    delegated.resolve_right (by omega)
  obtain ⟨debited, debits⟩ := debitedBy_of_delegate
    (by omega : mandate.amount.toNat ≤ payer.amount) payable.notPermanent
    isDelegate (by omega)
  obtain ⟨credited, credits⟩ := creditedWith_of_room small
    (by omega : payee.amount + payee.withheldFee.getD 0 +
      mandate.amount.toNat < 2 ^ 64) (withholds.imp_right free)
  have unblocked :
      (mandate.transfer snapshot.decimals fee).blocked chain = false := by
    rw [Bool.eq_false_iff]
    intro blocks
    obtain ⟨account, accountFound, _, owned⟩ :=
      TokenInstruction.blocked_transfer.mp blocks
    cases found.symm.trans accountFound
    exact unowned owned
  have transferred : chain.transferChecked signers mandate.source mandate.mint
      mandate.destination mandate.address mandate.amount.toNat
      snapshot.decimals fee =
        some ((chain.setAccount mandate.source (some debited)).setAccount
          mandate.destination (some credited)) := by
    unfold TokenChain.transferChecked
    rw [found, payeeFound, paying.mint]
    dsimp only
    rw [if_pos ⟨signed, ofMint, payeeOfMint, unfrozen, payeeUnfrozen, rfl,
      charged⟩, debits]
    dsimp only
    rw [if_neg payable.different, credits]
    rfl
  exact ⟨_, TokenInstruction.performInvoked_eq_some.mpr
    ⟨unblocked, transferred⟩⟩

/-- A payment was covered, and leaves so much less. -/
theorem Paying.pays
    (payable : Payable mandate snapshot balance credit)
    (paying : Paying mandate snapshot balance allowance credit paid chain)
    (performed : (mandate.transfer snapshot.decimals fee).performInvoked
      signers chain = some after) :
    (paid + 1) * mandate.amount.toNat ≤ min allowance balance ∧
      Paying mandate snapshot balance allowance credit (paid + 1) after := by
  obtain ⟨payer, found, ofMint, unfrozen, unowned, balanceLeft, allowanceLeft,
    delegated⟩ := paying.payer
  obtain ⟨payee, payeeFound, payeeOfMint, payeeUnfrozen, total, withholds⟩ :=
    paying.payee
  have transferred :=
    (TokenInstruction.performInvoked_eq_some.mp performed).2
  obtain ⟨_, _, state, debited, payerIs, payeeIs, mintIs, _, _, _, debits,
    moved⟩ := TokenChain.transferChecked_eq_some transferred
  cases found.symm.trans payerIs
  cases payeeFound.symm.trans payeeIs
  cases paying.mint.symm.trans mintIs
  obtain ⟨enough, left, terms, entitled, spends⟩ :=
    AccountSnapshot.debitedBy_eq_some debits
  have isDelegate : payer.delegate = some mandate.address := by
    rcases entitled with permanent | owned | isDelegate
    · exact absurd permanent payable.notPermanent
    · exact absurd owned unowned
    · exact isDelegate
  obtain ⟨allowed, allowanceAfter, delegateAfter⟩ :=
    spends payable.notPermanent isDelegate
  rcases moved with ⟨same, _⟩ | ⟨different, credited, credits, rfl⟩
  · exact absurd same payable.different
  obtain ⟨creditedTerms, sum, _, _, _⟩ :=
    AccountSnapshot.creditedWith_eq_some credits
  have money := (AccountSnapshot.creditedWith_money credits).2.1
  rw [Nat.add_mul, Nat.one_mul]
  refine ⟨by omega, paying.mint, ⟨debited, ?_, ?_⟩, credited, ?_, ?_⟩
  · rw [TokenChain.setAccount_of_ne _ different, TokenChain.setAccount_self]
  · exact ⟨terms.mint.trans ofMint, terms.isFrozen.trans unfrozen,
      terms.owner ▸ unowned, by rw [Nat.add_mul]; omega,
      by rw [Nat.add_mul]; omega,
      debitedBy_left debits payable.notPermanent isDelegate⟩
  · exact TokenChain.setAccount_self ..
  · refine ⟨creditedTerms.mint.trans payeeOfMint,
      creditedTerms.isFrozen.trans payeeUnfrozen, ?_,
      withholds.imp_left (creditedWith_withholds credits)⟩
    rw [Nat.add_mul]
    omega

end Paying

/-! ## The keeper -/

inductive KeeperEvent where
  | paid
  | refused
  | guard
  | begin (epoch : Nat)
deriving DecidableEq

/-- The keeper calls the agent, the owner switches CPI Guard on, or an epoch
begins. -/
inductive KeeperStep (setting : ProgramSetting Data) (call : ProgramCall Data)
    (source : Address) : TokenChain → KeeperEvent → TokenChain → Prop where
  | paid {chain after : TokenChain} :
      setting.Executes call chain after →
      KeeperStep setting call source chain .paid after
  | refused {chain : TokenChain} :
      (∀ after, ¬ setting.Executes call chain after) →
      KeeperStep setting call source chain .refused chain
  | guard {chain after : TokenChain} {owner : Address}
      {signers : List Address} :
      (TokenInstruction.enableCpiGuard source owner).perform signers chain =
        some after →
      KeeperStep setting call source chain .guard after
  | begin {chain : TokenChain} {epoch : Nat} :
      chain.epoch ≤ epoch →
      KeeperStep setting call source chain (.begin epoch) { chain with epoch }

/-- How often the keeper was paid for, and how often not. -/
def timesPaid (trace : List (KeeperEvent × TokenChain)) : Nat :=
  (trace.map Prod.fst).count .paid

def timesRefused (trace : List (KeeperEvent × TokenChain)) : Nat :=
  (trace.map Prod.fst).count .refused

section Keeping

variable {setting : ProgramSetting Data} {mandate : Mandate}
  {snapshot : MintSnapshot} {call : ProgramCall Data}
  {balance allowance credit paid : Nat} {chain after : TokenChain}

/-- The guard does not concern the keeper. -/
theorem Paying.guarding
    (payable : Payable mandate snapshot balance credit)
    (paying : Paying mandate snapshot balance allowance credit paid chain) :
    Paying mandate snapshot balance allowance credit paid
      (chain.guarding mandate.source) := by
  obtain ⟨payer, found, terms⟩ := paying.payer
  obtain ⟨payee, payeeFound, payeeTerms⟩ := paying.payee
  rw [TokenChain.guarding_eq_setAccount found]
  refine ⟨paying.mint, ⟨payer.guarded, ?_, terms⟩, payee, ?_, payeeTerms⟩
  · exact TokenChain.setAccount_self ..
  · rw [TokenChain.setAccount_of_ne _ payable.different.symm]
    exact payeeFound

/-- The keeper is paid for exactly as often as the allowance and the balance
both last. -/
theorem Paying.run
    (builds : BuildsTransfers setting.programs)
    (keeper : KeeperCall setting mandate snapshot call)
    (payable : Payable mandate snapshot balance credit)
    {trace : List (KeeperEvent × TokenChain)}
    (run : Run (KeeperStep setting call mandate.source) chain trace)
    (paying : Paying mandate snapshot balance allowance credit paid chain)
    (within : paid ≤ min allowance balance / mandate.amount.toNat) :
    paid + timesPaid trace =
        min (paid + timesPaid trace + timesRefused trace)
          (min allowance balance / mandate.amount.toNat) ∧
      Paying mandate snapshot balance allowance credit (paid + timesPaid trace)
        (final chain trace) := by
  have positive := payable.positive
  induction run generalizing paid with
  | stay chain => exact ⟨(Nat.min_eq_left within).symm, paying⟩
  | @next chain next event rest step _ inductionHypothesis =>
      obtain ⟨fee, charged, _⟩ := payable.chargedFee chain.epoch
      have calls : ∀ after, setting.Executes call chain after ↔
          (mandate.transfer snapshot.decimals fee).performInvoked
            (call.signers ++ [mandate.address]) chain = some after :=
        fun _ => keeper.executes_iff builds charged
      cases step with
      | paid executes =>
          obtain ⟨covered, payingOn⟩ :=
            paying.pays payable ((calls next).mp executes)
          have more : paid + 1 ≤ min allowance balance / mandate.amount.toNat :=
            (Nat.le_div_iff_mul_le positive).mpr covered
          obtain ⟨times, last⟩ := inductionHypothesis payingOn more
          have once :
              timesPaid ((.paid, next) :: rest) = timesPaid rest + 1 := by
            simp [timesPaid]
          have same :
              timesRefused ((.paid, next) :: rest) = timesRefused rest := by
            simp [timesRefused]
          rw [once, same]
          refine ⟨by omega, ?_⟩
          rw [← Nat.add_assoc, Nat.add_right_comm]
          exact last
      | refused refused =>
          have uncovered :
              ¬ (paid + 1) * mandate.amount.toNat ≤ min allowance balance := by
            intro covered
            have signed : mandate.address ∈ call.signers ++ [mandate.address] :=
              List.mem_append_right _ List.mem_cons_self
            obtain ⟨after, performed⟩ :=
              paying.lands payable signed charged covered
            exact refused after ((calls after).mpr performed)
          have full :
              ¬ paid + 1 ≤ min allowance balance / mandate.amount.toNat :=
            fun more => uncovered ((Nat.le_div_iff_mul_le positive).mp more)
          obtain ⟨times, last⟩ := inductionHypothesis paying within
          have same :
              timesPaid ((.refused, chain) :: rest) = timesPaid rest := by
            simp [timesPaid]
          have once : timesRefused ((.refused, chain) :: rest) =
              timesRefused rest + 1 := by
            simp [timesRefused]
          rw [once, same]
          exact ⟨by omega, last⟩
      | guard enabled =>
          obtain ⟨_, _, rfl⟩ := TokenChain.enableCpiGuard_eq_some.mp enabled
          exact inductionHypothesis (paying.guarding payable) within
      | begin =>
          exact inductionHypothesis ⟨paying.mint, paying.payer, paying.payee⟩
            within

end Keeping

/-- However often a keeper calls the agent with a mandate that the owner has
approved, over whatever epochs, and whenever the owner switches CPI Guard on:
the calls succeed exactly until the allowance or the balance does not cover one
more payment.  Each success takes the amount of the mandate from the balance and
from the allowance, and all of it arrives, fees included. -/
theorem keepers_are_paid_while_the_allowance_lasts
    (setting : ProgramSetting Data) (builds : BuildsTransfers setting.programs)
    {mandate : Mandate} {snapshot : MintSnapshot} {call : ProgramCall Data}
    (keeper : KeeperCall setting mandate snapshot call)
    {balance allowance credit : Nat}
    (payable : Payable mandate snapshot balance credit)
    {start : TokenChain} {trace : List (KeeperEvent × TokenChain)}
    (approved : Paying mandate snapshot balance allowance credit 0 start)
    (run : Run (KeeperStep setting call mandate.source) start trace) :
    timesPaid trace =
        min (timesPaid trace + timesRefused trace)
          (min allowance balance / mandate.amount.toNat) ∧
      ∃ payer payee,
        (final start trace).accounts mandate.source = some payer ∧
        (final start trace).accounts mandate.destination = some payee ∧
        payer.amount + timesPaid trace * mandate.amount.toNat = balance ∧
        payer.delegatedAmount + timesPaid trace * mandate.amount.toNat =
          allowance ∧
        payee.amount + payee.withheldFee.getD 0 =
          credit + timesPaid trace * mandate.amount.toNat := by
  obtain ⟨times, paying⟩ :=
    Paying.run builds keeper payable run approved (Nat.zero_le _)
  rw [Nat.zero_add] at times paying
  obtain ⟨payer, found, _, _, _, balanceLeft, allowanceLeft, _⟩ := paying.payer
  obtain ⟨payee, payeeFound, _, _, total, _⟩ := paying.payee
  exact ⟨times, payer, payee, found, payeeFound, balanceLeft, allowanceLeft,
    total⟩

namespace Quiet

open Transparent Remit.Quiet

/-- Payments of 100 from Alice to Bob. -/
def mandateOfHundred : Mandate :=
  ⟨alice, sharedMint.address, bob, 100, mandate⟩

/-- The chain when the keeper was paid for once and Alice has switched CPI Guard
on. -/
def guardedOnce : TokenChain :=
  paidChain.guarding alice

/-- The chain when the keeper was paid for twice. -/
def paidTwice : TokenChain :=
  (guardedOnce.setAccount alice <| some
    ({ payer with
      amount := 800
      delegate := some mandate
      delegatedAmount := 50 } : AccountSnapshot).guarded).setAccount bob <| some
    { payee with amount := 198, withheldFee := some 2 }

def keeperTrace : List (KeeperEvent × TokenChain) :=
  [(.paid, paidChain), (.guard, guardedOnce), (.paid, paidTwice),
    (.refused, paidTwice)]

theorem keeperCall_built :
    KeeperCall Probe.Quiet.setting mandateOfHundred sharedMint
      Probe.Quiet.keeperCall where
  program := rfl
  built := by
    have built : executeMandate mandateHash programs alice sharedMint.address
        bob 100 = some builtInstruction := by
      decide +kernel
    exact ⟨builtInstruction, built, rfl, rfl⟩
  derived := by
    have derived : mandateAddress mandateHash alice bob 100 =
        some (mandate, 255) := by
      decide +kernel
    exact ⟨255, derived⟩
  current := by
    have decoded : MintSnapshot.decode Layout.interface sharedMint.address
        (Layout.writeMint sharedMint) sharedMint.lamports =
          .ok sharedMint := by
      decide +kernel
    exact ⟨_, _, rfl, rfl, decoded⟩

theorem mandateOfHundred_payable :
    Payable mandateOfHundred sharedMint 1000 0 where
  positive := by decide
  different := by decide
  notPermanent := by decide
  rates := by
    rintro config ⟨⟩ epoch
    unfold TransferFeeConfig.getEpochFee
    split
    · decide
    · decide
  fits := by decide

theorem paying_approvedState :
    Paying mandateOfHundred sharedMint 1000 250 0 0 approvedState.chain where
  mint := rfl
  payer := ⟨_, rfl, rfl, rfl, by decide, rfl, rfl, .inl rfl⟩
  payee := ⟨payee, rfl, rfl, rfl, rfl, .inl rfl⟩

theorem keeperTrace_run :
    Run (KeeperStep Probe.Quiet.setting Probe.Quiet.keeperCall alice)
      approvedState.chain keeperTrace := by
  have calls : ∀ chain after : TokenChain, chain.epoch = 0 →
      (Probe.Quiet.setting.Executes Probe.Quiet.keeperCall chain after ↔
        (mandateOfHundred.transfer 2 1).performInvoked [mandate] chain =
          some after) := by
    intro chain after isZero
    have charged : sharedMint.chargedFee chain.epoch
        mandateOfHundred.amount.toNat = some 1 := by
      rw [isZero]
      decide
    exact keeperCall_built.executes_iff (fun _ _ _ _ _ _ _ => rfl) charged
  have first : Probe.Quiet.setting.Executes Probe.Quiet.keeperCall
      approvedState.chain paidChain :=
    (calls _ _ rfl).mpr rfl
  have second : Probe.Quiet.setting.Executes Probe.Quiet.keeperCall
      guardedOnce paidTwice :=
    (calls _ _ rfl).mpr rfl
  have third : ∀ after, ¬ Probe.Quiet.setting.Executes
      Probe.Quiet.keeperCall paidTwice after := by
    intro after executes
    have performed := (calls _ _ rfl).mp executes
    cases performed
  have enabled : (TokenInstruction.enableCpiGuard alice alice).perform [alice]
      paidChain = some guardedOnce :=
    TokenChain.enableCpiGuard_eq_some.mpr
      ⟨⟨_, rfl, rfl⟩, List.mem_singleton.mpr rfl, rfl⟩
  exact .next (.paid first) (.next (.guard enabled)
    (.next (.paid second) (.next (.refused third) (.stay _))))

/-- Two payments of 100 out of 250, the second one with the guard on. -/
theorem keeper_is_paid_twice :
    timesPaid keeperTrace = min 3 (min 250 1000 / 100) ∧
      ∃ payer payee, paidTwice.accounts alice = some payer ∧
        paidTwice.accounts bob = some payee ∧
        payer.amount + 200 = 1000 ∧ payer.delegatedAmount + 200 = 250 ∧
        payee.amount + payee.withheldFee.getD 0 = 200 := by
  obtain ⟨times, payer, payee, found, payeeFound, left, allowed, total⟩ :=
    keepers_are_paid_while_the_allowance_lasts Probe.Quiet.setting
      (fun _ _ _ _ _ _ _ => rfl) keeperCall_built mandateOfHundred_payable
      paying_approvedState keeperTrace_run
  exact ⟨times, payer, payee, found, payeeFound, left, allowed, total⟩

end Quiet
end Agent
end Remit
