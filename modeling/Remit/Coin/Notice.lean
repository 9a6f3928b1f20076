import Remit.Coin.Kyc
import Remit.Coin.Powers

/-!
# Notice of a fee

A fee is set two epochs ahead.  Until the next epoch is over, whoever has read
the mint knows what can be charged, however often other fees are set meanwhile.
-/

namespace Remit

set_option maxRecDepth 2000

open Flows Flow Runs

namespace TransferFeeConfig

/-- The fees are those that were read, or the fee in force is one of them and
another is set for when the next epoch is over. -/
def Announced (config : TransferFeeConfig) (epoch now : Nat)
    (later : TransferFeeConfig) : Prop :=
  later.olderTransferFee = config.olderTransferFee ∧
      later.newerTransferFee = config.newerTransferFee ∨
    (∃ asOf, epoch ≤ asOf ∧ asOf ≤ now ∧
        later.olderTransferFee = config.getEpochFee asOf) ∧
      epoch + 2 ≤ later.newerTransferFee.epoch

variable {config later changed : TransferFeeConfig} {epoch now next : Nat}

/-- Nothing can be charged that was not announced. -/
theorem Announced.getEpochFee_eq
    (announced : config.Announced epoch now later)
    (forward : epoch ≤ now) (soon : now ≤ epoch + 1) :
    ∃ asOf, epoch ≤ asOf ∧ asOf ≤ now ∧
      later.getEpochFee now = config.getEpochFee asOf := by
  rcases announced with ⟨older, newer⟩ | ⟨⟨asOf, since, before, older⟩, ahead⟩
  · refine ⟨now, forward, Nat.le_refl _, ?_⟩
    unfold getEpochFee
    rw [older, newer]
  · refine ⟨asOf, since, before, ?_⟩
    have notYet : ¬ later.newerTransferFee.epoch ≤ now := by omega
    rw [← older]
    exact if_neg notYet

/-- Setting a fee again puts off one that is not in force. -/
theorem Announced.setFee
    (announced : config.Announced epoch now later)
    (forward : epoch ≤ now) (soon : now ≤ epoch + 1)
    (transferFeeBasisPoints maximumFee : Nat) :
    config.Announced epoch now
      (later.setFee now transferFeeBasisPoints maximumFee) := by
  refine .inr ⟨?_, by change epoch + 2 ≤ now + 2; omega⟩
  obtain ⟨asOf, since, before, same⟩ := announced.getEpochFee_eq forward soon
  exact ⟨asOf, since, before, same⟩

theorem Announced.step
    (announced : config.Announced epoch now later)
    (step : Step (later, now) (changed, next))
    (forward : epoch ≤ now) (soon : next ≤ epoch + 1) :
    config.Announced epoch next changed := by
  cases step with
  | setFee transferFeeBasisPoints maximumFee =>
      exact announced.setFee forward soon ..
  | begin onward =>
      refine announced.imp_right fun ⟨⟨asOf, since, before, older⟩, ahead⟩ =>
        ⟨⟨asOf, since, before.trans onward, older⟩, ahead⟩
  | other older newer =>
      unfold Announced
      rw [older, newer]
      exact announced

/-- Until the next epoch is over, what is charged was announced. -/
theorem History.announced
    (history : History (config, epoch) (later, now))
    (soon : now ≤ epoch + 1) :
    config.Announced epoch now later := by
  suffices general : ∀ reached : TransferFeeConfig × Nat,
      History (config, epoch) reached → reached.2 ≤ epoch + 1 →
        config.Announced epoch reached.2 reached.1 from
    general _ history soon
  intro reached history
  induction history with
  | refl => exact fun _ => .inl ⟨rfl, rfl⟩
  | @tail middle last before step inductionHypothesis =>
      intro soon
      have onward := Step.getEpochFee_eq step
      have forward := History.getEpochFee_eq before
      exact (inductionHypothesis (onward.1.trans soon)).step step forward.1
        soon

end TransferFeeConfig

section Steps

variable {crypto : Crypto} {coin : Coin} {signers : List Address}
  {chain later : TokenChain} {mint after : MintSnapshot} {address : Address}

variable (coin chain later) in
/-- The fees of the coin take a step. -/
def TokenChain.FeeStep : Prop :=
  ∀ mint config, chain.mints coin.mint = some mint →
    mint.transferFee = some config →
      ∃ next changed, later.mints coin.mint = some next ∧
        next.transferFee = some changed ∧
        TransferFeeConfig.Step (config, chain.epoch) (changed, later.epoch)

namespace TokenChain

theorem FeeStep.of_fees
    (same : (later.mints coin.mint).map (·.fees) =
      (chain.mints coin.mint).map (·.fees))
    (epoch : later.epoch = chain.epoch) :
    chain.FeeStep coin later := by
  intro mint config found present
  rw [found] at same
  obtain ⟨next, there, equal⟩ := Option.map_eq_some_iff.mp same
  have fees : next.fees = mint.fees := equal
  unfold MintSnapshot.fees at fees
  rw [present] at fees
  obtain ⟨changed, presentThere, both⟩ := Option.map_eq_some_iff.mp fees
  rw [epoch]
  exact ⟨next, changed, there, presentThere,
    .other (congrArg Prod.fst both) (congrArg Prod.snd both)⟩

theorem FeeStep.of_mints
    (same : later.mints = chain.mints) (epoch : later.epoch = chain.epoch) :
    chain.FeeStep coin later :=
  .of_fees (by rw [same]) epoch

/-- One mint changes, but not its fees. -/
theorem FeeStep.setMint
    (found : chain.mints address = some mint) (same : after.fees = mint.fees) :
    chain.FeeStep coin (chain.setMint address after) := by
  refine .of_fees ?_ rfl
  by_cases own : address = coin.mint
  · subst own
    rw [setMint_self, found]
    exact congrArg some same
  · rw [setMint_of_ne (Ne.symm own)]

theorem FeeStep.of_setTransferFee
    {mint authority : Address} {basisPoints maximumFee : Nat}
    (done : chain.setTransferFee signers mint authority basisPoints
      maximumFee = some later) :
    chain.FeeStep coin later := by
  obtain ⟨state, config, found, present, rfl⟩ := setTransferFee_eq_some done
  intro other current here presentHere
  by_cases own : mint = coin.mint
  · subst own
    obtain rfl := Option.some.inj (found.symm.trans here)
    obtain rfl := Option.some.inj (present.symm.trans presentHere)
    exact ⟨_, _, setMint_self _, rfl, .setFee basisPoints maximumFee⟩
  · refine ⟨other, current, ?_, presentHere, .other rfl rfl⟩
    rw [setMint_of_ne (Ne.symm own)]
    exact here

theorem FeeStep.of_perform
    {instruction : TokenInstruction}
    (performed : instruction.perform signers chain = some later)
    (stays : ¬ CoinInstruction.Closes coin.mint (.instruct instruction)) :
    chain.FeeStep coin later := by
  have hands : ∀ {account authority type newAuthority},
      chain.setMintAuthority signers account authority type newAuthority =
        some later → chain.FeeStep coin later := by
    intro account authority type newAuthority handed
    obtain ⟨before, after, found, changes, rfl⟩ := changeMint_eq_some handed
    obtain ⟨_, handing⟩ := Option.ite_none_right_eq_some.mp changes
    exact .setMint found (MintSnapshot.fees_handing handing)
  cases instruction with
  | initializeMetadata metadata updateAuthority mint mintAuthority name symbol
      uri =>
      have described : chain.describe signers
          (.initializeMetadata metadata updateAuthority mint mintAuthority name
            symbol uri) = some later := performed
      obtain ⟨_, _, _, found, rfl⟩ := describe_eq_some described
      exact .setMint found rfl
  | updateField metadata updateAuthority key value =>
      have described : chain.describe signers
          (.updateField metadata updateAuthority key value) = some later :=
        performed
      obtain ⟨_, _, _, found, rfl⟩ := describe_eq_some described
      exact .setMint found rfl
  | transferCheckedWithFee =>
      obtain ⟨_, _, _, _, _, _, _, _, _, _, _, moved⟩ :=
        transferChecked_eq_some performed
      rcases moved with ⟨_, rfl⟩ | ⟨_, _, _, rfl⟩
      · exact .of_mints rfl rfl
      · exact .of_mints rfl rfl
  | setTransferFee => exact .of_setTransferFee performed
  | harvestWithheldTokensToMint =>
      refine .of_fees (map_harvest (fun mint amount => ?_) performed _)
        (harvest_eq_some performed).2.2.1
      unfold MintSnapshot.fees
      cases mint.transferFee with
      | none => rfl
      | some config => rfl
  | withdrawWithheldTokensFromMint mint =>
      obtain ⟨_, _, _, _, _, _, _, _, _, _, rfl⟩ :=
        withdrawWithheld_money performed
      refine .of_fees (map_setMintWithheld (fun mint amount => ?_) mint 0 _)
        rfl
      unfold MintSnapshot.fees
      cases mint.transferFee with
      | none => rfl
      | some config => rfl
  | thawAccount | freezeAccount =>
      obtain ⟨_, _, _, _, rfl⟩ := toggleFreeze_eq_some performed
      exact .of_mints rfl rfl
  | updateDefaultAccountState =>
      obtain ⟨_, _, found, changes, rfl⟩ := changeMint_eq_some performed
      obtain ⟨_, same⟩ := Option.ite_none_right_eq_some.mp changes
      cases same
      exact .setMint found rfl
  | mintToChecked =>
      obtain ⟨_, _, found, _, _, _, _, _, _, rfl⟩ := mintTo_eq_some performed
      exact .setMint found rfl
  | approveChecked =>
      obtain ⟨_, _, _, _, _, _, rfl⟩ := approve_eq_some performed
      exact .of_mints rfl rfl
  | enableCpiGuard =>
      obtain ⟨_, _, _, _, _, _, rfl⟩ := asOwner_eq_some performed
      exact .of_mints rfl rfl
  | closeAccount account =>
      obtain ⟨_, _, _, _, _, rfl⟩ := closeMint_eq_some performed
      refine .of_fees ?_ rfl
      dsimp only
      rw [Function.update_of_ne (Ne.symm stays)]
  | setAuthority account authority type newAuthority =>
      cases type with
      | accountOwner =>
          obtain ⟨_, _, _, _, _, _, rfl⟩ := asOwner_eq_some performed
          exact .of_mints rfl rfl
      | mintTokens => exact hands performed
      | freezeAccount => exact hands performed
      | closeAccount => exact hands performed
      | extension => exact hands performed
  | approveAccount =>
      obtain ⟨_, _, _, _, _, _, _, _, _, _, _, rfl⟩ :=
        approveConfidential_eq_some performed
      exact .of_mints rfl rfl
  | _ => cases performed

/-- What others do elsewhere leaves the fees. -/
theorem FeeStep.of_unconcerned (unconcerned : Unconcerned coin chain later) :
    chain.FeeStep coin later := by
  refine .of_fees ?_ unconcerned.epoch
  have related := unconcerned.mints
  generalize chain.mints coin.mint = found at related ⊢
  generalize later.mints coin.mint = left at related ⊢
  cases related with
  | none => rfl
  | some same => rw [same]; rfl

end TokenChain

/-- Whatever is carried out, the fees take a step at most. -/
theorem Performs.feeStep
    {instruction : CoinInstruction}
    (performs : Performs crypto coin signers chain instruction later)
    (stays : ¬ instruction.Closes coin.mint) :
    chain.FeeStep coin later := by
  cases performs with
  | perform performed => exact .of_perform performed stays
  | initializeExtension => exact .of_mints rfl rfl
  | @initializeMint address _ _ _ _ missing =>
      intro mint config found present
      have away : coin.mint ≠ address := by
        rintro rfl
        rw [missing] at found
        cases found
      refine ⟨mint, config, ?_, present, .other rfl rfl⟩
      rw [TokenChain.setMint_of_ne away]
      exact found
  | confide => exact .of_mints rfl rfl
  | foreign _ _ _ unconcerned => exact .of_unconcerned unconcerned
  | configure => exact .of_mints rfl rfl
  | reallocate => exact .of_mints rfl rfl
  | burn burnt =>
      obtain ⟨_, _, _, _, found, _, _, _, _, rfl⟩ :=
        TokenChain.burn_eq_some burnt
      exact .setMint found rfl
  | revoke revoked =>
      obtain ⟨_, _, _, _, _, _, rfl⟩ := TokenChain.asOwner_eq_some revoked
      exact .of_mints rfl rfl
  | openAccount => exact .of_mints rfl rfl
  | closeAccount => exact .of_mints rfl rfl
  | adjust => exact .of_mints rfl rfl
  | reform done =>
      obtain ⟨_, _, found, _, _, reformed, rfl⟩ :=
        TokenChain.reform_eq_some done
      exact .setMint found (MintSnapshot.fees_reforming reformed)
  | elsewhere unconcerned => exact .of_unconcerned unconcerned

/-! ## Runs -/

/-- There is a mint, and its fees have come about since an epoch. -/
def FeesSince (coin : Coin) (config : TransferFeeConfig) (epoch : Nat)
    (chain : TokenChain) : Prop :=
  ∃ mint later, chain.mints coin.mint = some mint ∧
    mint.transferFee = some later ∧
    TransferFeeConfig.History (config, epoch) (later, chain.epoch)

variable {config : TransferFeeConfig} {epoch : Nat}

/-- The fee stated is the one the configuration charges, if it charges one. -/
theorem expectedFee_eq_elim
    (present : mint.transferFee = some config) (now amount : Nat) :
    expectedFee mint now amount =
      (config.calculateEpochFee now amount).elim
        (.error (.invalid ("fee on " ++ toString amount ++ " overflows")))
        .ok := by
  have required : mint.requireTransferFee = .ok config := by
    unfold MintSnapshot.requireTransferFee
    rw [present]
  unfold expectedFee
  rw [required]
  cases charged : config.calculateEpochFee now amount with
  | none => simp only [bind, Except.bind, charged, Option.elim_none]; rfl
  | some fee => simp only [bind, Except.bind, charged, Option.elim_some]; rfl

/-- The same schedule makes the same fee. -/
theorem expectedFee_congr
    {read : MintSnapshot} {current : TransferFeeConfig} {now asOf : Nat}
    (present : mint.transferFee = some current)
    (presentRead : read.transferFee = some config)
    (same : current.getEpochFee now = config.getEpochFee asOf)
    (amount : Nat) :
    expectedFee mint now amount = expectedFee read asOf amount := by
  have computed : current.calculateEpochFee now amount =
      config.calculateEpochFee asOf amount :=
    congrArg (TransferFee.calculateFee · amount) same
  rw [expectedFee_eq_elim present, expectedFee_eq_elim presentRead, computed]

/-- What is charged until the next epoch is over was announced in the mint that
was read, as the fee in force then or in the epoch that follows. -/
theorem FeesSince.expectedFee
    {read : MintSnapshot} (since : FeesSince coin config epoch chain)
    (present : read.transferFee = some config)
    (soon : chain.epoch ≤ epoch + 1) :
    ∃ mint asOf, chain.mints coin.mint = some mint ∧ epoch ≤ asOf ∧
      asOf ≤ chain.epoch ∧
      ∀ amount, Remit.expectedFee mint chain.epoch amount =
        Remit.expectedFee read asOf amount := by
  obtain ⟨mint, later, found, laterPresent, history⟩ := since
  obtain ⟨asOf, start, before, same⟩ :=
    (history.announced soon).getEpochFee_eq history.getEpochFee_eq.1 soon
  exact ⟨mint, asOf, found, start, before,
    expectedFee_congr laterPresent present same⟩

theorem FeesSince.performs
    {instruction : CoinInstruction}
    (since : FeesSince coin config epoch chain)
    (performs : Performs crypto coin signers chain instruction later)
    (stays : ¬ instruction.Closes coin.mint) :
    FeesSince coin config epoch later := by
  obtain ⟨mint, current, found, present, history⟩ := since
  obtain ⟨next, changed, nextFound, changedPresent, step⟩ :=
    performs.feeStep stays mint current found present
  exact ⟨next, changed, nextFound, changedPresent, history.tail step⟩

theorem FeesSince.performsAll
    {instructions : List CoinInstruction}
    (since : FeesSince coin config epoch chain)
    (performs : PerformsAll crypto coin signers chain instructions later)
    (stays : ∀ instruction ∈ instructions, ¬ instruction.Closes coin.mint) :
    FeesSince coin config epoch later := by
  induction performs with
  | nil => exact since
  | cons first _ inductionHypothesis =>
      exact inductionHypothesis
        (since.performs first (stays _ List.mem_cons_self))
        fun other member => stays other (List.mem_cons_of_mem _ member)

/-- A transaction that does not close the mint, or an epoch that begins. -/
def CoinEvent.KeepsMint (mint : Address) : CoinEvent → Prop
  | transact _ instructions =>
      ∀ instruction ∈ instructions, ¬ instruction.Closes mint
  | begin _ => True

theorem FeesSince.step
    {event : CoinEvent} (since : FeesSince coin config epoch chain)
    (stays : event.KeepsMint coin.mint)
    (step : CoinStep crypto coin chain event later) :
    FeesSince coin config epoch later := by
  cases step with
  | transact performs => exact since.performsAll performs stays
  | begin onward =>
      obtain ⟨mint, current, found, present, history⟩ := since
      exact ⟨mint, current, found, present, history.tail (.begin onward)⟩

end Steps

/-- Whatever calls are made and whatever others do, as long as the mint is not
closed: until the epoch after this one is over, the fee that the library states
is one that it would have worked out from the mint as it is now, for this epoch
or for a later one that has begun. -/
theorem fee_changes_are_announced
    (C : Cluster) (crypto : Crypto) (coin : Coin)
    (contract : CoinContract C crypto coin (·.KeepsMint coin.mint))
    (state : C.State) {read : MintSnapshot} {config : TransferFeeConfig}
    (found : (C.tokenChain state).mints coin.mint = some read)
    (present : read.transferFee = some config)
    (calls : List (LibraryCall crypto)) (drawn : Nat)
    (leaves : ∀ call ∈ calls, call.LeavesMint coin.mint) :
    ∀ one ∈ (LibraryCall.runAll (World.initial state drawn : World C)
        calls).sent,
      HoldsAround C (fun chain =>
        chain.epoch ≤ (C.tokenChain state).epoch + 1 →
          ∃ mint asOf, chain.mints coin.mint = some mint ∧
            (C.tokenChain state).epoch ≤ asOf ∧ asOf ≤ chain.epoch ∧
            ∀ amount, expectedFee mint chain.epoch amount =
              expectedFee read asOf amount) one := by
  obtain ⟨chained, posts⟩ := LibraryCall.sent_runAll calls state drawn
  have start : FeesSince coin config (C.tokenChain state).epoch
      (C.tokenChain state) := ⟨read, config, found, present, .refl⟩
  obtain ⟨around, _⟩ := contract.keeps
    (fun _ _ _ since stays step => since.step stays step) chained start
    fun one member before after since performs => by
      obtain ⟨call, isCall, posted⟩ := posts one member
      exact since.performsAll performs fun instruction inside =>
        ((leaves call isCall).posts posted instruction inside).1
  exact fun one member =>
    { before := (around one member).before.expectedFee present
      after := (around one member).after.expectedFee present
      next := (around one member).next.expectedFee present }

namespace Coining

open Busy (stablecoin)

def feeAuthority : Keypair :=
  ⟨Address.filled 36⟩

/-- A quarter of a percent is charged, and one percent from the next epoch
on. -/
def feeConfig : TransferFeeConfig where
  transferFeeConfigAuthority := some feeAuthority.pubkey
  withdrawWithheldAuthority := none
  withheldAmount := 0
  olderTransferFee := ⟨0, 1000, 25⟩
  newerTransferFee := ⟨1, 1000, 100⟩

/-- The ledger of a coin with that fee. -/
def charging : Busy.Ledger where
  tokens := Busy.tokensAt
    [(stablecoin, .mint
        ⟨some mintAuthority.pubkey, 0, 2, some Busy.freezeAuthority.pubkey⟩
        [⟨.transferFeeConfig, Layout.writeFeeConfig feeConfig⟩,
          ⟨.permanentDelegate, Busy.seizureAuthority.pubkey.bytes⟩,
          ⟨.mintCloseAuthority, closeAuthority.pubkey.bytes⟩,
          ⟨.defaultAccountState, [stateByte .initialized]⟩])]
  epoch := 0

theorem mints_charging :
    charging.chain.mints stablecoin =
      some { bornMint with transferFee := some feeConfig } := by
  decide

theorem birth_keepsMint : birth.KeepsMint stablecoin := by
  intro instruction member
  simp only [List.mem_cons, List.not_mem_nil, or_false] at member
  rcases member with rfl | rfl | rfl
  all_goals exact fun closes => closes

end Coining

/-- Half a percent is set, which cannot be charged in this epoch or in the
next. -/
theorem a_fee_change_is_announced :
    let sent := (LibraryCall.runAll
      (World.initial (.ongoing (fun _ => none) Coining.charging) 0 :
        World Coining.cluster)
      [(.setTransferFee Busy.stablecoin Coining.feeAuthority 50 1000 :
        LibraryCall Transparent.crypto)]).sent
    sent.map Sent.landed = [true] ∧
      ∀ one ∈ sent, HoldsAround Coining.cluster (fun chain =>
        chain.epoch ≤ 1 →
          ∃ mint asOf, chain.mints Busy.stablecoin = some mint ∧ 0 ≤ asOf ∧
            asOf ≤ chain.epoch ∧
            ∀ amount, expectedFee mint chain.epoch amount =
              expectedFee
                { Coining.bornMint with
                  transferFee := some Coining.feeConfig } asOf amount) one := by
  refine ⟨by decide, ?_⟩
  refine fee_changes_are_announced Coining.cluster Transparent.crypto
    Coining.token (Coining.contract Coining.birth_keepsMint)
    (.ongoing (fun _ => none) Coining.charging) Coining.mints_charging rfl
    [.setTransferFee Busy.stablecoin Coining.feeAuthority 50 1000] 0 ?_
  intro call member
  rw [List.mem_singleton.mp member]
  trivial

/-! ## A fee that was set -/

/-- What is charged once a fee was set in an epoch: until the second epoch from
then begins, what was charged when it was set. -/
def ChargesAfter (coin : Coin) (read : MintSnapshot)
    (epoch transferFeeBasisPoints maximumFee : Nat) (chain : TokenChain) :
    Prop :=
  ∃ mint, chain.mints coin.mint = some mint ∧ ∀ amount,
    (chain.epoch < epoch + 2 →
      expectedFee mint chain.epoch amount = expectedFee read epoch amount) ∧
    (epoch + 2 ≤ chain.epoch → ∀ fee,
      (TransferFee.mk (epoch + 2) maximumFee
        transferFeeBasisPoints).calculateFee amount = some fee →
        expectedFee mint chain.epoch amount = .ok fee)

section Setting

variable {C : Cluster} {crypto : Crypto} {coin : Coin}
  {keys : Address → Prop} {chain after : TokenChain} {signers : List Address}
  {read : MintSnapshot} {config : TransferFeeConfig}
  {epoch transferFeeBasisPoints maximumFee : Nat}

/-- The mint once its fee was set. -/
def MintSnapshot.settingFee (mint : MintSnapshot) (config : TransferFeeConfig)
    (epoch transferFeeBasisPoints maximumFee : Nat) : MintSnapshot :=
  { mint with
    transferFee :=
      some (config.setFee epoch transferFeeBasisPoints maximumFee) }

/-- A fee that nobody sets again. -/
theorem StaysUnder.charges
    (under : StaysUnder coin keys
      (read.settingFee config epoch transferFeeBasisPoints maximumFee) chain)
    (present : read.transferFee = some config)
    (unset :
      ¬ HeldAmong keys (read.holder (.extension .transferFeeConfig))) :
    ChargesAfter coin read epoch transferFeeBasisPoints maximumFee chain := by
  obtain ⟨mint, found, governed⟩ := under
  have same : mint.fees = (read.settingFee config epoch transferFeeBasisPoints
      maximumFee).fees := by
    refine governed.fees.resolve_right fun held => unset ?_
    change HeldAmong keys (read.transferFee.bind _)
    rw [present]
    exact held
  obtain ⟨current, currentPresent, both⟩ := Option.map_eq_some_iff.mp same
  have older : current.olderTransferFee = config.getEpochFee epoch :=
    congrArg Prod.fst both
  have newer : current.newerTransferFee =
      ⟨epoch + 2, maximumFee, transferFeeBasisPoints⟩ :=
    congrArg Prod.snd both
  refine ⟨mint, found, fun amount => ⟨fun early => ?_, fun late fee charged =>
    ?_⟩⟩
  · refine expectedFee_congr currentPresent present ?_ amount
    have notYet : ¬ epoch + 2 ≤ chain.epoch := Nat.not_le.mpr early
    unfold TransferFeeConfig.getEpochFee
    rw [newer]
    exact (if_neg notYet).trans older
  · have inForce : current.getEpochFee chain.epoch =
        ⟨epoch + 2, maximumFee, transferFeeBasisPoints⟩ := by
      unfold TransferFeeConfig.getEpochFee
      rw [newer, if_pos late]
    have computed : current.calculateEpochFee chain.epoch amount = some fee :=
      (congrArg (TransferFee.calculateFee · amount) inForce).trans charged
    rw [expectedFee_eq_elim currentPresent, computed]
    exact Option.elim_some ..

/-- What a transaction that sets the fee leaves of the mint. -/
theorem PerformsAll.setsFee
    {authority : Address}
    (performs : PerformsAll crypto coin signers chain
      [.instruct (.setTransferFee coin.mint authority transferFeeBasisPoints
        maximumFee), .elsewhere] after)
    (found : chain.mints coin.mint = some read)
    (stays : ¬ HeldAmong keys read.closeAuthority) :
    ∃ config, read.transferFee = some config ∧
      StaysUnder coin keys (read.settingFee config chain.epoch
        transferFeeBasisPoints maximumFee) after := by
  cases performs with
  | @cons _ between _ _ _ first rest =>
      cases rest with
      | cons second rest =>
          cases rest
          cases second with
          | elsewhere unconcerned =>
              cases first with
              | confide confides => cases confides
              | foreign confides => cases confides
              | perform performed =>
                  obtain ⟨state, config, here, present, rfl⟩ :=
                    TokenChain.setTransferFee_eq_some performed
                  obtain rfl := Option.some.inj (found.symm.trans here)
                  exact ⟨config, present,
                    TokenChain.Governs.of_unconcerned unconcerned _
                      (TokenChain.setMint_self _) stays⟩

end Setting

/-- When `setTransferFee` returns and nobody else has the keys that set fees or
close the mint: whatever calls are made next and whatever others do, what was
charged before is charged for this epoch and the one that follows, and then what
was set. -/
theorem a_set_fee_applies_two_epochs_later
    (C : Cluster) (crypto : Crypto) (coin : Coin) (keys : Address → Prop)
    (contract : CoinContract C crypto coin (·.SignedAmong keys))
    (state : C.State) {mint : MintSnapshot}
    (found : (C.tokenChain state).mints coin.mint = some mint)
    (stays : ¬ HeldAmong keys mint.closeAuthority)
    (unset :
      ¬ HeldAmong keys (mint.holder (.extension .transferFeeConfig)))
    (feeAuthority : Keypair) (transferFeeBasisPoints maximumFee : Nat)
    (calls : List (LibraryCall crypto)) (drawn : Nat)
    (payer : keys C.payer)
    (draws : ∀ number, keys (C.keypairs number).pubkey)
    (given : ∀ call ∈ calls, ∀ key ∈ call.keys, keys key.pubkey) :
    Flow.Ensures (setTransferFee coin.mint feeAuthority transferFeeBasisPoints
        maximumFee) (World.initial state drawn : World C)
      fun outcome reached => outcome = .ok () →
        ∃ one rest read,
          (LibraryCall.runAll reached calls).sent = one :: rest ∧
            one.landed = true ∧
            (C.tokenChain one.delivery.before).mints coin.mint = some read ∧
            ∀ other ∈ rest, HoldsAround C
              (ChargesAfter coin read (C.tokenChain one.delivery.before).epoch
                transferFeeBasisPoints maximumFee) other := by
  refine .bind (.ofExcept (fun built isBuilt => ?_) fun _ _ failed => by
    cases failed)
  obtain rfl := tokenInstruction_eq_ok isBuilt
  refine .bind (World.ensures_send (fun receipt outcome => .pure fun _ => ?_)
    fun _ _ failed => by cases failed)
  obtain ⟨read, here, governed⟩ := (contract.before state
    [.token (.setTransferFee coin.mint feeAuthority.pubkey
      transferFeeBasisPoints maximumFee)] [feeAuthority]).staysUnder
        ⟨mint, found, .refl⟩ stays
  have readStays : ¬ HeldAmong keys read.closeAuthority :=
    fun held => stays (governed.heldAmong .closeAccount held)
  have readUnset :
      ¬ HeldAmong keys (read.holder (.extension .transferFeeConfig)) :=
    fun held => unset (governed.heldAmong _ held)
  obtain ⟨config, present, under⟩ :=
    (contract.landed _ _ _ _ outcome).setsFee here readStays
  have start := (contract.after state
    [.token (.setTransferFee coin.mint feeAuthority.pubkey
      transferFeeBasisPoints maximumFee)] [feeAuthority]).staysUnder under
        readStays
  obtain ⟨rest, sent, chained, posts⟩ := LibraryCall.submits_runAll calls
    ((World.initial state drawn : World C).deliver _ _)
  refine ⟨(World.initial state drawn : World C).sending _ _, rest, read, sent,
    World.landed_sending outcome, here, fun other member => ?_⟩
  have around := contract.staysUnder chained start readStays
    (fun one isSent =>
      LibraryCall.Posts.signed (posts one isSent) payer draws given)
    other member
  exact
    { before := around.before.charges present readUnset
      after := around.after.charges present readUnset
      next := around.next.charges present readUnset }

/-- Half a percent is set, and a freeze authority goes on. -/
theorem a_set_fee_waits :
    let world : World Coining.cluster :=
      World.initial (.ongoing (fun _ => none) Coining.charging) 0
    let reached := (Flow.exec
      (setTransferFee Busy.stablecoin Coining.feeAuthority 50 1000 :
        Flow (World Coining.cluster) Error Unit) world).2
    ∃ one rest read,
      (LibraryCall.runAll reached
        [(.setDefaultAccountState Busy.stablecoin Busy.freezeAuthority .frozen :
          LibraryCall Transparent.crypto)]).sent = one :: rest ∧
        one.landed = true ∧
        (Coining.cluster.tokenChain one.delivery.before).mints
          Busy.stablecoin = some read ∧
        ∀ other ∈ rest, HoldsAround Coining.cluster
          (ChargesAfter Coining.token read
            (Coining.cluster.tokenChain one.delivery.before).epoch 50 1000)
          other := by
  let keys : Address → Prop :=
    fun key => key ≠ Coining.feeAuthority.pubkey ∧
      key ≠ Coining.closeAuthority.pubkey
  have others : ∀ {byte : UInt8} (number : Nat), byte ≠ 1 →
      (Coining.keypair number).pubkey ≠ Address.filled byte :=
    fun number other => Coining.keypair_ne_filled other number
  have done := a_set_fee_applies_two_epochs_later Coining.cluster
    Transparent.crypto Coining.token keys
    (Coining.contract (by intro signer member; cases member))
    (.ongoing (fun _ => none) Coining.charging) Coining.mints_charging
    (by rintro ⟨key, isHolder, _, notClose⟩
        exact notClose (Option.some.inj isHolder).symm)
    (by rintro ⟨key, isHolder, notFee, _⟩
        exact notFee (Option.some.inj isHolder).symm)
    Coining.feeAuthority 50 1000
    [.setDefaultAccountState Busy.stablecoin Busy.freezeAuthority .frozen] 0
    ⟨by decide, by decide⟩
    (fun number => ⟨others number (by decide), others number (by decide)⟩)
    (by intro call member key isKey
        obtain rfl := List.mem_singleton.mp member
        obtain rfl := List.mem_singleton.mp isKey
        exact ⟨by decide, by decide⟩)
  exact done.holds (by decide)

end Remit
