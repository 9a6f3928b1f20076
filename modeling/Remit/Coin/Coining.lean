import Remit.Cluster.Coining
import Remit.Coin.Cluster
import Remit.Crypto.Transparent

/-!
# The contract of a cluster with a coin

The cluster on which a coin comes about keeps the contract, whatever else others
might do, as long as they may do that.
-/

namespace Remit

set_option maxRecDepth 2000
namespace Coining

open Busy (freezeAuthority holding seizureAuthority stablecoin)
open Purses Runs

variable {crypto : Crypto} {coin : Coin} {theirs : CoinEvent → Prop}

/-- The coin of the cluster. -/
def token : Coin :=
  ⟨stablecoin, ⟨0⟩⟩

/-! ## The coin comes about -/

/-- The mint when nothing was issued. -/
def bornMint : MintSnapshot where
  address := stablecoin
  decimals := 2
  supply := 0
  mintAuthority := some mintAuthority.pubkey
  freezeAuthority := some freezeAuthority.pubkey
  extensions :=
    [.transferFeeConfig, .permanentDelegate, .mintCloseAuthority,
      .defaultAccountState]
  transferFee := some ⟨none, none, 0, ⟨0, 0, 0⟩, ⟨0, 0, 0⟩⟩
  metadataPointer := none
  defaultAccountState := some .initialized
  closeAuthority := some closeAuthority.pubkey
  permanentDelegate := some seizureAuthority.pubkey
  confidential := none
  confidentialFee := none
  metadata := none
  dataLen := 357
  lamports := 0

/-- An account that was opened. -/
def opened (address owner : Address) : AccountSnapshot where
  address := address
  mint := stablecoin
  owner := owner
  amount := 0
  state := .initialized
  delegate := none
  delegatedAmount := 0
  extensions := [.transferFeeAmount]
  withheldFee := some 0
  cpiGuard := none
  confidential := none
  confidentialWithheld := none
  dataLen := 178
  lamports := 0

/-- Others create the mint and open two accounts. -/
def birth : CoinEvent :=
  .transact []
    [.instruct (.initializeMint2 stablecoin mintAuthority.pubkey
        (some freezeAuthority.pubkey) 2),
      .openAccount (opened holder owner.pubkey),
      .openAccount (opened treasury mintAuthority.pubkey)]

theorem chain_tokensAt_of_notMem
    {address : Address} {entries : List (Address × TokenData)} {epoch : Nat}
    (away : address ∉ entries.map (·.1)) :
    let chain := Busy.Ledger.chain ⟨Busy.tokensAt entries, epoch⟩
    chain.accounts address = none ∧ chain.mints address = none := by
  have nothing : Busy.tokensAt entries address = none := by
    unfold Busy.tokensAt
    rw [List.find?_eq_none.mpr fun entry member => ?_]
    · rfl
    · have other : entry.1 ≠ address := fun same =>
        away (List.mem_map.mpr ⟨entry, member, same⟩)
      simpa using other
  simp [Busy.Ledger.chain, Quiet.decoded, nothing]

/-- What is on the chain when the coin has come about. -/
theorem chain_born :
    born.chain =
      (((Busy.Ledger.chain ⟨fun _ => none, 0⟩).setMint stablecoin
          bornMint).setAccount holder
            (some (opened holder owner.pubkey))).setAccount treasury
              (some (opened treasury mintAuthority.pubkey)) := by
  have agree : ∀ address,
      born.chain.accounts address =
          ((((Busy.Ledger.chain ⟨fun _ => none, 0⟩).setMint stablecoin
            bornMint).setAccount holder
              (some (opened holder owner.pubkey))).setAccount treasury
                (some (opened treasury mintAuthority.pubkey))).accounts
            address ∧
        born.chain.mints address =
          ((Busy.Ledger.chain ⟨fun _ => none, 0⟩).setMint stablecoin
            bornMint).mints address := by
    intro address
    by_cases known : address ∈ [stablecoin, holder, treasury]
    · simp only [List.mem_cons, List.not_mem_nil, or_false] at known
      rcases known with rfl | rfl | rfl
      · decide
      · decide
      · decide
    · have nothing : born.chain.accounts address = none ∧
          born.chain.mints address = none := chain_tokensAt_of_notMem known
      simp only [List.mem_cons, List.not_mem_nil, or_false, not_or] at known
      rw [TokenChain.setAccount_of_ne _ known.2.2,
        TokenChain.setAccount_of_ne _ known.2.1,
        TokenChain.setMint_of_ne known.1]
      exact nothing
  exact TokenChain.ext (funext fun address => (agree address).1)
    (funext fun address => (agree address).2) rfl

/-- Others may bring the coin about. -/
theorem others_birth (allowed : theirs birth) :
    Others crypto coin theirs (Busy.Ledger.chain ⟨fun _ => none, 0⟩)
      born.chain := by
  have initializes : InitializesMint mintAuthority.pubkey
      (some freezeAuthority.pubkey) 2 bornMint := by
    refine ⟨rfl, rfl, rfl, rfl, fun config present => ?_⟩
    cases present
    rfl
  have opens : ∀ address owner, OpensEmpty bornMint (opened address owner) :=
    fun _ _ => ⟨rfl, rfl, rfl, rfl, rfl, rfl⟩
  refine ⟨[(birth, born.chain)], ?_, ⟨allowed, trivial⟩, rfl⟩
  refine .next (.transact ?_) (.stay _)
  rw [chain_born]
  refine .cons (.initializeMint rfl initializes)
    (.cons (.openAccount rfl ?_ (opens _ _))
      (.cons (.openAccount ?_ ?_ (opens _ _)) .nil))
  · decide
  · decide
  · decide

/-! ## A sanctioned account -/

/-- An account that was frozen when some of its money was hidden. -/
def sanctioned : AccountSnapshot :=
  { opened holder owner.pubkey with
    amount := 60
    state := .frozen
    extensions :=
      [.immutableOwner, .transferFeeAmount, .confidentialTransferAccount]
    confidential := some
      { approved := true
        elgamalPubkey := ⟨0⟩
        pendingBalanceLo := ⟨0⟩
        pendingBalanceHi := ⟨0⟩
        availableBalance := ⟨40⟩
        decryptableAvailableBalance := ⟨40⟩
        allowConfidentialCredits := true
        allowNonConfidentialCredits := true
        pendingBalanceCreditCounter := 0
        maximumPendingBalanceCreditCounter := 65536
        expectedPendingBalanceCreditCounter := 0
        actualPendingBalanceCreditCounter := 0 }
    dataLen := 481 }

/-- The ledger with that account, and an account of the issuer. -/
def freezing : Busy.Ledger where
  tokens := Busy.tokensAt
    [(stablecoin, mintData 100 .frozen),
      (holder, Layout.writeAccount sanctioned),
      (treasury, holding mintAuthority.pubkey 0 .initialized 0)]
  epoch := 0

/-- What is in the purses. -/
noncomputable def purses : Purse →₀ Nat :=
  put (put 0 (.account holder .spendable) 60) (.account holder .available) 40

theorem accountOf_holder :
    freezing.chain.accountOf stablecoin holder = some sanctioned := by
  decide

theorem accountOf_treasury :
    freezing.chain.accountOf stablecoin treasury =
      some (opened treasury mintAuthority.pubkey) := by
  decide

theorem accountOf_other
    {address : Address} (other : address ≠ holder)
    (another : address ≠ treasury) :
    freezing.chain.accountOf stablecoin address = none := by
  by_cases isMint : address = stablecoin
  · subst isMint
    decide
  · have nothing : freezing.chain.accounts address = none ∧
        freezing.chain.mints address = none :=
      chain_tokensAt_of_notMem (by simp [other, another, isMint])
    unfold TokenChain.accountOf
    rw [nothing.1]
    rfl

theorem held_purses_holder (compartment : Compartment) :
    held purses holder compartment =
      match compartment with
      | .spendable => 60
      | .available => 40
      | _ => 0 := by
  unfold purses
  rw [held_put, held_put]
  cases compartment with
  | _ => simp [held]

theorem held_purses_other {address : Address} (other : address ≠ holder) :
    held purses address = 0 := by
  unfold purses
  rw [held_put_of_ne other, held_put_of_ne other]
  rfl

/-- The money of the sanctioned account is all there is. -/
theorem backed_freezing :
    Backed Transparent.crypto token purses freezing.chain where
  shows address account found := by
    change freezing.chain.accountOf stablecoin address = some account at found
    by_cases isHolder : address = holder
    · subst isHolder
      obtain rfl := Option.some.inj (accountOf_holder.symm.trans found)
      constructor
      case pending =>
          rintro state ⟨⟩
          rw [held_purses_holder]
          rfl
      case cleared =>
          rintro state ⟨⟩ _
          exact ⟨rfl, rfl⟩
      case available =>
          rintro state ⟨⟩
          rw [held_purses_holder]
          rfl
      case unconfigured => exact fun absent => by cases absent
      case unwithheld => exact fun _ => held_purses_holder _
      case hidden => exact fun _ present => by cases present
      all_goals exact held_purses_holder _
    · by_cases isTreasury : address = treasury
      · subst isTreasury
        obtain rfl := Option.some.inj (accountOf_treasury.symm.trans found)
        rw [held_purses_other isHolder]
        constructor
        case pending => exact fun _ present => by cases present
        case cleared => exact fun _ present => by cases present
        case available => exact fun _ present => by cases present
        case unconfigured => exact fun _ => ⟨rfl, rfl⟩
        case unwithheld => exact fun _ => rfl
        case hidden => exact fun _ present => by cases present
        all_goals rfl
      · rw [accountOf_other isHolder isTreasury] at found
        cases found
  absent address missing := by
    change freezing.chain.accountOf stablecoin address = none at missing
    refine held_purses_other fun isHolder => ?_
    rw [isHolder, accountOf_holder] at missing
    cases missing
  pool := by
    have empty : freezing.chain.mintWithheld stablecoin = some 0 := by
      decide
    simp [purses, token, empty]
  supply := by
    have supply : freezing.chain.supply stablecoin = 100 := by decide
    simp [purses, token, total_put, supply]
  bounded := by simp [purses, total_put]

/-! ## The contract -/

/-- What was carried out is what the instructions do. -/
theorem performsAll_of_carryOutAll
    {signers : List Address} {instructions : List TokenInstruction}
    {ledger next : Busy.Ledger}
    (carried : carryOutAll signers ledger instructions = some next) :
    PerformsAll crypto coin signers ledger.chain
      (instructions.map .instruct) next.chain := by
  induction instructions generalizing ledger with
  | nil =>
      cases carried
      exact .nil
  | cons instruction rest inductionHypothesis =>
      obtain ⟨between, performed, carried⟩ := carryOutAll_cons_eq_some carried
      exact .cons (.perform performed) (inductionHypothesis carried)

theorem others_refl (chain : TokenChain) :
    Others crypto coin theirs chain chain :=
  ⟨[], .stay chain, trivial, rfl⟩

/-- Others may burn what the holder has. -/
theorem others_spent
    (allowed : ∀ amount, theirs (.transact [owner.pubkey]
      [.burn holder stablecoin owner.pubkey amount 2]))
    (ledger : Busy.Ledger) :
    Others crypto coin theirs ledger.chain (spent ledger).chain := by
  rcases spent_eq_or ledger with same | ⟨amount, burnt⟩
  · rw [same]
    exact others_refl _
  · refine ⟨[(_, (spent ledger).chain)], ?_, ⟨allowed amount, trivial⟩, rfl⟩
    exact .next (.transact (.cons (.burn burnt) .nil)) (.stay _)

/-- The contract holds whatever others may do once there is a coin. -/
theorem contractOf
    {others : Busy.Ledger → Busy.Ledger} (allowed : theirs birth)
    (act : ∀ ledger,
      Others crypto coin theirs ledger.chain (others ledger).chain) :
    CoinContract (clusterOf others) crypto coin theirs where
  before := by
    intro (state : State) transaction signers
    change Others crypto coin theirs state.ledger.chain
      (send others state transaction signers).before.ledger.chain
    rw [send_attempts.before]
    cases state with
    | unborn => exact others_birth allowed
    | ongoing => exact act _
  landed := by
    intro (state : State) transaction signers receipt landed
    obtain ⟨_, carried⟩ := process_eq_some (send_attempts.ok landed)
    change PerformsAll crypto coin (Quiet.payer :: signers.map (·.pubkey))
      (send others state transaction signers).before.ledger.chain
      (coinInstructions transaction)
      (send others state transaction signers).after.ledger.chain
    rw [send_attempts.before]
    exact (performsAll_of_carryOutAll carried).append
      (.cons (.elsewhere (.refl coin _)) .nil)
  not_landed := by
    intro (state : State) transaction signers error failed
    change (send others state transaction signers).after.ledger.chain =
      (send others state transaction signers).before.ledger.chain
    rw [send_attempts.error failed, send_attempts.before]
  after := by
    intro (state : State) transaction signers
    change Others crypto coin theirs
      (send others state transaction signers).after.ledger.chain
      (send others state transaction signers).next.ledger.chain
    rw [send_attempts.next]
    exact others_refl _

theorem contract (allowed : theirs birth) :
    CoinContract cluster crypto coin theirs :=
  contractOf allowed fun _ => others_refl _

end Coining
end Remit
