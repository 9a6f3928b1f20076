import Remit.Coin.Calls
import Remit.Coin.Mints

/-!
# Powers over the mint

Each power over the mint has its own key.  Whatever is done without that key
leaves what the power decides as it was, and no call of the library hands a
power on or reforms the mint.
-/

namespace Remit

set_option maxRecDepth 2000

open Flows Flow Runs

/-- The holder of a power is among the keys. -/
def HeldAmong (keys : Address → Prop) (holder : Option Address) : Prop :=
  ∃ key, holder = some key ∧ keys key

/-- What is settled for good when a mint is created. -/
structure Charter where
  decimals : Nat
  withheldKey : Option PodElGamalPubkey
deriving DecidableEq

namespace MintSnapshot

def charter (mint : MintSnapshot) : Charter where
  decimals := mint.decimals
  withheldKey :=
    mint.confidentialFee.map (·.withdrawWithheldAuthorityElgamalPubkey)

/-- Who withdraws the fees that the mint has withheld. -/
def treasury (mint : MintSnapshot) : Option (Option Address) :=
  mint.transferFee.map (·.withdrawWithheldAuthority)

/-- Whether accounts are approved by themselves, and who audits transfers. -/
def policy (mint : MintSnapshot) : Option (Bool × Option PodElGamalPubkey) :=
  mint.confidential.map fun policy =>
    (policy.autoApproveNewAccounts, policy.auditorElgamalPubkey)

/-- Where the metadata is. -/
def pointer (mint : MintSnapshot) : Option (Option Address) :=
  mint.metadataPointer.map (·.metadataAddress)

/-- The fees in force and to come. -/
def fees (mint : MintSnapshot) : Option (TransferFee × TransferFee) :=
  mint.transferFee.map fun config =>
    (config.olderTransferFee, config.newerTransferFee)

/-- What can become of a mint by some keys, where powers are handed on and the
mint is reformed, or neither. -/
structure GovernedBy (handing : Prop) (keys : Address → Prop)
    (before after : MintSnapshot) : Prop where
  charter : after.charter = before.charter
  holder : ∀ type, after.holder type = before.holder type ∨
    handing ∧ HeldAmong keys (before.holder type)
  treasury : after.treasury = before.treasury ∨
    handing ∧ HeldAmong keys before.treasury.join
  policy : after.policy = before.policy ∨
    handing ∧
      HeldAmong keys (before.holder (.extension .confidentialTransferMint))
  pointer : after.pointer = before.pointer ∨
    handing ∧ HeldAmong keys (before.holder (.extension .metadataPointer))
  supply : after.supply ≤ before.supply ∨ HeldAmong keys before.mintAuthority
  state : after.defaultAccountState = before.defaultAccountState ∨
    HeldAmong keys before.freezeAuthority
  fees : after.fees = before.fees ∨
    HeldAmong keys (before.holder (.extension .transferFeeConfig))
  metadata : after.metadata = before.metadata ∨
    before.metadata = none ∧ HeldAmong keys before.mintAuthority ∨
      ∃ metadata, before.metadata = some metadata ∧
        HeldAmong keys metadata.updateAuthority

namespace GovernedBy

variable {handing : Prop} {keys others : Address → Prop}
  {before between after : MintSnapshot}

theorem refl : before.GovernedBy handing keys before where
  charter := rfl
  holder _ := .inl rfl
  treasury := .inl rfl
  policy := .inl rfl
  pointer := .inl rfl
  supply := .inl (Nat.le_refl _)
  state := .inl rfl
  fees := .inl rfl
  metadata := .inl rfl

/-- A power that is used in the end was in the same hands before, or used
before. -/
theorem heldAmong
    (first : before.GovernedBy handing keys between) (type : AuthorityType)
    (held : HeldAmong keys (between.holder type)) :
    HeldAmong keys (before.holder type) := by
  rcases first.holder type with same | ⟨_, already⟩
  · rw [← same]
    exact held
  · exact already

theorem trans
    (first : before.GovernedBy handing keys between)
    (second : between.GovernedBy handing keys after) :
    before.GovernedBy handing keys after where
  charter := second.charter.trans first.charter
  holder type := by
    rcases second.holder type with same | ⟨hands, held⟩
    · rw [same]
      exact first.holder type
    · exact .inr ⟨hands, first.heldAmong type held⟩
  treasury := by
    rcases first.treasury with same | used
    · rw [← same]
      exact second.treasury
    · exact .inr used
  policy := by
    rcases second.policy with same | ⟨hands, held⟩
    · rw [same]
      exact first.policy
    · exact .inr ⟨hands, first.heldAmong _ held⟩
  pointer := by
    rcases second.pointer with same | ⟨hands, held⟩
    · rw [same]
      exact first.pointer
    · exact .inr ⟨hands, first.heldAmong _ held⟩
  supply := by
    rcases second.supply with less | held
    · exact first.supply.imp_left less.trans
    · exact .inr (first.heldAmong .mintTokens held)
  state := by
    rcases second.state with same | held
    · rw [same]
      exact first.state
    · exact .inr (first.heldAmong .freezeAccount held)
  fees := by
    rcases second.fees with same | held
    · rw [same]
      exact first.fees
    · exact .inr (first.heldAmong (.extension .transferFeeConfig) held)
  metadata := by
    rcases first.metadata with same | used
    · rcases second.metadata with
        sameAgain | ⟨absent, held⟩ | ⟨found, present, held⟩
      · exact .inl (sameAgain.trans same)
      · exact .inr (.inl ⟨same ▸ absent,
          first.heldAmong .mintTokens held⟩)
      · exact .inr (.inr ⟨found, same ▸ present, held⟩)
    · exact .inr used

theorem mono
    {rotating : Prop} (governed : before.GovernedBy handing keys after)
    (hands : handing → rotating) (more : ∀ key, keys key → others key) :
    before.GovernedBy rotating others after := by
  have held : ∀ {holder : Option Address},
      HeldAmong keys holder → HeldAmong others holder :=
    fun ⟨key, isHolder, among⟩ => ⟨key, isHolder, more key among⟩
  exact
    { charter := governed.charter
      holder := fun type => (governed.holder type).imp_right
        fun both => ⟨hands both.1, held both.2⟩
      treasury := governed.treasury.imp_right
        fun both => ⟨hands both.1, held both.2⟩
      policy := governed.policy.imp_right
        fun both => ⟨hands both.1, held both.2⟩
      pointer := governed.pointer.imp_right
        fun both => ⟨hands both.1, held both.2⟩
      supply := governed.supply.imp_right held
      state := governed.state.imp_right held
      fees := governed.fees.imp_right held
      metadata := governed.metadata.imp_right fun used =>
        used.imp (fun both => ⟨both.1, held both.2⟩)
          fun ⟨metadata, present, holds⟩ =>
            ⟨metadata, present, held holds⟩ }

end GovernedBy

/-! ## One instruction -/

section Steps

variable {handing : Prop} {keys : Address → Prop} {mint after : MintSnapshot}

/-- All that the powers decide about. -/
def regime (mint : MintSnapshot) :=
  (mint.charter, mint.holder, mint.treasury, mint.policy, mint.pointer,
    mint.supply, mint.defaultAccountState, mint.fees, mint.metadata)

theorem GovernedBy.of_regime (same : after.regime = mint.regime) :
    mint.GovernedBy handing keys after := by
  unfold regime at same
  simp only [Prod.mk.injEq] at same
  obtain ⟨charter, holder, treasury, policy, pointer, supply, state, fees,
    metadata⟩ := same
  exact
    { charter
      holder := fun type => .inl (congrFun holder type)
      treasury := .inl treasury
      policy := .inl policy
      pointer := .inl pointer
      supply := .inl (Nat.le_of_eq supply)
      state := .inl state
      fees := .inl fees
      metadata := .inl metadata }

theorem regime_withheld (mint : MintSnapshot) (amount : Nat) :
    regime
        { mint with
          transferFee := mint.transferFee.map fun config =>
            { config with withheldAmount := amount } } =
      mint.regime := by
  refine Prod.ext rfl (Prod.ext ?holder (Prod.ext ?treasury (Prod.ext rfl
    (Prod.ext rfl (Prod.ext rfl (Prod.ext rfl (Prod.ext ?fees rfl)))))))
  case holder =>
      have same := congrArg Prod.fst (governance_withheld mint amount)
      exact same
  case treasury =>
      change treasury _ = mint.treasury
      unfold treasury
      cases mint.transferFee with
      | none => rfl
      | some config => rfl
  case fees =>
      change fees _ = mint.fees
      unfold fees
      cases mint.transferFee with
      | none => rfl
      | some config => rfl

theorem fees_handing
    {type : AuthorityType} {newAuthority : Option Address}
    (handed : mint.handing newAuthority type = some after) :
    after.fees = mint.fees := by
  unfold handing at handed
  split at handed
  case h_9 => cases handed
  case h_4 =>
      obtain ⟨config, present, rfl⟩ := Option.map_eq_some_iff.mp handed
      unfold fees
      rw [present]
      rfl
  case h_5 | h_7 | h_8 =>
      obtain ⟨_, _, rfl⟩ := Option.map_eq_some_iff.mp handed
      rfl
  all_goals
    cases handed
    rfl

/-- What the holders of powers do not decide by handing them on. -/
theorem settings_handing
    {type : AuthorityType} {newAuthority : Option Address}
    (handed : mint.handing newAuthority type = some after) :
    after.charter = mint.charter ∧ after.treasury = mint.treasury ∧
      after.policy = mint.policy ∧ after.pointer = mint.pointer ∧
      after.metadata = mint.metadata := by
  unfold handing at handed
  split at handed
  case h_9 => cases handed
  case h_4 | h_5 | h_7 | h_8 =>
      obtain ⟨_, present, rfl⟩ := Option.map_eq_some_iff.mp handed
      unfold charter treasury policy pointer
      rw [present]
      exact ⟨rfl, rfl, rfl, rfl, rfl⟩
  all_goals
    cases handed
    exact ⟨rfl, rfl, rfl, rfl, rfl⟩

/-- Handing on a power changes nothing but who holds it. -/
theorem GovernedBy.of_handing
    {type : AuthorityType} {newAuthority : Option Address}
    (handed : mint.handing newAuthority type = some after)
    (held : HeldAmong keys (mint.holder type)) :
    mint.GovernedBy True keys after := by
  obtain ⟨charter, treasury, policy, pointer, metadata⟩ :=
    settings_handing handed
  refine
    { charter
      holder := fun other => ?_
      treasury := .inl treasury
      policy := .inl policy
      pointer := .inl pointer
      supply := .inl (Nat.le_of_eq (handing_money handed).1)
      state := .inl (state_handing handed)
      fees := .inl (fees_handing handed)
      metadata := .inl metadata }
  by_cases same : other = type
  · subst same
    exact .inr ⟨trivial, held⟩
  · exact .inl (holder_handing handed same)

theorem fees_reforming
    {change : MintReform} (reformed : mint.reforming change = some after) :
    after.fees = mint.fees := by
  cases change with
  | withheldWithdraw =>
      obtain ⟨config, present, rfl⟩ := Option.map_eq_some_iff.mp reformed
      unfold fees
      rw [present]
      rfl
  | _ =>
      obtain ⟨_, _, rfl⟩ := Option.map_eq_some_iff.mp reformed
      rfl

theorem charter_reforming
    {change : MintReform} (reformed : mint.reforming change = some after) :
    after.charter = mint.charter := by
  cases change with
  | _ =>
      obtain ⟨_, _, rfl⟩ := Option.map_eq_some_iff.mp reformed
      rfl

/-- A reform changes what its reformer decides about. -/
theorem GovernedBy.of_reforming
    {change : MintReform} (reformed : mint.reforming change = some after)
    (held : HeldAmong keys (mint.reformer change)) :
    mint.GovernedBy True keys after := by
  have governance := governance_reforming reformed
  -- The rest is the same for every reform.
  have governed treasury policy pointer metadata :
      mint.GovernedBy True keys after :=
    { charter := charter_reforming reformed
      holder := fun type =>
        .inl (congrFun (congrArg Prod.fst governance) type)
      treasury
      policy
      pointer
      supply := .inl (Nat.le_of_eq (reforming_money reformed).1)
      state := .inl (congrArg Prod.snd governance)
      fees := .inl (fees_reforming reformed)
      metadata }
  cases change with
  | withheldWithdraw =>
      obtain ⟨config, present, rfl⟩ := Option.map_eq_some_iff.mp reformed
      apply governed (.inr ⟨trivial, ?_⟩) (.inl rfl) (.inl rfl) (.inl rfl)
      unfold MintSnapshot.treasury
      unfold reformer at held
      rw [present] at held ⊢
      exact held
  | confidentialMint =>
      obtain ⟨_, _, rfl⟩ := Option.map_eq_some_iff.mp reformed
      exact governed (.inl rfl) (.inr ⟨trivial, held⟩) (.inl rfl) (.inl rfl)
  | metadataPointer =>
      obtain ⟨_, _, rfl⟩ := Option.map_eq_some_iff.mp reformed
      exact governed (.inl rfl) (.inl rfl) (.inr ⟨trivial, held⟩) (.inl rfl)
  | metadataAuthority | removeKey =>
      obtain ⟨metadata, present, rfl⟩ := Option.map_eq_some_iff.mp reformed
      apply governed (.inl rfl) (.inl rfl) (.inl rfl)
        (.inr (.inr ⟨metadata, present, ?_⟩))
      unfold reformer at held
      rwa [present] at held

end Steps

end MintSnapshot

namespace TokenChain

/-- What becomes of the mint of a coin, unless some of the keys can close
it. -/
def Governs (coin : Coin) (handing : Prop) (keys : Address → Prop)
    (before after : TokenChain) : Prop :=
  ∀ mint, before.mints coin.mint = some mint →
    ¬ HeldAmong keys mint.closeAuthority →
      ∃ later, after.mints coin.mint = some later ∧
        mint.GovernedBy handing keys later

variable {coin : Coin} {handing : Prop} {keys : Address → Prop}
  {signers : List Address} {chain between later : TokenChain}
  {mint after : MintSnapshot} {address : Address}

theorem Governs.refl : chain.Governs coin handing keys chain :=
  fun mint found _ => ⟨mint, found, .refl⟩

theorem Governs.trans
    (first : chain.Governs coin handing keys between)
    (second : between.Governs coin handing keys later) :
    chain.Governs coin handing keys later := by
  intro mint found closing
  obtain ⟨middle, middleFound, governed⟩ := first mint found closing
  obtain ⟨last, lastFound, governedOn⟩ := second middle middleFound
    fun held => closing (governed.heldAmong .closeAccount held)
  exact ⟨last, lastFound, governed.trans governedOn⟩

theorem Governs.mono
    {rotating : Prop} {others : Address → Prop}
    (governs : chain.Governs coin handing keys later)
    (hands : handing → rotating) (more : ∀ key, keys key → others key) :
    chain.Governs coin rotating others later := by
  intro mint found closing
  obtain ⟨last, lastFound, governed⟩ := governs mint found
    fun ⟨key, isHolder, among⟩ => closing ⟨key, isHolder, more key among⟩
  exact ⟨last, lastFound, governed.mono hands more⟩

/-- No mint changes. -/
theorem Governs.of_mints (same : later.mints = chain.mints) :
    chain.Governs coin handing keys later := by
  intro mint found _
  rw [same]
  exact ⟨mint, found, .refl⟩

/-- The mint of the coin may change, but nothing that powers decide about. -/
theorem Governs.of_regime
    (same : (later.mints coin.mint).map (·.regime) =
      (chain.mints coin.mint).map (·.regime)) :
    chain.Governs coin handing keys later := by
  intro mint found _
  rw [found] at same
  obtain ⟨last, lastFound, equal⟩ := Option.map_eq_some_iff.mp same
  exact ⟨last, lastFound, .of_regime equal⟩

/-- One mint changes. -/
theorem Governs.setMint
    (found : chain.mints address = some mint)
    (governed : mint.GovernedBy handing keys after) :
    chain.Governs coin handing keys (chain.setMint address after) := by
  intro state here _
  by_cases own : address = coin.mint
  · subst own
    obtain rfl := Option.some.inj (found.symm.trans here)
    rw [setMint_self]
    exact ⟨after, rfl, governed⟩
  · rw [setMint_of_ne (Ne.symm own)]
    exact ⟨state, here, .refl⟩

/-- Metadata is written by the mint authority first, and by its own update
authority from then on. -/
theorem describe_signed
    {instruction : TokenInstruction}
    (described : chain.describe signers instruction = some later) :
    ∃ address state metadata,
      chain.mints address = some state ∧
        later = chain.setMint address (state.describedBy metadata) ∧
        (state.metadata = none ∧
            HeldAmong (· ∈ signers) state.mintAuthority ∨
          ∃ current, state.metadata = some current ∧
            HeldAmong (· ∈ signers) current.updateAuthority) := by
  cases instruction with
  | initializeMetadata metadata updateAuthority mint mintAuthority =>
      change chain.initializeMetadata .. = _ at described
      unfold initializeMetadata at described
      split at described
      case h_1 => cases described
      case h_2 state found =>
          obtain ⟨⟨_, _, holds, signed, absent⟩, same⟩ :=
            Option.ite_none_right_eq_some.mp described
          cases same
          exact ⟨mint, state, _, found, rfl,
            .inl ⟨absent, mintAuthority, holds, signed⟩⟩
  | updateField metadata updateAuthority =>
      change chain.updateField .. = _ at described
      unfold updateField at described
      split at described
      case h_1 => cases described
      case h_2 state found =>
          split at described
          case h_1 => cases described
          case h_2 current present =>
              obtain ⟨⟨holds, signed⟩, same⟩ :=
                Option.ite_none_right_eq_some.mp described
              cases same
              exact ⟨metadata, state, _, found, rfl,
                .inr ⟨current, present, updateAuthority, holds, signed⟩⟩
  | _ => cases described

theorem Governs.of_describe
    {instruction : TokenInstruction}
    (described : chain.describe signers instruction = some later) :
    chain.Governs coin handing (· ∈ signers) later := by
  obtain ⟨address, state, metadata, found, rfl, signed⟩ :=
    describe_signed described
  exact .setMint found
    { charter := rfl
      holder := fun _ => .inl rfl
      treasury := .inl rfl
      policy := .inl rfl
      pointer := .inl rfl
      supply := .inl (Nat.le_refl _)
      state := .inl rfl
      fees := .inl rfl
      metadata := .inr signed }

theorem Governs.of_setTransferFee
    {mint authority : Address} {basisPoints maximumFee : Nat}
    (done : chain.setTransferFee signers mint authority basisPoints
      maximumFee = some later) :
    chain.Governs coin handing (· ∈ signers) later := by
  unfold setTransferFee at done
  split at done
  case h_1 => cases done
  case h_2 state found =>
      split at done
      case h_1 => cases done
      case h_2 config present =>
          obtain ⟨⟨holds, signed, _⟩, same⟩ :=
            Option.ite_none_right_eq_some.mp done
          cases same
          have isHolder : state.holder (.extension .transferFeeConfig) =
              some authority := by
            change state.transferFee.bind _ = _
            rw [present]
            exact holds
          have holder : ∀ type, MintSnapshot.holder
              { state with
                transferFee :=
                  some (config.setFee chain.epoch basisPoints maximumFee) }
              type = state.holder type := by
            intro type
            unfold MintSnapshot.holder
            rw [present]
            rfl
          refine .setMint found
            { charter := rfl
              holder := fun type => .inl (holder type)
              treasury := .inl ?_
              policy := .inl rfl
              pointer := .inl rfl
              supply := .inl (Nat.le_refl _)
              state := .inl rfl
              fees := .inr ⟨authority, isHolder, signed⟩
              metadata := .inl rfl }
          unfold MintSnapshot.treasury
          rw [present]
          rfl

theorem Governs.of_setMintAuthority
    {account authority : Address} {type : AuthorityType}
    {newAuthority : Option Address}
    (handed : chain.setMintAuthority signers account authority type
      newAuthority = some later)
    (hands : account = coin.mint → handing) :
    chain.Governs coin handing (· ∈ signers) later := by
  obtain ⟨before, after, found, changes, rfl⟩ := changeMint_eq_some handed
  obtain ⟨⟨holds, signed⟩, handing⟩ :=
    Option.ite_none_right_eq_some.mp changes
  intro mint here _
  by_cases own : account = coin.mint
  · subst own
    obtain rfl := Option.some.inj (found.symm.trans here)
    rw [setMint_self]
    exact ⟨after, rfl, (MintSnapshot.GovernedBy.of_handing handing
      ⟨authority, holds, signed⟩).mono (fun _ => hands rfl) fun _ among =>
        among⟩
  · rw [setMint_of_ne (Ne.symm own)]
    exact ⟨mint, here, .refl⟩

theorem Governs.of_reform
    {mint authority : Address} {change : MintReform}
    (done : chain.reform signers mint authority change = some later) :
    chain.Governs coin (mint = coin.mint) (· ∈ signers) later := by
  obtain ⟨before, after, found, holds, signed, reformed, rfl⟩ :=
    reform_eq_some done
  intro state here _
  by_cases own : mint = coin.mint
  · subst own
    obtain rfl := Option.some.inj (found.symm.trans here)
    rw [setMint_self]
    exact ⟨after, rfl, (MintSnapshot.GovernedBy.of_reforming reformed
      ⟨authority, holds, signed⟩).mono (fun _ => rfl) fun _ among => among⟩
  · rw [setMint_of_ne (Ne.symm own)]
    exact ⟨state, here, .refl⟩

theorem Governs.of_updateDefaultAccountState
    {account authority : Address} {state : AccountState}
    (updated : chain.updateDefaultAccountState signers account authority
      state = some later) :
    chain.Governs coin handing (· ∈ signers) later := by
  obtain ⟨before, after, found, changes, rfl⟩ := changeMint_eq_some updated
  obtain ⟨⟨_, _, holds, signed⟩, same⟩ :=
    Option.ite_none_right_eq_some.mp changes
  cases same
  exact .setMint found
    { charter := rfl
      holder := fun _ => .inl rfl
      treasury := .inl rfl
      policy := .inl rfl
      pointer := .inl rfl
      supply := .inl (Nat.le_refl _)
      state := .inr ⟨authority, holds, signed⟩
      fees := .inl rfl
      metadata := .inl rfl }

theorem Governs.of_mintTo
    {mint destination authority : Address} {amount decimals : Nat}
    (minted : chain.mintTo signers mint destination authority amount
      decimals = some later) :
    chain.Governs coin handing (· ∈ signers) later := by
  obtain ⟨_, _, found, _, holds, signed, _, _, _, rfl⟩ :=
    mintTo_eq_some minted
  exact .setMint found
    { charter := rfl
      holder := fun _ => .inl rfl
      treasury := .inl rfl
      policy := .inl rfl
      pointer := .inl rfl
      supply := .inr ⟨authority, holds, signed⟩
      state := .inl rfl
      fees := .inl rfl
      metadata := .inl rfl }

theorem Governs.of_burn
    {source mint authority : Address} {amount decimals : Nat}
    (burnt : chain.burn signers source mint authority amount decimals =
      some later) :
    chain.Governs coin handing (· ∈ signers) later := by
  obtain ⟨_, _, _, _, found, _, _, _, _, rfl⟩ := burn_eq_some burnt
  exact .setMint found
    { charter := rfl
      holder := fun _ => .inl rfl
      treasury := .inl rfl
      policy := .inl rfl
      pointer := .inl rfl
      supply := .inl (Nat.sub_le ..)
      state := .inl rfl
      fees := .inl rfl
      metadata := .inl rfl }

/-- A mint is closed by its close authority alone. -/
theorem Governs.of_closeMint
    {account authority : Address}
    (closed : chain.closeMint signers account authority = some later) :
    chain.Governs coin handing (· ∈ signers) later := by
  obtain ⟨state, found, holds, signed, _, rfl⟩ := closeMint_eq_some closed
  intro mint here closing
  by_cases own : account = coin.mint
  · subst own
    obtain rfl := Option.some.inj (found.symm.trans here)
    exact absurd ⟨authority, holds, signed⟩ closing
  · dsimp only
    rw [Function.update_of_ne (Ne.symm own)]
    exact ⟨mint, here, .refl⟩


theorem Governs.of_perform
    {instruction : TokenInstruction}
    (performed : instruction.perform signers chain = some later) :
    chain.Governs coin (∃ type, instruction.Hands coin.mint type) (· ∈ signers)
      later := by
  cases instruction with
  | initializeMetadata metadata updateAuthority mint mintAuthority name symbol
      uri =>
      have described : chain.describe signers
          (.initializeMetadata metadata updateAuthority mint mintAuthority name
            symbol uri) = some later := performed
      exact .of_describe described
  | updateField metadata updateAuthority key value =>
      have described : chain.describe signers
          (.updateField metadata updateAuthority key value) = some later :=
        performed
      exact .of_describe described
  | transferCheckedWithFee source mint destination authority amount decimals
      fee =>
      exact .of_mints (TokenInstruction.carryOut_mints
        (show TokenInstruction.carryOut signers chain
          (.transferCheckedWithFee source mint destination authority amount
            decimals fee) = some later from performed))
  | setTransferFee => exact .of_setTransferFee performed
  | harvestWithheldTokensToMint =>
      exact .of_regime (map_harvest MintSnapshot.regime_withheld performed _)
  | withdrawWithheldTokensFromMint mint =>
      obtain ⟨_, _, _, _, _, _, _, _, _, _, rfl⟩ :=
        withdrawWithheld_money performed
      exact .of_regime
        (map_setMintWithheld MintSnapshot.regime_withheld mint 0 _)
  | thawAccount | freezeAccount =>
      obtain ⟨_, _, _, _, rfl⟩ := toggleFreeze_eq_some performed
      exact .of_mints rfl
  | updateDefaultAccountState =>
      exact .of_updateDefaultAccountState performed
  | mintToChecked => exact .of_mintTo performed
  | approveChecked =>
      obtain ⟨_, _, _, _, _, _, rfl⟩ := approve_eq_some performed
      exact .of_mints rfl
  | enableCpiGuard =>
      obtain ⟨_, _, _, _, _, _, rfl⟩ := asOwner_eq_some performed
      exact .of_mints rfl
  | closeAccount => exact .of_closeMint performed
  | setAuthority account authority type newAuthority =>
      have hands : ∀ {type : AuthorityType}, account = coin.mint →
          ∃ other, (TokenInstruction.setAuthority account authority type
            newAuthority).Hands coin.mint other :=
        fun {type} own => ⟨type, own, rfl⟩
      cases type with
      | accountOwner =>
          obtain ⟨_, _, _, _, _, _, rfl⟩ := asOwner_eq_some performed
          exact .of_mints rfl
      | mintTokens => exact .of_setMintAuthority performed hands
      | freezeAccount => exact .of_setMintAuthority performed hands
      | closeAccount => exact .of_setMintAuthority performed hands
      | extension => exact .of_setMintAuthority performed hands
  | approveAccount =>
      obtain ⟨_, _, _, _, _, _, _, _, _, _, _, rfl⟩ :=
        approveConfidential_eq_some performed
      exact .of_mints rfl
  | _ => cases performed

/-- What others do elsewhere leaves the mint of the coin. -/
theorem Governs.of_unconcerned (unconcerned : Unconcerned coin chain later) :
    chain.Governs coin handing keys later := by
  refine .of_regime ?_
  have related := unconcerned.mints
  generalize chain.mints coin.mint = found at related ⊢
  generalize later.mints coin.mint = left at related ⊢
  cases related with
  | none => rfl
  | some same => rw [same]; rfl

end TokenChain

/-- Whether an instruction hands on a power over a mint, or reforms it. -/
def CoinInstruction.Rearranges (mint : Address) : CoinInstruction → Prop
  | reform reformed _ _ => reformed = mint
  | instruction => ∃ type, instruction.Hands mint type

section Transactions

variable {crypto : Crypto} {coin : Coin} {handing : Prop}
  {keys : Address → Prop} {signers : List Address} {chain later : TokenChain}

/-- Whatever is carried out, powers are used by their holders. -/
theorem Performs.governs
    {instruction : CoinInstruction}
    (performs : Performs crypto coin signers chain instruction later) :
    chain.Governs coin (instruction.Rearranges coin.mint) (· ∈ signers)
      later := by
  cases performs with
  | perform performed => exact .of_perform performed
  | initializeExtension => exact .refl
  | @initializeMint address _ _ _ _ missing =>
      intro mint found _
      have away : coin.mint ≠ address := by
        rintro rfl
        rw [missing] at found
        cases found
      rw [TokenChain.setMint_of_ne away]
      exact ⟨mint, found, .refl⟩
  | confide => exact .of_mints rfl
  | foreign _ _ _ unconcerned => exact .of_unconcerned unconcerned
  | configure => exact .of_mints rfl
  | reallocate => exact .of_mints rfl
  | burn burnt => exact .of_burn burnt
  | revoke revoked =>
      obtain ⟨_, _, _, _, _, _, rfl⟩ := TokenChain.asOwner_eq_some revoked
      exact .of_mints rfl
  | openAccount => exact .of_mints rfl
  | closeAccount => exact .of_mints rfl
  | adjust => exact .of_mints rfl
  | reform done => exact .of_reform done
  | elsewhere unconcerned => exact .of_unconcerned unconcerned

/-- So it is in a transaction, which rearranges what its instructions do. -/
theorem PerformsAll.governs
    {instructions : List CoinInstruction}
    (performs : PerformsAll crypto coin signers chain instructions later)
    (hands : ∀ instruction ∈ instructions,
      instruction.Rearranges coin.mint → handing) :
    chain.Governs coin handing (· ∈ signers) later := by
  induction performs with
  | nil => exact .refl
  | cons first _ inductionHypothesis =>
      have one := first.governs.mono (hands _ List.mem_cons_self)
        fun _ among => among
      exact one.trans (inductionHypothesis fun other member =>
        hands other (List.mem_cons_of_mem _ member))

/-- A transaction that only some keys have signed, or an epoch that begins. -/
def CoinEvent.SignedAmong (keys : Address → Prop) : CoinEvent → Prop
  | transact signers _ => ∀ signer ∈ signers, keys signer
  | begin _ => True

/-- Others use the powers of their keys. -/
theorem CoinStep.governs
    {event : CoinEvent} (step : CoinStep crypto coin chain event later)
    (signed : event.SignedAmong keys) :
    chain.Governs coin True keys later := by
  cases step with
  | transact performs =>
      exact (performs.governs fun _ _ _ => trivial).mono id signed
  | begin => exact .of_mints rfl

/-- No call hands a power on. -/
theorem LibraryCall.Carries.hands_nothing
    {call : LibraryCall crypto} {payer : Address}
    {carried : List TokenInstruction} (carries : call.Carries payer carried)
    {mint : Address} {type : AuthorityType} :
    ∀ instruction ∈ carried, ¬ instruction.Hands mint type := by
  have ordinary : ∀ {instruction : TokenInstruction}, instruction.Ordinary →
      ¬ instruction.Hands mint type := by
    intro instruction ordinary hands
    cases instruction with
    | setAuthority => cases ordinary
    | _ => cases hands
  intro instruction member
  cases call with
  | closeMint | setDefaultAccountState =>
      obtain rfl := carries
      rw [List.mem_singleton.mp member]
      exact fun hands => hands
  | approveKyc | revokeKyc =>
      obtain ⟨_, rfl⟩ := carries
      rw [List.mem_singleton.mp member]
      exact fun hands => hands
  | seize =>
      obtain ⟨_, _, _, rfl | rfl⟩ := carries
      · rw [List.mem_singleton.mp member]
        exact fun hands => hands
      · simp only [List.mem_cons, List.not_mem_nil, or_false] at member
        rcases member with rfl | rfl | rfl
        all_goals exact fun hands => hands
  | _ =>
      exact ordinary (LibraryCall.Ordinary.carries (by trivial) carries
        instruction member)

theorem LibraryCall.Posts.hands_nothing
    {C : Cluster} {call : LibraryCall crypto} {transaction : List Instruction}
    {signing : List Keypair} (posted : call.Posts C transaction signing)
    {mint : Address} {type : AuthorityType} :
    ∀ instruction ∈ coinInstructions transaction,
      ¬ instruction.Hands mint type := by
  intro instruction member
  rcases List.mem_append.mp member with asked | last
  · obtain ⟨token, inside, rfl⟩ := List.mem_map.mp asked
    rcases posted.carried with none | carries
    · rw [none] at inside
      cases inside
    · exact carries.hands_nothing token inside
  · rw [List.mem_singleton.mp last]
    exact fun hands => hands

/-- Nor does a call reform a mint. -/
theorem LibraryCall.Posts.rearranges_nothing
    {C : Cluster} {call : LibraryCall crypto} {transaction : List Instruction}
    {signing : List Keypair} (posted : call.Posts C transaction signing)
    {mint : Address} :
    ∀ instruction ∈ coinInstructions transaction,
      ¬ instruction.Rearranges mint := by
  intro instruction member rearranges
  rcases List.mem_append.mp member with asked | last
  · obtain ⟨token, _, rfl⟩ := List.mem_map.mp asked
    obtain ⟨type, hands⟩ := rearranges
    exact posted.hands_nothing _ member hands
  · rw [List.mem_singleton.mp last] at rearranges
    obtain ⟨type, hands⟩ := rearranges
    exact hands

end Transactions

/-- The mint is still there, and only these keys were used on it. -/
def StaysUnder (coin : Coin) (keys : Address → Prop) (mint : MintSnapshot)
    (chain : TokenChain) : Prop :=
  ∃ later, chain.mints coin.mint = some later ∧
    mint.GovernedBy True keys later

section Runs

variable {C : Cluster} {crypto : Crypto} {coin : Coin}
  {keys : Address → Prop} {mint : MintSnapshot} {chain later : TokenChain}

theorem StaysUnder.governs
    (under : StaysUnder coin keys mint chain)
    (stays : ¬ HeldAmong keys mint.closeAuthority)
    (governs : chain.Governs coin True keys later) :
    StaysUnder coin keys mint later := by
  obtain ⟨between, here, governed⟩ := under
  obtain ⟨last, there, governedOn⟩ := governs between here
    fun held => stays (governed.heldAmong .closeAccount held)
  exact ⟨last, there, governed.trans governedOn⟩

/-- What others do with the keys. -/
theorem Others.staysUnder
    (others : Others crypto coin (·.SignedAmong keys) chain later)
    (under : StaysUnder coin keys mint chain)
    (stays : ¬ HeldAmong keys mint.closeAuthority) :
    StaysUnder coin keys mint later :=
  others.keep under fun _ _ _ under signed step =>
    under.governs stays (step.governs signed)

/-- What is sent with the keys. -/
theorem CoinContract.staysUnder
    (contract : CoinContract C crypto coin (·.SignedAmong keys))
    {state reached : C.State} {sent : List (Sent C.State)}
    (chained : Chained C state sent reached)
    (under : StaysUnder coin keys mint (C.tokenChain state))
    (stays : ¬ HeldAmong keys mint.closeAuthority)
    (signed : ∀ one ∈ sent, ∀ signer ∈ C.signedBy one.signers, keys signer) :
    ∀ one ∈ sent, HoldsAround C (StaysUnder coin keys mint) one :=
  (contract.keeps
    (fun _ _ _ under signed step => under.governs stays (step.governs signed))
    chained under fun one member _ _ under performs => under.governs stays
      ((performs.governs fun _ _ _ => trivial).mono id
        (signed one member))).1

/-- The keys of calls, the payer's and those that are drawn. -/
theorem LibraryCall.Posts.signed
    {calls : List (LibraryCall crypto)} {one : Sent C.State}
    (posted : ∃ call ∈ calls, call.Posts C one.transaction one.signers)
    (payer : keys C.payer)
    (draws : ∀ number, keys (C.keypairs number).pubkey)
    (given : ∀ call ∈ calls, ∀ key ∈ call.keys, keys key.pubkey) :
    ∀ signer ∈ C.signedBy one.signers, keys signer := by
  obtain ⟨call, isCall, posted⟩ := posted
  intro signer signs
  rcases List.mem_cons.mp signs with rfl | among
  · exact payer
  · obtain ⟨key, isKey, rfl⟩ := List.mem_map.mp among
    rcases posted.given key isKey with own | ⟨number, rfl⟩
    · exact given call isCall key own
    · exact draws number

end Runs

/-- Whatever calls are made with some keys, none of which can close the mint,
and whatever others do with these keys: every power whose holder is not among
the keys stays where it is, and what it decides stays as it was.  No transaction
of a call hands any power on or reforms the mint, and each uses only the powers
of its signers. -/
theorem powers_need_their_keys
    (C : Cluster) (crypto : Crypto) (coin : Coin) (keys : Address → Prop)
    (contract : CoinContract C crypto coin (·.SignedAmong keys))
    (state : C.State) {mint : MintSnapshot}
    (found : (C.tokenChain state).mints coin.mint = some mint)
    (stays : ¬ HeldAmong keys mint.closeAuthority)
    (calls : List (LibraryCall crypto)) (drawn : Nat)
    (payer : keys C.payer)
    (draws : ∀ number, keys (C.keypairs number).pubkey)
    (given : ∀ call ∈ calls, ∀ key ∈ call.keys, keys key.pubkey) :
    ∀ one ∈ (LibraryCall.runAll (World.initial state drawn : World C)
        calls).sent,
      HoldsAround C (StaysUnder coin keys mint) one ∧
        (C.tokenChain one.delivery.before).Governs coin False
          (· ∈ C.signedBy one.signers) (C.tokenChain one.delivery.after) := by
  obtain ⟨chained, posts⟩ := LibraryCall.sent_runAll calls state drawn
  have around := contract.staysUnder chained ⟨mint, found, .refl⟩ stays
    fun one member =>
      LibraryCall.Posts.signed (posts one member) payer draws given
  intro one member
  refine ⟨around one member, ?_⟩
  obtain ⟨call, _, posted⟩ := posts one member
  obtain ⟨reached, delivered⟩ := chained.delivered one member
  rw [delivered]
  cases outcome : (C.send reached one.transaction one.signers).outcome with
  | ok receipt =>
      exact (contract.landed _ _ _ _ outcome).governs fun instruction inside
        rearranges => posted.rearranges_nothing instruction inside rearranges
  | error error =>
      rw [contract.not_landed _ _ _ _ outcome]
      exact .refl

/-- The freeze authority decides about new accounts, and can neither issue nor
close. -/
theorem the_freeze_authority_only_freezes :
    let calls : List (LibraryCall Transparent.crypto) :=
      [.setDefaultAccountState Busy.stablecoin Busy.freezeAuthority
          .initialized,
        .mintTo Busy.stablecoin Coining.treasury Busy.freezeAuthority 5,
        .closeMint Busy.stablecoin Busy.freezeAuthority Coining.treasury]
    let sent := (LibraryCall.runAll
      (World.initial (.ongoing (fun _ => none) Coining.freezing) 0 :
        World Coining.cluster) calls).sent
    let keys : Address → Prop :=
      fun key => key ≠ Coining.mintAuthority.pubkey ∧
        key ≠ Coining.closeAuthority.pubkey
    sent.map Sent.landed = [true, false, false] ∧
      ∀ one ∈ sent,
        HoldsAround Coining.cluster (StaysUnder Coining.token keys
            { Coining.bornMint with
              supply := 100
              defaultAccountState := some .frozen }) one ∧
          (Coining.cluster.tokenChain one.delivery.before).Governs
            Coining.token False (· ∈ Coining.cluster.signedBy one.signers)
            (Coining.cluster.tokenChain one.delivery.after) := by
  intro calls sent keys
  refine ⟨by decide, ?_⟩
  have others : ∀ {byte : UInt8} (number : Nat), byte ≠ 1 →
      (Coining.keypair number).pubkey ≠ Address.filled byte :=
    fun number other => Coining.keypair_ne_filled other number
  refine powers_need_their_keys Coining.cluster Transparent.crypto
    Coining.token keys (Coining.contract (by intro signer member; cases member))
    (.ongoing (fun _ => none) Coining.freezing) (by decide) ?_ calls 0
    ⟨by decide, by decide⟩
    (fun number => ⟨others number (by decide), others number (by decide)⟩) ?_
  · rintro ⟨key, isHolder, _, notClose⟩
    exact notClose (Option.some.inj isHolder).symm
  · intro call member key isKey
    simp only [calls, List.mem_cons, List.not_mem_nil, or_false] at member
    rcases member with rfl | rfl | rfl
    all_goals
      obtain rfl := List.mem_singleton.mp isKey
      exact ⟨by decide, by decide⟩

end Remit
