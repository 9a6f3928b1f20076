import Remit.Coin.Accounts

/-!
# What becomes of the mint

For as long as the mint is not closed, each power over it stays with its holder
until that holder hands it on, and the state that new accounts start in stays
until the freeze authority sets it.
-/

namespace Remit

section Rules

variable (signers : List Address)

/-- What an instruction can do to a mint that it does not close.  It `hands` on
some powers and `sets` the state that new accounts start in. -/
structure MintRules (hands : AuthorityType → Prop)
    (sets : AccountState → Prop) (before after : MintSnapshot) : Prop where
  holder : ∀ type, after.holder type = before.holder type ∨
    hands type ∧ ∃ authority, before.holder type = some authority ∧
      authority ∈ signers
  state : after.defaultAccountState = before.defaultAccountState ∨
    before.defaultAccountState.isSome ∧
      (∃ state, sets state ∧ after.defaultAccountState = some state) ∧
      ∃ authority, before.freezeAuthority = some authority ∧
        authority ∈ signers

/-- What an instruction can do to a mint, or to the lack of one. -/
inductive MintStep (hands : AuthorityType → Prop) (sets : AccountState → Prop)
    (closed : Prop) : Option MintSnapshot → Option MintSnapshot → Prop where
  | absent : MintStep hands sets closed none none
  | created {mint : MintSnapshot} : MintStep hands sets closed none (some mint)
  | closed {mint : MintSnapshot} :
      closed → MintStep hands sets closed (some mint) none
  | kept {before after : MintSnapshot} :
      MintRules signers hands sets before after →
      MintStep hands sets closed (some before) (some after)

end Rules

section Steps

variable {coin : Coin} {signers : List Address} {chain later : TokenChain}
  {before after : MintSnapshot} {hands : AuthorityType → Prop}
  {sets : AccountState → Prop} {closed : Prop} {address : Address}

/-- Who holds which power over a mint, and the state that new accounts start
in. -/
def MintSnapshot.governance (mint : MintSnapshot) :
    (AuthorityType → Option Address) × Option AccountState :=
  (mint.holder, mint.defaultAccountState)

/-- Whatever else changes, these fields say who governs. -/
theorem MintSnapshot.governance_congr
    (mintAuthority : after.mintAuthority = before.mintAuthority)
    (freezeAuthority : after.freezeAuthority = before.freezeAuthority)
    (closeAuthority : after.closeAuthority = before.closeAuthority)
    (delegate : after.permanentDelegate = before.permanentDelegate)
    (fee : after.transferFee.bind (·.transferFeeConfigAuthority) =
      before.transferFee.bind (·.transferFeeConfigAuthority))
    (pointer : after.metadataPointer.bind (·.authority) =
      before.metadataPointer.bind (·.authority))
    (policy : after.confidential.bind (·.authority) =
      before.confidential.bind (·.authority))
    (confidentialFee : after.confidentialFee = before.confidentialFee)
    (state : after.defaultAccountState = before.defaultAccountState) :
    after.governance = before.governance := by
  have holder : after.holder = before.holder := by
    funext type
    unfold MintSnapshot.holder
    split
    · exact mintAuthority
    · exact freezeAuthority
    · exact closeAuthority
    · exact fee
    · exact pointer
    · exact delegate
    · exact policy
    · rw [confidentialFee]
    · rfl
  unfold governance
  rw [holder, state]

variable (coin chain) in
/-- How the mint of the coin is governed, if there is one. -/
def TokenChain.governance :
    Option ((AuthorityType → Option Address) × Option AccountState) :=
  (chain.mints coin.mint).map (·.governance)

/-- The mint is governed as before. -/
theorem MintStep.of_governance
    (same : later.governance coin = chain.governance coin) :
    MintStep signers hands sets closed (chain.mints coin.mint)
      (later.mints coin.mint) := by
  unfold TokenChain.governance at same
  generalize chain.mints coin.mint = found at same ⊢
  generalize later.mints coin.mint = left at same ⊢
  cases found with
  | none =>
      cases left with
      | none => exact .absent
      | some mint => cases same
  | some was =>
      cases left with
      | none => cases same
      | some is =>
          have equal : is.governance = was.governance := Option.some.inj same
          refine .kept ⟨fun type => .inl ?_, .inl ?_⟩
          · exact congrFun (congrArg Prod.fst equal) type
          · exact congrArg Prod.snd equal

/-- Changing a mint does not change how another one is governed. -/
theorem TokenChain.governance_setMint
    (found : chain.mints address = some before)
    (same : after.governance = before.governance) :
    (chain.setMint address after).governance coin = chain.governance coin := by
  unfold governance
  by_cases own : address = coin.mint
  · subst own
    rw [setMint_self, found]
    exact congrArg some same
  · rw [setMint_of_ne (Ne.symm own)]

section Withheld

variable {Part : Type} {part : MintSnapshot → Part}

/-- Whatever does not depend on what the mint has withheld. -/
theorem TokenChain.map_setMintWithheld
    (ignores : ∀ (mint : MintSnapshot) (amount : Nat),
      part
          { mint with
            transferFee := mint.transferFee.map fun config =>
              { config with withheldAmount := amount } } =
        part mint)
    (mint : Address) (amount : Nat) (address : Address) :
    ((chain.setMintWithheld mint amount).mints address).map part =
      (chain.mints address).map part := by
  unfold setMintWithheld
  by_cases own : address = mint
  · subst own
    dsimp only
    rw [Function.update_self]
    cases chain.mints address with
    | none => rfl
    | some state => exact congrArg some (ignores state amount)
  · dsimp only
    rw [Function.update_of_ne own]

theorem TokenChain.map_harvest
    (ignores : ∀ (mint : MintSnapshot) (amount : Nat),
      part
          { mint with
            transferFee := mint.transferFee.map fun config =>
              { config with withheldAmount := amount } } =
        part mint)
    {mint : Address} {sources : List Address}
    (harvested : chain.harvest mint sources = some later) (address : Address) :
    (later.mints address).map part = (chain.mints address).map part := by
  induction sources generalizing chain with
  | nil =>
      cases harvested
      rfl
  | cons source rest inductionHypothesis =>
      obtain ⟨next, first, onward⟩ := Option.bind_eq_some_iff.mp harvested
      rw [inductionHypothesis onward]
      unfold harvestFrom at first
      split at first
      case h_1 => cases first
      case h_2 =>
          obtain ⟨_, same⟩ := Option.ite_none_right_eq_some.mp first
          cases same
          rw [emptied_mints]
          exact map_setMintWithheld ignores ..

end Withheld

/-- Who governs does not depend on what the mint has withheld. -/
theorem MintSnapshot.governance_withheld
    (mint : MintSnapshot) (amount : Nat) :
    MintSnapshot.governance
        { mint with
          transferFee := mint.transferFee.map fun config =>
            { config with withheldAmount := amount } } =
      mint.governance := by
  refine governance_congr rfl rfl rfl rfl ?_ rfl rfl rfl rfl
  cases mint.transferFee with
  | none => rfl
  | some config => rfl

theorem mintStep_refl (found : Option MintSnapshot) :
    MintStep signers hands sets closed found found := by
  cases found with
  | none => exact .absent
  | some mint => exact .kept ⟨fun _ => .inl rfl, .inl rfl⟩

/-- Handing on one power keeps the others. -/
theorem MintSnapshot.holder_handing
    {type other : AuthorityType} {newAuthority : Option Address}
    (handed : before.handing newAuthority type = some after)
    (different : other ≠ type) :
    after.holder other = before.holder other := by
  unfold handing at handed
  split at handed
  case h_9 => cases handed
  case h_4 | h_5 | h_7 | h_8 =>
      obtain ⟨config, present, rfl⟩ := Option.map_eq_some_iff.mp handed
      unfold holder
      split
      all_goals first | rfl | exact absurd rfl different
  all_goals
    cases handed
    unfold holder
    split
    all_goals first | rfl | exact absurd rfl different

theorem MintSnapshot.state_handing
    {type : AuthorityType} {newAuthority : Option Address}
    (handed : before.handing newAuthority type = some after) :
    after.defaultAccountState = before.defaultAccountState := by
  unfold handing at handed
  split at handed
  case h_9 => cases handed
  case h_4 | h_5 | h_7 | h_8 =>
      obtain ⟨config, present, rfl⟩ := Option.map_eq_some_iff.mp handed
      rfl
  all_goals
    cases handed
    rfl

/-- A reform is not about who governs. -/
theorem MintSnapshot.governance_reforming
    {change : MintReform} (reformed : before.reforming change = some after) :
    after.governance = before.governance := by
  cases change with
  | withheldWithdraw =>
      obtain ⟨config, present, rfl⟩ := Option.map_eq_some_iff.mp reformed
      refine governance_congr rfl rfl rfl rfl ?_ rfl rfl rfl rfl
      rw [present]
      rfl
  | confidentialMint =>
      obtain ⟨policy, present, rfl⟩ := Option.map_eq_some_iff.mp reformed
      refine governance_congr rfl rfl rfl rfl rfl rfl ?_ rfl rfl
      rw [present]
      rfl
  | metadataPointer =>
      obtain ⟨pointer, present, rfl⟩ := Option.map_eq_some_iff.mp reformed
      refine governance_congr rfl rfl rfl rfl rfl ?_ rfl rfl rfl
      rw [present]
      rfl
  | metadataAuthority | removeKey =>
      obtain ⟨_, _, rfl⟩ := Option.map_eq_some_iff.mp reformed
      rfl

/-- One mint changes. -/
theorem MintStep.setMint
    (found : chain.mints address = some before)
    (rules : address = coin.mint → MintRules signers hands sets before after) :
    MintStep signers hands sets closed (chain.mints coin.mint)
      ((chain.setMint address after).mints coin.mint) := by
  by_cases own : address = coin.mint
  · subst own
    rw [TokenChain.setMint_self, found]
    exact .kept (rules rfl)
  · rw [TokenChain.setMint_of_ne (Ne.symm own)]
    exact mintStep_refl _

/-! ## Every instruction -/

/-- Whether a power over a mint is to be handed on. -/
def TokenInstruction.Hands (mint : Address) (type : AuthorityType) :
    TokenInstruction → Prop
  | setAuthority account _ handed _ => account = mint ∧ handed = type
  | _ => False

/-- Whether new accounts of a mint are to start in a state. -/
def TokenInstruction.Sets (mint : Address) (state : AccountState) :
    TokenInstruction → Prop
  | updateDefaultAccountState changed _ next => changed = mint ∧ next = state
  | _ => False

/-- Whether a power over a mint is to be handed on. -/
def CoinInstruction.Hands (mint : Address) (type : AuthorityType) :
    CoinInstruction → Prop
  | instruct instruction => instruction.Hands mint type
  | _ => False

/-- Whether new accounts of a mint are to start in a state. -/
def CoinInstruction.Sets (mint : Address) (state : AccountState) :
    CoinInstruction → Prop
  | instruct instruction => instruction.Sets mint state
  | _ => False

theorem MintStep.of_perform
    {instruction : TokenInstruction}
    (performed : instruction.perform signers chain = some later) :
    MintStep signers (instruction.Hands coin.mint) (instruction.Sets coin.mint)
      (CoinInstruction.Closes coin.mint (.instruct instruction))
      (chain.mints coin.mint) (later.mints coin.mint) := by
  have hands : ∀ account authority type newAuthority,
      chain.setMintAuthority signers account authority type newAuthority =
          some later →
        MintStep signers
          ((TokenInstruction.setAuthority account authority type
            newAuthority).Hands coin.mint)
          (fun _ => False) False (chain.mints coin.mint)
          (later.mints coin.mint) := by
    intro account authority type newAuthority handed
    obtain ⟨before, after, found, changes, rfl⟩ :=
      TokenChain.changeMint_eq_some handed
    obtain ⟨⟨holds, signed⟩, handing⟩ :=
      Option.ite_none_right_eq_some.mp changes
    refine .setMint found fun own => ⟨fun other => ?_, .inl ?_⟩
    · by_cases same : other = type
      · subst same
        exact .inr ⟨⟨own, rfl⟩, authority, holds, signed⟩
      · exact .inl (MintSnapshot.holder_handing handing same)
    · exact MintSnapshot.state_handing handing
  cases instruction with
  | initializeMetadata metadata updateAuthority mint mintAuthority name symbol
      uri =>
      have described : chain.describe signers
          (.initializeMetadata metadata updateAuthority mint mintAuthority name
            symbol uri) = some later := performed
      obtain ⟨address, state, metadata, found, rfl⟩ :=
        TokenChain.describe_eq_some described
      exact .of_governance (TokenChain.governance_setMint found rfl)
  | updateField metadata updateAuthority key value =>
      have described : chain.describe signers
          (.updateField metadata updateAuthority key value) = some later :=
        performed
      obtain ⟨address, state, metadata, found, rfl⟩ :=
        TokenChain.describe_eq_some described
      exact .of_governance (TokenChain.governance_setMint found rfl)
  | transferCheckedWithFee source mint destination authority amount decimals
      fee =>
      have same : later.mints = chain.mints := TokenInstruction.carryOut_mints
        (show TokenInstruction.carryOut signers chain
          (.transferCheckedWithFee source mint destination authority amount
            decimals fee) = some later from performed)
      rw [same]
      exact mintStep_refl _
  | setTransferFee =>
      obtain ⟨state, config, found, present, rfl⟩ :=
        TokenChain.setTransferFee_eq_some performed
      refine .of_governance (TokenChain.governance_setMint found
        (MintSnapshot.governance_congr rfl rfl rfl rfl ?_ rfl rfl rfl rfl))
      rw [present]
      rfl
  | harvestWithheldTokensToMint =>
      exact .of_governance (TokenChain.map_harvest
        MintSnapshot.governance_withheld performed coin.mint)
  | withdrawWithheldTokensFromMint mint =>
      obtain ⟨_, _, _, _, _, _, _, _, _, _, rfl⟩ :=
        TokenChain.withdrawWithheld_money performed
      exact .of_governance (TokenChain.map_setMintWithheld
        MintSnapshot.governance_withheld mint 0 coin.mint)
  | thawAccount | freezeAccount =>
      obtain ⟨_, _, _, _, rfl⟩ := TokenChain.toggleFreeze_eq_some performed
      exact mintStep_refl _
  | updateDefaultAccountState mint authority state =>
      obtain ⟨before, after, found, changes, rfl⟩ :=
        TokenChain.changeMint_eq_some performed
      obtain ⟨⟨has, _, freezer, signed⟩, same⟩ :=
        Option.ite_none_right_eq_some.mp changes
      cases same
      refine .setMint found fun own => ⟨fun other => .inl ?_, .inr ?_⟩
      · rfl
      · exact ⟨has, ⟨state, ⟨own, rfl⟩, rfl⟩, authority, freezer, signed⟩
  | mintToChecked =>
      obtain ⟨_, _, found, _, _, _, _, _, _, rfl⟩ :=
        TokenChain.mintTo_eq_some performed
      exact .of_governance (TokenChain.governance_setMint found rfl)
  | approveChecked =>
      obtain ⟨_, _, _, _, _, _, rfl⟩ := TokenChain.approve_eq_some performed
      exact mintStep_refl _
  | enableCpiGuard =>
      obtain ⟨_, _, _, _, _, _, rfl⟩ := TokenChain.asOwner_eq_some performed
      exact mintStep_refl _
  | closeAccount account =>
      obtain ⟨_, _, _, _, _, rfl⟩ := TokenChain.closeMint_eq_some performed
      by_cases own : account = coin.mint
      · subst own
        dsimp only
        rw [Function.update_self]
        cases chain.mints coin.mint with
        | none => exact .absent
        | some mint => exact .closed rfl
      · dsimp only
        rw [Function.update_of_ne (Ne.symm own)]
        exact mintStep_refl _
  | setAuthority account authority type newAuthority =>
      cases type with
      | accountOwner =>
          obtain ⟨_, _, _, _, _, _, rfl⟩ :=
            TokenChain.asOwner_eq_some performed
          exact mintStep_refl _
      | mintTokens => exact hands _ _ _ _ performed
      | freezeAccount => exact hands _ _ _ _ performed
      | closeAccount => exact hands _ _ _ _ performed
      | extension => exact hands _ _ _ _ performed
  | approveAccount =>
      obtain ⟨_, _, _, _, _, _, _, _, _, _, _, rfl⟩ :=
        TokenChain.approveConfidential_eq_some performed
      exact mintStep_refl _
  | _ => cases performed

/-- Whatever is carried out, the mint of the coin follows the rules. -/
theorem Performs.mint
    {crypto : Crypto} {instruction : CoinInstruction}
    (performs : Performs crypto coin signers chain instruction later) :
    MintStep signers (instruction.Hands coin.mint) (instruction.Sets coin.mint)
      (instruction.Closes coin.mint) (chain.mints coin.mint)
      (later.mints coin.mint) := by
  have unconcerned : ∀ {hands sets closed}, Unconcerned coin chain later →
      MintStep signers hands sets closed (chain.mints coin.mint)
        (later.mints coin.mint) := by
    intro hands sets closed unconcerned
    have related := unconcerned.mints
    generalize chain.mints coin.mint = found at related ⊢
    generalize later.mints coin.mint = left at related ⊢
    cases related with
    | none => exact .absent
    | some same =>
        rw [same]
        exact .kept ⟨fun _ => .inl rfl, .inl rfl⟩
  cases performs with
  | perform performed => exact .of_perform performed
  | initializeExtension => exact mintStep_refl _
  | @initializeMint address _ _ _ mint missing =>
      by_cases own : coin.mint = address
      · subst own
        rw [TokenChain.setMint_self, missing]
        exact .created
      · rw [TokenChain.setMint_of_ne own]
        exact mintStep_refl _
  | confide => exact mintStep_refl _
  | foreign _ _ _ elsewhere => exact unconcerned elsewhere
  | configure => exact mintStep_refl _
  | reallocate => exact mintStep_refl _
  | burn burnt =>
      obtain ⟨_, _, _, _, found, _, _, _, _, rfl⟩ :=
        TokenChain.burn_eq_some burnt
      exact .of_governance (TokenChain.governance_setMint found rfl)
  | revoke revoked =>
      obtain ⟨_, _, _, _, _, _, rfl⟩ := TokenChain.asOwner_eq_some revoked
      exact mintStep_refl _
  | openAccount => exact mintStep_refl _
  | closeAccount => exact mintStep_refl _
  | adjust => exact mintStep_refl _
  | reform done =>
      obtain ⟨_, _, found, _, _, reformed, rfl⟩ :=
        TokenChain.reform_eq_some done
      exact .of_governance (TokenChain.governance_setMint found
        (MintSnapshot.governance_reforming reformed))
  | elsewhere elsewhere => exact unconcerned elsewhere

end Steps

/-! ## Who holds a power -/

/-- There is a mint, and this is who holds a power over it, if anybody does. -/
def HeldBy (coin : Coin) (type : AuthorityType) (holder : Option Address)
    (chain : TokenChain) : Prop :=
  ∃ mint, chain.mints coin.mint = some mint ∧ mint.holder type = holder

section Holding

variable {crypto : Crypto} {coin : Coin} {type : AuthorityType}
  {holder : Option Address} {signers : List Address}
  {chain later : TokenChain}

/-- A power stays with its holder, who does not hand it on. -/
theorem Performs.heldBy
    {instruction : CoinInstruction}
    (performs : Performs crypto coin signers chain instruction later)
    (holds : HeldBy coin type holder chain)
    (stays : ¬ instruction.Closes coin.mint)
    (keeps : ∀ key ∈ signers, holder = some key →
      ¬ instruction.Hands coin.mint type) :
    HeldBy coin type holder later := by
  obtain ⟨state, found, isHolder⟩ := holds
  have step := performs.mint
  rw [found] at step
  unfold HeldBy
  generalize later.mints coin.mint = left at step ⊢
  cases step with
  | closed closed => exact absurd closed stays
  | @kept _ after rules =>
      refine ⟨after, rfl, ?_⟩
      rcases rules.holder type with same | ⟨hands, key, held, signs⟩
      · exact same.trans isHolder
      · exact absurd hands (keeps key signs (isHolder.symm.trans held))

/-- A power stays where no instruction hands it on. -/
theorem PerformsAll.heldBy
    {instructions : List CoinInstruction}
    (performs : PerformsAll crypto coin signers chain instructions later)
    (holds : HeldBy coin type holder chain)
    (stays : ∀ instruction ∈ instructions, ¬ instruction.Closes coin.mint)
    (keeps : ∀ key ∈ signers, holder = some key →
      ∀ instruction ∈ instructions, ¬ instruction.Hands coin.mint type) :
    HeldBy coin type holder later := by
  induction performs with
  | nil => exact holds
  | cons first _ inductionHypothesis =>
      refine inductionHypothesis ?_
        (fun other member => stays other (List.mem_cons_of_mem _ member))
        fun key signed isHolder other member =>
          keeps key signed isHolder other (List.mem_cons_of_mem _ member)
      exact first.heldBy holds (stays _ List.mem_cons_self)
        fun key signed isHolder => keeps key signed isHolder _
          List.mem_cons_self

end Holding
end Remit
