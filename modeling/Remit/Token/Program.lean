import Remit.Token.Fees
import Remit.Token.Harvest
import Remit.Token.Metadata

/-!
# The instructions of Token-2022

The instructions that the library builds and that need no cryptography,
`SetAuthority` on a mint or on the owner of an account, and what else the
authorities of a mint can change.  Each is carried out on the mints and token
accounts of a chain as the program documents it, or fails.
-/

namespace Remit

namespace AccountSnapshot

variable (account : AccountSnapshot)

/-- The account with a delegate that may move an amount. -/
def approving (delegate : Address) (amount : Nat) : AccountSnapshot :=
  { account with
    delegate := some delegate
    delegatedAmount := amount }

/-- The account without a delegate. -/
def withoutDelegate : AccountSnapshot :=
  { account with
    delegate := none
    delegatedAmount := 0 }

/-- The account in the hands of another owner, whom no delegate of the last one
burdens. -/
def handedTo (owner : Address) : AccountSnapshot :=
  { account.withoutDelegate with owner }

/-- The account with CPI Guard switched on. -/
def guarded : AccountSnapshot :=
  { account with
    cpiGuard := some true
    extensions :=
      if .cpiGuard ∈ account.extensions then account.extensions
      else account.extensions ++ [.cpiGuard] }

end AccountSnapshot

/-- The mint once a power over it was handed to another authority. -/
def MintSnapshot.handing (mint : MintSnapshot) (newAuthority : Option Address) :
    AuthorityType → Option MintSnapshot
  | .mintTokens => some { mint with mintAuthority := newAuthority }
  | .freezeAccount => some { mint with freezeAuthority := newAuthority }
  | .closeAccount => some { mint with closeAuthority := newAuthority }
  | .extension .transferFeeConfig =>
      mint.transferFee.map fun config =>
        { mint with
          transferFee :=
            some { config with transferFeeConfigAuthority := newAuthority } }
  | .extension .metadataPointer =>
      mint.metadataPointer.map fun pointer =>
        { mint with
          metadataPointer := some { pointer with authority := newAuthority } }
  | .extension .permanentDelegate =>
      some { mint with permanentDelegate := newAuthority }
  | .extension .confidentialTransferMint =>
      mint.confidential.map fun policy =>
        { mint with
          confidential := some { policy with authority := newAuthority } }
  | .extension .confidentialTransferFeeConfig =>
      mint.confidentialFee.map fun config =>
        { mint with
          confidentialFee := some { config with authority := newAuthority } }
  | _ => none

/-- Who holds a power over a mint. -/
def MintSnapshot.holder (mint : MintSnapshot) : AuthorityType → Option Address
  | .mintTokens => mint.mintAuthority
  | .freezeAccount => mint.freezeAuthority
  | .closeAccount => mint.closeAuthority
  | .extension .transferFeeConfig =>
      mint.transferFee.bind (·.transferFeeConfigAuthority)
  | .extension .metadataPointer => mint.metadataPointer.bind (·.authority)
  | .extension .permanentDelegate => mint.permanentDelegate
  | .extension .confidentialTransferMint => mint.confidential.bind (·.authority)
  | .extension .confidentialTransferFeeConfig =>
      mint.confidentialFee.bind (·.authority)
  | _ => none

/-- What the library settles when it creates a mint and never changes.
`SetAuthority` names another treasury, `UpdateMint` another policy, and there
are instructions for the pointer and for the metadata. -/
inductive MintReform where
  | withheldWithdraw (newAuthority : Option Address)
  | confidentialMint (autoApproveNewAccounts : Bool)
      (auditorElgamalPubkey : Option PodElGamalPubkey)
  | metadataPointer (metadataAddress : Option Address)
  | metadataAuthority (newAuthority : Option Address)
  | removeKey (key : String)
deriving DecidableEq

/-- Who may reform a mint. -/
def MintSnapshot.reformer (mint : MintSnapshot) : MintReform → Option Address
  | .withheldWithdraw _ => mint.transferFee.bind (·.withdrawWithheldAuthority)
  | .confidentialMint .. => mint.confidential.bind (·.authority)
  | .metadataPointer _ => mint.metadataPointer.bind (·.authority)
  | .metadataAuthority _ | .removeKey _ =>
      mint.metadata.bind (·.updateAuthority)

/-- The mint once it was reformed. -/
def MintSnapshot.reforming (mint : MintSnapshot) :
    MintReform → Option MintSnapshot
  | .withheldWithdraw newAuthority =>
      mint.transferFee.map fun config =>
        { mint with
          transferFee :=
            some { config with withdrawWithheldAuthority := newAuthority } }
  | .confidentialMint autoApproveNewAccounts auditorElgamalPubkey =>
      mint.confidential.map fun policy =>
        { mint with
          confidential :=
            some { policy with autoApproveNewAccounts, auditorElgamalPubkey } }
  | .metadataPointer metadataAddress =>
      mint.metadataPointer.map fun pointer =>
        { mint with
          metadataPointer := some { pointer with metadataAddress } }
  | .metadataAuthority newAuthority =>
      mint.metadata.map fun metadata =>
        mint.describedBy { metadata with updateAuthority := newAuthority }
  | .removeKey key =>
      mint.metadata.map fun metadata =>
        mint.describedBy
          { metadata with
            additionalMetadata :=
              metadata.additionalMetadata.filter (·.1 ≠ key) }

namespace TokenChain

variable (signers : List Address) (chain : TokenChain)

/-- `MintToChecked`. -/
def mintTo (mint destination authority : Address) (amount decimals : Nat) :
    Option TokenChain :=
  match chain.mints mint, chain.accounts destination with
  | some state, some account =>
      if state.mintAuthority = some authority ∧ authority ∈ signers ∧
          account.mint = mint ∧ account.isFrozen = false ∧
          state.decimals = decimals ∧ state.supply + amount < 2 ^ 64 ∧
          account.amount + amount < 2 ^ 64 then
        some <|
          (chain.setMint mint { state with supply := state.supply + amount
            }).setAccount destination <| some
              { account with amount := account.amount + amount }
      else none
  | _, _ => none

/-- `BurnChecked`, by whoever may move the amount. -/
def burn (source mint authority : Address) (amount decimals : Nat) :
    Option TokenChain :=
  match chain.accounts source, chain.mints mint with
  | some account, some state =>
      if authority ∈ signers ∧ account.mint = mint ∧
          account.isFrozen = false ∧ state.decimals = decimals then
        (account.debitedBy state.permanentDelegate authority amount).map
          fun debited =>
            (chain.setMint mint { state with supply := state.supply - amount
              }).setAccount source (some debited)
      else none
  | _, _ => none

/-- Change an account of which the owner signs. -/
def asOwner (address owner : Address)
    (change : AccountSnapshot → Option AccountSnapshot) : Option TokenChain :=
  match chain.accounts address with
  | some account =>
      if account.owner = owner ∧ owner ∈ signers then
        (change account).map fun changed =>
          chain.setAccount address (some changed)
      else none
  | none => none

/-- `ApproveChecked`. -/
def approve (source mint delegate owner : Address) (amount decimals : Nat) :
    Option TokenChain :=
  match chain.mints mint with
  | some state =>
      chain.asOwner signers source owner fun account =>
        if account.mint = mint ∧ account.isFrozen = false ∧
            state.decimals = decimals then
          some (account.approving delegate amount)
        else none
  | none => none

/-- `Revoke`. -/
def revoke (source owner : Address) : Option TokenChain :=
  chain.asOwner signers source owner fun account =>
    if account.isFrozen = false then some account.withoutDelegate else none

/-- `EnableCpiGuard`. -/
def enableCpiGuard (address owner : Address) : Option TokenChain :=
  chain.asOwner signers address owner fun account => some account.guarded

/-- `SetAuthority` on the owner of an account.  `ImmutableOwner` forbids it,
and so does CPI Guard. -/
def setOwner (address owner : Address) (newOwner : Option Address) :
    Option TokenChain :=
  chain.asOwner signers address owner fun account =>
    if account.isFrozen = false ∧ .immutableOwner ∉ account.extensions ∧
        account.cpiGuard ≠ some true then
      newOwner.map account.handedTo
    else none

/-- Change a mint. -/
def changeMint (address : Address)
    (change : MintSnapshot → Option MintSnapshot) : Option TokenChain :=
  match chain.mints address with
  | some mint => (change mint).map (chain.setMint address)
  | none => none

/-- `SetAuthority` on a mint. -/
def setMintAuthority (mint authority : Address) (type : AuthorityType)
    (newAuthority : Option Address) : Option TokenChain :=
  chain.changeMint mint fun state =>
    if state.holder type = some authority ∧ authority ∈ signers then
      state.handing newAuthority type
    else none

/-- Reform a mint. -/
def reform (mint authority : Address) (change : MintReform) :
    Option TokenChain :=
  chain.changeMint mint fun state =>
    if state.reformer change = some authority ∧ authority ∈ signers then
      state.reforming change
    else none

/-- `UpdateDefaultAccountState`.  Only a mint that can freeze starts accounts
frozen. -/
def updateDefaultAccountState (mint authority : Address)
    (state : AccountState) : Option TokenChain :=
  chain.changeMint mint fun found =>
    if found.defaultAccountState.isSome ∧ state ≠ .uninitialized ∧
        found.freezeAuthority = some authority ∧ authority ∈ signers then
      some { found with defaultAccountState := some state }
    else none

/-- `ApproveAccount` of the confidential extension. -/
def approveConfidential (address mint authority : Address) :
    Option TokenChain :=
  match chain.accounts address, chain.mints mint with
  | some account, some state =>
      match account.confidential, state.confidential with
      | some confidential, some policy =>
          if account.mint = mint ∧ policy.authority = some authority ∧
              authority ∈ signers then
            some <| chain.setAccount address <| some <|
              account.withConfidential { confidential with approved := true }
          else none
      | _, _ => none
  | _, _ => none

/-- `CloseAccount` on a mint. -/
def closeMint (mint authority : Address) : Option TokenChain :=
  match chain.mints mint with
  | some state =>
      if state.closeAuthority = some authority ∧ authority ∈ signers ∧
          state.supply = 0 then
        some { chain with mints := Function.update chain.mints mint none }
      else none
  | none => none

end TokenChain

/-- Carry out an instruction, if its effect can be computed. -/
def TokenInstruction.perform (signers : List Address) (chain : TokenChain) :
    TokenInstruction → Option TokenChain
  | initializeMetadata metadata updateAuthority mint mintAuthority name symbol
      uri =>
      chain.initializeMetadata signers metadata updateAuthority mint
        mintAuthority name symbol uri
  | updateField metadata updateAuthority key value =>
      chain.updateField signers metadata updateAuthority key value
  | transferCheckedWithFee source mint destination authority amount decimals
      fee =>
      chain.transferChecked signers source mint destination authority amount
        decimals fee
  | setTransferFee mint authority basisPoints maximumFee =>
      chain.setTransferFee signers mint authority basisPoints maximumFee
  | harvestWithheldTokensToMint mint sources => chain.harvest mint sources
  | withdrawWithheldTokensFromMint mint destination authority =>
      chain.withdrawWithheld signers mint destination authority
  | thawAccount account mint authority =>
      chain.toggleFreeze signers account mint authority false
  | freezeAccount account mint authority =>
      chain.toggleFreeze signers account mint authority true
  | updateDefaultAccountState mint authority state =>
      chain.updateDefaultAccountState signers mint authority state
  | mintToChecked mint destination authority amount decimals =>
      chain.mintTo signers mint destination authority amount decimals
  | approveChecked source mint delegate authority amount decimals =>
      chain.approve signers source mint delegate authority amount decimals
  | enableCpiGuard account owner => chain.enableCpiGuard signers account owner
  | closeAccount account _ authority =>
      chain.closeMint signers account authority
  | setAuthority account authority .accountOwner newAuthority =>
      chain.setOwner signers account authority newAuthority
  | setAuthority account authority type newAuthority =>
      chain.setMintAuthority signers account authority type newAuthority
  | approveAccount account mint authority =>
      chain.approveConfidential signers account mint authority
  | _ => none

/-! ## What each of them does -/

/-- Handing on a power keeps the supply and the withheld fees. -/
theorem MintSnapshot.handing_money
    {mint changed : MintSnapshot} {newAuthority : Option Address}
    {type : AuthorityType}
    (handed : mint.handing newAuthority type = some changed) :
    changed.supply = mint.supply ∧
      changed.transferFee.map (·.withheldAmount) =
        mint.transferFee.map (·.withheldAmount) := by
  unfold handing at handed
  split at handed
  case h_9 => cases handed
  case h_4 =>
      obtain ⟨config, present, rfl⟩ := Option.map_eq_some_iff.mp handed
      exact ⟨rfl, by rw [present]; rfl⟩
  case h_5 | h_7 | h_8 =>
      obtain ⟨_, _, rfl⟩ := Option.map_eq_some_iff.mp handed
      exact ⟨rfl, rfl⟩
  all_goals
    cases handed
    exact ⟨rfl, rfl⟩

/-- So does a reform. -/
theorem MintSnapshot.reforming_money
    {mint changed : MintSnapshot} {change : MintReform}
    (reformed : mint.reforming change = some changed) :
    changed.supply = mint.supply ∧
      changed.transferFee.map (·.withheldAmount) =
        mint.transferFee.map (·.withheldAmount) := by
  cases change with
  | withheldWithdraw newAuthority =>
      obtain ⟨config, present, rfl⟩ := Option.map_eq_some_iff.mp reformed
      exact ⟨rfl, by rw [present]; rfl⟩
  | _ =>
      obtain ⟨_, _, rfl⟩ := Option.map_eq_some_iff.mp reformed
      exact ⟨rfl, rfl⟩

namespace AccountSnapshot

variable {account after : AccountSnapshot}

/-- A debit changes the amount and the allowance. -/
theorem debitedBy_money
    {permanentDelegate : Option Address} {authority : Address} {amount : Nat}
    (debited :
      account.debitedBy permanentDelegate authority amount = some after) :
    after =
      { account with
        amount := account.amount - amount
        delegate := after.delegate
        delegatedAmount := after.delegatedAmount } := by
  unfold debitedBy at debited
  split at debited
  case isFalse => cases debited
  case isTrue =>
      split at debited
      case isTrue =>
          cases debited
          rfl
      case isFalse =>
          split at debited
          case isTrue =>
              split at debited
              case isFalse => cases debited
              case isTrue =>
                  cases debited
                  rfl
          case isFalse =>
              split at debited
              case isFalse => cases debited
              case isTrue =>
                  cases debited
                  rfl

/-- A credit changes the amount and what is withheld of it. -/
theorem creditedWith_money
    {amount fee : Nat}
    (credited : account.creditedWith amount fee = some after) :
    fee ≤ amount ∧
      after =
        { account with
          amount := account.amount + (amount - fee)
          withheldFee := after.withheldFee } ∧
      after.withheldFee.getD 0 = account.withheldFee.getD 0 + fee := by
  unfold creditedWith at credited
  split at credited
  case isFalse => cases credited
  case isTrue fits =>
      dsimp only at credited
      split at credited
      case isTrue free =>
          cases credited
          exact ⟨fits.1, rfl, by rw [free]; rfl⟩
      case isFalse =>
          split at credited
          case h_1 => cases credited
          case h_2 withheld present =>
              split at credited
              case isFalse => cases credited
              case isTrue =>
                  cases credited
                  refine ⟨fits.1, rfl, ?_⟩
                  rw [present]
                  rfl

end AccountSnapshot

namespace TokenChain

variable {signers : List Address} {chain after : TokenChain}

theorem mintTo_eq_some
    {mint destination authority : Address} {amount decimals : Nat}
    (minted :
      chain.mintTo signers mint destination authority amount decimals =
        some after) :
    ∃ state account,
      chain.mints mint = some state ∧
        chain.accounts destination = some account ∧
        state.mintAuthority = some authority ∧ authority ∈ signers ∧
        account.mint = mint ∧ account.isFrozen = false ∧
        state.supply + amount < 2 ^ 64 ∧
        after =
          (chain.setMint mint
            { state with supply := state.supply + amount }).setAccount
              destination
              (some { account with amount := account.amount + amount }) := by
  unfold mintTo at minted
  split at minted
  case h_2 => cases minted
  case h_1 state account mintFound found =>
      split at minted
      case isFalse => cases minted
      case isTrue allowed =>
          cases minted
          obtain ⟨isAuthority, signed, ofMint, unfrozen, _, fits, _⟩ := allowed
          exact ⟨state, account, mintFound, found, isAuthority, signed, ofMint,
            unfrozen, fits, rfl⟩

/-- Whoever asks for a transfer has signed. -/
theorem transferChecked_signed
    {source mint destination authority : Address} {amount decimals fee : Nat}
    (transferred :
      chain.transferChecked signers source mint destination authority amount
        decimals fee = some after) :
    authority ∈ signers ∧ ∃ payee,
      chain.accounts destination = some payee ∧ payee.mint = mint := by
  unfold transferChecked at transferred
  split at transferred
  case h_2 => cases transferred
  case h_1 payer payee state _ payeeFound _ =>
      split at transferred
      case isFalse => cases transferred
      case isTrue allowed =>
          exact ⟨allowed.1, payee, payeeFound, allowed.2.2.1⟩

/-- What the treasury withdraws leaves the mint. -/
theorem withdrawWithheld_money
    {mint treasury authority : Address}
    (withdrawn :
      chain.withdrawWithheld signers mint treasury authority = some after) :
    ∃ state config account,
      chain.mints mint = some state ∧ state.transferFee = some config ∧
        chain.accounts treasury = some account ∧
        config.withdrawWithheldAuthority = some authority ∧
        authority ∈ signers ∧ account.mint = mint ∧
        account.isFrozen = false ∧
        after =
          (chain.setMintWithheld mint 0).setAccount treasury
            (some
              { account with
                amount := account.amount + config.withheldAmount }) := by
  unfold withdrawWithheld at withdrawn
  split at withdrawn
  case h_2 => cases withdrawn
  case h_1 state account mintFound found =>
      split at withdrawn
      case h_1 => cases withdrawn
      case h_2 config present =>
          split at withdrawn
          case isFalse => cases withdrawn
          case isTrue allowed =>
              cases withdrawn
              obtain ⟨isAuthority, signed, ofMint, unfrozen, _⟩ := allowed
              exact ⟨state, config, account, mintFound, present, found,
                isAuthority, signed, ofMint, unfrozen, rfl⟩

/-- Setting a fee changes the fee config, which stays with its authority. -/
theorem setTransferFee_eq_some
    {mint authority : Address} {basisPoints maximumFee : Nat}
    (done :
      chain.setTransferFee signers mint authority basisPoints maximumFee =
        some after) :
    ∃ state config,
      chain.mints mint = some state ∧ state.transferFee = some config ∧
        after = chain.setMint mint
          { state with
            transferFee :=
              some (config.setFee chain.epoch basisPoints maximumFee) } := by
  unfold setTransferFee at done
  split at done
  case h_1 => cases done
  case h_2 state found =>
      split at done
      case h_1 => cases done
      case h_2 config present =>
          obtain ⟨_, same⟩ := Option.ite_none_right_eq_some.mp done
          cases same
          exact ⟨state, config, found, present, rfl⟩

/-- Describing a mint changes nothing but the metadata. -/
theorem describe_eq_some
    {instruction : TokenInstruction}
    (described : chain.describe signers instruction = some after) :
    ∃ address state metadata,
      chain.mints address = some state ∧
        after = chain.setMint address (state.describedBy metadata) := by
  cases instruction with
  | initializeMetadata metadata updateAuthority mint =>
      change chain.initializeMetadata .. = _ at described
      unfold initializeMetadata at described
      split at described
      case h_1 => cases described
      case h_2 state found =>
          obtain ⟨_, same⟩ := Option.ite_none_right_eq_some.mp described
          cases same
          exact ⟨mint, state, _, found, rfl⟩
  | updateField metadata =>
      change chain.updateField .. = _ at described
      unfold updateField at described
      split at described
      case h_1 => cases described
      case h_2 state found =>
          split at described
          case h_1 => cases described
          case h_2 =>
              obtain ⟨_, same⟩ := Option.ite_none_right_eq_some.mp described
              cases same
              exact ⟨metadata, state, _, found, rfl⟩
  | _ => cases described

theorem toggleFreeze_signed
    {address mint authority : Address} {freeze : Bool}
    (toggled :
      chain.toggleFreeze signers address mint authority freeze = some after) :
    ∃ state, chain.mints mint = some state ∧
      state.freezeAuthority = some authority ∧ authority ∈ signers := by
  unfold toggleFreeze at toggled
  split at toggled
  case h_2 => cases toggled
  case h_1 account state _ mintFound =>
      split at toggled
      case isFalse => cases toggled
      case isTrue allowed =>
          exact ⟨state, mintFound, allowed.2.2.1, allowed.2.2.2⟩

theorem burn_eq_some
    {source mint authority : Address} {amount decimals : Nat}
    (burnt :
      chain.burn signers source mint authority amount decimals = some after) :
    ∃ account state debited,
      chain.accounts source = some account ∧
        chain.mints mint = some state ∧ authority ∈ signers ∧
        account.mint = mint ∧ account.isFrozen = false ∧
        account.debitedBy state.permanentDelegate authority amount =
          some debited ∧
        after =
          (chain.setMint mint
            { state with supply := state.supply - amount }).setAccount source
              (some debited) := by
  unfold burn at burnt
  split at burnt
  case h_2 => cases burnt
  case h_1 account state found mintFound =>
      split at burnt
      case isFalse => cases burnt
      case isTrue allowed =>
          obtain ⟨debited, debits, rfl⟩ := Option.map_eq_some_iff.mp burnt
          exact ⟨account, state, debited, found, mintFound, allowed.1,
            allowed.2.1, allowed.2.2.1, debits, rfl⟩

theorem asOwner_eq_some
    {address owner : Address}
    {change : AccountSnapshot → Option AccountSnapshot}
    (done : chain.asOwner signers address owner change = some after) :
    ∃ account changed,
      chain.accounts address = some account ∧ account.owner = owner ∧
        owner ∈ signers ∧ change account = some changed ∧
        after = chain.setAccount address (some changed) := by
  unfold asOwner at done
  split at done
  case h_2 => cases done
  case h_1 account found =>
      split at done
      case isFalse => cases done
      case isTrue allowed =>
          obtain ⟨changed, changes, rfl⟩ := Option.map_eq_some_iff.mp done
          exact ⟨account, changed, found, allowed.1, allowed.2, changes, rfl⟩

theorem approve_eq_some
    {source mint delegate owner : Address} {amount decimals : Nat}
    (approved :
      chain.approve signers source mint delegate owner amount decimals =
        some after) :
    ∃ account,
      chain.accounts source = some account ∧ account.owner = owner ∧
        owner ∈ signers ∧ account.mint = mint ∧ account.isFrozen = false ∧
        after = chain.setAccount source
          (some (account.approving delegate amount)) := by
  unfold approve at approved
  split at approved
  case h_2 => cases approved
  case h_1 state _ =>
      obtain ⟨account, changed, found, owned, signed, changes, rfl⟩ :=
        asOwner_eq_some approved
      obtain ⟨allowed, same⟩ := Option.ite_none_right_eq_some.mp changes
      cases same
      exact ⟨account, found, owned, signed, allowed.1, allowed.2.1, rfl⟩

theorem changeMint_eq_some
    {address : Address} {change : MintSnapshot → Option MintSnapshot}
    (done : chain.changeMint address change = some after) :
    ∃ mint changed,
      chain.mints address = some mint ∧ change mint = some changed ∧
        after = chain.setMint address changed := by
  unfold changeMint at done
  split at done
  case h_2 => cases done
  case h_1 mint found =>
      obtain ⟨changed, changes, rfl⟩ := Option.map_eq_some_iff.mp done
      exact ⟨mint, changed, found, changes, rfl⟩

theorem reform_eq_some
    {address authority : Address} {change : MintReform}
    (reformed : chain.reform signers address authority change = some after) :
    ∃ mint changed,
      chain.mints address = some mint ∧
        mint.reformer change = some authority ∧ authority ∈ signers ∧
        mint.reforming change = some changed ∧
        after = chain.setMint address changed := by
  obtain ⟨mint, changed, found, changes, rfl⟩ := changeMint_eq_some reformed
  obtain ⟨⟨holds, signed⟩, done⟩ := Option.ite_none_right_eq_some.mp changes
  exact ⟨mint, changed, found, holds, signed, done, rfl⟩

theorem approveConfidential_eq_some
    {address mint authority : Address}
    (approved :
      chain.approveConfidential signers address mint authority = some after) :
    ∃ account state confidential policy,
      chain.accounts address = some account ∧
        chain.mints mint = some state ∧
        account.confidential = some confidential ∧
        state.confidential = some policy ∧ account.mint = mint ∧
        policy.authority = some authority ∧ authority ∈ signers ∧
        after = chain.setAccount address
          (some (account.withConfidential
            { confidential with approved := true })) := by
  unfold approveConfidential at approved
  split at approved
  case h_2 => cases approved
  case h_1 account state found mintFound =>
      split at approved
      case h_2 => cases approved
      case h_1 confidential policy configured hasPolicy =>
          split at approved
          case isFalse => cases approved
          case isTrue allowed =>
              cases approved
              exact ⟨account, state, confidential, policy, found, mintFound,
                configured, hasPolicy, allowed.1, allowed.2.1, allowed.2.2,
                rfl⟩

theorem closeMint_eq_some
    {mint authority : Address}
    (closed : chain.closeMint signers mint authority = some after) :
    ∃ state,
      chain.mints mint = some state ∧
        state.closeAuthority = some authority ∧ authority ∈ signers ∧
        state.supply = 0 ∧
        after =
          { chain with mints := Function.update chain.mints mint none } := by
  unfold closeMint at closed
  split at closed
  case h_2 => cases closed
  case h_1 state found =>
      split at closed
      case isFalse => cases closed
      case isTrue allowed =>
          cases closed
          exact ⟨state, found, allowed.1, allowed.2.1, allowed.2.2, rfl⟩

end TokenChain
end Remit
