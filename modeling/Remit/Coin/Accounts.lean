import Remit.Coin.Supply

/-!
# What becomes of an account

Whatever instruction is carried out, an account of a coin keeps its mint.  Only
its owner can hand it over or attach a key to it, only the freeze authority of
the mint can freeze or thaw it, and only the confidential authority can approve
it.  An approval and a key stay until the account is closed.
-/

namespace Remit

section Rules

variable (coin : Coin) (signers : List Address) (chain : TokenChain)

/-- The freeze authority of the mint has signed. -/
def FreezerSigns : Prop :=
  ∃ mint authority, chain.mints coin.mint = some mint ∧
    mint.freezeAuthority = some authority ∧ authority ∈ signers

/-- The authority that approves confidential accounts has signed. -/
def ApproverSigns : Prop :=
  ∃ mint policy authority, chain.mints coin.mint = some mint ∧
    mint.confidential = some policy ∧ policy.authority = some authority ∧
    authority ∈ signers

/-- New confidential accounts need no approval. -/
def ApprovesAll : Prop :=
  ∃ mint policy, chain.mints coin.mint = some mint ∧
    mint.confidential = some policy ∧ policy.autoApproveNewAccounts = true

/-- What an instruction can do to an account that it does not close.  It is
`toggled` if the instruction is to freeze or thaw it, and `approving` if it is
to approve it. -/
structure AccountRules (toggled approving : Prop)
    (before after : AccountSnapshot) : Prop where
  mint : after.mint = before.mint
  owner : after.owner = before.owner ∨ before.owner ∈ signers
  state : after.state = before.state ∨
    toggled ∧ FreezerSigns coin signers chain
  key : ∀ was, before.confidential = some was →
    ∃ is, after.confidential = some is ∧
      is.elgamalPubkey = was.elgamalPubkey ∧
      (is.approved = was.approved ∨
        is.approved = true ∧ approving ∧ ApproverSigns coin signers chain)
  configured : before.confidential = none → ∀ is,
    after.confidential = some is →
      before.owner ∈ signers ∧
        (is.approved = true → ApprovesAll coin chain)

/-- What an instruction can do to an account, or to the lack of one. -/
inductive AccountStep (toggled approving closed : Prop) :
    Option AccountSnapshot → Option AccountSnapshot → Prop where
  | absent : AccountStep toggled approving closed none none
  | opened {account : AccountSnapshot} {mint : MintSnapshot} :
      chain.mints coin.mint = some mint → OpensEmpty mint account →
      AccountStep toggled approving closed none (some account)
  | closed {account : AccountSnapshot} :
      closed → AccountStep toggled approving closed (some account) none
  | kept {before after : AccountSnapshot} :
      AccountRules coin signers chain toggled approving before after →
      AccountStep toggled approving closed (some before) (some after)

end Rules

section Steps

variable {coin : Coin} {signers : List Address} {chain : TokenChain}
  {account changed before after : AccountSnapshot} {address : Address}
  {toggled approving closed : Prop}
  {toggles approves closes : Address → Prop}

/-- Whatever else changes, these fields stay. -/
theorem AccountRules.of_eq
    (mint : after.mint = before.mint) (owner : after.owner = before.owner)
    (state : after.state = before.state)
    (confidential : after.confidential = before.confidential) :
    AccountRules coin signers chain toggled approving before after where
  mint := mint
  owner := .inl owner
  state := .inl state
  key was configured := ⟨was, confidential.trans configured, rfl, .inl rfl⟩
  configured absent is present := by
    rw [confidential, absent] at present
    cases present

theorem AccountRules.refl :
    AccountRules coin signers chain toggled approving account account :=
  .of_eq rfl rfl rfl rfl

/-- Only the confidential state has changed, under the same key. -/
theorem AccountRules.of_confidential
    {was is : ConfidentialTransferAccount}
    (mint : after.mint = before.mint) (owner : after.owner = before.owner)
    (state : after.state = before.state)
    (configured : before.confidential = some was)
    (present : after.confidential = some is)
    (key : is.elgamalPubkey = was.elgamalPubkey)
    (approved : is.approved = was.approved) :
    AccountRules coin signers chain toggled approving before after where
  mint := mint
  owner := .inl owner
  state := .inl state
  key other found := by
    rw [configured] at found
    cases found
    exact ⟨is, present, key, .inl approved⟩
  configured absent := by
    rw [configured] at absent
    cases absent

variable (coin signers chain) in
/-- Every account of the coin takes such a step. -/
def AccountsStep (toggles approves closes : Address → Prop)
    (later : TokenChain) : Prop :=
  ∀ address, AccountStep coin signers chain (toggles address) (approves address)
    (closes address)
    (chain.accountOf coin.mint address) (later.accountOf coin.mint address)

theorem accountStep_refl (found : Option AccountSnapshot) :
    AccountStep coin signers chain toggled approving closed found found := by
  cases found with
  | none => exact .absent
  | some account => exact .kept .refl

/-- The accounts of the coin are the same. -/
theorem AccountsStep.of_accounts
    {later : TokenChain} (same : later.accounts = chain.accounts) :
    AccountsStep coin signers chain toggles approves closes later := by
  intro address
  unfold TokenChain.accountOf
  rw [same]
  exact accountStep_refl _

/-- An account that keeps its mint follows the rules, if it is of the coin. -/
theorem AccountStep.filter
    (sameMint : changed.mint = account.mint)
    (rules : account.mint = coin.mint →
      AccountRules coin signers chain toggled approving account changed) :
    AccountStep coin signers chain toggled approving closed
      ((some account).filter (·.mint = coin.mint))
      ((some changed).filter (·.mint = coin.mint)) := by
  by_cases ofMint : account.mint = coin.mint
  · rw [TokenChain.accountOf_of_mint ofMint,
      TokenChain.accountOf_of_mint (sameMint.trans ofMint)]
    exact .kept (rules ofMint)
  · rw [TokenChain.accountOf_of_foreign ofMint,
      TokenChain.accountOf_of_foreign (sameMint ▸ ofMint)]
    exact .absent

/-- One account changes. -/
theorem AccountsStep.setAccount
    (found : chain.accounts address = some account)
    (sameMint : changed.mint = account.mint)
    (rules : account.mint = coin.mint →
      AccountRules coin signers chain (toggles address) (approves address)
        account changed) :
    AccountsStep coin signers chain toggles approves closes
      (chain.setAccount address (some changed)) := by
  intro other
  by_cases here : other = address
  · subst here
    rw [TokenChain.accountOf_setAccount_self]
    unfold TokenChain.accountOf
    rw [found]
    exact .filter sameMint rules
  · rw [TokenChain.accountOf_setAccount_of_ne here]
    exact accountStep_refl _

/-- Two accounts change. -/
theorem AccountsStep.setAccounts
    {source destination : Address}
    {payer payee debited credited : AccountSnapshot}
    (different : source ≠ destination)
    (found : chain.accounts source = some payer)
    (payeeFound : chain.accounts destination = some payee)
    (rules :
      AccountRules coin signers chain (toggles source) (approves source) payer
        debited)
    (payeeRules :
      AccountRules coin signers chain (toggles destination)
        (approves destination) payee credited) :
    AccountsStep coin signers chain toggles approves closes
      ((chain.setAccount source (some debited)).setAccount destination
        (some credited)) := by
  intro other
  by_cases there : other = destination
  · subst there
    rw [TokenChain.accountOf_setAccount_self]
    unfold TokenChain.accountOf
    rw [payeeFound]
    exact .filter payeeRules.mint fun _ => payeeRules
  · rw [TokenChain.accountOf_setAccount_of_ne there]
    exact AccountsStep.setAccount found rules.mint (fun _ => rules) other

variable {later : TokenChain}

theorem AccountsStep.of_toggleFreeze
    {mint authority : Address} {freeze : Bool}
    (toggled :
      chain.toggleFreeze signers address mint authority freeze = some later)
    (here : toggles address) :
    AccountsStep coin signers chain toggles approves closes later := by
  obtain ⟨state, mintFound, freezer, signed⟩ :=
    TokenChain.toggleFreeze_signed toggled
  obtain ⟨account, found, _, ofMint, rfl⟩ :=
    TokenChain.toggleFreeze_eq_some toggled
  refine .setAccount found rfl fun own => ?_
  have freezes : FreezerSigns coin signers chain := by
    refine ⟨state, authority, ?_, freezer, signed⟩
    rw [← own, ofMint]
    exact mintFound
  exact
    { mint := rfl
      owner := .inl rfl
      state := .inr ⟨here, freezes⟩
      key := fun was configured => ⟨was, configured, rfl, .inl rfl⟩
      configured := fun absent is present => by
        rw [absent] at present
        cases present }

theorem AccountsStep.of_transferChecked
    {source mint destination authority : Address} {amount decimals fee : Nat}
    (transferred :
      chain.transferChecked signers source mint destination authority amount
        decimals fee = some later) :
    AccountsStep coin signers chain toggles approves closes later := by
  obtain ⟨payer, payee, state, debited, found, payeeFound, _, _, _, _, debits,
    moved⟩ := TokenChain.transferChecked_eq_some transferred
  rcases moved with ⟨_, rfl⟩ | ⟨different, credited, credits, rfl⟩
  · exact .of_accounts rfl
  · have money := AccountSnapshot.debitedBy_money debits
    have creditMoney := (AccountSnapshot.creditedWith_money credits).2.1
    refine .setAccounts different found payeeFound (.of_eq ?_ ?_ ?_ ?_)
      (.of_eq ?_ ?_ ?_ ?_)
    all_goals first | rw [money] | rw [creditMoney]

theorem AccountsStep.of_burn
    {source mint authority : Address} {amount decimals : Nat}
    (burnt :
      chain.burn signers source mint authority amount decimals = some later) :
    AccountsStep coin signers chain toggles approves closes later := by
  obtain ⟨account, state, debited, found, _, _, _, _, debits, rfl⟩ :=
    TokenChain.burn_eq_some burnt
  have money := AccountSnapshot.debitedBy_money debits
  have step : AccountsStep coin signers chain toggles approves closes
      (chain.setAccount source (some debited)) :=
    .setAccount found (by rw [money]) fun _ =>
      .of_eq (by rw [money]) (by rw [money]) (by rw [money]) (by rw [money])
  exact step

theorem AccountsStep.of_mintTo
    {mint destination authority : Address} {amount decimals : Nat}
    (minted :
      chain.mintTo signers mint destination authority amount decimals =
        some later) :
    AccountsStep coin signers chain toggles approves closes later := by
  obtain ⟨_, account, _, found, _, _, _, _, _, rfl⟩ :=
    TokenChain.mintTo_eq_some minted
  have step : AccountsStep coin signers chain toggles approves closes
      (chain.setAccount destination
        (some { account with amount := account.amount + amount })) :=
    .setAccount found rfl fun _ => .of_eq rfl rfl rfl rfl
  exact step

theorem AccountsStep.of_asOwner
    {owner : Address} {change : AccountSnapshot → Option AccountSnapshot}
    (done : chain.asOwner signers address owner change = some later)
    (rules : ∀ account changed, change account = some changed →
      account.owner ∈ signers →
        AccountRules coin signers chain (toggles address) (approves address)
          account changed) :
    AccountsStep coin signers chain toggles approves closes later := by
  obtain ⟨account, changed, found, rfl, signed, changes, rfl⟩ :=
    TokenChain.asOwner_eq_some done
  exact .setAccount found (rules account changed changes signed).mint fun _ =>
    rules account changed changes signed

theorem AccountsStep.of_setOwner
    {owner : Address} {newOwner : Option Address}
    (handed : chain.setOwner signers address owner newOwner = some later) :
    AccountsStep coin signers chain toggles approves closes later := by
  refine .of_asOwner handed fun account changed changes signed => ?_
  obtain ⟨_, same⟩ := Option.ite_none_right_eq_some.mp changes
  obtain ⟨_, _, rfl⟩ := Option.map_eq_some_iff.mp same
  exact
    { mint := rfl
      owner := .inr signed
      state := .inl rfl
      key := fun was configured => ⟨was, configured, rfl, .inl rfl⟩
      configured := fun absent is present => by
        have unchanged : account.confidential = some is := present
        rw [absent] at unchanged
        cases unchanged }

theorem AccountsStep.of_approveConfidential
    {mint authority : Address}
    (approved :
      chain.approveConfidential signers address mint authority = some later)
    (here : approves address) :
    AccountsStep coin signers chain toggles approves closes later := by
  obtain ⟨account, state, confidential, policy, found, mintFound, configured,
    hasPolicy, ofMint, isAuthority, signed, rfl⟩ :=
    TokenChain.approveConfidential_eq_some approved
  refine .setAccount found rfl fun own => ?_
  have signs : ApproverSigns coin signers chain := by
    refine ⟨state, policy, authority, ?_, hasPolicy, isAuthority, signed⟩
    rw [← own, ofMint]
    exact mintFound
  exact
    { mint := rfl
      owner := .inl rfl
      state := .inl rfl
      key := fun was present => by
        rw [configured] at present
        cases present
        exact ⟨_, rfl, rfl, .inr ⟨rfl, here, signs⟩⟩
      configured := fun absent => by
        rw [configured] at absent
        cases absent }

/-- Nothing but what is withheld in an account has changed. -/
def AccountSnapshot.SameButFees (was is : AccountSnapshot) : Prop :=
  is = { was with withheldFee := is.withheldFee }

theorem sameButFees_refl (found : Option AccountSnapshot) :
    Option.Rel AccountSnapshot.SameButFees found found := by
  cases found with
  | none => exact .none
  | some account => exact .some rfl

theorem sameButFees_trans
    {one two three : Option AccountSnapshot}
    (first : Option.Rel AccountSnapshot.SameButFees one two)
    (second : Option.Rel AccountSnapshot.SameButFees two three) :
    Option.Rel AccountSnapshot.SameButFees one three := by
  cases first with
  | none => exact second
  | some same =>
      cases second with
      | some sameOn =>
          unfold AccountSnapshot.SameButFees at same sameOn
          rw [sameOn, same]
          exact .some rfl

theorem TokenChain.harvestFrom_accounts
    {mint source : Address}
    (harvested : chain.harvestFrom mint source = some later)
    (address : Address) :
    Option.Rel AccountSnapshot.SameButFees (chain.accounts address)
      (later.accounts address) := by
  unfold harvestFrom at harvested
  split at harvested
  case h_1 => cases harvested
  case h_2 amount _ =>
      obtain ⟨_, same⟩ := Option.ite_none_right_eq_some.mp harvested
      cases same
      have mints : (chain.setMintWithheld mint
          (amount + chain.withheldBy mint source)).accounts =
            chain.accounts := rfl
      by_cases here : address = source
      case neg =>
          rw [emptied_elsewhere here, mints]
          exact sameButFees_refl _
      case pos =>
          subst here
          unfold emptied
          rw [mints]
          cases found : chain.accounts address with
          | none =>
              dsimp only
              rw [mints, found]
              exact .none
          | some account =>
              dsimp only
              split
              case isTrue =>
                  rw [setAccount_self]
                  exact .some rfl
              case isFalse =>
                  rw [mints, found]
                  exact .some rfl

/-- Harvesting touches nothing of an account but what is withheld in it. -/
theorem TokenChain.harvest_accounts
    {mint : Address} {sources : List Address}
    (harvested : chain.harvest mint sources = some later)
    (address : Address) :
    Option.Rel AccountSnapshot.SameButFees (chain.accounts address)
      (later.accounts address) := by
  induction sources generalizing chain with
  | nil =>
      cases harvested
      exact sameButFees_refl _
  | cons source rest inductionHypothesis =>
      obtain ⟨next, first, onward⟩ := Option.bind_eq_some_iff.mp harvested
      exact sameButFees_trans (harvestFrom_accounts first address)
        (inductionHypothesis onward)

theorem AccountsStep.of_harvest
    {mint : Address} {sources : List Address}
    (harvested : chain.harvest mint sources = some later) :
    AccountsStep coin signers chain toggles approves closes later := by
  intro address
  have related := TokenChain.harvest_accounts harvested address
  unfold TokenChain.accountOf
  generalize chain.accounts address = before at related ⊢
  generalize later.accounts address = left at related ⊢
  cases related with
  | none => exact .absent
  | some same =>
      unfold AccountSnapshot.SameButFees at same
      rw [same]
      exact .filter rfl fun _ => .of_eq rfl rfl rfl rfl

theorem AccountsStep.of_withdrawWithheld
    {mint treasury authority : Address}
    (withdrawn :
      chain.withdrawWithheld signers mint treasury authority = some later) :
    AccountsStep coin signers chain toggles approves closes later := by
  obtain ⟨_, config, account, _, _, found, _, _, _, _, rfl⟩ :=
    TokenChain.withdrawWithheld_money withdrawn
  have step : AccountsStep coin signers chain toggles approves closes
      (chain.setAccount treasury
        (some { account with
          amount := account.amount + config.withheldAmount })) :=
    .setAccount found rfl fun _ => .of_eq rfl rfl rfl rfl
  exact step

/-! ## Every instruction -/

/-- The account that an instruction is to freeze or to thaw. -/
def TokenInstruction.toggledAccount : TokenInstruction → Option Address
  | thawAccount account _ _ => some account
  | freezeAccount account _ _ => some account
  | _ => none

/-- The account that an instruction is to approve. -/
def TokenInstruction.approvedAccount : TokenInstruction → Option Address
  | approveAccount account _ _ => some account
  | _ => none

/-- Whether an account is to be frozen or thawed. -/
def CoinInstruction.Toggles (address : Address) : CoinInstruction → Prop
  | instruct instruction => instruction.toggledAccount = some address
  | _ => False

/-- Whether an account is to be approved. -/
def CoinInstruction.Approves (address : Address) : CoinInstruction → Prop
  | instruct instruction => instruction.approvedAccount = some address
  | _ => False

/-- Whether an account is to be closed. -/
def CoinInstruction.Closes (address : Address) : CoinInstruction → Prop
  | instruct (.closeAccount closed _ _) => closed = address
  | _ => False

theorem AccountsStep.of_perform
    {instruction : TokenInstruction}
    (performed : instruction.perform signers chain = some later) :
    AccountsStep coin signers chain (instruction.toggledAccount = some ·)
      (instruction.approvedAccount = some ·) closes later := by
  cases instruction with
  | initializeMetadata metadata updateAuthority mint mintAuthority name symbol
      uri =>
      have described : chain.describe signers
          (.initializeMetadata metadata updateAuthority mint mintAuthority name
            symbol uri) = some later := performed
      exact .of_accounts (TokenChain.describe_elsewhere described).1
  | updateField metadata updateAuthority key value =>
      have described : chain.describe signers
          (.updateField metadata updateAuthority key value) = some later :=
        performed
      exact .of_accounts (TokenChain.describe_elsewhere described).1
  | transferCheckedWithFee => exact .of_transferChecked performed
  | setTransferFee =>
      obtain ⟨_, _, _, _, rfl⟩ := TokenChain.setTransferFee_eq_some performed
      exact .of_accounts rfl
  | harvestWithheldTokensToMint => exact .of_harvest performed
  | withdrawWithheldTokensFromMint => exact .of_withdrawWithheld performed
  | thawAccount => exact .of_toggleFreeze performed rfl
  | freezeAccount => exact .of_toggleFreeze performed rfl
  | updateDefaultAccountState =>
      obtain ⟨_, _, _, _, rfl⟩ := TokenChain.changeMint_eq_some performed
      exact .of_accounts rfl
  | mintToChecked => exact .of_mintTo performed
  | approveChecked =>
      obtain ⟨account, found, _, _, _, _, rfl⟩ :=
        TokenChain.approve_eq_some performed
      exact .setAccount found rfl fun _ => .of_eq rfl rfl rfl rfl
  | enableCpiGuard =>
      refine .of_asOwner performed fun account changed changes _ => ?_
      cases changes
      exact .of_eq rfl rfl rfl rfl
  | closeAccount =>
      obtain ⟨_, _, _, _, _, rfl⟩ := TokenChain.closeMint_eq_some performed
      exact .of_accounts rfl
  | setAuthority account authority type newAuthority =>
      cases type with
      | accountOwner => exact .of_setOwner performed
      | mintTokens =>
          obtain ⟨_, _, _, _, rfl⟩ := TokenChain.changeMint_eq_some performed
          exact .of_accounts rfl
      | freezeAccount =>
          obtain ⟨_, _, _, _, rfl⟩ := TokenChain.changeMint_eq_some performed
          exact .of_accounts rfl
      | closeAccount =>
          obtain ⟨_, _, _, _, rfl⟩ := TokenChain.changeMint_eq_some performed
          exact .of_accounts rfl
      | extension =>
          obtain ⟨_, _, _, _, rfl⟩ := TokenChain.changeMint_eq_some performed
          exact .of_accounts rfl
  | approveAccount => exact .of_approveConfidential performed rfl
  | _ => cases performed

theorem AccountsStep.of_executes
    {crypto : Crypto} {withheldKey : PodElGamalPubkey} {execution : Execution}
    {accounts : TokenAccounts}
    (executes :
      Executes crypto withheldKey chain.accounts execution accounts) :
    AccountsStep coin signers chain toggles approves closes
      { chain with accounts } := by
  cases executes with
  | deposit found configured =>
      refine AccountsStep.setAccount found ?_ fun _ => ?_
      · rfl
      · exact .of_confidential rfl rfl rfl configured rfl rfl rfl
  | applyPendingBalance found configured =>
      refine AccountsStep.setAccount found ?_ fun _ => ?_
      · rfl
      · exact .of_confidential rfl rfl rfl configured rfl rfl rfl
  | transfer different found configured _ otherFound otherConfigured =>
      refine AccountsStep.setAccounts different found otherFound ?_ ?_
      · exact .of_confidential rfl rfl rfl configured rfl rfl rfl
      · exact .of_confidential rfl rfl rfl otherConfigured rfl rfl rfl
  | transferToSelf found configured =>
      refine AccountsStep.setAccount found ?_ fun _ => ?_
      · rfl
      · exact .of_confidential rfl rfl rfl configured rfl rfl rfl
  | withdraw found configured =>
      refine AccountsStep.setAccount found ?_ fun _ => ?_
      · rfl
      · exact .of_confidential rfl rfl rfl configured rfl rfl rfl

theorem AccountsStep.of_unconcerned
    (unconcerned : Unconcerned coin chain later) :
    AccountsStep coin signers chain toggles approves closes later := by
  intro address
  have related := unconcerned.accounts address
  generalize chain.accountOf coin.mint address = before at related ⊢
  generalize later.accountOf coin.mint address = left at related ⊢
  cases related with
  | none => exact .absent
  | some same =>
      rw [same]
      exact .kept (.of_eq rfl rfl rfl rfl)

/-- Settings do not say whose an account is. -/
theorem Adjusts.accountRules (adjusts : Adjusts account changed) :
    AccountRules coin signers chain toggled approving account changed where
  mint := by rw [adjusts.settings]
  owner := .inl (by rw [adjusts.settings])
  state := .inl (by rw [adjusts.settings])
  key was configured := by
    have related := adjusts.confidential
    rw [configured] at related
    generalize changed.confidential = found at related ⊢
    cases related with
    | some same => exact ⟨_, rfl, by rw [same], .inl (by rw [same])⟩
  configured absent is present := by
    have related := adjusts.confidential
    rw [absent, present] at related
    cases related

/-- Whatever is carried out, every account of the coin follows the rules. -/
theorem Performs.accounts
    {crypto : Crypto} {instruction : CoinInstruction}
    (performs : Performs crypto coin signers chain instruction later) :
    AccountsStep coin signers chain (instruction.Toggles ·)
      (instruction.Approves ·) (instruction.Closes ·) later := by
  cases performs with
  | perform performed => exact .of_perform performed
  | initializeExtension => exact .of_accounts rfl
  | initializeMint => exact .of_accounts rfl
  | confide _ _ _ _ _ executes => exact .of_executes executes
  | @configure address mint zero maximum offset account configured state policy
      confidential found mintFound ofMint signed hasPolicy unconfigured _
      configures =>
      have attached := configures.account
      have present : configured.confidential = some confidential := by
        rw [attached]
      refine .setAccount found (by rw [attached]) fun own => ?_
      exact
        { mint := by rw [attached]
          owner := .inl (by rw [attached])
          state := .inl (by rw [attached])
          key := fun was configuredBefore => by
            rw [unconfigured] at configuredBefore
            cases configuredBefore
          configured := fun _ is found => by
            rw [present] at found
            cases found
            refine ⟨signed, fun approved => ⟨state, policy, ?_, hasPolicy, ?_⟩⟩
            · rw [← own, ofMint]
              exact mintFound
            · rw [← configures.approved]
              exact approved }
  | reallocate dataLen lamports found =>
      exact .setAccount found rfl fun _ => .of_eq rfl rfl rfl rfl
  | burn burnt => exact .of_burn burnt
  | revoke revoked =>
      refine .of_asOwner revoked fun account changed changes _ => ?_
      obtain ⟨_, same⟩ := Option.ite_none_right_eq_some.mp changes
      cases same
      exact .of_eq rfl rfl rfl rfl
  | @openAccount account mint missing mintFound opens =>
      intro address
      by_cases here : address = account.address
      case neg =>
          rw [TokenChain.accountOf_setAccount_of_ne here]
          exact accountStep_refl _
      case pos =>
          subst here
          rw [TokenChain.accountOf_setAccount_self]
          unfold TokenChain.accountOf
          rw [missing]
          by_cases own : account.mint = coin.mint
          · rw [TokenChain.accountOf_of_mint own]
            exact .opened (own ▸ mintFound) opens
          · rw [TokenChain.accountOf_of_foreign own]
            exact .absent
  | foreign _ _ _ unconcerned => exact .of_unconcerned unconcerned
  | adjust found signed adjusts =>
      have same := adjusts.settings
      exact .setAccount found (by rw [same]) fun _ => adjusts.accountRules
  | reform done =>
      obtain ⟨_, _, _, _, _, _, rfl⟩ := TokenChain.reform_eq_some done
      exact .of_accounts rfl
  | @closeAccount closed _ _ account _ found =>
      intro address
      by_cases here : address = closed
      case neg =>
          rw [TokenChain.accountOf_setAccount_of_ne here]
          exact accountStep_refl _
      case pos =>
          subst here
          rw [TokenChain.accountOf_setAccount_self]
          cases chain.accountOf coin.mint address with
          | none => exact .absent
          | some account => exact .closed rfl
  | elsewhere unconcerned => exact .of_unconcerned unconcerned

end Steps
end Remit
