import Remit.Cluster.Quiet
import Remit.Kyc.Calls
import Remit.Library.Runs

/-!
# Clearances

The calls of the freeze authority read the chain and later send a transaction.
In between other parties open, close and hand over token accounts.  A clearance
sticks to an account whose owner cannot change, provided that the account which
is thawed is still the one that was read.
-/

namespace Remit

open Flows Runs

/-! ## The system -/

/-- The mint with its freeze authority, the keys that other parties hold, and
the owners of the associated token accounts. -/
structure KycSetting where
  programs : Programs
  mint : Address
  freezeAuthority : Keypair
  keys : Address → Prop
  associated : Address → Option Address

/-- The chain, the calls that are prepared, and for each account the owner
that was read by the last approval to land. -/
structure KycState where
  chain : TokenChain
  inFlight : List PreparedCall
  cleared : Address → Option Address

inductive KycEvent where
  | read (call : FreezeCall)
  | land (prepared : PreparedCall)
  | drop (prepared : PreparedCall)
  | other
deriving DecidableEq

/-- The owners that were read, once a call has landed. -/
def PreparedCall.clear (prepared : PreparedCall)
    (cleared : Address → Option Address) : Address → Option Address :=
  match prepared.call with
  | .approveKyc tokenAccount =>
      Function.update cleared tokenAccount (some prepared.read.owner)
  | _ => cleared

/-- What others may do to an account of the mint besides opening it, closing it
and handing it over. -/
def KeepsTerms (mint : Address) (before after : Option AccountSnapshot) :
    Prop :=
  ∀ account, after = some account → account.mint = mint →
    ∃ earlier, before = some earlier ∧ earlier.mint = mint ∧
      earlier.owner = account.owner ∧ earlier.state = account.state ∧
      (.immutableOwner ∈ earlier.extensions ↔
        .immutableOwner ∈ account.extensions)

/-- A step of another party.  It opens an account at an address whose key it
holds, or an associated account, in the default state of the mint; it closes an
empty account of its own; it hands an account of its own over; or it does
something that keeps the terms of all accounts of the mint. -/
inductive Interferes (setting : KycSetting) (chain : TokenChain) :
    TokenChain → Prop where
  | create {address : Address} {account : AccountSnapshot}
      {mint : MintSnapshot} :
      setting.keys address ∨
        setting.associated address = some account.owner ∧
          .immutableOwner ∈ account.extensions →
      chain.accounts address = none →
      chain.mints account.mint = some mint →
      account.state = mint.defaultAccountState.getD .initialized →
      account.amount = 0 →
      Interferes setting chain (chain.setAccount address (some account))
  | close {address : Address} {account : AccountSnapshot} :
      setting.keys account.owner → chain.accounts address = some account →
      account.amount = 0 →
      Interferes setting chain (chain.setAccount address none)
  | setOwner {address : Address} {account : AccountSnapshot}
      (owner : Address) :
      setting.keys account.owner → chain.accounts address = some account →
      account.isFrozen = false → .immutableOwner ∉ account.extensions →
      Interferes setting chain
        (chain.setAccount address (some { account with owner }))
  | keeping {after : TokenChain} :
      (∀ address, KeepsTerms setting.mint (chain.accounts address)
        (after.accounts address)) →
      (after.mints setting.mint).map (·.defaultAccountState) =
        (chain.mints setting.mint).map (·.defaultAccountState) →
      Interferes setting chain after

/-- A call of the freeze authority reads the chain, a prepared transaction
lands or never does, or another party takes a step. -/
inductive KycStep (setting : KycSetting) :
    KycState → KycEvent → KycState → Prop where
  | read {state : KycState} {call : FreezeCall} {prepared : PreparedCall} :
      call.prepare setting.programs setting.freezeAuthority state.chain =
        .ok prepared →
      KycStep setting state (.read call)
        { state with inFlight := prepared :: state.inFlight }
  | land {state : KycState} {prepared : PreparedCall} {chain : TokenChain} :
      prepared ∈ state.inFlight →
      state.chain.carryOutAll (prepared.signers.map (·.pubkey))
        (tokenInstructions prepared.transaction) = some chain →
      KycStep setting state (.land prepared)
        { chain
          inFlight := state.inFlight.erase prepared
          cleared := prepared.clear state.cleared }
  | drop {state : KycState} {prepared : PreparedCall} :
      prepared ∈ state.inFlight →
      KycStep setting state (.drop prepared)
        { state with inFlight := state.inFlight.erase prepared }
  | other {state : KycState} {chain : TokenChain} :
      Interferes setting state.chain chain →
      KycStep setting state .other { state with chain }

namespace KycState

/-- Every account of the mint that is not frozen has the owner it was cleared
for, and keeps it. -/
def Sticks (mint : Address) (state : KycState) : Prop :=
  ∀ address account,
    state.chain.accounts address = some account → account.mint = mint →
      account.isFrozen = false →
        .immutableOwner ∈ account.extensions ∧
          state.cleared address = some account.owner

/-- If an approval is about to land, the account it thaws has `ImmutableOwner`
and the owner that was read. -/
def Unchanged (mint : Address) (state : KycState) : KycEvent → Prop
  | .land ⟨.approveKyc tokenAccount, read, _, _⟩ =>
      ∀ account,
        state.chain.accounts tokenAccount = some account →
          account.mint = mint →
            .immutableOwner ∈ account.extensions ∧
              account.owner = read.owner
  | _ => True

/-- New accounts of the mint start frozen. -/
def StartsFrozen (mint : Address) (state : KycState) : Prop :=
  (state.chain.mints mint).map (·.defaultAccountState) = some (some .frozen)

/-- Clearances stick so far, new accounts start frozen and what is prepared is
sound. -/
structure Sound (setting : KycSetting) (state : KycState) : Prop where
  sticks : state.Sticks setting.mint
  startsFrozen : state.StartsFrozen setting.mint
  prepared : ∀ prepared ∈ state.inFlight,
    prepared.Sound setting.freezeAuthority

end KycState

/-! ## What a step leaves open -/

/-- Every account of the mint that is not frozen was so before, with the same
owner, and has not lost `ImmutableOwner`. -/
def OpensNothing (mint : Address) (before after : TokenChain) : Prop :=
  ∀ address account,
    after.accounts address = some account → account.mint = mint →
      account.isFrozen = false →
        ∃ earlier, before.accounts address = some earlier ∧
          earlier.mint = mint ∧ earlier.isFrozen = false ∧
          earlier.owner = account.owner ∧
          (.immutableOwner ∈ earlier.extensions →
            .immutableOwner ∈ account.extensions)

section Opening

variable {mint : Address} {chain after : TokenChain}

/-- Writing one account opens nothing if it does not open that account. -/
theorem opensNothing_setAccount
    {address : Address} {account : Option AccountSnapshot}
    (shut : ∀ left, account = some left → left.mint = mint →
      left.isFrozen = false →
        ∃ earlier, chain.accounts address = some earlier ∧
          earlier.mint = mint ∧ earlier.isFrozen = false ∧
          earlier.owner = left.owner ∧
          (.immutableOwner ∈ earlier.extensions →
            .immutableOwner ∈ left.extensions)) :
    OpensNothing mint chain (chain.setAccount address account) := by
  intro other left found ofMint unfrozen
  by_cases here : other = address
  · subst here
    rw [TokenChain.setAccount_self] at found
    exact shut left found ofMint unfrozen
  · rw [TokenChain.setAccount_of_ne _ here] at found
    exact ⟨left, found, ofMint, unfrozen, rfl, id⟩

theorem opensNothing_freeze
    {signers : List Address} {address ofMint authority : Address}
    (froze :
      chain.toggleFreeze signers address ofMint authority true = some after) :
    OpensNothing mint chain after := by
  obtain ⟨account, _, _, _, rfl⟩ := TokenChain.toggleFreeze_eq_some froze
  apply opensNothing_setAccount
  intro left same _ unfrozen
  cases same
  simp [AccountSnapshot.isFrozen] at unfrozen

/-- What has the same terms was open before. -/
theorem open_of_sameTerms
    {before : Option AccountSnapshot} {account : AccountSnapshot}
    (same : Option.Rel AccountSnapshot.SameTerms before (some account))
    (ofMint : account.mint = mint) (unfrozen : account.isFrozen = false) :
    ∃ earlier, before = some earlier ∧ earlier.mint = mint ∧
      earlier.isFrozen = false ∧ earlier.owner = account.owner ∧
      (.immutableOwner ∈ earlier.extensions →
        .immutableOwner ∈ account.extensions) := by
  cases same with
  | @some earlier _ terms =>
      refine ⟨earlier, rfl, ?_, ?_, terms.owner.symm, ?_⟩
      · rw [← terms.mint, ofMint]
      · rw [← terms.isFrozen, unfrozen]
      · rw [terms.extensions]
        exact id

theorem opensNothing_transfer
    {signers : List Address}
    {source ofMint destination authority : Address}
    {amount decimals fee : Nat}
    (transferred :
      chain.transferChecked signers source ofMint destination authority amount
        decimals fee = some after) :
    OpensNothing mint chain after := by
  intro address account found mine unfrozen
  have same := (TokenChain.transferChecked_sameTerms transferred).2 address
  rw [found] at same
  exact open_of_sameTerms same mine unfrozen

/-- A seizure from a frozen account thaws it for the transfer only. -/
theorem opensNothing_seizeFrozen
    {signers : List Address}
    {source ofMint destination authority delegate : Address}
    {amount decimals fee : Nat} {thawed moved : TokenChain}
    (thaws :
      chain.toggleFreeze signers source ofMint authority false = some thawed)
    (transferred :
      thawed.transferChecked signers source ofMint destination delegate amount
        decimals fee = some moved)
    (freezes :
      moved.toggleFreeze signers source ofMint authority true = some after) :
    OpensNothing mint chain after := by
  intro address account found mine unfrozen
  obtain ⟨held, _, _, _, rfl⟩ := TokenChain.toggleFreeze_eq_some freezes
  by_cases here : address = source
  · subst here
    rw [TokenChain.setAccount_self] at found
    cases found
    simp [AccountSnapshot.isFrozen] at unfrozen
  · rw [TokenChain.setAccount_of_ne _ here] at found
    have same :=
      (TokenChain.transferChecked_sameTerms transferred).2 address
    obtain ⟨frozen, _, _, _, rfl⟩ := TokenChain.toggleFreeze_eq_some thaws
    rw [found, TokenChain.setAccount_of_ne _ here] at same
    exact open_of_sameTerms same mine unfrozen

end Opening

/-! ## Clearances stick -/

namespace KycState

variable {setting : KycSetting} {state : KycState}

/-- A step that opens nothing leaves the clearances as they are. -/
theorem Sticks.of_opensNothing
    {mint : Address} {chain : TokenChain} {inFlight : List PreparedCall}
    (sticks : state.Sticks mint)
    (opens : OpensNothing mint state.chain chain) :
    Sticks mint ⟨chain, inFlight, state.cleared⟩ := by
  intro address account found ofMint unfrozen
  obtain ⟨earlier, before, wasOfMint, wasUnfrozen, owner, fixed⟩ :=
    opens address account found ofMint unfrozen
  have cleared := sticks address earlier before wasOfMint wasUnfrozen
  exact ⟨fixed cleared.1, owner ▸ cleared.2⟩

/-- While clearances stick, the steps of others open nothing. -/
theorem Sound.opensNothing
    {chain : TokenChain} (sound : state.Sound setting)
    (interferes : Interferes setting state.chain chain) :
    OpensNothing setting.mint state.chain chain := by
  cases interferes with
  | @create address account mint _ _ mintFound starts _ =>
      apply opensNothing_setAccount
      intro left same ofMint unfrozen
      cases same
      have frozen := sound.startsFrozen
      unfold StartsFrozen at frozen
      rw [← ofMint, mintFound] at frozen
      have defaults : mint.defaultAccountState = some .frozen := by
        simpa using frozen
      rw [defaults] at starts
      simp [AccountSnapshot.isFrozen, starts] at unfrozen
  | close =>
      apply opensNothing_setAccount
      intro left same
      cases same
  | @setOwner address account owner _ found unfrozen loose =>
      apply opensNothing_setAccount
      intro left same ofMint _
      cases same
      have fixed := (sound.sticks address account found ofMint unfrozen).1
      exact absurd fixed loose
  | keeping keeps =>
      intro address account found ofMint unfrozen
      obtain ⟨earlier, before, wasOfMint, owner, same, fixed⟩ :=
        keeps address account found ofMint
      refine ⟨earlier, before, wasOfMint, ?_, owner, fixed.mp⟩
      unfold AccountSnapshot.isFrozen at unfrozen ⊢
      rw [same, unfrozen]

/-- Nobody but the freeze authority changes the default state of the mint. -/
theorem StartsFrozen.interferes
    {chain : TokenChain} {inFlight : List PreparedCall}
    {cleared : Address → Option Address}
    (starts : state.StartsFrozen setting.mint)
    (interferes : Interferes setting state.chain chain) :
    StartsFrozen setting.mint ⟨chain, inFlight, cleared⟩ := by
  cases interferes with
  | create => exact starts
  | close => exact starts
  | setOwner => exact starts
  | keeping _ kept =>
      unfold StartsFrozen at starts ⊢
      rw [kept, starts]

/-- What a landed transaction does to clearances: an approval thaws the account
at its address, anything else opens nothing. -/
theorem land_cases
    {prepared : PreparedCall} {chain : TokenChain}
    (shape : prepared.Sound setting.freezeAuthority)
    (carried :
      state.chain.carryOutAll (prepared.signers.map (·.pubkey))
        (tokenInstructions prepared.transaction) = some chain) :
    (∃ tokenAccount account,
        prepared.call = .approveKyc tokenAccount ∧
          state.chain.accounts tokenAccount = some account ∧
          chain = state.chain.setAccount tokenAccount
            (some { account with state := .initialized })) ∨
      prepared.clear state.cleared = state.cleared ∧
        OpensNothing setting.mint state.chain chain := by
  cases shape with
  | approve tokenAccount read signers =>
      obtain ⟨next, thaws, done⟩ := Option.bind_eq_some_iff.mp carried
      cases done
      obtain ⟨account, found, _, _, rfl⟩ :=
        TokenChain.toggleFreeze_eq_some thaws
      exact .inl ⟨tokenAccount, account, rfl, found, rfl⟩
  | revoke tokenAccount read signers =>
      obtain ⟨next, freezes, done⟩ := Option.bind_eq_some_iff.mp carried
      cases done
      exact .inr ⟨rfl, opensNothing_freeze freezes⟩
  | seizeOpen =>
      obtain ⟨next, transferred, done⟩ := Option.bind_eq_some_iff.mp carried
      cases done
      exact .inr ⟨rfl, opensNothing_transfer transferred⟩
  | seizeFrozen =>
      obtain ⟨thawed, thaws, onward⟩ := Option.bind_eq_some_iff.mp carried
      obtain ⟨moved, transferred, onward⟩ := Option.bind_eq_some_iff.mp onward
      obtain ⟨frozen, freezes, done⟩ := Option.bind_eq_some_iff.mp onward
      cases done
      exact .inr ⟨rfl, opensNothing_seizeFrozen thaws transferred freezes⟩

/-- A step keeps the state sound if no approval lands on an account that is not
the one it has read. -/
theorem Sound.step
    {event : KycEvent} {after : KycState} (sound : state.Sound setting)
    (unchanged : state.Unchanged setting.mint event)
    (step : KycStep setting state event after) :
    after.Sound setting := by
  cases step with
  | read ready =>
      refine { sound with prepared := ?_ }
      intro prepared member
      rcases List.mem_cons.mp member with rfl | earlier
      · exact FreezeCall.prepare_sound ready
      · exact sound.prepared prepared earlier
  | drop _ =>
      exact
        { sound with
          prepared := fun prepared member =>
            sound.prepared prepared (List.mem_of_mem_erase member) }
  | other interferes =>
      exact
        { sticks := sound.sticks.of_opensNothing (sound.opensNothing interferes)
          startsFrozen := sound.startsFrozen.interferes interferes
          prepared := sound.prepared }
  | @land prepared chain member carried =>
      refine
        { sticks := ?_
          startsFrozen := ?_
          prepared := fun other kept =>
            sound.prepared other (List.mem_of_mem_erase kept) }
      · rcases land_cases (sound.prepared prepared member) carried with
          ⟨tokenAccount, account, approves, found, rfl⟩ | ⟨same, opens⟩
        · obtain ⟨call, read, transaction, signers⟩ := prepared
          simp only at approves
          subst approves
          intro address left present ofMint unfrozen
          by_cases here : address = tokenAccount
          · subst here
            rw [TokenChain.setAccount_self] at present
            cases present
            obtain ⟨fixed, owner⟩ := unchanged account found ofMint
            refine ⟨fixed, ?_⟩
            simp [PreparedCall.clear, owner]
          · rw [TokenChain.setAccount_of_ne _ here] at present
            have before := sound.sticks address left present ofMint unfrozen
            refine ⟨before.1, ?_⟩
            rw [← before.2]
            exact Function.update_of_ne here ..
        · rw [same]
          exact sound.sticks.of_opensNothing opens
      · have frozen := sound.startsFrozen
        unfold StartsFrozen at frozen ⊢
        rw [TokenChain.carryOutAll_mints carried]
        exact frozen

/-- An approval that lands on another account than the one it has read opens an
account whose owner may change or was not cleared. -/
theorem not_sticks_of_changed
    {event : KycEvent} {after : KycState} (sound : state.Sound setting)
    (changed : ¬ state.Unchanged setting.mint event)
    (step : KycStep setting state event after) :
    ¬ after.Sticks setting.mint := by
  cases step with
  | read => exact absurd trivial changed
  | drop => exact absurd trivial changed
  | other => exact absurd trivial changed
  | @land prepared chain member carried =>
      obtain ⟨call, read, transaction, signers⟩ := prepared
      have shape := sound.prepared _ member
      cases shape with
      | revoke => exact absurd trivial changed
      | seizeOpen => exact absurd trivial changed
      | seizeFrozen => exact absurd trivial changed
      | approve tokenAccount =>
          intro sticks
          apply changed
          intro account found ofMint
          obtain ⟨next, thaws, done⟩ := Option.bind_eq_some_iff.mp carried
          cases done
          obtain ⟨opened, foundAgain, _, _, rfl⟩ :=
            TokenChain.toggleFreeze_eq_some thaws
          rw [found] at foundAgain
          cases foundAgain
          have cleared := sticks tokenAccount
            { account with state := .initialized }
            (TokenChain.setAccount_self ..) ofMint rfl
          have owner : some read.owner = some account.owner := by
            rw [← cleared.2]
            simp [PreparedCall.clear]
          exact ⟨cleared.1, (Option.some.inj owner).symm⟩

end KycState

/-- In a run that starts with clearances that stick, they stick throughout
exactly when every approval that lands thaws an account with `ImmutableOwner`
and the owner that was read. -/
theorem clearances_stick_iff
    {setting : KycSetting} {start : KycState}
    {trace : List (KycEvent × KycState)} (sound : start.Sound setting)
    (run : Run (KycStep setting) start trace) :
    (∀ state ∈ visited start trace, state.Sticks setting.mint) ↔
      EachStep (KycState.Unchanged setting.mint) start trace :=
  run.good_iff_eachStep (fun _ sound => sound.sticks)
    (fun _ _ _ sound unchanged step => sound.step unchanged step)
    (fun _ _ _ sound changed step =>
      KycState.not_sticks_of_changed sound changed step)
    sound

/-! ## An account that is replaced after it was read -/

namespace Quiet

open Transparent

/-- Accounts of the shared mint start frozen, and others hold all keys but that
of the freeze authority. -/
def kycSetting : KycSetting where
  programs := programs
  mint := sharedMint.address
  freezeAuthority := keypair 1001
  keys key := key ≠ (keypair 1001).pubkey
  associated _ := none

def loose : Address :=
  Address.filled 7

/-- A new account at an address of its own. -/
def newAccount (owner : Address) (extensions : List ExtensionType) :
    AccountSnapshot :=
  { openAccount loose 0 with owner, extensions, state := .frozen }

/-- The chain with one account at that address. -/
def chainWith (account : Option AccountSnapshot) : TokenChain where
  accounts := Function.update (fun _ => none) loose account
  mints address :=
    if address = sharedMint.address then
      some
        { sharedMint with
          freezeAuthority := some (keypair 1001).pubkey
          defaultAccountState := some .frozen }
    else none
  epoch := 0

/-- The approval of Alice's account, as it was read. -/
def approval : PreparedCall where
  call := .approveKyc loose
  read := newAccount alice [.immutableOwner]
  transaction :=
    [.token (.thawAccount loose sharedMint.address (keypair 1001).pubkey)]
  signers := [keypair 1001]

/-- The account that gets thawed. -/
def opened : AccountSnapshot :=
  { newAccount bob [] with state := .initialized }

def unapproved : KycState :=
  ⟨chainWith (some (newAccount alice [.immutableOwner])), [], fun _ => none⟩

/-- Alice's account is read; she closes it, and Bob opens one at its address
without `ImmutableOwner`, which is the one that gets thawed. -/
def replaced : List (KycEvent × KycState) :=
  [(.read (.approveKyc loose),
      ⟨chainWith (some (newAccount alice [.immutableOwner])), [approval],
        fun _ => none⟩),
    (.other, ⟨chainWith none, [approval], fun _ => none⟩),
    (.other, ⟨chainWith (some (newAccount bob [])), [approval],
      fun _ => none⟩),
    (.land approval,
      ⟨chainWith (some opened), [],
        Function.update (fun _ => none) loose (some alice)⟩)]

theorem chainWith_loose (account : Option AccountSnapshot) :
    (chainWith account).accounts loose = account := by
  simp [chainWith]

theorem chainWith_setAccount (before after : Option AccountSnapshot) :
    (chainWith before).setAccount loose after = chainWith after := by
  simp [chainWith, TokenChain.setAccount]

theorem unapproved_sound : unapproved.Sound kycSetting where
  sticks := by
    intro address account found _ unfrozen
    by_cases here : address = loose
    · subst here
      simp only [unapproved, chainWith, Function.update_self,
        Option.some.injEq] at found
      subst found
      exact absurd unfrozen (by decide)
    · simp [unapproved, chainWith, here] at found
  startsFrozen := rfl
  prepared _ member := by cases member

theorem replaced_run : Run (KycStep kycSetting) unapproved replaced := by
  have closes :
      Interferes kycSetting
        (chainWith (some (newAccount alice [.immutableOwner])))
        (chainWith none) := by
    rw [← chainWith_setAccount (some (newAccount alice [.immutableOwner]))
      none]
    have key : kycSetting.keys alice := by
      show alice ≠ (keypair 1001).pubkey
      decide
    have empty : (newAccount alice [.immutableOwner]).amount = 0 := rfl
    exact .close key (chainWith_loose _) empty
  have opens :
      Interferes kycSetting (chainWith none)
        (chainWith (some (newAccount bob []))) := by
    rw [← chainWith_setAccount none (some (newAccount bob []))]
    have key : kycSetting.keys loose := by
      show loose ≠ (keypair 1001).pubkey
      decide
    have ofMint :
        (chainWith none).mints (newAccount bob []).mint =
          some
            { sharedMint with
              freezeAuthority := some (keypair 1001).pubkey
              defaultAccountState := some .frozen } := rfl
    exact .create (.inl key) (chainWith_loose _) ofMint rfl rfl
  have thaws :
      (chainWith (some (newAccount bob []))).carryOutAll
          [(keypair 1001).pubkey]
          [.thawAccount loose sharedMint.address (keypair 1001).pubkey] =
        some (chainWith (some opened)) := by
    rw [← chainWith_setAccount (some (newAccount bob [])) (some opened)]
    rfl
  refine .next (.read rfl) (.next (.other closes) (.next (.other opens) ?_))
  have lands :
      KycStep kycSetting
        ⟨chainWith (some (newAccount bob [])), [approval], fun _ => none⟩
        (.land approval)
        ⟨chainWith (some opened), [],
          Function.update (fun _ => none) loose (some alice)⟩ :=
    .land (List.mem_singleton_self approval) thaws
  exact .next lands (.stay _)

/-- In the end an account is open that was never cleared for its owner. -/
theorem replaced_account_is_thawed :
    unapproved.Sound kycSetting ∧
      Run (KycStep kycSetting) unapproved replaced ∧
      ¬ ∀ state ∈ visited unapproved replaced,
        state.Sticks kycSetting.mint := by
  refine ⟨unapproved_sound, replaced_run, fun all => ?_⟩
  have sticks := all
    ⟨chainWith (some opened), [],
      Function.update (fun _ => none) loose (some alice)⟩
    (by simp [visited, replaced])
  have fixed := (sticks loose opened (chainWith_loose _) rfl rfl).1
  exact absurd fixed (by decide)

theorem replaced_sticks_iff :
    (∀ state ∈ visited unapproved replaced, state.Sticks kycSetting.mint) ↔
      EachStep (KycState.Unchanged kycSetting.mint) unapproved replaced :=
  clearances_stick_iff unapproved_sound replaced_run

end Quiet
end Remit
