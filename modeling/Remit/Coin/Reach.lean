import Remit.Coin.Calls

/-!
# Beyond the reach of the issuer

The permanent delegate controls what can be spent in public, and the freeze
authority whether an account can be used.  Neither can recover what an owner has
hidden, and while it is there the mint cannot be closed.  A freeze that lands
first leaves nothing to the owner and everything that can be spent to seizures.
-/

namespace Remit

set_option maxRecDepth 2000

open Flows Flow Purses Runs

variable {C : Cluster} {crypto : Crypto} {coin : Coin}

/-- What an owner has hidden stays in the account, whatever calls are made with
other keys and whatever others do, for as long as the owner signs nothing.  The
account stays the owner's, and the mint stays with a supply that covers what is
hidden. -/
theorem hidden_money_needs_its_owner
    (C : Cluster) (crypto : Crypto) (coin : Coin) (owner : Address)
    (contract : CoinContract C crypto coin
      fun event => ¬ event.SignedBy owner)
    (state : C.State) {purses : Purse →₀ Nat} {address : Address}
    {account : AccountSnapshot}
    (backed : Backed crypto coin purses (C.tokenChain state))
    (here : (C.tokenChain state).accountOf coin.mint address = some account)
    (owned : account.owner = owner)
    (something :
      0 < held purses address .pending + held purses address .available)
    (calls : List (LibraryCall crypto)) (drawn : Nat)
    (notPayer : C.payer ≠ owner)
    (undrawn : ∀ number, (C.keypairs number).pubkey ≠ owner)
    (without : ∀ call ∈ calls, ∀ key ∈ call.keys, key.pubkey ≠ owner) :
    ∀ one ∈ (LibraryCall.runAll (World.initial state drawn : World C)
        calls).sent,
      HoldsAround C (fun chain =>
        Hides crypto coin address owner (held purses address .pending)
            (held purses address .available) chain ∧
          ∃ mint, chain.mints coin.mint = some mint ∧
            held purses address .pending + held purses address .available ≤
              mint.supply) one := by
  obtain ⟨chained, posts⟩ := LibraryCall.sent_runAll calls state drawn
  have start : Hides crypto coin address owner (held purses address .pending)
      (held purses address .available) (C.tokenChain state) :=
    ⟨purses, account, backed, here, owned, Nat.le_refl _, rfl⟩
  obtain ⟨around, _⟩ := contract.keeps
    (fun _ _ _ hides unsigned step => hides.step something unsigned step)
    chained start fun one member before after hides performs => by
      obtain ⟨call, isCall, posted⟩ := posts one member
      have unsigned : owner ∉ C.signedBy one.signers := by
        intro signed
        rcases List.mem_cons.mp signed with isPayer | signs
        · exact notPayer isPayer.symm
        · obtain ⟨signer, among, same⟩ := List.mem_map.mp signs
          rcases posted.given signer among with isKey | ⟨number, rfl⟩
          · exact without call isCall signer isKey same
          · exact undrawn number same
      exact hides.performsAll something unsigned performs
  exact fun one member =>
    { before := ⟨(around one member).before,
        (around one member).before.covered something⟩
      after := ⟨(around one member).after,
        (around one member).after.covered something⟩
      next := ⟨(around one member).next,
        (around one member).next.covered something⟩ }

/-- The issuer seizes what can be spent, and cannot close the mint. -/
theorem hidden_money_outlasts_a_seizure :
    let calls : List (LibraryCall Transparent.crypto) :=
      [.seize Coining.holder Coining.treasury Busy.freezeAuthority
          Busy.seizureAuthority 60,
        .closeMint Busy.stablecoin Coining.closeAuthority Coining.treasury]
    let sent := (LibraryCall.runAll
      (World.initial (.ongoing (fun _ => none) Coining.freezing) 0 :
        World Coining.cluster) calls).sent
    sent.map Sent.landed = [true, false] ∧
      ∀ one ∈ sent,
        HoldsAround Coining.cluster (fun chain =>
          Hides Transparent.crypto Coining.token Coining.holder
              Coining.owner.pubkey (held Coining.purses Coining.holder .pending)
              (held Coining.purses Coining.holder .available) chain ∧
            ∃ mint, chain.mints Busy.stablecoin = some mint ∧
              held Coining.purses Coining.holder .pending +
                held Coining.purses Coining.holder .available ≤ mint.supply)
          one := by
  refine ⟨by decide, ?_⟩
  refine hidden_money_needs_its_owner Coining.cluster Transparent.crypto
    Coining.token Coining.owner.pubkey (Coining.contract ?_)
    (.ongoing (fun _ => none) Coining.freezing) Coining.backed_freezing
    Coining.accountOf_holder rfl ?_ _ 0 ?_ ?_ ?_
  · decide
  · simp [Coining.held_purses_holder]
  · decide
  · exact Coining.keypair_ne_filled (by decide)
  · decide

/-! ## Seizing from a frozen account -/

section Seizing

variable {address : Address} {balances : Compartment → Nat}

/-- A call that can neither thaw the account at an address nor close it. -/
def LibraryCall.Spares (address : Address) : LibraryCall crypto → Prop
  | approveKyc tokenAccount _ => tokenAccount ≠ address
  | closeMint mint _ _ => mint ≠ address
  | seize source _ _ _ _ => source ≠ address
  | _ => True

/-- What a call has taken from the account at an address. -/
def LibraryCall.taken (address : Address) :
    LibraryCall crypto → Except (Stop Error) Unit → Nat
  | seize source _ _ _ amount, .ok () => if source = address then amount else 0
  | _, _ => 0

/-- Calls that are made one after another, each with its outcome. -/
def LibraryCall.outcomes (world : World C) :
    List (LibraryCall crypto) →
      List (LibraryCall crypto × Except (Stop Error) Unit)
  | [] => []
  | call :: rest =>
      (call, (Flow.exec call.run world).1) ::
        outcomes (Flow.exec call.run world).2 rest

/-- An instruction that neither thaws the account at an address nor closes
it. -/
def TokenInstruction.Spares (address : Address) : TokenInstruction → Prop
  | thawAccount account _ _ => account ≠ address
  | closeAccount account _ _ => account ≠ address
  | _ => True

theorem TokenInstruction.Spares.instruct
    {instruction : TokenInstruction} (spares : instruction.Spares address) :
    CoinInstruction.Spares address (.instruct instruction) := by
  refine ⟨fun closed => ?_, fun mint authority same => ?_⟩
  · cases instruction with
    | closeAccount => exact spares closed
    | _ => cases closed
  · cases same
    exact spares rfl

/-- Instructions that spare an account make up a transaction that does. -/
theorem spares_coinInstructions
    {transaction : List Instruction}
    (spares : ∀ instruction ∈ tokenInstructions transaction,
      instruction.Spares address) :
    ∀ instruction ∈ coinInstructions transaction,
      instruction.Spares address := by
  intro instruction member
  rcases List.mem_append.mp member with asked | last
  · obtain ⟨token, inside, rfl⟩ := List.mem_map.mp asked
    exact (spares token inside).instruct
  · rw [List.mem_singleton.mp last]
    exact ⟨id, fun _ _ same => by cases same⟩

theorem TokenInstruction.Ordinary.spares
    {instruction : TokenInstruction} (ordinary : instruction.Ordinary) :
    instruction.Spares address := by
  cases instruction with
  | thawAccount | closeAccount => cases ordinary
  | _ => trivial

/-- Calls that spare an account carry instructions that spare it. -/
theorem LibraryCall.Spares.carries
    {call : LibraryCall crypto} {payer : Address}
    {carried : List TokenInstruction}
    (spares : call.Spares address) (carries : call.Carries payer carried) :
    ∀ instruction ∈ carried, instruction.Spares address := by
  intro instruction member
  cases call with
  | closeMint =>
      obtain rfl := carries
      rw [List.mem_singleton.mp member]
      exact spares
  | approveKyc =>
      obtain ⟨_, rfl⟩ := carries
      rw [List.mem_singleton.mp member]
      exact spares
  | revokeKyc =>
      obtain ⟨_, rfl⟩ := carries
      rw [List.mem_singleton.mp member]
      trivial
  | setDefaultAccountState =>
      obtain rfl := carries
      rw [List.mem_singleton.mp member]
      trivial
  | seize =>
      obtain ⟨_, _, _, rfl | rfl⟩ := carries
      · rw [List.mem_singleton.mp member]
        trivial
      · simp only [List.mem_cons, List.not_mem_nil, or_false] at member
        rcases member with rfl | rfl | rfl
        · exact spares
        · trivial
        · trivial
  | _ =>
      refine (LibraryCall.Ordinary.carries ?_ carries instruction
        member).spares
      trivial

/-- Around the transactions of calls that spare a frozen account its balances
are what they were. -/
theorem FrozenWith.submits
    (contract : CoinContract C crypto coin fun event => event.Spares address)
    {good : List Instruction → List Keypair → Prop} {before after : World C}
    (locked :
      FrozenWith crypto coin address balances (C.tokenChain before.state))
    (submits : before.Submits good after)
    (spares : ∀ transaction signers, good transaction signers →
      ∀ instruction ∈ tokenInstructions transaction,
        instruction.Spares address) :
    FrozenWith crypto coin address balances (C.tokenChain after.state) := by
  obtain ⟨sent, _, chained, holds⟩ := submits
  refine (contract.keeps (fun _ _ _ locked spares step =>
    locked.spared spares step) chained locked ?_).2
  intro one member before after locked performs
  exact locked.performsAll
    (spares_coinInstructions (spares _ _ (holds one member))) performs

/-- A transaction that seizes from a frozen account takes the amount. -/
theorem FrozenWith.seizes
    {signers : List Address} {chain after : TokenChain}
    {mint destination authority freezer : Address} {amount decimals fee : Nat}
    (locked : FrozenWith crypto coin address balances chain)
    (different : destination ≠ address)
    (performs : PerformsAll crypto coin signers chain
      (coinInstructions
        [.token (.thawAccount address mint freezer),
          .token (.transferCheckedWithFee address mint destination authority
            amount decimals fee),
          .token (.freezeAccount address mint freezer)])
      after) :
    amount ≤ balances .spendable ∧
      FrozenWith crypto coin address
        (Function.update balances .spendable (balances .spendable - amount))
        after := by
  obtain ⟨between, seizes, last⟩ := performs.append_inv
  obtain ⟨enough, next⟩ := locked.seized different seizes
  refine ⟨enough, next.performsAll (fun instruction member => ?_) last⟩
  rw [List.mem_singleton.mp member]
  exact ⟨id, fun _ _ same => by cases same⟩

/-- A seizure that is called for while the account is frozen takes the amount,
or it fails and takes nothing. -/
theorem FrozenWith.seize
    (contract : CoinContract C crypto coin fun event => event.Spares address)
    {destination : Address} {freezeAuthority permanentDelegate : Keypair}
    {amount : Nat} {world : World C}
    (locked :
      FrozenWith crypto coin address balances (C.tokenChain world.state))
    (different : destination ≠ address) :
    Flow.Ensures
      (LibraryCall.seize address destination freezeAuthority permanentDelegate
        amount : LibraryCall crypto).run world fun outcome reached =>
      let taken := (LibraryCall.seize address destination freezeAuthority
        permanentDelegate amount : LibraryCall crypto).taken address outcome
      taken ≤ balances .spendable ∧
        FrozenWith crypto coin address
          (Function.update balances .spendable (balances .spendable - taken))
          (C.tokenChain reached.state) := by
  have nothing : Function.update balances .spendable
      (balances .spendable - 0) = balances := by simp
  have unmoved : ∀ reached : World C,
      FrozenWith crypto coin address balances (C.tokenChain reached.state) →
        0 ≤ balances .spendable ∧
          FrozenWith crypto coin address
            (Function.update balances .spendable (balances .spendable - 0))
            (C.tokenChain reached.state) := by
    intro reached kept
    rw [nothing]
    exact ⟨Nat.zero_le _, kept⟩
  refine .bind (.bind (World.ensures_loadAccount (fun account loaded => ?_)
    fun _ => unmoved _ locked))
  refine .bind (World.ensures_loadMint (fun mint mintLoaded => ?_)
    fun _ => unmoved _ locked)
  refine .bind (.read ?_)
  refine .bind (.ofExcept (fun seizure planned => ?_)
    fun _ _ => unmoved _ locked)
  obtain ⟨fee, _, _, shape⟩ := Seizure.prepare_eq_ok planned
  have read : account.isFrozen = true := by
    obtain ⟨_, frozenAccount, _, here, frozen, _⟩ := locked
    have found := (TokenChain.accountOf_eq_some.mp here).1
    have same := tokenChain_loadAccount loaded
    unfold TokenChain.loadAccount at same
    rw [found] at same
    cases same
    exact frozen
  have spared : ∀ held : Compartment → Nat, ∀ before event after,
      FrozenWith crypto coin address held before → event.Spares address →
        CoinStep crypto coin before event after →
          FrozenWith crypto coin address held after :=
    fun _ _ _ _ locked spares step => locked.spared spares step
  have before := (contract.before world.state seizure.instructions
    seizure.signers).keep locked (spared balances)
  have after := contract.after world.state seizure.instructions
    seizure.signers
  rcases shape with ⟨_, instructions, _⟩ | ⟨unfrozen, _⟩
  · refine .bind (World.ensures_send (fun receipt landed => .pure (.pure ?_))
      fun error failed => unmoved _ ?_)
    · have performs := contract.landed _ _ _ _ landed
      rw [congrArg coinInstructions instructions] at performs
      obtain ⟨enough, seized⟩ := before.seizes different performs
      have next := after.keep seized (spared _)
      simp only [LibraryCall.taken, if_true]
      exact ⟨enough, next⟩
    · rw [contract.not_landed _ _ _ _ failed] at after
      exact after.keep before (spared balances)
  · rw [read] at unfrozen
    cases unfrozen

/-- A seizure from the account at an address, to another account. -/
def LibraryCall.SeizesFrom (address : Address) : LibraryCall crypto → Prop
  | seize source destination _ _ _ =>
      source = address ∧ destination ≠ address
  | _ => False

/-- A call that spares a frozen account or seizes from it leaves what it has
not taken. -/
theorem FrozenWith.call
    (contract : CoinContract C crypto coin fun event => event.Spares address)
    {call : LibraryCall crypto} {world : World C}
    (locked :
      FrozenWith crypto coin address balances (C.tokenChain world.state))
    (sound : call.Spares address ∨ call.SeizesFrom address) :
    Flow.Ensures call.run world fun outcome reached =>
      call.taken address outcome ≤ balances .spendable ∧
        FrozenWith crypto coin address
          (Function.update balances .spendable
            (balances .spendable - call.taken address outcome))
          (C.tokenChain reached.state) := by
  rcases sound with spares | seizes
  · refine (call.submits_run world).mono fun outcome reached ⟨submits, _⟩ => ?_
    have nothing : call.taken address outcome = 0 := by
      cases call with
      | seize =>
          cases outcome with
          | ok => exact if_neg spares
          | error => rfl
      | _ => rfl
    rw [nothing, Nat.sub_zero, Function.update_eq_self]
    refine ⟨Nat.zero_le _, locked.submits contract submits ?_⟩
    intro transaction signers posted
    rcases posted.carried with none | carries
    · simp [none]
    · exact spares.carries carries
  · cases call with
    | seize source destination freezeAuthority permanentDelegate amount =>
        obtain ⟨rfl, different⟩ := seizes
        exact locked.seize contract different
    | _ => exact absurd seizes id

/-- Calls that spare a frozen account or seize from it leave what they have not
taken. -/
theorem FrozenWith.calls
    (contract : CoinContract C crypto coin fun event => event.Spares address)
    {calls : List (LibraryCall crypto)} {world : World C}
    (locked :
      FrozenWith crypto coin address balances (C.tokenChain world.state))
    (sound : ∀ call ∈ calls, call.Spares address ∨ call.SeizesFrom address) :
    let seized := ((LibraryCall.outcomes world calls).map fun made =>
      made.1.taken address made.2).sum
    seized ≤ balances .spendable ∧
      FrozenWith crypto coin address
        (Function.update balances .spendable (balances .spendable - seized))
        (C.tokenChain (LibraryCall.runAll world calls).state) := by
  induction calls generalizing world balances with
  | nil => simpa [LibraryCall.outcomes, LibraryCall.runAll] using locked
  | cons call rest inductionHypothesis =>
      obtain ⟨enough, next⟩ := (locked.call contract
        (sound call List.mem_cons_self)).holds
      obtain ⟨more, last⟩ := inductionHypothesis next
        fun other member => sound other (List.mem_cons_of_mem _ member)
      rw [Function.update_self] at more
      rw [Function.update_self, Function.update_idem] at last
      simp only [LibraryCall.outcomes, List.map_cons, List.sum_cons]
      refine ⟨by omega, ?_⟩
      rw [Nat.sub_sub] at last
      exact last

end Seizing

/-- Once an account is frozen, what can be spent there goes to seizures for
other accounts and nowhere else, whatever the owner or anybody else does that
neither thaws the account nor closes it: it falls by what successful seizures
were asked for, and what is pending or available stays.  The account is frozen
after each seizure. -/
theorem frozen_money_is_only_seized
    (C : Cluster) (crypto : Crypto) (coin : Coin) (address : Address)
    (contract : CoinContract C crypto coin fun event => event.Spares address)
    (state : C.State) {purses : Purse →₀ Nat} {account : AccountSnapshot}
    (backed : Backed crypto coin purses (C.tokenChain state))
    (here : (C.tokenChain state).accountOf coin.mint address = some account)
    (frozen : account.isFrozen = true)
    (calls : List (LibraryCall crypto)) (drawn : Nat)
    (sound : ∀ call ∈ calls, call.Spares address ∨ call.SeizesFrom address) :
    let world : World C := World.initial state drawn
    let chain := C.tokenChain (LibraryCall.runAll world calls).state
    let seized := ((LibraryCall.outcomes world calls).map fun made =>
      made.1.taken address made.2).sum
    ∃ left kept, Backed crypto coin left chain ∧
      chain.accountOf coin.mint address = some kept ∧ kept.isFrozen = true ∧
      held left address .spendable + seized = held purses address .spendable ∧
      held left address .pending = held purses address .pending ∧
      held left address .available = held purses address .available := by
  have start : FrozenWith crypto coin address (held purses address)
      (C.tokenChain (World.initial state drawn : World C).state) :=
    ⟨purses, account, backed, here, frozen, fun _ _ => rfl⟩
  obtain ⟨enough, left, kept, next, found, stays, rest⟩ :=
    start.calls contract sound
  have spendable := rest .spendable (by simp)
  have pending := rest .pending (by simp)
  have available := rest .available (by simp)
  rw [Function.update_self] at spendable
  rw [Function.update_of_ne (by simp)] at pending available
  exact ⟨left, kept, next, found, stays, by omega, pending, available⟩

/-- The owner does not get anything out, and the issuer seizes some of it. -/
theorem a_seizure_takes_what_is_asked :
    let calls : List (LibraryCall Transparent.crypto) :=
      [.transferWithFee Coining.holder Coining.treasury Coining.owner 5,
        .seize Coining.holder Coining.treasury Busy.freezeAuthority
          Busy.seizureAuthority 25]
    let world : World Coining.cluster :=
      World.initial (.ongoing (fun _ => none) Coining.freezing) 0
    let chain := Coining.cluster.tokenChain
      (LibraryCall.runAll world calls).state
    let seized := ((LibraryCall.outcomes world calls).map fun made =>
      made.1.taken Coining.holder made.2).sum
    seized = 25 ∧
      ∃ left kept, Backed Transparent.crypto Coining.token left chain ∧
        chain.accountOf Busy.stablecoin Coining.holder = some kept ∧
        kept.isFrozen = true ∧
        held left Coining.holder .spendable + seized =
          held Coining.purses Coining.holder .spendable ∧
        held left Coining.holder .pending =
          held Coining.purses Coining.holder .pending ∧
        held left Coining.holder .available =
          held Coining.purses Coining.holder .available := by
  refine ⟨by decide, ?_⟩
  refine frozen_money_is_only_seized Coining.cluster Transparent.crypto
    Coining.token Coining.holder (Coining.contract ?_)
    (.ongoing (fun _ => none) Coining.freezing) Coining.backed_freezing
    Coining.accountOf_holder rfl _ 0 ?_
  · intro instruction member
    simp only [List.mem_cons, List.not_mem_nil, or_false] at member
    rcases member with rfl | rfl | rfl
    · exact ⟨id, fun _ _ same => by cases same⟩
    · exact ⟨id, fun _ _ same => by cases same⟩
    · exact ⟨id, fun _ _ same => by cases same⟩
  · intro call member
    simp only [List.mem_cons, List.not_mem_nil, or_false] at member
    rcases member with rfl | rfl
    · exact .inl trivial
    · exact .inr ⟨rfl, by decide⟩

end Remit
