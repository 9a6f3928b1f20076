import Remit.Coin.Calls
import Remit.Coin.Coining
import Remit.Coin.Mints
import Remit.Kyc.Controls

/-!
# Decisions about accounts

Whether an account is frozen, and how new accounts start, is what the freeze
authority has decided, and nothing else: each transaction that lands makes the
decisions that its instructions say, and others make none without the key.
-/

namespace Remit

set_option maxRecDepth 2000

open Flows Flow Purses Runs

/-- The controls of a coin, as far as they concern the account at an
address. -/
def Coin.controls (coin : Coin) (address : Address) (chain : TokenChain) :
    Controls where
  default := (chain.mints coin.mint).bind (·.defaultAccountState)
  frozen := (chain.accountOf coin.mint address).map (·.isFrozen)

/-- What an instruction decides about a mint and about an account of it. -/
def TokenInstruction.decisions (mint address : Address) :
    TokenInstruction → List ControlEvent
  | thawAccount account ofMint _ =>
      if account = address ∧ ofMint = mint then [.clear] else []
  | freezeAccount account ofMint _ =>
      if account = address ∧ ofMint = mint then [.revoke] else []
  | updateDefaultAccountState changed _ state =>
      if changed = mint then [.policy state] else []
  | _ => []

def CoinInstruction.decisions (mint address : Address) :
    CoinInstruction → List ControlEvent
  | instruct instruction => instruction.decisions mint address
  | _ => []

/-- There is a mint, whose freeze authority is known. -/
def Governed (coin : Coin) (freezer : Address) (chain : TokenChain) : Prop :=
  ∃ mint, chain.mints coin.mint = some mint ∧
    mint.freezeAuthority = some freezer

section Deciding

variable {crypto : Crypto} {coin : Coin} {freezer address : Address}
  {signers : List Address} {chain later : TokenChain}
  {instruction : CoinInstruction}

/-- An account may have been opened or closed, and nothing was decided. -/
theorem controlled_of_quiet
    {toggled approving closed mintClosed : Prop} {hands : AuthorityType → Prop}
    {sets : AccountState → Prop}
    (governed : Governed coin freezer chain)
    (account : AccountStep coin signers chain toggled approving closed
      (chain.accountOf coin.mint address) (later.accountOf coin.mint address))
    (untoggled : toggled → chain.accountOf coin.mint address = none)
    (mint : MintStep signers hands sets mintClosed (chain.mints coin.mint)
      (later.mints coin.mint))
    (stays : ¬ mintClosed) (unset : ∀ state, ¬ sets state) :
    Controlled (coin.controls address chain) []
      (coin.controls address later) := by
  obtain ⟨state, found, _⟩ := governed
  have default : (later.mints coin.mint).bind (·.defaultAccountState) =
      (chain.mints coin.mint).bind (·.defaultAccountState) := by
    generalize chain.mints coin.mint = was at mint found ⊢
    generalize later.mints coin.mint = is at mint ⊢
    cases mint with
    | absent => cases found
    | created => cases found
    | closed closed => exact absurd closed stays
    | kept rules =>
        rcases rules.state with same | ⟨_, ⟨next, set, _⟩, _⟩
        · exact same
        · exact absurd set (unset next)
  unfold Coin.controls
  rw [default]
  generalize chain.accountOf coin.mint address = was at account untoggled ⊢
  generalize later.accountOf coin.mint address = is at account ⊢
  cases account with
  | absent => exact .refl _
  | closed closed => exact .of_step (.closing _ _)
  | @opened account mint mintFound opens =>
      rw [found] at mintFound
      cases mintFound
      have opening := Controlled.of_step
        (.opening ((chain.mints coin.mint).bind (·.defaultAccountState)))
      have frozen : account.isFrozen =
          decide (((chain.mints coin.mint).bind
            (·.defaultAccountState)).getD .initialized = .frozen) := by
        unfold AccountSnapshot.isFrozen
        rw [opens.state, found]
        rfl
      rw [Option.map_some, frozen]
      exact opening
  | kept rules =>
      rcases rules.state with same | ⟨toggled, _⟩
      · have frozen : ∀ {before after : AccountSnapshot},
            after.state = before.state → after.isFrozen = before.isFrozen := by
          intro before after same
          unfold AccountSnapshot.isFrozen
          rw [same]
        rw [Option.map_some, Option.map_some, frozen same]
        exact .refl _
      · cases untoggled toggled

/-- A thaw or a freeze is decided by the freeze authority. -/
theorem controlled_toggleFreeze
    {account mint authority : Address} {freeze : Bool}
    (toggled :
      chain.toggleFreeze signers account mint authority freeze = some later) :
    Controlled (coin.controls address chain)
      (if account = address ∧ mint = coin.mint then
        [if freeze then .revoke else .clear] else [])
      (coin.controls address later) := by
  obtain ⟨before, found, frozen, ofMint, rfl⟩ :=
    TokenChain.toggleFreeze_eq_some toggled
  unfold Coin.controls
  rw [TokenChain.setAccount_mints]
  by_cases here : account = address
  · subst here
    rw [TokenChain.accountOf_setAccount_self]
    unfold TokenChain.accountOf
    rw [found]
    generalize toggles : { before with
      state := if freeze then .frozen else .initialized } = after
    have sameMint : after.mint = before.mint := by rw [← toggles]
    have isFrozen : after.isFrozen = freeze := by
      rw [← toggles]
      cases freeze with
      | true => rfl
      | false => rfl
    by_cases own : mint = coin.mint
    · have ofCoin : before.mint = coin.mint := ofMint.trans own
      rw [if_pos ⟨rfl, own⟩, TokenChain.accountOf_of_mint ofCoin,
        TokenChain.accountOf_of_mint (sameMint.trans ofCoin), Option.map_some,
        Option.map_some, frozen, isFrozen]
      cases freeze with
      | true => exact .of_step (.revoke _)
      | false => exact .of_step (.clear _)
    · have foreign : before.mint ≠ coin.mint := ofMint ▸ own
      rw [if_neg fun both => own both.2,
        TokenChain.accountOf_of_foreign foreign,
        TokenChain.accountOf_of_foreign (sameMint ▸ foreign)]
      exact .refl _
  · rw [if_neg fun both => here both.1,
      TokenChain.accountOf_setAccount_of_ne (Ne.symm here)]
    exact .refl _

theorem controlled_updateDefaultAccountState
    {mint authority : Address} {state : AccountState}
    (updated :
      chain.updateDefaultAccountState signers mint authority state =
        some later) :
    Controlled (coin.controls address chain)
      (if mint = coin.mint then [.policy state] else [])
      (coin.controls address later) := by
  obtain ⟨before, after, found, changes, rfl⟩ :=
    TokenChain.changeMint_eq_some updated
  obtain ⟨⟨has, _⟩, same⟩ := Option.ite_none_right_eq_some.mp changes
  cases same
  unfold Coin.controls
  by_cases own : mint = coin.mint
  · subst own
    obtain ⟨was, isDefault⟩ := Option.isSome_iff_exists.mp has
    rw [if_pos rfl, TokenChain.setMint_self, found, Option.bind_some,
      Option.bind_some, isDefault]
    exact .of_step (.policy was state _)
  · rw [if_neg own, TokenChain.setMint_of_ne (Ne.symm own)]
    exact .refl _

variable (address) in
/-- An instruction decides what it says, and nothing else. -/
theorem Performs.controlled
    (performs : Performs crypto coin signers chain instruction later)
    (governed : Governed coin freezer chain)
    (stays : ¬ instruction.Closes coin.mint) :
    Controlled (coin.controls address chain)
      (instruction.decisions coin.mint address)
      (coin.controls address later) := by
  have quiet : ¬ instruction.Toggles address →
      (∀ state, ¬ instruction.Sets coin.mint state) →
        Controlled (coin.controls address chain) []
          (coin.controls address later) :=
    fun untoggled unset => controlled_of_quiet governed
      (performs.accounts address) (fun toggled => absurd toggled untoggled)
      performs.mint stays unset
  cases instruction with
  | instruct instruction =>
      cases instruction with
      | thawAccount =>
          exact controlled_toggleFreeze (performs.of_public rfl)
      | freezeAccount =>
          exact controlled_toggleFreeze (performs.of_public rfl)
      | updateDefaultAccountState mint authority state =>
          cases performs with
          | perform performed =>
              exact controlled_updateDefaultAccountState performed
          | confide confides => cases confides
          | foreign confides => cases confides
      | _ => exact quiet (fun toggled => by cases toggled) fun _ set => set
  | _ => exact quiet (fun toggled => toggled) fun _ set => set

/-- Whoever decides has the key of the freeze authority. -/
theorem Performs.decided
    (performs : Performs crypto coin signers chain instruction later)
    (governed : Governed coin freezer chain) (unsigned : freezer ∉ signers) :
    instruction.decisions coin.mint address = [] := by
  obtain ⟨state, found, isFreezer⟩ := governed
  have toggled : ∀ {account mint authority : Address} {freeze : Bool},
      chain.toggleFreeze signers account mint authority freeze = some later →
        ¬ (account = address ∧ mint = coin.mint) := by
    rintro account mint authority freeze toggles ⟨_, rfl⟩
    obtain ⟨other, otherFound, holds, signed⟩ :=
      TokenChain.toggleFreeze_signed toggles
    rw [found] at otherFound
    cases otherFound
    rw [isFreezer] at holds
    cases holds
    exact unsigned signed
  cases instruction with
  | instruct instruction =>
      cases instruction with
      | thawAccount => exact if_neg (toggled (performs.of_public rfl))
      | freezeAccount => exact if_neg (toggled (performs.of_public rfl))
      | updateDefaultAccountState mint authority state =>
          refine if_neg ?_
          rintro rfl
          cases performs with
          | confide confides => cases confides
          | foreign confides => cases confides
          | perform performed =>
              obtain ⟨before, after, beforeFound, changes, _⟩ :=
                TokenChain.changeMint_eq_some performed
              obtain ⟨⟨_, _, holds, signed⟩, _⟩ :=
                Option.ite_none_right_eq_some.mp changes
              rw [found] at beforeFound
              cases beforeFound
              rw [isFreezer] at holds
              cases holds
              exact unsigned signed
      | _ => rfl
  | _ => rfl

/-- The freeze authority stays where it does not hand its power on. -/
theorem Performs.governed
    (performs : Performs crypto coin signers chain instruction later)
    (governed : Governed coin freezer chain)
    (stays : ¬ instruction.Closes coin.mint)
    (keeps : freezer ∈ signers → ¬ instruction.Hands coin.mint .freezeAccount) :
    Governed coin freezer later := by
  have holds : HeldBy coin .freezeAccount (some freezer) chain := governed
  have held := performs.heldBy holds stays fun key signed isHolder => by
    cases isHolder
    exact keeps signed
  exact held

/-- An instruction that neither closes a mint nor hands its freeze authority
on. -/
def CoinInstruction.LeavesMint (mint : Address)
    (instruction : CoinInstruction) : Prop :=
  ¬ instruction.Closes mint ∧ ¬ instruction.Hands mint .freezeAccount

variable {instructions : List CoinInstruction}

variable (address) in
/-- So does a transaction. -/
theorem PerformsAll.controlled
    (performs : PerformsAll crypto coin signers chain instructions later)
    (governed : Governed coin freezer chain)
    (leaves : ∀ instruction ∈ instructions,
      instruction.LeavesMint coin.mint) :
    Controlled (coin.controls address chain)
        (instructions.flatMap (·.decisions coin.mint address))
        (coin.controls address later) ∧
      Governed coin freezer later := by
  induction performs with
  | nil => exact ⟨.refl _, governed⟩
  | cons first _ inductionHypothesis =>
      obtain ⟨stays, keeps⟩ := leaves _ List.mem_cons_self
      obtain ⟨rest, last⟩ := inductionHypothesis
        (first.governed governed stays fun _ => keeps) fun other member =>
          leaves other (List.mem_cons_of_mem _ member)
      exact ⟨(first.controlled address governed stays).trans rest, last⟩

variable (address) in
/-- A transaction without the key of the freeze authority decides nothing. -/
theorem PerformsAll.undecided
    (performs : PerformsAll crypto coin signers chain instructions later)
    (governed : Governed coin freezer chain) (unsigned : freezer ∉ signers)
    (stays : ∀ instruction ∈ instructions, ¬ instruction.Closes coin.mint) :
    Controlled (coin.controls address chain) [] (coin.controls address later) ∧
      Governed coin freezer later := by
  induction performs with
  | nil => exact ⟨.refl _, governed⟩
  | cons first _ inductionHypothesis =>
      have open_ := stays _ List.mem_cons_self
      have step := first.controlled address governed open_
      rw [first.decided governed unsigned] at step
      obtain ⟨rest, last⟩ := inductionHypothesis
        (first.governed governed open_ fun signed => absurd signed unsigned)
        fun other member => stays other (List.mem_cons_of_mem _ member)
      exact ⟨step.trans rest, last⟩

/-- A transaction without the key of the freeze authority that does not close
the mint, or an epoch that begins. -/
def CoinEvent.LeavesDecisions (freezer mint : Address) : CoinEvent → Prop
  | transact signers instructions =>
      freezer ∉ signers ∧
        ∀ instruction ∈ instructions, ¬ instruction.Closes mint
  | begin _ => True

/-- What a transaction that was sent has decided about a mint and about an
account of it. -/
def Sent.decisions {State : Type} (mint address : Address)
    (one : Sent State) : List ControlEvent :=
  if one.landed then
    (tokenInstructions one.transaction).flatMap (·.decisions mint address)
  else []

theorem decisions_coinInstructions (transaction : List Instruction)
    (mint : Address) :
    (coinInstructions transaction).flatMap (·.decisions mint address) =
      (tokenInstructions transaction).flatMap (·.decisions mint address) := by
  unfold coinInstructions
  rw [List.flatMap_append, List.flatMap_map]
  exact List.append_nil _

variable (address) in
/-- Between the transactions that were sent nothing was decided. -/
theorem CoinContract.controlled
    {C : Cluster}
    (contract :
      CoinContract C crypto coin (·.LeavesDecisions freezer coin.mint))
    {state reached : C.State} {sent : List (Sent C.State)}
    (chained : Chained C state sent reached)
    (governed : Governed coin freezer (C.tokenChain state))
    (leaves : ∀ one ∈ sent,
      ∀ instruction ∈ coinInstructions one.transaction,
        instruction.LeavesMint coin.mint) :
    Controlled (coin.controls address (C.tokenChain state))
        (sent.flatMap (·.decisions coin.mint address))
        (coin.controls address (C.tokenChain reached)) ∧
      Governed coin freezer (C.tokenChain reached) := by
  have made := contract.accumulates
    (fun events chain later => Governed coin freezer chain →
      Controlled (coin.controls address chain) events
          (coin.controls address later) ∧
        Governed coin freezer later)
    (·.decisions coin.mint address)
    (fun chain governed => ⟨.refl _, governed⟩)
    (fun first second governed => by
      obtain ⟨decided, held⟩ := first governed
      obtain ⟨decidedOn, heldOn⟩ := second held
      exact ⟨decided.trans decidedOn, heldOn⟩)
    (fun leaves step governed => by
      cases step with
      | transact performs =>
          exact performs.undecided address governed leaves.1 leaves.2
      | begin => exact ⟨.refl _, governed⟩)
    (fun one failed => by
      unfold Sent.decisions
      rw [failed]
      rfl)
    chained fun one member landed before after performs governed => by
      have decided := performs.controlled address governed (leaves one member)
      rw [decisions_coinInstructions] at decided
      unfold Sent.decisions
      rw [landed]
      exact decided
  exact made governed

end Deciding

/-! ## The calls that decide -/

section Calls

variable {crypto : Crypto} {mint address : Address}

/-- What a call decides when it lands. -/
def LibraryCall.decisions (mint address : Address) :
    LibraryCall crypto → List ControlEvent
  | approveKyc account _ => if account = address then [.clear] else []
  | revokeKyc account _ => if account = address then [.revoke] else []
  | seize source _ _ _ _ => if source = address then [.clear, .revoke] else []
  | setDefaultAccountState changed _ state =>
      if changed = mint then [.policy state] else []
  | _ => []

theorem TokenInstruction.Ordinary.decisions
    {instruction : TokenInstruction} (ordinary : instruction.Ordinary) :
    instruction.decisions mint address = [] := by
  cases instruction with
  | thawAccount | freezeAccount | updateDefaultAccountState => cases ordinary
  | _ => rfl

/-- A call carries its decisions, or none. -/
theorem LibraryCall.Carries.decisions
    {call : LibraryCall crypto} {payer : Address}
    {carried : List TokenInstruction} (carries : call.Carries payer carried) :
    carried.flatMap (·.decisions mint address) = [] ∨
      carried.flatMap (·.decisions mint address) =
        call.decisions mint address := by
  cases call with
  | closeMint =>
      obtain rfl := carries
      exact .inl rfl
  | setDefaultAccountState =>
      obtain rfl := carries
      exact .inr (List.append_nil _)
  | approveKyc | revokeKyc =>
      obtain ⟨ofMint, rfl⟩ := carries
      by_cases own : ofMint = mint
      · simp [TokenInstruction.decisions, LibraryCall.decisions, own]
      · simp [TokenInstruction.decisions, own]
  | seize source =>
      obtain ⟨ofMint, _, _, rfl | rfl⟩ := carries
      · exact .inl rfl
      · by_cases own : ofMint = mint
        · by_cases here : source = address
          · simp [TokenInstruction.decisions, LibraryCall.decisions, own, here]
          · simp [TokenInstruction.decisions, here]
        · simp [TokenInstruction.decisions, own]
  | _ =>
      refine .inl (List.flatMap_eq_nil_iff.mpr fun instruction member => ?_)
      refine (LibraryCall.Ordinary.carries ?_ carries instruction
        member).decisions
      trivial

/-- A call that does not close a mint. -/
def LibraryCall.LeavesMint (mint : Address) : LibraryCall crypto → Prop
  | closeMint closed _ _ => closed ≠ mint
  | _ => True

theorem TokenInstruction.Ordinary.leavesMint
    {instruction : TokenInstruction} (ordinary : instruction.Ordinary) :
    CoinInstruction.LeavesMint mint (.instruct instruction) := by
  cases instruction with
  | closeAccount | setAuthority => cases ordinary
  | _ => exact ⟨fun closed => closed, fun hands => hands⟩

theorem LibraryCall.LeavesMint.carries
    {call : LibraryCall crypto} {payer : Address}
    {carried : List TokenInstruction}
    (leaves : call.LeavesMint mint) (carries : call.Carries payer carried) :
    ∀ instruction ∈ carried,
      CoinInstruction.LeavesMint mint (.instruct instruction) := by
  intro instruction member
  cases call with
  | closeMint =>
      obtain rfl := carries
      rw [List.mem_singleton.mp member]
      exact ⟨leaves, fun hands => hands⟩
  | setDefaultAccountState =>
      obtain rfl := carries
      rw [List.mem_singleton.mp member]
      exact ⟨fun closed => closed, fun hands => hands⟩
  | approveKyc | revokeKyc =>
      obtain ⟨_, rfl⟩ := carries
      rw [List.mem_singleton.mp member]
      exact ⟨fun closed => closed, fun hands => hands⟩
  | seize =>
      obtain ⟨_, _, _, rfl | rfl⟩ := carries
      · rw [List.mem_singleton.mp member]
        exact ⟨fun closed => closed, fun hands => hands⟩
      · simp only [List.mem_cons, List.not_mem_nil, or_false] at member
        rcases member with rfl | rfl | rfl
        all_goals exact ⟨fun closed => closed, fun hands => hands⟩
  | _ =>
      refine (LibraryCall.Ordinary.carries ?_ carries instruction
        member).leavesMint
      trivial

/-- What a call posts leaves the mint. -/
theorem LibraryCall.LeavesMint.posts
    {C : Cluster} {call : LibraryCall crypto} {transaction : List Instruction}
    {signers : List Keypair}
    (leaves : call.LeavesMint mint)
    (posted : call.Posts C transaction signers) :
    ∀ instruction ∈ coinInstructions transaction,
      instruction.LeavesMint mint := by
  intro instruction member
  rcases List.mem_append.mp member with asked | last
  · obtain ⟨token, inside, rfl⟩ := List.mem_map.mp asked
    rcases posted.carried with none | carries
    · rw [none] at inside
      cases inside
    · exact leaves.carries carries token inside
  · rw [List.mem_singleton.mp last]
    exact ⟨fun closed => closed, fun hands => hands⟩

/-- What a call has decided when its transaction landed. -/
theorem LibraryCall.decisions_of_posts
    {C : Cluster} {call : LibraryCall crypto} {one : Sent C.State}
    (posted : call.Posts C one.transaction one.signers) :
    one.decisions mint address = [] ∨
      one.landed = true ∧
        one.decisions mint address = call.decisions mint address := by
  unfold Sent.decisions
  by_cases landed : one.landed = true
  · rw [if_pos landed]
    rcases posted.carried with none | carries
    · exact .inl (by rw [none]; rfl)
    · exact carries.decisions.imp_right fun same => ⟨landed, same⟩
  · exact .inl (if_neg landed)

theorem LibraryCall.policy_mem_decisions
    {call : LibraryCall crypto} {state : AccountState}
    (decides : .policy state ∈ call.decisions mint address) :
    ∃ key, call = .setDefaultAccountState mint key state := by
  cases call with
  | setDefaultAccountState changed key next =>
      rw [LibraryCall.decisions] at decides
      split at decides
      case isTrue own =>
          cases List.mem_singleton.mp decides
          exact ⟨key, by rw [own]⟩
      case isFalse => cases decides
  | approveKyc | revokeKyc =>
      rw [LibraryCall.decisions] at decides
      split at decides
      case isTrue => cases List.mem_singleton.mp decides
      case isFalse => cases decides
  | seize =>
      rw [LibraryCall.decisions] at decides
      split at decides
      case isTrue => simp at decides
      case isFalse => cases decides
  | _ => cases decides

/-- The only call that leaves an account cleared is the approval of it. -/
theorem LibraryCall.decisions_clear
    {call : LibraryCall crypto}
    (clears : ((call.decisions mint address).filter
      (·.isClearance)).getLast? = some .clear) :
    ∃ key, call = .approveKyc address key := by
  cases call with
  | approveKyc account key =>
      rw [LibraryCall.decisions] at clears
      split at clears
      case isTrue own => exact ⟨key, by rw [own]⟩
      case isFalse => cases clears
  | revokeKyc | seize | setDefaultAccountState =>
      rw [LibraryCall.decisions] at clears
      split at clears
      case isTrue => cases clears
      case isFalse => cases clears
  | _ => cases clears

/-- The approval that has cleared an account of the coin. -/
theorem LibraryCall.thaws_of_decisions
    {C : Cluster} {key : Keypair} {one : Sent C.State}
    (posted : (.approveKyc address key : LibraryCall crypto).Posts C
      one.transaction one.signers)
    (decided : one.decisions mint address ≠ []) :
    tokenInstructions one.transaction =
      [.thawAccount address mint key.pubkey] := by
  unfold Sent.decisions at decided
  split at decided
  case isFalse => exact absurd rfl decided
  case isTrue =>
      rcases posted.carried with none | ⟨ofMint, carried⟩
      · rw [none] at decided
        exact absurd rfl decided
      · have own : ofMint = mint := by
          by_contra foreign
          apply decided
          rw [carried]
          exact List.append_eq_nil_iff.mpr
            ⟨if_neg fun both => foreign both.2, rfl⟩
        rw [carried, own]

/-- What was decided by calls. -/
theorem LibraryCall.controlled_runAll
    {C : Cluster} {coin : Coin} {freezer : Address}
    (contract :
      CoinContract C crypto coin (·.LeavesDecisions freezer coin.mint))
    {state : C.State} (governed : Governed coin freezer (C.tokenChain state))
    {calls : List (LibraryCall crypto)} (drawn : Nat)
    (leaves : ∀ call ∈ calls, call.LeavesMint coin.mint) (address : Address) :
    Controlled (coin.controls address (C.tokenChain state))
      ((runAll (World.initial state drawn) calls).sent.flatMap
        (·.decisions coin.mint address))
      (coin.controls address
        (C.tokenChain (runAll (World.initial state drawn) calls).state)) := by
  obtain ⟨chained, posts⟩ := sent_runAll calls state drawn
  refine (contract.controlled address chained governed ?_).1
  intro one member
  obtain ⟨call, isCall, posted⟩ := posts one member
  exact (leaves call isCall).posts posted

end Calls

/-- For as long as the mint is not closed, whatever calls are made and whatever
others do without the key of the freeze authority: whether an account is frozen,
and how new accounts start, is what the transactions that landed have decided
one after another.  Approving and revoking KYC decide about their account and
setting the default about new accounts, a seizure clears and revokes at once,
and no other call decides anything. -/
theorem kyc_and_policy_are_separate_controls
    (C : Cluster) (crypto : Crypto) (coin : Coin) (freezer : Address)
    (contract :
      CoinContract C crypto coin (·.LeavesDecisions freezer coin.mint))
    (state : C.State) (governed : Governed coin freezer (C.tokenChain state))
    (calls : List (LibraryCall crypto)) (drawn : Nat)
    (leaves : ∀ call ∈ calls, call.LeavesMint coin.mint) (address : Address) :
    let reached :=
      LibraryCall.runAll (World.initial state drawn : World C) calls
    Controlled (coin.controls address (C.tokenChain state))
        (reached.sent.flatMap (·.decisions coin.mint address))
        (coin.controls address (C.tokenChain reached.state)) ∧
      ∀ one ∈ reached.sent, one.decisions coin.mint address = [] ∨
        one.landed = true ∧ ∃ call ∈ calls,
          one.decisions coin.mint address =
            call.decisions coin.mint address := by
  refine ⟨LibraryCall.controlled_runAll contract governed drawn leaves address,
    fun one member => ?_⟩
  obtain ⟨call, isCall, posted⟩ :=
    (LibraryCall.sent_runAll calls state drawn).2 one member
  exact (LibraryCall.decisions_of_posts posted).imp_right
    fun ⟨landed, same⟩ => ⟨landed, call, isCall, same⟩

namespace Coining

/-- Others bring the mint about when there is none, which decides nothing. -/
theorem birth_leavesDecisions :
    birth.LeavesDecisions Busy.freezeAuthority.pubkey Busy.stablecoin := by
  refine ⟨by decide, fun instruction member => ?_⟩
  simp only [List.mem_cons, List.not_mem_nil, or_false] at member
  rcases member with rfl | rfl | rfl
  all_goals exact fun closes => closes

theorem mints_freezing :
    freezing.chain.mints Busy.stablecoin =
      some { bornMint with
        supply := 100
        defaultAccountState := some .frozen } := by
  decide

theorem governed_freezing :
    Governed token Busy.freezeAuthority.pubkey freezing.chain :=
  ⟨_, mints_freezing, rfl⟩

end Coining

/-- The holder is cleared, the policy changes, and the holder is revoked. -/
theorem three_calls_decide :
    let calls : List (LibraryCall Transparent.crypto) :=
      [.approveKyc Coining.holder Busy.freezeAuthority,
        .setDefaultAccountState Busy.stablecoin Busy.freezeAuthority
          .initialized,
        .revokeKyc Coining.holder Busy.freezeAuthority]
    let reached := LibraryCall.runAll (World.initial
      (.ongoing (fun _ => none) Coining.freezing) 0 : World Coining.cluster)
        calls
    let made := reached.sent.flatMap
      (·.decisions Busy.stablecoin Coining.holder)
    made = [.clear, .policy .initialized, .revoke] ∧
      Controlled ⟨some .frozen, some true⟩ made
        ⟨some .initialized, some true⟩ := by
  have leaves : ∀ call : LibraryCall Transparent.crypto,
      call ∈ [.approveKyc Coining.holder Busy.freezeAuthority,
        .setDefaultAccountState Busy.stablecoin Busy.freezeAuthority
          .initialized,
        .revokeKyc Coining.holder Busy.freezeAuthority] →
      call.LeavesMint Busy.stablecoin := by
    intro call member
    simp only [List.mem_cons, List.not_mem_nil, or_false] at member
    rcases member with rfl | rfl | rfl
    all_goals trivial
  have controlled := (kyc_and_policy_are_separate_controls Coining.cluster
    Transparent.crypto Coining.token Busy.freezeAuthority.pubkey
    (Coining.contract Coining.birth_leavesDecisions)
    (.ongoing (fun _ => none) Coining.freezing) Coining.governed_freezing _ 0
    leaves Coining.holder).1
  have starts : Coining.token.controls Coining.holder
      Coining.freezing.chain = ⟨some .frozen, some true⟩ := by decide
  have ends : Coining.token.controls Coining.holder
      (Coining.cluster.tokenChain (LibraryCall.runAll (World.initial
        (.ongoing (fun _ => none) Coining.freezing) 0 : World Coining.cluster)
        [(.approveKyc Coining.holder Busy.freezeAuthority :
            LibraryCall Transparent.crypto),
          .setDefaultAccountState Busy.stablecoin Busy.freezeAuthority
            .initialized,
          .revokeKyc Coining.holder Busy.freezeAuthority]).state) =
        ⟨some .initialized, some true⟩ := by decide
  rw [Coining.tokenChain_eq] at controlled
  refine ⟨by decide, ?_⟩
  rw [← starts, ← ends]
  exact controlled

/-- Where new accounts start frozen and no call says otherwise or closes the
mint, an account that is not frozen in the end was there and not frozen in the
beginning, or the transaction with which `approveKyc` thaws it has landed. -/
theorem only_the_approved_are_thawed
    (C : Cluster) (crypto : Crypto) (coin : Coin) (freezer : Address)
    (contract :
      CoinContract C crypto coin (·.LeavesDecisions freezer coin.mint))
    (state : C.State) (governed : Governed coin freezer (C.tokenChain state))
    (calls : List (LibraryCall crypto)) (drawn : Nat)
    (leaves : ∀ call ∈ calls, call.LeavesMint coin.mint)
    (frozen : ∀ mint, (C.tokenChain state).mints coin.mint = some mint →
      mint.defaultAccountState = some .frozen)
    (policy : ∀ key default,
      .setDefaultAccountState coin.mint key default ∈ calls →
        default = .frozen)
    {address : Address} {account : AccountSnapshot}
    (here : (C.tokenChain (LibraryCall.runAll
      (World.initial state drawn : World C) calls).state).accountOf coin.mint
        address = some account)
    (thawed : account.isFrozen = false) :
    (∃ before, (C.tokenChain state).accountOf coin.mint address = some before ∧
        before.isFrozen = false) ∨
      ∃ key, .approveKyc address key ∈ calls ∧
        ∃ one ∈ (LibraryCall.runAll (World.initial state drawn : World C)
            calls).sent,
          one.landed = true ∧
            (.approveKyc address key : LibraryCall crypto).Posts C
              one.transaction one.signers ∧
            tokenInstructions one.transaction =
              [.thawAccount address coin.mint key.pubkey] := by
  have controlled :=
    LibraryCall.controlled_runAll contract governed drawn leaves address
  have posts := (LibraryCall.sent_runAll calls state drawn).2
  obtain ⟨mint, found, _⟩ := governed
  have startsFrozen :
      (coin.controls address (C.tokenChain state)).default = some .frozen := by
    unfold Coin.controls
    rw [found]
    exact frozen mint found
  have endsThawed : (coin.controls address (C.tokenChain (LibraryCall.runAll
      (World.initial state drawn : World C) calls).state)).frozen =
        some false := by
    unfold Coin.controls
    rw [here, ← thawed]
    rfl
  have stays : ∀ default, .policy default ∈ (LibraryCall.runAll
      (World.initial state drawn : World C) calls).sent.flatMap
        (·.decisions coin.mint address) → default = .frozen := by
    intro default decided
    obtain ⟨one, member, decides⟩ := List.mem_flatMap.mp decided
    obtain ⟨call, isCall, posted⟩ := posts one member
    rcases LibraryCall.decisions_of_posts posted with none | ⟨_, same⟩
    · rw [none] at decides
      cases decides
    · rw [same] at decides
      obtain ⟨key, rfl⟩ := LibraryCall.policy_mem_decisions decides
      exact policy key default isCall
  rcases controlled.thawed startsFrozen stays endsThawed with
    clears | ⟨_, unfrozen⟩
  · obtain ⟨one, member, last⟩ := getLast?_flatMap_filter clears
    obtain ⟨call, isCall, posted⟩ := posts one member
    have decided : one.decisions coin.mint address ≠ [] := by
      intro none
      rw [none] at last
      cases last
    rcases LibraryCall.decisions_of_posts posted with none | ⟨landed, same⟩
    · exact absurd none decided
    · rw [same] at last
      obtain ⟨key, rfl⟩ := LibraryCall.decisions_clear last
      exact .inr ⟨key, isCall, one, member, landed, posted,
        LibraryCall.thaws_of_decisions posted decided⟩
  · exact .inl (Option.map_eq_some_iff.mp unfrozen)

/-- The holder was frozen and is thawed by the approval that has landed. -/
theorem an_approval_has_landed :
    let calls : List (LibraryCall Transparent.crypto) :=
      [.approveKyc Coining.holder Busy.freezeAuthority]
    let reached := LibraryCall.runAll (World.initial
      (.ongoing (fun _ => none) Coining.freezing) 0 : World Coining.cluster)
        calls
    ∃ key, .approveKyc Coining.holder key ∈ calls ∧
      ∃ one ∈ reached.sent, one.landed = true ∧
        (.approveKyc Coining.holder key :
          LibraryCall Transparent.crypto).Posts Coining.cluster
            one.transaction one.signers ∧
        tokenInstructions one.transaction =
          [.thawAccount Coining.holder Busy.stablecoin key.pubkey] := by
  have here : (Coining.cluster.tokenChain (LibraryCall.runAll (World.initial
      (.ongoing (fun _ => none) Coining.freezing) 0 : World Coining.cluster)
      [(.approveKyc Coining.holder Busy.freezeAuthority :
        LibraryCall Transparent.crypto)]).state).accountOf Busy.stablecoin
          Coining.holder =
        some { Coining.sanctioned with state := .initialized } := by
    decide
  have wasFrozen : Coining.freezing.chain.accountOf Busy.stablecoin
      Coining.holder = some Coining.sanctioned := by decide
  have thawed := only_the_approved_are_thawed Coining.cluster Transparent.crypto
    Coining.token Busy.freezeAuthority.pubkey
    (Coining.contract Coining.birth_leavesDecisions)
    (.ongoing (fun _ => none) Coining.freezing) Coining.governed_freezing
    [.approveKyc Coining.holder Busy.freezeAuthority] 0
    (fun call member => by
      rw [List.mem_singleton.mp member]
      trivial)
    (fun mint found => by
      rw [Coining.tokenChain_eq] at found
      cases Coining.mints_freezing.symm.trans found
      rfl)
    (fun key default member => by cases List.mem_singleton.mp member) here rfl
  rcases thawed with ⟨before, found, unfrozen⟩ | approved
  · rw [Coining.tokenChain_eq] at found
    cases wasFrozen.symm.trans found
    cases unfrozen
  · exact approved

end Remit
