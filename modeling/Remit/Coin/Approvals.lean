import Remit.Coin.Kyc
import Remit.Coin.Powers

/-!
# Approved accounts

An account that is configured for confidential transfers keeps its key, and once
it is approved it stays approved.  It is approved by the calls that say so and
by nothing else, for as long as others do not have the key for that.
-/

namespace Remit

set_option maxRecDepth 2000

open Flows Flow Runs

/-- The account is configured with a key, and approved or not. -/
def Enabled (coin : Coin) (address : Address) (key : PodElGamalPubkey)
    (approved : Bool) (chain : TokenChain) : Prop :=
  ∃ account state, chain.accountOf coin.mint address = some account ∧
    account.confidential = some state ∧ state.elgamalPubkey = key ∧
    state.approved = approved

/-- Whoever approves accounts, if anybody. -/
abbrev ApprovedBy (coin : Coin) (approver : Address) : TokenChain → Prop :=
  HeldBy coin (.extension .confidentialTransferMint) (some approver)

section Steps

variable {crypto : Crypto} {coin : Coin} {signers : List Address}
  {chain later : TokenChain} {address approver : Address}
  {key : PodElGamalPubkey} {approved : Bool}

/-- The authority that is known has signed. -/
theorem ApproverSigns.mem
    (signs : ApproverSigns coin signers chain)
    (held : ApprovedBy coin approver chain) : approver ∈ signers := by
  obtain ⟨mint, policy, authority, found, present, isAuthority, signed⟩ := signs
  obtain ⟨state, stateFound, isHolder⟩ := held
  rw [found] at stateFound
  cases stateFound
  have same : mint.confidential.bind (·.authority) = some approver := isHolder
  rw [present] at same
  cases isAuthority.symm.trans same
  exact signed

/-- An approval that is carried out. -/
theorem Enabled.approving
    {mint authority : Address}
    (enabled : Enabled coin address key approved chain)
    (performed :
      chain.approveConfidential signers address mint authority =
        some later) :
    Enabled coin address key true later := by
  obtain ⟨account, state, here, configured, isKey, _⟩ := enabled
  obtain ⟨other, _, confidential, _, found, _, present, _, _, _, _, rfl⟩ :=
    TokenChain.approveConfidential_eq_some performed
  obtain ⟨isAccount, ofMint⟩ := TokenChain.accountOf_eq_some.mp here
  obtain rfl := Option.some.inj (isAccount.symm.trans found)
  obtain rfl := Option.some.inj (configured.symm.trans present)
  refine ⟨account.withConfidential { state with approved := true }, _, ?_, rfl,
    isKey, rfl⟩
  rw [TokenChain.accountOf_setAccount_self]
  exact TokenChain.accountOf_of_mint ofMint

/-- Anything else leaves the key and the approval as they are. -/
theorem Enabled.performs
    {instruction : CoinInstruction}
    (enabled : Enabled coin address key approved chain)
    (performs : Performs crypto coin signers chain instruction later)
    (stays : ¬ instruction.Closes address)
    (other : ¬ instruction.Approves address) :
    Enabled coin address key approved later := by
  obtain ⟨account, state, here, configured, isKey, isApproved⟩ := enabled
  have step := performs.accounts address
  rw [here] at step
  unfold Enabled
  generalize later.accountOf coin.mint address = left at step ⊢
  cases step with
  | closed closed => exact absurd closed stays
  | @kept _ after rules =>
      obtain ⟨is, present, sameKey, same | ⟨_, approves, _⟩⟩ :=
        rules.key state configured
      · exact ⟨after, is, rfl, present, sameKey.trans isKey,
          same.trans isApproved⟩
      · exact absurd approves other

/-- Whoever approves an account has the key for that. -/
theorem Performs.approver_mem
    {instruction : CoinInstruction}
    (performs : Performs crypto coin signers chain instruction later)
    (approves : instruction.Approves address)
    (enabled : Enabled coin address key approved chain)
    (held : ApprovedBy coin approver chain) : approver ∈ signers := by
  cases instruction with
  | instruct instruction =>
      cases instruction with
      | approveAccount account mint authority =>
          obtain rfl : account = address := Option.some.inj approves
          cases performs with
          | confide confides => cases confides
          | foreign confides => cases confides
          | perform performed =>
              obtain ⟨account, state, here, _⟩ := enabled
              obtain ⟨other, mintState, _, policy, found, mintFound, _, present,
                ofMint, isAuthority, signed, _⟩ :=
                TokenChain.approveConfidential_eq_some performed
              obtain ⟨isAccount, own⟩ := TokenChain.accountOf_eq_some.mp here
              obtain rfl := Option.some.inj (isAccount.symm.trans found)
              rw [← ofMint, own] at mintFound
              exact ApproverSigns.mem
                ⟨mintState, policy, authority, mintFound, present, isAuthority,
                  signed⟩ held
      | _ => cases approves
  | _ => cases approves


/-! ## Transactions -/

/-- Whether there was something before, in a list or in another one. -/
theorem or_some_append (before : Bool) (first second : List TokenInstruction) :
    (before || !(first ++ second).isEmpty) =
      ((before || !first.isEmpty) || !second.isEmpty) := by
  cases first with
  | nil => simp
  | cons => simp

/-- What an instruction does to approve an account. -/
def CoinInstruction.approvals (address : Address) :
    CoinInstruction → List TokenInstruction
  | instruct instruction =>
      if instruction.approvedAccount = some address then [instruction] else []
  | _ => []

theorem CoinInstruction.approvals_eq_nil {instruction : CoinInstruction} :
    instruction.approvals address = [] ↔ ¬ instruction.Approves address := by
  cases instruction with
  | instruct instruction =>
      unfold approvals Approves
      by_cases approves : instruction.approvedAccount = some address
      · simp [approves]
      · simp [approves]
  | _ => exact ⟨fun _ approves => approves, fun _ => rfl⟩

/-- An instruction approves the account, or leaves it as it is. -/
theorem Performs.enabled
    {instruction : CoinInstruction}
    (performs : Performs crypto coin signers chain instruction later)
    (enabled : Enabled coin address key approved chain)
    (stays : ¬ instruction.Closes address) :
    Enabled coin address key
      (approved || !(instruction.approvals address).isEmpty) later := by
  by_cases approves : instruction.Approves address
  · have some : (instruction.approvals address).isEmpty = false := by
      rw [List.isEmpty_eq_false_iff]
      exact fun none => CoinInstruction.approvals_eq_nil.mp none approves
    rw [some, Bool.not_false, Bool.or_true]
    cases instruction with
    | instruct instruction =>
        cases instruction with
        | approveAccount account mint authority =>
            obtain rfl : account = address := Option.some.inj approves
            cases performs with
            | confide confides => cases confides
            | foreign confides => cases confides
            | perform performed => exact enabled.approving performed
        | _ => cases approves
    | _ => cases approves
  · rw [CoinInstruction.approvals_eq_nil.mpr approves, List.isEmpty_nil,
      Bool.not_true, Bool.or_false]
    exact enabled.performs performs stays approves

variable {instructions : List CoinInstruction}

/-- So does a transaction. -/
theorem PerformsAll.enabled
    (performs : PerformsAll crypto coin signers chain instructions later)
    (enabled : Enabled coin address key approved chain)
    (stays : ∀ instruction ∈ instructions, ¬ instruction.Closes address) :
    Enabled coin address key
      (approved || !(instructions.flatMap (·.approvals address)).isEmpty)
      later := by
  induction performs generalizing approved with
  | nil =>
      rw [List.flatMap_nil, List.isEmpty_nil, Bool.not_true, Bool.or_false]
      exact enabled
  | cons first _ inductionHypothesis =>
      have rest := inductionHypothesis
        (first.enabled enabled (stays _ List.mem_cons_self))
        fun other member => stays other (List.mem_cons_of_mem _ member)
      rw [List.flatMap_cons, or_some_append]
      exact rest

/-- A transaction without the key that approves accounts approves nothing. -/
theorem PerformsAll.unapproved
    (performs : PerformsAll crypto coin signers chain instructions later)
    (enabled : Enabled coin address key approved chain)
    (held : ApprovedBy coin approver chain) (unsigned : approver ∉ signers)
    (stays : ∀ instruction ∈ instructions,
      ¬ instruction.Closes coin.mint ∧ ¬ instruction.Closes address) :
    Enabled coin address key approved later ∧
      ApprovedBy coin approver later := by
  induction performs with
  | nil => exact ⟨enabled, held⟩
  | cons first _ inductionHypothesis =>
      obtain ⟨mintStays, accountStays⟩ := stays _ List.mem_cons_self
      have other := fun approves =>
        unsigned (first.approver_mem approves enabled held)
      refine inductionHypothesis (enabled.performs first accountStays other)
        (first.heldBy held mintStays fun signer signed isHolder => ?_)
        fun other member => stays other (List.mem_cons_of_mem _ member)
      cases isHolder
      exact absurd signed unsigned

end Steps

/-- A transaction without the key that approves accounts that closes neither the
mint nor the account, or an epoch that begins. -/
def CoinEvent.LeavesApprovals (approver mint address : Address) :
    CoinEvent → Prop
  | transact signers instructions =>
      approver ∉ signers ∧ ∀ instruction ∈ instructions,
        ¬ instruction.Closes mint ∧ ¬ instruction.Closes address
  | begin _ => True

/-- What a transaction that was sent did to approve an account. -/
def Sent.approvals {State : Type} (address : Address) (one : Sent State) :
    List TokenInstruction :=
  if one.landed then
    (coinInstructions one.transaction).flatMap (·.approvals address)
  else []

/-- The only call that approves an account is the one that says so. -/
theorem LibraryCall.Carries.approves
    {crypto : Crypto} {call : LibraryCall crypto} {payer address : Address}
    {carried : List TokenInstruction} (carries : call.Carries payer carried) :
    ∀ instruction ∈ carried, instruction.approvedAccount = some address →
      ∃ authority, call = .approveAccount address authority := by
  intro instruction member approves
  have creates : ∀ {configs : List ExtensionConfig} {mint key : Address}
      {freezer : Option Address} {decimals : Nat},
      instruction ∉ configs.map (.initializeExtension mint) ++
        [.initializeMint2 mint key freezer decimals] := by
    intro configs mint key freezer decimals member
    rcases List.mem_append.mp member with isInit | isLast
    · obtain ⟨_, _, rfl⟩ := List.mem_map.mp isInit
      cases approves
    · obtain rfl := List.mem_singleton.mp isLast
      cases approves
  have describes : ∀ {fields : List (String × String)}
      {mint update key : Address} {name symbol uri : String},
      instruction ∉ .initializeMetadata mint update mint key name symbol uri ::
        fields.map fun field => .updateField mint update field.1 field.2 := by
    intro fields mint update key name symbol uri member
    rcases List.mem_cons.mp member with rfl | isField
    · cases approves
    · obtain ⟨_, _, rfl⟩ := List.mem_map.mp isField
      cases approves
  cases call with
  | approveAccount account authority =>
      obtain ⟨_, rfl⟩ := carries
      obtain rfl := List.mem_singleton.mp member
      obtain rfl : account = address := Option.some.inj approves
      exact ⟨authority, rfl⟩
  | createV1 | createV2 =>
      rcases carries with ⟨configs, rfl⟩ | rfl
      · exact absurd member creates
      · exact absurd member describes
  | closeMint | setTransferFee | setDefaultAccountState =>
      obtain rfl := carries
      obtain rfl := List.mem_singleton.mp member
      cases approves
  | mintTo | approveKyc | revokeKyc =>
      obtain ⟨_, rfl⟩ := carries
      obtain rfl := List.mem_singleton.mp member
      cases approves
  | approve | deposit | applyPendingBalance =>
      obtain ⟨_, _, rfl⟩ := carries
      obtain rfl := List.mem_singleton.mp member
      cases approves
  | transferWithFee =>
      obtain ⟨_, _, _, rfl⟩ := carries
      obtain rfl := List.mem_singleton.mp member
      cases approves
  | transfer | withdraw | withdrawAgainst =>
      obtain ⟨_, rfl, _⟩ := carries
      obtain rfl := List.mem_singleton.mp member
      cases approves
  | enableCpiGuard | collectFees =>
      obtain rfl := carries
      simp only [List.mem_cons, List.not_mem_nil, or_false] at member
      rcases member with rfl | rfl
      all_goals cases approves
  | configureAccount =>
      obtain ⟨_, rfl⟩ := carries
      simp only [List.mem_cons, List.not_mem_nil, or_false] at member
      rcases member with rfl | rfl
      all_goals cases approves
  | seize =>
      obtain ⟨_, _, _, rfl | rfl⟩ := carries
      · obtain rfl := List.mem_singleton.mp member
        cases approves
      · simp only [List.mem_cons, List.not_mem_nil, or_false] at member
        rcases member with rfl | rfl | rfl
        all_goals cases approves

theorem LibraryCall.Posts.approves
    {C : Cluster} {crypto : Crypto} {call : LibraryCall crypto}
    {transaction : List Instruction} {signers : List Keypair}
    {address : Address} {instruction : CoinInstruction}
    (posted : call.Posts C transaction signers)
    (member : instruction ∈ coinInstructions transaction)
    (approves : instruction.Approves address) :
    ∃ authority, call = .approveAccount address authority := by
  rcases List.mem_append.mp member with asked | last
  case inr =>
      rw [List.mem_singleton.mp last] at approves
      cases approves
  case inl =>
      obtain ⟨token, inside, rfl⟩ := List.mem_map.mp asked
      rcases posted.carried with none | carries
      · rw [none] at inside
        cases inside
      · exact carries.approves token inside approves

/-- An account that is configured stays configured under its key until it or the
mint is closed, whatever calls are made and whatever others do without the key
that approves accounts.  It is approved in the end if and only if it was, or an
approval of it has landed, which some call has asked for; nothing takes an
approval back. -/
theorem approvals_are_asked_for_and_stay
    (C : Cluster) (crypto : Crypto) (coin : Coin) (approver address : Address)
    (contract : CoinContract C crypto coin
      (·.LeavesApprovals approver coin.mint address))
    (state : C.State) {key : PodElGamalPubkey} {approved : Bool}
    (enabled : Enabled coin address key approved (C.tokenChain state))
    (held : ApprovedBy coin approver (C.tokenChain state))
    (calls : List (LibraryCall crypto)) (drawn : Nat)
    (leaves : ∀ call ∈ calls,
      call.LeavesMint coin.mint ∧ call.LeavesMint address) :
    let reached :=
      LibraryCall.runAll (World.initial state drawn : World C) calls
    Enabled coin address key
        (approved || !(reached.sent.flatMap (·.approvals address)).isEmpty)
        (C.tokenChain reached.state) ∧
      ∀ one ∈ reached.sent, one.approvals address ≠ [] →
        one.landed = true ∧
          ∃ authority, .approveAccount address authority ∈ calls := by
  intro reached
  obtain ⟨chained, posts⟩ := LibraryCall.sent_runAll calls state drawn
  refine ⟨?_, fun one member approves => ?_⟩
  · have made := contract.accumulates
      (fun events chain later => ∀ approved,
        Enabled coin address key approved chain →
        ApprovedBy coin approver chain →
          Enabled coin address key (approved || !events.isEmpty) later ∧
            ApprovedBy coin approver later)
      (·.approvals address)
      (fun chain approved enabled held => by
        rw [List.isEmpty_nil, Bool.not_true, Bool.or_false]
        exact ⟨enabled, held⟩)
      (fun first second approved enabled held => by
        obtain ⟨between, heldOn⟩ := first approved enabled held
        rw [or_some_append]
        exact second _ between heldOn)
      (fun leaves step approved enabled held => by
        rw [List.isEmpty_nil, Bool.not_true, Bool.or_false]
        cases step with
        | transact performs =>
            exact performs.unapproved enabled held leaves.1 leaves.2
        | begin => exact ⟨enabled, held⟩)
      (fun one failed => by
        unfold Sent.approvals
        rw [failed]
        rfl)
      chained fun one member landed before after performs approved enabled
        held => by
          obtain ⟨call, isCall, posted⟩ := posts one member
          obtain ⟨leavesMint, leavesAccount⟩ := leaves call isCall
          unfold Sent.approvals
          rw [landed]
          refine ⟨performs.enabled enabled fun instruction inside =>
            (leavesAccount.posts posted instruction inside).1, ?_⟩
          exact performs.heldBy held
            (fun instruction inside =>
              (leavesMint.posts posted instruction inside).1)
            fun _ _ _ instruction inside =>
              posted.hands_nothing instruction inside
    exact (made approved enabled held).1
  · have landed : one.landed = true := by
      by_contra failed
      exact approves (if_neg failed)
    refine ⟨landed, ?_⟩
    have some : (coinInstructions one.transaction).flatMap
        (·.approvals address) ≠ [] := by
      unfold Sent.approvals at approves
      rw [landed] at approves
      exact approves
    obtain ⟨instruction, inside, does⟩ :
        ∃ instruction ∈ coinInstructions one.transaction,
          instruction.approvals address ≠ [] := by
      by_contra none
      exact some <| List.flatMap_eq_nil_iff.mpr fun instruction inside =>
        by_contra fun does => none ⟨instruction, inside, does⟩
    obtain ⟨call, isCall, posted⟩ := posts one member
    have asks : instruction.Approves address := by
      by_contra other
      exact does (CoinInstruction.approvals_eq_nil.mpr other)
    obtain ⟨authority, rfl⟩ := posted.approves inside asks
    exact ⟨authority, isCall⟩

namespace Coining

open Busy (stablecoin)

def approver : Keypair :=
  ⟨Address.filled 37⟩

/-- A holder who has applied for confidential transfers. -/
def applicant : AccountSnapshot :=
  { sanctioned with
    state := .initialized
    confidential :=
      sanctioned.confidential.map ({ · with approved := false }) }

/-- The ledger of a coin whose accounts are approved one by one. -/
def applying : Busy.Ledger where
  tokens := Busy.tokensAt
    [(stablecoin, .mint
        ⟨some mintAuthority.pubkey, 100, 2, some Busy.freezeAuthority.pubkey⟩
        [⟨.mintCloseAuthority, closeAuthority.pubkey.bytes⟩,
          ⟨.defaultAccountState, [stateByte .initialized]⟩,
          ⟨.confidentialTransferMint, Layout.writeFields
            [(32, Layout.writeKey (some approver.pubkey)), (1, 0), (32, 0)]⟩]),
      (holder, Layout.writeAccount applicant)]
  epoch := 0

theorem enabled_applying :
    Enabled token holder ⟨0⟩ false applying.chain := by
  refine ⟨applicant, _, ?_, rfl, rfl, rfl⟩
  decide

theorem approvedBy_applying :
    ApprovedBy token approver.pubkey applying.chain := by
  have holder : (applying.chain.mints stablecoin).map
      (·.holder (.extension .confidentialTransferMint)) =
        some (some approver.pubkey) := by
    decide
  obtain ⟨mint, found, isHolder⟩ := Option.map_eq_some_iff.mp holder
  exact ⟨mint, found, isHolder⟩

theorem birth_leavesApprovals :
    birth.LeavesApprovals approver.pubkey stablecoin holder := by
  refine ⟨by decide, fun instruction member => ?_⟩
  simp only [List.mem_cons, List.not_mem_nil, or_false] at member
  rcases member with rfl | rfl | rfl
  all_goals exact ⟨fun closes => closes, fun closes => closes⟩

end Coining

/-- An approval with another key fails, the one that follows lands, and the
account that is frozen afterwards is still approved. -/
theorem an_approval_outlasts_a_freeze :
    let calls : List (LibraryCall Transparent.crypto) :=
      [.approveAccount Coining.holder Busy.freezeAuthority,
        .approveAccount Coining.holder Coining.approver,
        .revokeKyc Coining.holder Busy.freezeAuthority]
    let reached := LibraryCall.runAll (World.initial
      (.ongoing (fun _ => none) Coining.applying) 0 : World Coining.cluster)
        calls
    reached.sent.map Sent.landed = [false, true, true] ∧
      Enabled Coining.token Coining.holder ⟨0⟩ true
        (Coining.cluster.tokenChain reached.state) := by
  have done := (approvals_are_asked_for_and_stay Coining.cluster
    Transparent.crypto Coining.token Coining.approver.pubkey Coining.holder
    (Coining.contract Coining.birth_leavesApprovals)
    (.ongoing (fun _ => none) Coining.applying) Coining.enabled_applying
    Coining.approvedBy_applying
    [.approveAccount Coining.holder Busy.freezeAuthority,
      .approveAccount Coining.holder Coining.approver,
      .revokeKyc Coining.holder Busy.freezeAuthority] 0
    (by intro call member
        simp only [List.mem_cons, List.not_mem_nil, or_false] at member
        rcases member with rfl | rfl | rfl
        all_goals exact ⟨trivial, trivial⟩)).1
  have some : (LibraryCall.runAll (World.initial
      (.ongoing (fun _ => none) Coining.applying) 0 : World Coining.cluster)
      [(.approveAccount Coining.holder Busy.freezeAuthority :
          LibraryCall Transparent.crypto),
        .approveAccount Coining.holder Coining.approver,
        .revokeKyc Coining.holder Busy.freezeAuthority]).sent.flatMap
          (·.approvals Coining.holder) ≠ [] := by
    decide
  refine ⟨by decide, ?_⟩
  rw [List.isEmpty_eq_false_iff.mpr some] at done
  exact done

end Remit
