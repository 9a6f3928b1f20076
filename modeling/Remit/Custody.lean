import Remit.Cluster.Quiet
import Remit.Custody.Sending

/-!
# Nothing is left for others to take

A desk makes calls one after another, on any number of proof sessions and for
any mints.  Whatever fails, every account that it has created is complete or
gone after every transaction, and no other party can do anything to it.
-/

namespace Remit

open Flows

variable {C : Cluster}

/-- Calls of the library.  The sessions are numbered. -/
inductive Operation where
  | verify (session : Nat) (instruction : ProofInstruction) (proof : ProofData)
  | stageFromRecord (session : Nat) (instruction : ProofInstruction)
      (proof : ProofData)
  | consume (session : Nat) (instructions : List Instruction)
      (signers : List Keypair) (units : Nat)
  | closeAfter (session : Nat) (result : Except Error Unit)
  | createMint (mint : Keypair) (authorities : Authorities)
      (params : StablecoinParams) (inits : List ExtensionInit)

/-- The proof accounts of the sessions, and the world. -/
structure Desk (C : Cluster) where
  sessions : Nat → ProofAccounts
  world : World C

/-- Plan a mint from extension inits and create it. -/
def createMintFrom (mint : Keypair) (authorities : Authorities)
    (params : StablecoinParams) (inits : List ExtensionInit) :
    Flow (World C) Error Unit := do
  let plan ← planFromInits mint.pubkey authorities params inits
  createMint plan mint authorities

namespace Operation

/-- Make a call, whatever it returns.  Consuming and closing use a session
up. -/
def perform (desk : Desk C) : Operation → Desk C
  | verify session instruction proof =>
      let ended := (Flow.exec (ProofAccounts.verify instruction proof)
        ⟨desk.sessions session, desk.world⟩).2
      ⟨Function.update desk.sessions session ended.accounts, ended.world⟩
  | stageFromRecord session instruction proof =>
      let ended := (Flow.exec (ProofAccounts.stageFromRecord instruction proof)
        ⟨desk.sessions session, desk.world⟩).2
      ⟨Function.update desk.sessions session ended.accounts, ended.world⟩
  | consume session instructions signers units =>
      ⟨Function.update desk.sessions session {},
        (Flow.exec
          ((desk.sessions session).consume instructions signers units)
          desk.world).2⟩
  | closeAfter session result =>
      ⟨Function.update desk.sessions session {},
        (Flow.exec ((desk.sessions session).closeAfter result) desk.world).2⟩
  | createMint mint authorities params inits =>
      ⟨desk.sessions,
        (Flow.exec (createMintFrom mint authorities params inits)
          desk.world).2⟩

/-- What the library's callers see to: the consumed instructions leave proof
accounts and mints alone, the inits are those of some extensions of the mint,
and the keys of the mint and of its planned authorities are held. -/
def Proper (C : Cluster) : Operation → Prop
  | consume _ instructions _ _ =>
      ∀ instruction ∈ instructions, instruction.Inert
  | createMint mint authorities params inits =>
      C.held mint.pubkey ∧ ∃ configs,
        inits = initsOf mint.pubkey configs ∧ ∀ lamports space,
          (plannedMint mint.pubkey authorities params lamports space
            configs).Held C.held
  | _ => True

end Operation

namespace Desk

/-- A desk that has done nothing yet. -/
def initial (state : C.State) (drawn : Nat) : Desk C :=
  ⟨fun _ => {}, World.initial state drawn⟩

/-- Make calls one after another. -/
def run (desk : Desk C) (operations : List Operation) : Desk C :=
  operations.foldl Operation.perform desk

/-- All sessions are vetted, and only known shapes were sent. -/
structure Orderly (desk : Desk C) : Prop where
  vetted : ∀ session, (desk.sessions session).Vetted C
  shapes : ∀ one ∈ desk.world.sent, Shape C one.transaction

theorem orderly_initial (state : C.State) (drawn : Nat) :
    (initial state drawn : Desk C).Orderly where
  vetted _ _ member := by cases member
  shapes _ member := by cases member

theorem shapes_of_sends
    {before after : World C}
    (shapes : ∀ one ∈ before.sent, Shape C one.transaction)
    (sends : before.Sends after) :
    ∀ one ∈ after.sent, Shape C one.transaction := by
  obtain ⟨later, sent, known⟩ := sends
  intro one member
  rw [sent] at member
  rcases List.mem_append.mp member with earlier | last
  · exact shapes one earlier
  · exact known one last

theorem vetted_update
    {sessions : Nat → ProofAccounts} {accounts : ProofAccounts}
    (vetted : ∀ session, (sessions session).Vetted C)
    (changed : accounts.Vetted C) (session : Nat) :
    ∀ other, (Function.update sessions session accounts other).Vetted C := by
  intro other
  by_cases same : other = session
  · subst same
    rw [Function.update_self]
    exact changed
  · rw [Function.update_of_ne same]
    exact vetted other

end Desk

theorem within_createMintFrom
    {mint : Keypair} {authorities : Authorities} {params : StablecoinParams}
    {configs : List ExtensionConfig} (held : C.held mint.pubkey)
    (authoritiesHeld : ∀ lamports space,
      (plannedMint mint.pubkey authorities params lamports space
        configs).Held C.held) :
    Flow.Within World.Sends (fun _ => True)
      (createMintFrom mint authorities params (initsOf mint.pubkey configs) :
        Flow (World C) Error Unit) := by
  refine .bind (within_planFromInits mint.pubkey authorities params configs) ?_
  rintro plan ⟨lamports, space, initializes, describes⟩
  refine .bind (World.within_send ?_) fun _ _ =>
    .bind (World.within_send ?_) fun _ _ => .pure trivial
  · rw [initializes]
    exact .creatingMint held (authoritiesHeld lamports space)
  · rw [describes]
    exact .inert (metadataInstructions_inert _ _ _)

/-- Every proper call keeps a desk orderly. -/
theorem Operation.perform_orderly
    {desk : Desk C} {operation : Operation}
    (proper : operation.Proper C) (orderly : desk.Orderly) :
    (operation.perform desk).Orderly := by
  have unused : ({} : ProofAccounts).Vetted C := fun _ member => by cases member
  cases operation with
  | verify session instruction proof =>
      have moved := (ProofAccounts.within_verify instruction proof).moved
        ⟨desk.sessions session, desk.world⟩
      dsimp only [perform]
      exact
        { vetted := Desk.vetted_update orderly.vetted
            (moved.1 (orderly.vetted session)) session
          shapes := Desk.shapes_of_sends orderly.shapes moved.2 }
  | stageFromRecord session instruction proof =>
      have moved := (ProofAccounts.within_stageFromRecord instruction
        proof).moved ⟨desk.sessions session, desk.world⟩
      dsimp only [perform]
      exact
        { vetted := Desk.vetted_update orderly.vetted
            (moved.1 (orderly.vetted session)) session
          shapes := Desk.shapes_of_sends orderly.shapes moved.2 }
  | consume session instructions signers units =>
      have moved := ((orderly.vetted session).within_consume proper signers
        units).moved desk.world
      exact
        { vetted := Desk.vetted_update orderly.vetted unused session
          shapes := Desk.shapes_of_sends orderly.shapes moved }
  | closeAfter session result =>
      have moved := (ProofAccounts.within_closeAfter
        (desk.sessions session) result).moved desk.world
      exact
        { vetted := Desk.vetted_update orderly.vetted unused session
          shapes := Desk.shapes_of_sends orderly.shapes moved }
  | createMint mint authorities params inits =>
      obtain ⟨held, configs, rfl, authoritiesHeld⟩ := proper
      have moved :=
        (within_createMintFrom held authoritiesHeld).moved desk.world
      exact
        { vetted := orderly.vetted
          shapes := Desk.shapes_of_sends orderly.shapes moved }

/-- So does every sequence of proper calls. -/
theorem Desk.run_orderly
    {desk : Desk C} {operations : List Operation}
    (proper : ∀ operation ∈ operations, operation.Proper C)
    (orderly : desk.Orderly) : (desk.run operations).Orderly := by
  induction operations generalizing desk with
  | nil => exact orderly
  | cons operation rest inductionHypothesis =>
      exact inductionHypothesis
        (fun other member => proper other (List.mem_cons_of_mem _ member))
        (Operation.perform_orderly (proper operation (by simp)) orderly)

/-- After every transaction of any sequence of calls, whatever has failed,
each account that the library has created is gone or complete, and outsiders
leave it as it is. -/
theorem created_accounts_are_never_hijackable
    (C : Cluster) (state : C.State) (drawn : Nat)
    (operations : List Operation)
    (proper : ∀ operation ∈ operations, operation.Proper C)
    (earlier : List (Sent C.State)) (one : Sent C.State)
    (sent :
      earlier ++ [one] <+:
        ((Desk.initial state drawn : Desk C).run operations).world.sent) :
    ∀ address ∈ (landedTransactions (earlier ++ [one])).flatMap created,
      Completed C (landedTransactions (earlier ++ [one])) address
          (C.accounts one.delivery.after address) ∧
        ∀ later,
          Outsiders C.programs C.held (C.accounts one.delivery.after) later →
            later address = C.accounts one.delivery.after address := by
  have orderly := Desk.run_orderly proper (Desk.orderly_initial state drawn)
  have guarded := (((Desk.initial state drawn).run
    operations).world.chained.guarded orderly.shapes).2 earlier one sent
  intro address member
  exact ⟨(guarded address member).2, fun later outside =>
    guarded.unchanged outside address member⟩

/-! ## A mint and a payment on a quiet cluster -/

namespace Quiet

def issuers : Authorities where
  mint := keypair 1000
  freeze := keypair 1001
  feeConfig := keypair 1002
  feeWithdraw := keypair 1003
  close := keypair 1004
  metadata := keypair 1005

/-- A mint is created, one proof is verified at once and another one from a
record when both are consumed. -/
def errands : List Operation :=
  [.createMint (keypair 1006) issuers {}
      (initsOf (keypair 1006).pubkey
        [.defaultAccountState .frozen,
          .mintCloseAuthority (some issuers.close.pubkey)]),
    .verify 0 .verifyPubkeyValidity ⟨[1, 2, 3], 33⟩,
    .stageFromRecord 0 .verifyBatchedRangeProofU256
      ⟨List.replicate 700 7, 40⟩,
    .consume 0 [] [] 200000]

theorem errands_proper :
    ∀ operation ∈ errands, operation.Proper cluster := by
  intro operation member
  simp only [errands, List.mem_cons, List.not_mem_nil, or_false] at member
  rcases member with rfl | rfl | rfl | rfl
  · exact ⟨trivial, _, rfl, fun _ _ _ _ _ => trivial⟩
  · trivial
  · trivial
  · rintro _ ⟨⟩

/-- What is sent on these errands. -/
def posted : List (Sent cluster.State) :=
  ((Desk.initial ⟨fun _ => none, fun _ => none⟩ 0 : Desk cluster).run
    errands).world.sent

theorem posted_length : posted.length = 5 := by
  decide +kernel

/-- The fourth transaction, which opens the record. -/
def recordOpened : Sent cluster.State :=
  posted.get ⟨3, by rw [posted_length]; decide⟩

theorem posted_then : posted.take 3 ++ [recordOpened] <+: posted := by
  have inside : 3 < posted.length := by
    rw [posted_length]
    decide
  have together : posted.take 3 ++ [posted[3]] = posted.take (3 + 1) :=
    List.take_append_getElem inside
  exact List.IsPrefix.trans ⟨[], by rw [List.append_nil]; exact together⟩
    (List.take_prefix (3 + 1) posted)

/-- The mint, the verified context and the record were created by then. -/
theorem errands_never_hijackable :
    ((landedTransactions (posted.take 3 ++ [recordOpened])).flatMap
        created).length = 3 ∧
      ∀ address ∈
          (landedTransactions (posted.take 3 ++ [recordOpened])).flatMap
            created,
        Completed cluster
            (landedTransactions (posted.take 3 ++ [recordOpened])) address
            (cluster.accounts recordOpened.delivery.after address) ∧
          ∀ later,
            Outsiders cluster.programs cluster.held
                (cluster.accounts recordOpened.delivery.after) later →
              later address =
                cluster.accounts recordOpened.delivery.after address :=
  ⟨by decide +kernel,
    created_accounts_are_never_hijackable cluster
      ⟨fun _ => none, fun _ => none⟩ 0 errands errands_proper (posted.take 3)
      recordOpened posted_then⟩

end Quiet
end Remit
