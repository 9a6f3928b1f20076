import Remit.Proofs.ExactReading

/-!
# The tracked accounts are open and the payer's

Whatever was verified and staged, and whatever has failed, the tracked contexts
and records are different accounts on chain that only the payer can close.
-/

namespace Remit

open Flows

variable {C : Cluster}

/-- A context or a record with the payer as its authority. -/
inductive Account.BelongsTo (payer : Address) : Account → Prop where
  | context (instruction : ProofInstruction) (proof : Bytes) :
      BelongsTo payer (.context payer instruction proof)
  | record (payload : Bytes) : BelongsTo payer (.record payer payload)

/-- Different accounts of the payer, at addresses whose keys no outsider
holds. -/
structure Open (C : Cluster) (targets : List Address) (accounts : Accounts) :
    Prop where
  distinct : targets.Nodup
  held : ∀ address ∈ targets, C.held address
  payers : ∀ address ∈ targets, ∃ account,
    accounts address = some account ∧ account.BelongsTo C.payer

/-- The accounts that cleanup has to close. -/
def ProofAccounts.targets (self : ProofAccounts) : List Address :=
  self.contexts ++ self.records

namespace Open

variable {accounts after : Accounts} {targets others : List Address}
  {address : Address} {account : Account}

theorem empty (accounts : Accounts) : Open C [] accounts where
  distinct := List.nodup_nil
  held := by simp
  payers := by simp

theorem secured
    (isOpen : Open C targets accounts) (member : address ∈ targets) :
    Secured C.held address (accounts address) := by
  obtain ⟨account, found, belongs⟩ := isOpen.payers address member
  rw [found]
  cases belongs with
  | context => exact C.held_payer
  | record => exact C.held_payer

theorem outsiders
    (isOpen : Open C targets accounts)
    (outside : Outsiders C.programs C.held accounts after) :
    Open C targets after where
  distinct := isOpen.distinct
  held := isOpen.held
  payers address member := by
    rw [outside.unchanged (isOpen.secured member)]
    exact isOpen.payers address member

theorem perm
    (isOpen : Open C targets accounts) (same : targets.Perm others) :
    Open C others accounts where
  distinct := same.nodup_iff.mp isOpen.distinct
  held address member := isOpen.held address (same.mem_iff.mpr member)
  payers address member := isOpen.payers address (same.mem_iff.mpr member)

/-- Writing the payer's accounts closes none. -/
theorem write
    (isOpen : Open C targets accounts) (belongs : account.BelongsTo C.payer) :
    Open C targets (Function.update accounts address (some account)) where
  distinct := isOpen.distinct
  held := isOpen.held
  payers other member := by
    by_cases same : other = address
    · rw [same, Function.update_self]
      exact ⟨account, rfl, belongs⟩
    · rw [Function.update_of_ne same]
      exact isOpen.payers other member

/-- A new account is different from the open ones. -/
theorem create
    (isOpen : Open C targets accounts) (blank : accounts address = none)
    (held : C.held address) (belongs : account.BelongsTo C.payer) :
    Open C (targets ++ [address])
      (Function.update accounts address (some account)) where
  distinct := by
    have fresh : address ∉ targets := by
      intro member
      obtain ⟨_, found, _⟩ := isOpen.payers address member
      rw [blank] at found
      cases found
    rw [List.nodup_append]
    refine ⟨isOpen.distinct, List.nodup_singleton _, ?_⟩
    intro left leftMember right rightMember same
    rw [List.mem_singleton.mp rightMember] at same
    exact fresh (same ▸ leftMember)
  held other member := by
    rcases List.mem_append.mp member with earlier | last
    · exact isOpen.held other earlier
    · rw [List.mem_singleton.mp last]
      exact held
  payers other member := by
    rcases List.mem_append.mp member with earlier | last
    · exact (isOpen.write belongs).payers other earlier
    · rw [List.mem_singleton.mp last, Function.update_self]
      exact ⟨account, rfl, belongs⟩

end Open

section Deliver

variable {world : World C} {transaction : List Instruction}
  {signers : List Keypair} {targets others : List Address}

theorem Open.failed
    {error : Error} (isOpen : Open C targets world.accounts)
    (failed :
      (C.send world.state transaction signers).outcome = .error error) :
    Open C targets (world.deliver transaction signers).accounts :=
  isOpen.outsiders (failed_steps failed)

theorem Open.landed
    {receipt : Receipt} (isOpen : Open C targets world.accounts)
    (landed :
      (C.send world.state transaction signers).outcome = .ok receipt)
    (kept : ∀ before after, Open C targets before →
      runTransaction C.programs (C.payer :: signers.map (·.pubkey))
          transaction before = some after →
        Open C others after) :
    Open C others (world.deliver transaction signers).accounts := by
  obtain ⟨before, after, outside, ran, later⟩ := landed_steps landed
  exact (kept before after (isOpen.outsiders outside) ran).outsiders later

end Deliver

/-! ## Verifying and staging -/

/-- The tracked accounts of a session are open. -/
def Session.Open (session : Session C) : Prop :=
  Remit.Open C session.accounts.targets session.world.accounts

/-- Drawing a keypair opens nothing. -/
theorem Session.Open.draw {session : Session C} (isOpen : session.Open) :
    Remit.Open C session.accounts.targets
      (World.accounts
        { session.world with drawn := session.world.drawn + 1 }) :=
  isOpen

theorem open_verify
    {session : Session C} (instruction : ProofInstruction) (proof : ProofData)
    (isOpen : session.Open) :
    Flow.Ensures (ProofAccounts.verify instruction proof) session
      fun _ reached => reached.Open := by
  unfold ProofAccounts.verify
  refine .bind (.zoom (World.ensures_newKeypair ?_))
  refine .bind (.zoom (.bind (World.ensures_rent fun lamports => ?_)))
  refine .pure ?_
  refine .bind (.zoom (World.ensures_fits (fun fits _ => ?_) isOpen))
  cases fits with
  | false => exact .fail isOpen
  | true =>
      refine .bind (.zoom (World.ensures_send ?_ ?_))
      · intro receipt landed
        refine .bind (.update (.pure ?_))
        have opened := isOpen.draw.landed landed
          fun before after here ran => by
            obtain ⟨blank, rfl⟩ := runTransaction_verify ran
            exact here.create blank
              (C.held_keypair session.world.drawn)
              (.context instruction proof.bytes)
        refine opened.perm ?_
        simp only [ProofAccounts.targets, List.append_assoc]
        exact .append_left _ List.perm_append_comm
      · intro error failed
        exact isOpen.failed failed

theorem open_writeChunks
    {targets : List Address} (record : Address) (bytes : Bytes)
    (offset : Nat) :
    ∀ world : World C, Open C targets world.accounts →
      Flow.Ensures (writeChunks record bytes offset) world
        fun _ reached => Open C targets reached.accounts := by
  fun_induction writeChunks record bytes offset with
  | case1 => exact fun world isOpen => .panicking isOpen
  | case2 => exact fun world isOpen => .fail isOpen
  | case3 => exact fun world isOpen => .pure isOpen
  | case4 offset _ _ _ _ _ _ inductionHypothesis =>
      intro world isOpen
      refine .bind (World.ensures_send ?_ ?_)
      · intro receipt landed
        refine inductionHypothesis _ (isOpen.landed landed ?_)
        intro before after here ran
        rw [runTransaction_singleton] at ran
        obtain ⟨payload, _, _, rfl⟩ := run_recordWrite ran
        exact here.write (.record _)
      · intro error failed
        exact isOpen.failed failed
  | case5 => exact fun world isOpen => .pure isOpen

theorem open_stageFromRecord
    {session : Session C} (instruction : ProofInstruction) (proof : ProofData)
    (isOpen : session.Open) :
    Flow.Ensures (ProofAccounts.stageFromRecord instruction proof) session
      fun _ reached => reached.Open := by
  unfold ProofAccounts.stageFromRecord
  refine .bind (.zoom (World.ensures_newKeypair ?_))
  refine .bind (.zoom (World.ensures_rent fun lamports => ?_))
  refine .bind (.zoom (ensures_foundOrPanic (fun offset _ => ?_) isOpen))
  refine .bind (.zoom (World.ensures_send ?_ ?_))
  · intro receipt landed
    refine .bind (.update ?_)
    have opened := isOpen.draw.landed landed
      fun before after here ran => by
        obtain ⟨blank, _, rfl⟩ := runTransaction_recordOpening ran
        exact here.create blank (C.held_keypair session.world.drawn)
          (.record _)
    rw [ProofAccounts.targets, List.append_assoc] at opened
    refine .bind (.zoom ((open_writeChunks _ _ _ _ opened).mono ?_))
    rintro (stop | tail) reached written
    · exact written
    · refine .bind (.zoom (World.ensures_newKeypair ?_))
      refine .bind (.zoom (.bind (World.ensures_rent fun lamports' => ?_)))
      exact .pure (.bind (.update (.pure written)))
  · intro error failed
    exact isOpen.failed failed

/-- After any attempts the tracked accounts are open. -/
theorem open_stageAll
    {session : Session C} (calls : List StagingCall) (isOpen : session.Open) :
    Flow.Ensures (stageAll calls) session fun _ reached => reached.Open := by
  induction calls generalizing session with
  | nil => exact .pure isOpen
  | cons call rest inductionHypothesis =>
      have attempted :
          Flow.Ensures call.run session fun _ reached => reached.Open := by
        cases call with
        | verify instruction proof =>
            exact open_verify instruction proof isOpen
        | stageFromRecord instruction proof =>
            exact open_stageFromRecord instruction proof isOpen
      unfold stageAll
      refine .bind (.result (attempted.mono ?_))
      rintro ((error | _) | address) reached ended
      · refine .bind ((inductionHypothesis ended).mono ?_)
        rintro (stop | later) last still
        · exact still
        · exact .pure still
      · exact ended
      · refine .bind ((inductionHypothesis ended).mono ?_)
        rintro (stop | later) last still
        · exact still
        · exact .pure still

end Remit
