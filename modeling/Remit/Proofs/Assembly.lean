import Remit.Proofs.Finishing

/-!
# The parts of the consuming transaction run

From the chain as the earlier sends left it, the staged parts run to their end,
whatever the caller's instructions do to other accounts, and so do the closing
instructions after them.
-/

namespace Remit

open Flows ProofAccounts

variable {programs : Programs} {payer : Address} {signers : List Address}
  {accounts after : Accounts} {address : Address}

/-! ## What an instruction needs in order to change an address -/

private theorem occupied_of_verifiedInto
    {instruction : ProofInstruction} {proof : Bytes}
    {context : Option ContextStateInfo} {account : Option Account}
    (verified :
      verifiedInto programs accounts instruction proof context =
        some (.set address account)) :
    accounts address ≠ none := by
  unfold verifiedInto at verified
  grind

/-- A Token-2022 instruction changes mints only. -/
theorem mint_of_tokenEffect
    {instruction : TokenInstruction} {account : Option Account}
    (succeeded :
      instruction.effect signers accounts = some (.set address account)) :
    ∃ state, accounts address = some (.mint state) := by
  cases instruction <;> simp only [TokenInstruction.effect] at succeeded <;>
    grind

/-- Only `CreateAccount` changes an address with nothing at it. -/
theorem occupied_of_effect
    {instruction : Instruction} {account : Option Account}
    (succeeded :
      instruction.effect programs signers accounts =
        some (.set address account)) :
    instruction.creates = some address ∨ accounts address ≠ none := by
  cases instruction with
  | token instruction =>
      obtain ⟨state, found⟩ := mint_of_tokenEffect succeeded
      exact .inr (by simp [found])
  | verifyProof => exact .inr (occupied_of_verifiedInto succeeded)
  | _ =>
      simp only [Instruction.effect, Instruction.creates] at succeeded ⊢
      grind [occupied_of_verifiedInto]

theorem run_empty
    {instruction : Instruction}
    (blank : accounts address = none)
    (elsewhere : instruction.creates ≠ some address)
    (ran : instruction.run programs signers accounts = some after) :
    after address = none := by
  simp only [Instruction.run, Option.map_eq_some_iff] at ran
  obtain ⟨change, succeeded, rfl⟩ := ran
  cases change with
  | keep => exact blank
  | set changed account =>
      have different : address ≠ changed := by
        rintro rfl
        rcases occupied_of_effect succeeded with creates | occupied
        · exact elsewhere creates
        · exact occupied blank
      exact (Function.update_of_ne different ..).trans blank

theorem runTransaction_empty
    {transaction : List Instruction}
    (blank : accounts address = none)
    (elsewhere : address ∉ created transaction)
    (ran :
      runTransaction programs signers transaction accounts = some after) :
    after address = none := by
  induction transaction generalizing accounts with
  | nil =>
      cases ran
      exact blank
  | cons instruction rest inductionHypothesis =>
      obtain ⟨middle, first, restRan⟩ := runTransaction_cons_eq_some ran
      have notHere : instruction.creates ≠ some address := fun creates =>
        elsewhere (List.mem_filterMap.mpr
          ⟨instruction, List.mem_cons_self, creates⟩)
      have notThere : address ∉ created rest := by
        intro member
        obtain ⟨other, among, creates⟩ := List.mem_filterMap.mp member
        exact elsewhere (List.mem_filterMap.mpr
          ⟨other, List.mem_cons_of_mem _ among, creates⟩)
      exact inductionHypothesis (run_empty blank notHere first) notThere
        restRan

/-- An address whose key no outsider holds stays empty as long as no landed
transaction creates an account there. -/
theorem Chained.empty
    {C : Cluster} {start s : C.State} {sent : List (Sent C.State)}
    (chained : Chained C start sent s) (held : C.held address)
    (blank : C.accounts start address = none)
    (never : ∀ one ∈ sent, one.landed = true →
      address ∉ created one.transaction) :
    C.accounts s address = none := by
  induction chained with
  | nil => exact blank
  | @send sent s transaction signers _ inductionHypothesis =>
      have empty := inductionHypothesis fun one member =>
        never one (List.mem_append_left _ member)
      have before := (C.outsiders_before s transaction signers).empty held
        empty
      have landed :
          C.accounts (C.send s transaction signers).after address = none := by
        rcases outcome : (C.send s transaction signers).outcome with
          error | receipt
        · rw [C.not_landed s transaction signers error outcome]
          exact before
        · refine runTransaction_empty before (never _
            (List.mem_append_right _ (List.mem_singleton_self _)) ?_)
            (C.landed s transaction signers receipt outcome)
          simp [Sent.landed, outcome, Except.toBool]
      exact (C.outsiders_after s transaction signers).empty held landed

/-- What was empty at first and is not tracked is empty. -/
theorem Sound.empty
    {C : Cluster} {world : World C} {log : ProofLog}
    (sound : Sound world log) (held : C.held address)
    (blank : C.accounts world.start address = none)
    (untracked : address ∉ log.targets) : world.accounts address = none := by
  by_cases gone : world.accounts address = none
  · exact gone
  · refine world.chained.empty held blank ?_
    intro one member landed creation
    rcases (sound.residue one member landed address creation).2 with
      empty | tracked
    · exact gone empty
    · exact untracked tracked

/-! ## The staged parts -/

theorem run_createAccount_of
    {fromAddress toAddress owner : Address} (lamports space : Nat)
    (funded : fromAddress ∈ signers) (signed : toAddress ∈ signers)
    (blank : accounts toAddress = none)
    (proofOwner : owner = programs.record ∨ owner = programs.zkElGamalProof) :
    (Instruction.createAccount fromAddress toAddress lamports space owner).run
        programs signers accounts =
      some (Function.update accounts toAddress
        (some (.uninitialized owner space))) := by
  simp [Instruction.run, Instruction.effect, funded, signed, blank,
    createdAccount, proofOwner, Change.run]

theorem run_verifyProofFromAccount_of
    {instruction : ProofInstruction} {context : ContextStateInfo}
    {record authority : Address} {payload : Bytes} {space : Nat}
    (found : accounts record = some (.record authority payload))
    (blank : accounts context.contextStateAccount =
      some (.uninitialized programs.zkElGamalProof space)) :
    (Instruction.verifyProofFromAccount instruction (some context) record
        RecordData.WRITABLE_START_INDEX).run programs signers accounts =
      some (Function.update accounts context.contextStateAccount
        (some (.context context.contextStateAuthority instruction
          payload))) := by
  simp [Instruction.run, Instruction.effect, found, verifiedInto, blank,
    Change.run]

namespace StagedProof

variable {proof : StagedProof}

/-- A tail that is kept back fits its record. -/
theorem Carried.runs_tail
    {tail : Instruction}
    (carried : proof.Carried programs payer accounts)
    (kept : proof.staged.tailWrite = some tail) (signed : payer ∈ signers) :
    ∃ after, tail.run programs signers accounts = some after := by
  obtain ⟨position, payload, found, filled, inside, noTail | kept'⟩ :=
    carried.written
  · rw [noTail.1] at kept
    cases kept
  · rw [kept] at kept'
    cases kept'
    have fits :
        position + (proof.bytes.length - position) ≤ payload.length := by
      rw [filled.length_eq]
      omega
    simp [Instruction.run, Instruction.effect, found, signed, fits]

/-- The preparation of a staged proof succeeds where its context is empty and
its key signs. -/
theorem Carried.runs_preparation
    {withTails : Bool}
    (carried : proof.Carried programs payer accounts)
    (paid : payer ∈ signers) (signed : proof.context ∈ signers)
    (blank : accounts proof.context = none) :
    ∃ after,
      runTransaction programs signers (proof.preparation withTails)
        accounts = some after := by
  obtain ⟨lamports, space, create⟩ := carried.create
  have creates : ∀ middle : Accounts, middle proof.context = none →
      ∃ after, proof.staged.create.run programs signers middle =
        some after := by
    intro middle empty
    rw [create]
    exact ⟨_, run_createAccount_of lamports space paid signed empty
      (.inr rfl)⟩
  unfold preparation
  rw [runTransaction_append]
  cases withTails with
  | false =>
      obtain ⟨after, ran⟩ := creates accounts blank
      exact ⟨after, by simpa [runTransaction] using ran⟩
  | true =>
      cases kept : proof.staged.tailWrite with
      | none =>
          obtain ⟨after, ran⟩ := creates accounts blank
          exact ⟨after, by simpa [runTransaction] using ran⟩
      | some tail =>
          obtain ⟨middle, wrote⟩ := carried.runs_tail kept paid
          have noCreation : tail.creates ≠ some proof.context := by
            obtain ⟨_, _, _, _, _, noTail | kept'⟩ := carried.written
            · rw [noTail.1] at kept
              cases kept
            · rw [kept] at kept'
              cases kept'
              simp [Instruction.creates]
          obtain ⟨after, ran⟩ := creates middle
            (run_empty blank noCreation wrote)
          exact ⟨after, by simp [runTransaction, wrote, ran]⟩

/-- So does the whole part. -/
theorem Carried.runs_part
    {withTails : Bool}
    (carried : proof.Carried programs payer accounts)
    (written : withTails = false → proof.staged.tailWrite = none)
    (paid : payer ∈ signers) (signed : proof.context ∈ signers)
    (blank : accounts proof.context = none) :
    ∃ after,
      runTransaction programs signers (proof.part withTails) accounts =
        some after := by
  obtain ⟨middle, prepared⟩ := carried.runs_preparation paid signed blank
  obtain ⟨_, space, isMiddle⟩ := carried.run_preparation written prepared
  obtain ⟨_, isRecord⟩ := carried.isRecord
  have different : proof.record ≠ proof.context := by
    intro same
    rw [same, blank] at isRecord
    cases isRecord
  have found : middle proof.record = some (.record payer proof.bytes) := by
    rw [isMiddle, Function.update_of_ne different, Function.update_self]
  have opened : middle proof.context =
      some (.uninitialized programs.zkElGamalProof space) := by
    rw [isMiddle, Function.update_self]
  have verified :
      (Instruction.verifyProofFromAccount proof.instruction
          (some (contextInfo proof.context payer)) proof.record
          RecordData.WRITABLE_START_INDEX).run programs signers middle =
        some _ :=
    run_verifyProofFromAccount_of found opened
  rw [part_eq, runTransaction_append, prepared, Option.bind_some,
    runTransaction_singleton, carried.verify]
  exact ⟨_, verified⟩

end StagedProof

/-- The staged parts run one after another where their contexts are empty,
different and sign. -/
theorem runs_stagedParts
    {withTails : Bool} {proofs : List StagedProof}
    (carried : ∀ proof ∈ proofs, proof.Carried programs payer accounts)
    (records : (proofs.map (·.record)).Nodup)
    (contexts : (proofs.map StagedProof.context).Nodup)
    (written : ∀ proof ∈ proofs,
      withTails = false → proof.staged.tailWrite = none)
    (paid : payer ∈ signers)
    (signed : ∀ proof ∈ proofs, proof.context ∈ signers)
    (blank : ∀ proof ∈ proofs, accounts proof.context = none) :
    ∃ after,
      runTransaction programs signers
        (proofs.flatMap (StagedProof.part withTails)) accounts =
          some after := by
  induction proofs generalizing accounts with
  | nil => exact ⟨accounts, rfl⟩
  | cons proof rest inductionHypothesis =>
      rw [List.map_cons, List.nodup_cons] at records contexts
      obtain ⟨middle, first⟩ :=
        (carried proof List.mem_cons_self).runs_part
          (written proof List.mem_cons_self) paid
          (signed proof List.mem_cons_self) (blank proof List.mem_cons_self)
      obtain ⟨_, landed⟩ := (carried proof List.mem_cons_self).run_part
        (written proof List.mem_cons_self) first
      have isRecord : ∀ other ∈ proof :: rest,
          accounts other.record ≠ none := by
        intro other member empty
        obtain ⟨_, found⟩ := (carried other member).isRecord
        rw [empty] at found
        cases found
      have middleRecord : ∀ other ∈ rest,
          middle other.record = accounts other.record := by
        intro other member
        have inside := List.mem_cons_of_mem proof member
        rw [landed, Function.update_of_ne, Function.update_of_ne]
        · intro same
          exact records.1 (same ▸ List.mem_map_of_mem member)
        · intro same
          exact isRecord other inside
            (same ▸ blank proof List.mem_cons_self)
      have middleContext : ∀ other ∈ rest,
          middle other.context = none := by
        intro other member
        have inside := List.mem_cons_of_mem proof member
        rw [landed, Function.update_of_ne, Function.update_of_ne]
        · exact blank other inside
        · intro same
          exact isRecord proof List.mem_cons_self
            (same ▸ blank other inside)
        · intro same
          exact contexts.1 (same ▸ List.mem_map_of_mem member)
      obtain ⟨after, ran⟩ := inductionHypothesis
        (fun other member =>
          (carried other (List.mem_cons_of_mem _ member)).frame
            (middleRecord other member))
        records.2 contexts.2
        (fun other member => written other (List.mem_cons_of_mem _ member))
        (fun other member => signed other (List.mem_cons_of_mem _ member))
        middleContext
      refine ⟨after, ?_⟩
      rw [List.flatMap_cons, runTransaction_append, first, Option.bind_some]
      exact ran

/-! ## The caller's instructions -/

/-- A Token-2022 instruction, or a proof that is verified on the spot for the
instruction next to it. -/
def Instruction.UsesProofs : Instruction → Prop
  | .token _ => True
  | .verifyProof _ context _ => context = none
  | _ => False

/-- An account with a proof in it, verified or on its way. -/
def Account.HoldsProof : Account → Prop
  | .context .. => True
  | .record .. => True
  | _ => False

theorem run_usesProofs
    {instruction : Instruction} {account : Account}
    (uses : instruction.UsesProofs)
    (found : accounts address = some account) (holds : account.HoldsProof)
    (ran : instruction.run programs signers accounts = some after) :
    after address = some account := by
  simp only [Instruction.run, Option.map_eq_some_iff] at ran
  obtain ⟨change, succeeded, rfl⟩ := ran
  cases change with
  | keep => exact found
  | set changed written =>
      have different : address ≠ changed := by
        rintro rfl
        cases instruction with
        | token instruction =>
            obtain ⟨state, isMint⟩ := mint_of_tokenEffect succeeded
            rw [found] at isMint
            cases isMint
            exact holds
        | verifyProof instruction context proof =>
            have inline : context = none := uses
            rw [inline] at succeeded
            cases succeeded
        | _ => exact uses.elim
      exact (Function.update_of_ne different ..).trans found

theorem runTransaction_usesProofs
    {instructions : List Instruction} {account : Account}
    (uses : ∀ instruction ∈ instructions, instruction.UsesProofs)
    (found : accounts address = some account) (holds : account.HoldsProof)
    (ran :
      runTransaction programs signers instructions accounts = some after) :
    after address = some account := by
  induction instructions generalizing accounts with
  | nil =>
      cases ran
      exact found
  | cons instruction rest inductionHypothesis =>
      obtain ⟨middle, first, restRan⟩ := runTransaction_cons_eq_some ran
      exact inductionHypothesis
        (fun other member => uses other (List.mem_cons_of_mem _ member))
        (run_usesProofs (uses instruction List.mem_cons_self) found holds
          first)
        restRan

/-! ## The closing instructions -/

/-- What the instruction closes is an account of the payer. -/
def Instruction.ClosesFor (payer : Address) (accounts : Accounts)
    (instruction : Instruction) : Prop :=
  (∃ context proof bytes,
      instruction = .closeContextState (contextInfo context payer) payer ∧
        accounts context = some (.context payer proof bytes)) ∨
    ∃ record payload,
      instruction = .recordCloseAccount record payer payer ∧
        accounts record = some (.record payer payload)

theorem Instruction.ClosesFor.runs
    {instruction : Instruction}
    (closes : instruction.ClosesFor payer accounts)
    (programs : Programs) (paid : payer ∈ signers) :
    ∃ target, instruction.closes = some target ∧
      instruction.run programs signers accounts =
        some (Function.update accounts target none) := by
  rcases closes with
    ⟨context, proof, bytes, rfl, found⟩ | ⟨record, payload, rfl, found⟩
  · exact ⟨context, rfl, by
      simp [Instruction.run, Instruction.effect, contextInfo, found, paid,
        Change.run]⟩
  · exact ⟨record, rfl, by
      simp [Instruction.run, Instruction.effect, found, paid, Change.run]⟩

theorem Instruction.ClosesFor.frame
    {instruction : Instruction} {target : Address}
    (closes : instruction.ClosesFor payer accounts)
    (different : instruction.closes ≠ some target) :
    instruction.ClosesFor payer (Function.update accounts target none) := by
  rcases closes with
    ⟨context, proof, bytes, rfl, found⟩ | ⟨record, payload, rfl, found⟩
  · have apart : context ≠ target := fun same =>
      different (congrArg some same)
    exact .inl ⟨context, proof, bytes, rfl, by
      rwa [Function.update_of_ne apart]⟩
  · have apart : record ≠ target := fun same => different (congrArg some same)
    exact .inr ⟨record, payload, rfl, by
      rwa [Function.update_of_ne apart]⟩

/-- Close instructions for different accounts of the payer run. -/
theorem runs_closings
    {instructions : List Instruction} {targets : List Address}
    (closing : instructions.map Instruction.closes = targets.map some)
    (distinct : targets.Nodup) (paid : payer ∈ signers)
    (closes : ∀ instruction ∈ instructions,
      instruction.ClosesFor payer accounts) :
    ∃ after,
      runTransaction programs signers instructions accounts =
        some after := by
  induction instructions generalizing accounts targets with
  | nil => exact ⟨accounts, rfl⟩
  | cons instruction rest inductionHypothesis =>
      cases targets with
      | nil => simp at closing
      | cons first others =>
          rw [List.map_cons, List.map_cons, List.cons.injEq] at closing
          rw [List.nodup_cons] at distinct
          obtain ⟨target, isTarget, ran⟩ :=
            (closes instruction List.mem_cons_self).runs programs paid
          rw [closing.1] at isTarget
          cases isTarget
          have apart : ∀ other ∈ rest, other.closes ≠ some first := by
            intro other member same
            have inside := List.mem_map_of_mem (f := Instruction.closes)
              member
            rw [closing.2, same] at inside
            obtain ⟨address, among, equal⟩ := List.mem_map.mp inside
            cases equal
            exact distinct.1 among
          obtain ⟨after, restRan⟩ := inductionHypothesis closing.2 distinct.2
            fun other member =>
              (closes other (List.mem_cons_of_mem _ member)).frame
                (apart other member)
          exact ⟨after, by simp only [runTransaction, ran, Option.bind_some,
            restRan]⟩

end Remit
