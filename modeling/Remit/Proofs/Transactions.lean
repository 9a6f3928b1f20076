import Remit.Proofs

/-!
# What the transactions of a proof operation do

For each kind of transaction that a proof operation sends, what its success
says about the accounts before it and leaves after it.
-/

namespace Remit

variable {programs : Programs} {signers : List Address}
  {accounts after : Accounts}

theorem runTransaction_append (first second : List Instruction) :
    runTransaction programs signers (first ++ second) accounts =
      (runTransaction programs signers first accounts).bind
        (runTransaction programs signers second) := by
  induction first generalizing accounts with
  | nil => rfl
  | cons instruction rest inductionHypothesis =>
      simp only [List.cons_append, runTransaction, Option.bind_assoc]
      congr 1
      funext middle
      exact inductionHypothesis

theorem runTransaction_append_eq_some
    {first second : List Instruction}
    (ran :
      runTransaction programs signers (first ++ second) accounts =
        some after) :
    ∃ middle,
      runTransaction programs signers first accounts = some middle ∧
        runTransaction programs signers second middle = some after := by
  rw [runTransaction_append] at ran
  exact Option.bind_eq_some_iff.mp ran

theorem runTransaction_cons_eq_some
    {instruction : Instruction} {rest : List Instruction}
    (ran :
      runTransaction programs signers (instruction :: rest) accounts =
        some after) :
    ∃ middle,
      instruction.run programs signers accounts = some middle ∧
        runTransaction programs signers rest middle = some after :=
  Option.bind_eq_some_iff.mp ran

@[simp]
theorem runTransaction_singleton (instruction : Instruction) :
    runTransaction programs signers [instruction] accounts =
      instruction.run programs signers accounts := by
  simp only [runTransaction]
  exact Option.bind_fun_some _

/-! ## Single instructions -/

@[simp]
theorem run_setComputeUnitLimit (units : Nat) :
    (Instruction.setComputeUnitLimit units).run programs signers accounts =
      some accounts :=
  rfl

/-- A proof account is created where nothing is, and is not initialized. -/
theorem run_createAccount
    {fromAddress toAddress owner : Address} {lamports space : Nat}
    (proofOwner : owner = programs.record ∨ owner = programs.zkElGamalProof)
    (ran :
      (Instruction.createAccount fromAddress toAddress lamports space owner).run
        programs signers accounts = some after) :
    accounts toAddress = none ∧
      after =
        Function.update accounts toAddress
          (some (.uninitialized owner space)) := by
  simp only [Instruction.run, Instruction.effect, Option.map_eq_some_iff] at ran
  obtain ⟨change, succeeded, rfl⟩ := ran
  split at succeeded
  case isTrue allowed =>
      cases succeeded
      exact ⟨allowed.2.2, by simp [Change.run, createdAccount, proofOwner]⟩
  case isFalse => cases succeeded

theorem run_recordInitialize
    {record authority : Address} {space : Nat}
    (fresh : accounts record = some (.uninitialized programs.record space))
    (ran :
      (Instruction.recordInitialize record authority).run
        programs signers accounts = some after) :
    after =
      Function.update accounts record
        (some (.record authority
          (List.replicate (space - RecordData.WRITABLE_START_INDEX) 0))) := by
  simp only [Instruction.run, Instruction.effect, Option.map_eq_some_iff,
    fresh] at ran
  obtain ⟨change, succeeded, rfl⟩ := ran
  split at succeeded
  case isTrue => cases succeeded; rfl
  case isFalse => cases succeeded

theorem run_recordWrite
    {record authority : Address} {offset : Nat} {data : Bytes}
    (ran :
      (Instruction.recordWrite record authority offset data).run
        programs signers accounts = some after) :
    ∃ payload,
      accounts record = some (.record authority payload) ∧
        offset + data.length ≤ payload.length ∧
          after =
            Function.update accounts record
              (some (.record authority
                (Overwrite.overwrite payload offset data))) := by
  simp only [Instruction.run, Instruction.effect, Option.map_eq_some_iff] at ran
  obtain ⟨change, succeeded, rfl⟩ := ran
  split at succeeded
  case h_1 owner payload found =>
      split at succeeded
      case isTrue allowed =>
          cases succeeded
          obtain ⟨rfl, _, fits⟩ := allowed
          exact ⟨payload, found, fits, rfl⟩
      case isFalse => cases succeeded
  case h_2 => cases succeeded

theorem run_recordCloseAccount
    {record authority receiver : Address}
    (ran :
      (Instruction.recordCloseAccount record authority receiver).run
        programs signers accounts = some after) :
    after = Function.update accounts record none := by
  simp only [Instruction.run, Instruction.effect, Option.map_eq_some_iff] at ran
  obtain ⟨change, succeeded, rfl⟩ := ran
  split at succeeded
  case h_1 =>
      split at succeeded
      case isTrue => cases succeeded; rfl
      case isFalse => cases succeeded
  case h_2 => cases succeeded

theorem run_closeContextState
    {context : ContextStateInfo} {destination : Address}
    (ran :
      (Instruction.closeContextState context destination).run
        programs signers accounts = some after) :
    after = Function.update accounts context.contextStateAccount none := by
  simp only [Instruction.run, Instruction.effect, Option.map_eq_some_iff] at ran
  obtain ⟨change, succeeded, rfl⟩ := ran
  split at succeeded
  case h_1 =>
      split at succeeded
      case isTrue => cases succeeded; rfl
      case isFalse => cases succeeded
  case h_2 => cases succeeded

theorem run_verifyProof
    {instruction : ProofInstruction} {context : ContextStateInfo}
    {proof : Bytes}
    (ran :
      (Instruction.verifyProof instruction (some context) proof).run
        programs signers accounts = some after) :
    after =
      Function.update accounts context.contextStateAccount
        (some (.context context.contextStateAuthority instruction proof)) := by
  simp only [Instruction.run, Instruction.effect, verifiedInto,
    Option.map_eq_some_iff] at ran
  obtain ⟨change, succeeded, rfl⟩ := ran
  split at succeeded
  case h_1 =>
      split at succeeded
      case isTrue => cases succeeded; rfl
      case isFalse => cases succeeded
  case h_2 => cases succeeded

/-- A verification from a record reads the whole payload. -/
theorem run_verifyProofFromAccount
    {instruction : ProofInstruction} {context : ContextStateInfo}
    {record : Address}
    (ran :
      (Instruction.verifyProofFromAccount instruction (some context) record
        RecordData.WRITABLE_START_INDEX).run programs signers accounts =
          some after) :
    ∃ authority payload,
      accounts record = some (.record authority payload) ∧
        after =
          Function.update accounts context.contextStateAccount
            (some (.context context.contextStateAuthority instruction
              payload)) := by
  simp only [Instruction.run, Instruction.effect, Option.map_eq_some_iff] at ran
  obtain ⟨change, succeeded, rfl⟩ := ran
  split at succeeded
  case h_1 authority payload found =>
      refine ⟨authority, payload, found, ?_⟩
      simp only [verifiedInto, Nat.sub_self, List.drop_zero] at succeeded
      split at succeeded
      case h_1 =>
          split at succeeded
          case isTrue => cases succeeded; rfl
          case isFalse => cases succeeded
      case h_2 => cases succeeded
  case h_2 => cases succeeded

/-! ## Whole transactions -/

/-- Creating a context and verifying into it succeeds only at an empty address,
and leaves exactly the verified context there. -/
theorem runTransaction_verify
    {payer context : Address} {lamports space units : Nat}
    {instruction : ProofInstruction} {proof : Bytes}
    (ran :
      runTransaction programs signers
        (withComputeUnitLimit units
          [.createAccount payer context lamports space
              programs.zkElGamalProof,
            .verifyProof instruction (some (contextInfo context payer)) proof])
        accounts = some after) :
    accounts context = none ∧
      after =
        Function.update accounts context
          (some (.context payer instruction proof)) := by
  obtain ⟨_, limited, ran⟩ := runTransaction_cons_eq_some ran
  cases limited
  obtain ⟨created, creation, ran⟩ := runTransaction_cons_eq_some ran
  obtain ⟨empty, rfl⟩ := run_createAccount (Or.inr rfl) creation
  rw [runTransaction_singleton] at ran
  refine ⟨empty, ?_⟩
  rw [run_verifyProof ran]
  exact Function.update_idem ..

/-- The opening transaction of a record leaves an initialized record with the
chunk at its start. -/
theorem runTransaction_recordOpening
    {payer record : Address} {lamports space : Nat} {chunk : Bytes}
    (ran :
      runTransaction programs signers
        (recordOpening programs payer record lamports space chunk)
        accounts = some after) :
    accounts record = none ∧
      chunk.length ≤ space - RecordData.WRITABLE_START_INDEX ∧
      after =
        Function.update accounts record
          (some (.record payer
            (Overwrite.overwrite
              (List.replicate (space - RecordData.WRITABLE_START_INDEX) 0)
              0 chunk))) := by
  obtain ⟨created, creation, ran⟩ := runTransaction_cons_eq_some ran
  obtain ⟨empty, rfl⟩ := run_createAccount (Or.inl rfl) creation
  obtain ⟨initialized, initialization, ran⟩ := runTransaction_cons_eq_some ran
  rw [run_recordInitialize (Function.update_self ..) initialization,
    Function.update_idem, runTransaction_singleton] at ran
  obtain ⟨payload, found, fits, rfl⟩ := run_recordWrite ran
  rw [Function.update_self] at found
  cases found
  refine ⟨empty, by simpa using fits, ?_⟩
  exact Function.update_idem ..

/-- The account an instruction closes, if it is a close instruction. -/
def Instruction.closes : Instruction → Option Address
  | .closeContextState context _ => some context.contextStateAccount
  | .recordCloseAccount record _ _ => some record
  | _ => none

theorem run_close
    {instruction : Instruction} {target : Address}
    (closing : instruction.closes = some target)
    (ran : instruction.run programs signers accounts = some after) :
    after = Function.update accounts target none := by
  cases instruction <;> simp only [Instruction.closes, Option.some.injEq,
    reduceCtorEq] at closing
  case recordCloseAccount record authority receiver =>
      rw [run_recordCloseAccount ran, closing]
  case closeContextState context destination =>
      rw [run_closeContextState ran, closing]

/-- A sequence of close instructions empties the accounts it names and leaves
the others alone. -/
theorem runTransaction_closes
    {instructions : List Instruction} {targets : List Address}
    (closing : instructions.map Instruction.closes = targets.map some)
    (ran :
      runTransaction programs signers instructions accounts = some after) :
    ∀ address,
      after address = if address ∈ targets then none else accounts address := by
  induction instructions generalizing targets accounts with
  | nil =>
      have noTargets : targets = [] := by simpa using closing.symm
      subst noTargets
      cases ran
      simp
  | cons instruction rest inductionHypothesis =>
      cases targets with
      | nil => simp at closing
      | cons target others =>
          simp only [List.map_cons, List.cons.injEq] at closing
          obtain ⟨middle, first, ran⟩ := runTransaction_cons_eq_some ran
          intro address
          rw [inductionHypothesis closing.2 ran, run_close closing.1 first]
          by_cases same : address = target
          · simp [same]
          · simp [same]

/-! ## Instructions that leave proof accounts and mints alone -/

/-- A Token-2022 instruction that neither initializes nor closes anything and
hands no authority over. -/
def TokenInstruction.SparesMints : TokenInstruction → Prop
  | initializeExtension .. | initializeMint2 .. | closeAccount ..
  | setAuthority .. => False
  | _ => True

/-- An instruction that leaves every proof account and every mint alone. -/
def Instruction.Inert : Instruction → Prop
  | .setComputeUnitLimit _ => True
  | .verifyProof _ context _ => context = none
  | .token instruction => instruction.SparesMints
  | _ => False

theorem run_inert
    {instruction : Instruction}
    (inert : instruction.Inert)
    (ran : instruction.run programs signers accounts = some after) :
    after = accounts := by
  cases instruction <;> simp only [Instruction.Inert] at inert
  case setComputeUnitLimit units => cases ran; rfl
  case verifyProof instruction context proof =>
      subst inert
      cases ran
      rfl
  case token instruction =>
      cases instruction <;>
        first
          | exact inert.elim
          | cases ran; rfl

theorem runTransaction_inert
    {instructions : List Instruction}
    (inert : ∀ instruction ∈ instructions, instruction.Inert)
    (ran :
      runTransaction programs signers instructions accounts = some after) :
    after = accounts := by
  induction instructions generalizing accounts with
  | nil => cases ran; rfl
  | cons instruction rest inductionHypothesis =>
      obtain ⟨middle, first, restRan⟩ := runTransaction_cons_eq_some ran
      rw [run_inert (inert instruction (by simp)) first] at restRan
      exact inductionHypothesis
        (fun other member => inert other (List.mem_cons_of_mem _ member))
        restRan

end Remit
