import Remit.Solana.Accounts

/-!
# Who can change an account

Every instruction that changes an account does so with a power over it: the
key of an empty address, the authority of an initialized account, or nothing
where the account is not initialized yet.  An account over which outsiders
have no power keeps its contents, whatever they send.
-/

namespace Remit

/-- Whether the signatures of `signers` allow to change what is stored at
`address`. -/
def Changeable (signers : List Address) (address : Address) :
    Option Account → Prop
  | none => address ∈ signers
  | some (.uninitialized _ _) => True
  | some (.context authority _ _) => authority ∈ signers
  | some (.record authority _) => authority ∈ signers
  | some (.mint state) =>
      state.base = none ∨
        ∃ type authority,
          state.authority type = some authority ∧ authority ∈ signers

/-- The contents of an address over which only `held` keys have power.  An
account that is not initialized is never secured. -/
def Secured (held : Address → Prop) (address : Address) :
    Option Account → Prop
  | none => held address
  | some (.uninitialized _ _) => False
  | some (.context authority _ _) => held authority
  | some (.record authority _) => held authority
  | some (.mint state) =>
      state.base ≠ none ∧
        ∀ type authority, state.authority type = some authority →
          held authority

variable {programs : Programs} {signers : List Address}
  {accounts after : Accounts} {address : Address}

/-- A guarded change that is carried out is allowed. -/
private theorem allowed_of_guarded_set
    {allowed : Prop} [Decidable allowed] {changed : Address}
    {account written : Option Account}
    (succeeded :
      (if allowed then some (Change.set changed written) else none) =
        some (.set address account)) :
    allowed ∧ changed = address := by
  split at succeeded
  case isTrue holds =>
      simp only [Option.some.injEq, Change.set.injEq] at succeeded
      exact ⟨holds, succeeded.1⟩
  case isFalse => simp at succeeded

private theorem changeable_of_verifiedInto
    {instruction : ProofInstruction} {proof : Bytes}
    {context : Option ContextStateInfo} {account : Option Account}
    (verified :
      verifiedInto programs accounts instruction proof context =
        some (.set address account)) :
    Changeable signers address (accounts address) := by
  cases context with
  | none => simp [verifiedInto] at verified
  | some context =>
      simp only [verifiedInto] at verified
      split at verified
      case h_1 owner space found =>
          obtain ⟨_, rfl⟩ := allowed_of_guarded_set verified
          rw [found]
          trivial
      case h_2 => simp at verified

private theorem changeable_of_tokenEffect
    {instruction : TokenInstruction} {account : Option Account}
    (succeeded :
      instruction.effect signers accounts = some (.set address account)) :
    Changeable signers address (accounts address) := by
  cases instruction <;> simp only [TokenInstruction.effect] at succeeded
  case initializeExtension mint config =>
      split at succeeded
      case h_1 state found =>
          obtain ⟨blank, rfl⟩ := allowed_of_guarded_set succeeded
          rw [found]
          exact Or.inl blank.1
      case h_2 => simp at succeeded
  case initializeMint2 mint mintAuthority freezeAuthority decimals =>
      split at succeeded
      case h_1 state found =>
          obtain ⟨blank, rfl⟩ := allowed_of_guarded_set succeeded
          rw [found]
          exact Or.inl blank
      case h_2 => simp at succeeded
  case closeAccount closed destination authority =>
      split at succeeded
      case h_1 state found =>
          obtain ⟨allowed, rfl⟩ := allowed_of_guarded_set succeeded
          rw [found]
          exact Or.inr ⟨.closeAccount, authority, allowed.2, allowed.1⟩
      case h_2 => simp at succeeded
  case setAuthority changed authority type newAuthority =>
      split at succeeded
      case h_1 state found =>
          obtain ⟨allowed, rfl⟩ := allowed_of_guarded_set succeeded
          rw [found]
          exact Or.inr ⟨type, authority, allowed.2, allowed.1⟩
      case h_2 => simp at succeeded
  all_goals simp at succeeded

/-- An instruction that changes an account has the power to. -/
theorem changeable_of_effect
    {instruction : Instruction} {account : Option Account}
    (succeeded :
      instruction.effect programs signers accounts =
        some (.set address account)) :
    Changeable signers address (accounts address) := by
  cases instruction with
  | setComputeUnitLimit units => simp [Instruction.effect] at succeeded
  | createAccount fromAddress toAddress lamports space owner =>
      simp only [Instruction.effect] at succeeded
      obtain ⟨allowed, rfl⟩ := allowed_of_guarded_set succeeded
      rw [allowed.2.2]
      exact allowed.2.1
  | recordInitialize record authority =>
      simp only [Instruction.effect] at succeeded
      split at succeeded
      case h_1 owner space found =>
          obtain ⟨_, rfl⟩ := allowed_of_guarded_set succeeded
          rw [found]
          trivial
      case h_2 => simp at succeeded
  | recordWrite record authority offset data =>
      simp only [Instruction.effect] at succeeded
      split at succeeded
      case h_1 owner payload found =>
          obtain ⟨allowed, rfl⟩ := allowed_of_guarded_set succeeded
          rw [found, allowed.1]
          exact allowed.2.1
      case h_2 => simp at succeeded
  | recordSetAuthority record authority newAuthority =>
      simp only [Instruction.effect] at succeeded
      split at succeeded
      case h_1 owner payload found =>
          obtain ⟨allowed, rfl⟩ := allowed_of_guarded_set succeeded
          rw [found, allowed.1]
          exact allowed.2
      case h_2 => simp at succeeded
  | recordCloseAccount record authority receiver =>
      simp only [Instruction.effect] at succeeded
      split at succeeded
      case h_1 owner payload found =>
          obtain ⟨allowed, rfl⟩ := allowed_of_guarded_set succeeded
          rw [found, allowed.1]
          exact allowed.2
      case h_2 => simp at succeeded
  | verifyProof instruction context proof =>
      exact changeable_of_verifiedInto succeeded
  | verifyProofFromAccount instruction context record offset =>
      simp only [Instruction.effect] at succeeded
      split at succeeded
      case h_1 => exact changeable_of_verifiedInto succeeded
      case h_2 => simp at succeeded
  | closeContextState context destination =>
      simp only [Instruction.effect] at succeeded
      split at succeeded
      case h_1 authority instruction proof found =>
          obtain ⟨allowed, rfl⟩ := allowed_of_guarded_set succeeded
          rw [found]
          exact allowed.2
      case h_2 => simp at succeeded
  | token instruction => exact changeable_of_tokenEffect succeeded

/-- An instruction without power over an account leaves it alone. -/
theorem run_unchanged
    {instruction : Instruction}
    (powerless : ¬ Changeable signers address (accounts address))
    (ran : instruction.run programs signers accounts = some after) :
    after address = accounts address := by
  simp only [Instruction.run, Option.map_eq_some_iff] at ran
  obtain ⟨change, succeeded, rfl⟩ := ran
  cases change with
  | keep => rfl
  | set changed account =>
      have different : address ≠ changed := by
        rintro rfl
        exact powerless (changeable_of_effect succeeded)
      exact Function.update_of_ne different ..

/-- Keys that are not held have no power over a secured account. -/
theorem not_changeable_of_secured
    {held : Address → Prop} {account : Option Account}
    (secured : Secured held address account)
    (foreign : ∀ key ∈ signers, ¬ held key) :
    ¬ Changeable signers address account := by
  intro changeable
  rcases account with
    _ | ⟨_ | ⟨authority, _, _⟩ | ⟨authority, _⟩ | state⟩
  · exact foreign address changeable secured
  · exact secured
  · exact foreign authority changeable secured
  · exact foreign authority changeable secured
  · rcases changeable with blank | ⟨type, authority, power, signed⟩
    · exact secured.1 blank
    · exact foreign authority signed (secured.2 type authority power)

namespace Outsiders

variable {held : Address → Prop} {before : Accounts}

theorem refl (accounts : Accounts) : Outsiders programs held accounts accounts :=
  Relation.ReflTransGen.refl

theorem trans
    {middle : Accounts}
    (first : Outsiders programs held before middle)
    (second : Outsiders programs held middle after) :
    Outsiders programs held before after :=
  Relation.ReflTransGen.trans first second

/-- Outsiders cannot change a secured account. -/
theorem unchanged
    (outside : Outsiders programs held before after)
    (secured : Secured held address (before address)) :
    after address = before address := by
  induction outside with
  | refl => rfl
  | tail _ last inductionHypothesis =>
      obtain ⟨signers, instruction, foreign, ran⟩ := last
      rw [← inductionHypothesis] at secured
      rw [run_unchanged (not_changeable_of_secured secured foreign) ran,
        inductionHypothesis]

theorem secured
    (outside : Outsiders programs held before after)
    (secured : Secured held address (before address)) :
    Secured held address (after address) := by
  rwa [outside.unchanged secured]

end Outsiders
end Remit
