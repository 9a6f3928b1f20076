import Remit.Proofs.Soundness

/-!
# What the library's transactions leave behind

Every transaction the library sends has one of a few shapes.  Whatever such a
transaction creates is complete when it lands: a context holds its verified
proof, a record is initialized, a mint has everything that was planned.  What
is complete is out of the reach of outsiders.
-/

namespace Remit

/-- A mint that is planned: its extensions in the order of their inits, and
what `InitializeMint2` writes. -/
structure PlannedMint where
  mint : Address
  lamports : Nat
  space : Nat
  configs : List ExtensionConfig
  mintAuthority : Address
  freezeAuthority : Option Address
  decimals : Nat

namespace PlannedMint

variable (plan : PlannedMint)

/-- The mint once everything was initialized. -/
def state : MintState where
  space := plan.space
  extensions := plan.configs
  base := some ⟨some plan.mintAuthority, plan.freezeAuthority, plan.decimals⟩

/-- The inits of the extensions. -/
def inits : List Instruction :=
  plan.configs.map fun config => .token (.initializeExtension plan.mint config)

/-- The transaction that creates the mint. -/
def transaction (programs : Programs) (payer : Address) : List Instruction :=
  .createAccount payer plan.mint plan.lamports plan.space programs.token2022 ::
    plan.inits ++
    [.token (.initializeMint2 plan.mint plan.mintAuthority
      plan.freezeAuthority plan.decimals)]

/-- All authorities that are planned are held. -/
def Held (held : Address → Prop) : Prop :=
  ∀ type authority, plan.state.authority type = some authority →
    held authority

end PlannedMint

/-- The transaction that `verify` sends. -/
def verifying (programs : Programs) (payer context : Address)
    (units lamports space : Nat) (instruction : ProofInstruction)
    (proof : Bytes) : List Instruction :=
  withComputeUnitLimit units
    [.createAccount payer context lamports space programs.zkElGamalProof,
      .verifyProof instruction (some (contextInfo context payer)) proof]

/-- A staged proof whose instructions create its context and verify into it,
and whose tail is a record write. -/
structure Staged.Vetted (C : Cluster) (staged : Staged) : Prop where
  held : C.held staged.context.pubkey
  create : ∃ lamports space,
    staged.create =
      .createAccount C.payer staged.context.pubkey lamports space
        C.programs.zkElGamalProof
  verify : ∃ instruction record,
    staged.verify =
      .verifyProofFromAccount instruction
        (some (contextInfo staged.context.pubkey C.payer)) record
        RecordData.WRITABLE_START_INDEX
  tail : ∀ write, staged.tailWrite = some write →
    ∃ record offset data, write = .recordWrite record C.payer offset data

/-- Every staged proof is vetted. -/
def ProofAccounts.Vetted (C : Cluster) (self : ProofAccounts) : Prop :=
  ∀ staged ∈ self.staged, staged.Vetted C

/-- The transactions that the library sends for proofs and for mints. -/
inductive Shape (C : Cluster) : List Instruction → Prop where
  | verifying {context : Address} (units lamports space : Nat)
      (instruction : ProofInstruction) (proof : Bytes) :
      C.held context →
      Shape C
        (verifying C.programs C.payer context units lamports space instruction
          proof)
  | opening {record : Address} (lamports space : Nat) (chunk : Bytes) :
      C.held record →
      Shape C (recordOpening C.programs C.payer record lamports space chunk)
  | writing (record : Address) (offset : Nat) (data : Bytes) :
      Shape C [.recordWrite record C.payer offset data]
  | closing (units : Nat) {closes : List Instruction} :
      (∀ instruction ∈ closes, ∃ target, instruction.closes = some target) →
      Shape C (withComputeUnitLimit units closes)
  | consuming (units : Nat) {self : ProofAccounts}
      {instructions : List Instruction} (withTails : Bool) :
      self.Vetted C → (∀ instruction ∈ instructions, instruction.Inert) →
      Shape C
        (withComputeUnitLimit units
          (self.consuming C.payer instructions withTails))
  | creatingMint {plan : PlannedMint} :
      C.held plan.mint → plan.Held C.held →
      Shape C (plan.transaction C.programs C.payer)
  | inert {instructions : List Instruction} :
      (∀ instruction ∈ instructions, instruction.Inert) →
      Shape C instructions

/-- What may be at an address where the library created an account, given the
transactions that landed: nothing any more, or an account that is complete. -/
inductive Completed (C : Cluster) (landed : List (List Instruction))
    (address : Address) : Option Account → Prop where
  | closed : Completed C landed address none
  | verified {units lamports space : Nat} {instruction : ProofInstruction}
      {proof : Bytes} :
      verifying C.programs C.payer address units lamports space instruction
          proof ∈ landed →
      Completed C landed address (some (.context C.payer instruction proof))
  | recorded (payload : Bytes) :
      Completed C landed address (some (.record C.payer payload))
  | minted {plan : PlannedMint} :
      plan.mint = address →
      plan.transaction C.programs C.payer ∈ landed → plan.Held C.held →
      Completed C landed address (some (.mint plan.state))

namespace Completed

variable {C : Cluster} {landed more : List (List Instruction)}
  {address : Address} {account : Option Account}

theorem mono
    (completed : Completed C landed address account)
    (subset : ∀ transaction ∈ landed, transaction ∈ more) :
    Completed C more address account := by
  cases completed with
  | closed => exact .closed
  | verified member => exact .verified (subset _ member)
  | recorded payload => exact .recorded payload
  | minted here member held => exact .minted here (subset _ member) held

/-- A complete account is in nobody else's reach. -/
theorem secured
    (completed : Completed C landed address account) (held : C.held address) :
    Secured C.held address account := by
  cases completed with
  | closed => exact held
  | verified => exact C.held_payer
  | recorded => exact C.held_payer
  | minted _ _ authorities => exact ⟨by simp [PlannedMint.state], authorities⟩

end Completed

/-! ## One transaction -/

section Landing

variable {C : Cluster} {signers : List Address} {accounts after : Accounts}

theorem run_initializeExtension
    {programs : Programs} {mint : Address} {config : ExtensionConfig}
    {state : MintState} (found : accounts mint = some (.mint state))
    (ran :
      (Instruction.token (.initializeExtension mint config)).run programs
        signers accounts = some after) :
    after =
      Function.update accounts mint
        (some (.mint { state with extensions := state.extensions ++ [config] })) := by
  simp only [Instruction.run, Instruction.effect, TokenInstruction.effect,
    found, Option.map_eq_some_iff] at ran
  obtain ⟨change, succeeded, rfl⟩ := ran
  split at succeeded
  case isTrue =>
      cases succeeded
      rfl
  case isFalse => cases succeeded

theorem run_initializeMint2
    {programs : Programs} {mint mintAuthority : Address}
    {freezeAuthority : Option Address} {decimals : Nat} {state : MintState}
    (found : accounts mint = some (.mint state))
    (ran :
      (Instruction.token
        (.initializeMint2 mint mintAuthority freezeAuthority decimals)).run
        programs signers accounts = some after) :
    after =
      Function.update accounts mint
        (some (.mint
          { state with
            base := some ⟨some mintAuthority, freezeAuthority, decimals⟩ })) := by
  simp only [Instruction.run, Instruction.effect, TokenInstruction.effect,
    found, Option.map_eq_some_iff] at ran
  obtain ⟨change, succeeded, rfl⟩ := ran
  split at succeeded
  case isTrue =>
      cases succeeded
      rfl
  case isFalse => cases succeeded

/-- The inits of a mint append their extensions one after another. -/
theorem runTransaction_inits
    {programs : Programs} {mint : Address} {configs : List ExtensionConfig}
    {state : MintState} (found : accounts mint = some (.mint state))
    (ran :
      runTransaction programs signers
        (configs.map fun config =>
          .token (.initializeExtension mint config)) accounts = some after) :
    after =
      Function.update accounts mint
        (some (.mint
          { state with extensions := state.extensions ++ configs })) := by
  induction configs generalizing accounts state with
  | nil =>
      cases ran
      rw [List.append_nil, ← found, Function.update_eq_self]
  | cons config rest inductionHypothesis =>
      obtain ⟨middle, first, ran⟩ := runTransaction_cons_eq_some ran
      obtain rfl := run_initializeExtension found first
      have last := inductionHypothesis (Function.update_self ..) ran
      rw [last, Function.update_idem]
      simp

theorem run_createMint
    {programs : Programs} {fromAddress mint : Address} {lamports space : Nat}
    (ran :
      (Instruction.createAccount fromAddress mint lamports space
        programs.token2022).run programs signers accounts = some after) :
    after =
      Function.update accounts mint (some (.mint ⟨space, [], none⟩)) := by
  have distinct := programs.distinct
  simp only [List.nodup_cons, List.mem_cons, List.not_mem_nil, or_false,
    not_or] at distinct
  simp only [Instruction.run, Instruction.effect, Option.map_eq_some_iff] at ran
  obtain ⟨change, succeeded, rfl⟩ := ran
  split at succeeded
  case isTrue =>
      cases succeeded
      have other :
          ¬ (programs.token2022 = programs.record ∨
            programs.token2022 = programs.zkElGamalProof) := by
        rintro (same | same)
        · exact distinct.2.2.1.2 same.symm
        · exact distinct.2.2.2.1 same.symm
      simp only [Change.run, createdAccount, if_neg other, if_true]
  case isFalse => cases succeeded

/-- The transaction of a planned mint leaves the whole mint. -/
theorem PlannedMint.runTransaction
    {programs : Programs} {payer : Address} (plan : PlannedMint)
    (ran :
      Remit.runTransaction programs signers (plan.transaction programs payer)
        accounts = some after) :
    after = Function.update accounts plan.mint (some (.mint plan.state)) := by
  obtain ⟨created, creation, ran⟩ := runTransaction_cons_eq_some ran
  obtain rfl := run_createMint creation
  obtain ⟨extended, inits, ran⟩ := runTransaction_append_eq_some ran
  obtain rfl := runTransaction_inits (Function.update_self ..) inits
  rw [runTransaction_singleton] at ran
  rw [run_initializeMint2 (Function.update_self ..) ran]
  simp [state]

theorem creates_of_closes
    {instruction : Instruction} {target : Address}
    (closes : instruction.closes = some target) :
    instruction.creates = none := by
  cases instruction <;> first | rfl | cases closes

theorem creates_of_inert
    {instruction : Instruction} (inert : instruction.Inert) :
    instruction.creates = none := by
  cases instruction <;> first | rfl | exact inert.elim

theorem created_closing
    {closes : List Instruction} (units : Nat)
    (closing : ∀ instruction ∈ closes,
      ∃ target, instruction.closes = some target) :
    created (withComputeUnitLimit units closes) = [] := by
  apply List.filterMap_eq_nil_iff.mpr
  intro instruction member
  rcases List.mem_cons.mp member with rfl | member
  · rfl
  · obtain ⟨target, closes⟩ := closing instruction member
    exact creates_of_closes closes

theorem created_inert
    {instructions : List Instruction}
    (inert : ∀ instruction ∈ instructions, instruction.Inert) :
    created instructions = [] :=
  List.filterMap_eq_nil_iff.mpr fun instruction member =>
    creates_of_inert (inert instruction member)

theorem PlannedMint.created_transaction
    (plan : PlannedMint) (programs : Programs) (payer : Address) :
    created (plan.transaction programs payer) = [plan.mint] := by
  have inits : created plan.inits = [] := by
    apply List.filterMap_eq_nil_iff.mpr
    intro instruction member
    obtain ⟨config, _, rfl⟩ := List.mem_map.mp member
    rfl
  show plan.mint :: created (plan.inits ++ _) = _
  unfold created at inits ⊢
  rw [List.filterMap_append, inits]
  rfl

/-- What staged proofs leave once they were verified: their contexts, records
of the payer, and everything else as it was. -/
def PartsLeft (C : Cluster) (contexts : List Address)
    (accounts after : Accounts) : Prop :=
  ∀ address, address ∈ contexts ∨ after address = accounts address ∨
    ∃ payload, after address = some (.record C.payer payload)

theorem PartsLeft.trans
    {contexts others : List Address} {middle : Accounts}
    (first : PartsLeft C contexts accounts middle)
    (second : PartsLeft C others middle after) :
    PartsLeft C (contexts ++ others) accounts after := by
  intro address
  rcases second address with there | same | record
  · exact Or.inl (List.mem_append_right _ there)
  · rcases first address with here | kept | ⟨payload, record⟩
    · exact Or.inl (List.mem_append_left _ here)
    · exact Or.inr (Or.inl (same.trans kept))
    · exact Or.inr (Or.inr ⟨payload, same.trans record⟩)
  · exact Or.inr (Or.inr record)

theorem run_recordWrite_left
    {record : Address} {offset : Nat} {data : Bytes}
    (ran :
      (Instruction.recordWrite record C.payer offset data).run C.programs
        signers accounts = some after) :
    PartsLeft C [] accounts after := by
  obtain ⟨payload, _, _, rfl⟩ := run_recordWrite ran
  intro address
  by_cases here : address = record
  · subst here
    exact Or.inr (Or.inr ⟨_, Function.update_self ..⟩)
  · exact Or.inr (Or.inl (Function.update_of_ne here ..))

theorem Staged.Vetted.runTransaction_tail
    {withTails : Bool} {staged : Staged} (vetted : staged.Vetted C)
    (ran :
      runTransaction C.programs signers
        (if withTails then staged.tailWrite.toList else []) accounts =
          some after) :
    PartsLeft C [] accounts after := by
  split at ran
  case isTrue =>
      rcases kept : staged.tailWrite with _ | write
      · rw [kept] at ran
        cases ran
        exact fun _ => Or.inr (Or.inl rfl)
      · rw [kept] at ran
        obtain ⟨record, offset, data, rfl⟩ := vetted.tail write kept
        rw [Option.toList_some, runTransaction_singleton] at ran
        exact run_recordWrite_left ran
  case isFalse =>
      cases ran
      exact fun _ => Or.inr (Or.inl rfl)

theorem Staged.Vetted.runTransaction_part
    {withTails : Bool} {staged : Staged} (vetted : staged.Vetted C)
    (ran :
      runTransaction C.programs signers
        (ProofAccounts.stagedPart withTails staged) accounts = some after) :
    PartsLeft C [staged.context.pubkey] accounts after := by
  obtain ⟨middle, tail, ran⟩ := runTransaction_append_eq_some ran
  obtain ⟨lamports, space, create⟩ := vetted.create
  obtain ⟨instruction, record, verify⟩ := vetted.verify
  rw [create, verify] at ran
  obtain ⟨created, creation, ran⟩ := runTransaction_cons_eq_some ran
  obtain ⟨_, rfl⟩ := run_createAccount (Or.inr rfl) creation
  rw [runTransaction_singleton] at ran
  obtain ⟨_, payload, _, rfl⟩ := run_verifyProofFromAccount ran
  have pair : PartsLeft C [staged.context.pubkey] middle
      (Function.update
        (Function.update middle staged.context.pubkey
          (some (.uninitialized C.programs.zkElGamalProof space)))
        staged.context.pubkey
        (some (.context C.payer instruction payload))) := by
    intro address
    by_cases here : address = staged.context.pubkey
    · exact Or.inl (by simp [here])
    · refine Or.inr (Or.inl ?_)
      rw [Function.update_of_ne here, Function.update_of_ne here]
  exact (vetted.runTransaction_tail tail).trans pair

theorem runTransaction_parts
    {withTails : Bool} {staged : List Staged}
    (vetted : ∀ one ∈ staged, one.Vetted C)
    (ran :
      runTransaction C.programs signers
        (staged.flatMap (ProofAccounts.stagedPart withTails)) accounts =
          some after) :
    PartsLeft C (staged.map (·.context.pubkey)) accounts after := by
  induction staged generalizing accounts with
  | nil =>
      cases ran
      exact fun _ => Or.inr (Or.inl rfl)
  | cons one rest inductionHypothesis =>
      obtain ⟨middle, first, ran⟩ := runTransaction_append_eq_some ran
      exact ((vetted one (by simp)).runTransaction_part first).trans
        (inductionHypothesis
          (fun other member => vetted other (List.mem_cons_of_mem _ member))
          ran)

/-- The consuming transaction closes what its staged proofs created. -/
theorem ProofAccounts.Vetted.runTransaction_consuming
    {self : ProofAccounts} {instructions : List Instruction}
    {withTails : Bool} (vetted : self.Vetted C)
    (inert : ∀ instruction ∈ instructions, instruction.Inert)
    (ran :
      runTransaction C.programs signers
        (self.consuming C.payer instructions withTails) accounts =
          some after) :
    ∀ address,
      address ∉ self.staged.map (·.context.pubkey) ∧
          after address = accounts address ∨
        after address = none ∨
        ∃ payload, after address = some (.record C.payer payload) := by
  unfold ProofAccounts.consuming at ran
  rw [List.append_assoc] at ran
  obtain ⟨used, ran, closed⟩ := runTransaction_append_eq_some ran
  obtain ⟨staged, parts, ran⟩ := runTransaction_append_eq_some ran
  obtain rfl := runTransaction_inert inert ran
  have left := runTransaction_parts vetted parts
  have targets :
      List.map Instruction.closes
          (((self.contexts ++ self.staged.map (·.context.pubkey)).map
              fun context =>
                .closeContextState (contextInfo context C.payer) C.payer) ++
            self.records.map fun record =>
              .recordCloseAccount record C.payer C.payer) =
        (self.contexts ++ self.staged.map (·.context.pubkey) ++
          self.records).map some := by
    simp [Instruction.closes, contextInfo, Function.comp_def]
  intro address
  rw [runTransaction_closes targets closed address]
  split
  case isTrue => exact Or.inr (Or.inl rfl)
  case isFalse spared =>
      have notStaged : address ∉ self.staged.map (·.context.pubkey) :=
        fun context => spared <|
          List.mem_append_left _ (List.mem_append_right _ context)
      rcases left address with context | same | record
      · exact absurd context notStaged
      · exact Or.inl ⟨notStaged, same⟩
      · exact Or.inr (Or.inr record)

/-- It creates the staged contexts and nothing else. -/
theorem ProofAccounts.Vetted.created_consuming
    {self : ProofAccounts} {instructions : List Instruction}
    {withTails : Bool} (vetted : self.Vetted C)
    (inert : ∀ instruction ∈ instructions, instruction.Inert) :
    ∀ address ∈ created (self.consuming C.payer instructions withTails),
      address ∈ self.staged.map (·.context.pubkey) := by
  intro address member
  obtain ⟨instruction, member, creation⟩ := List.mem_filterMap.mp member
  simp only [ProofAccounts.consuming, List.mem_append, List.mem_flatMap]
    at member
  rcases member with ((⟨staged, isStaged, part⟩ | idle) | context) | record
  · have one := vetted staged isStaged
    obtain ⟨_, _, create⟩ := one.create
    obtain ⟨_, _, verify⟩ := one.verify
    rcases List.mem_append.mp part with tail | pair
    · split at tail
      case isTrue =>
          obtain ⟨_, _, _, rfl⟩ :=
            one.tail instruction (Option.mem_toList.mp tail)
          cases creation
      case isFalse => cases tail
    · rw [create, verify] at pair
      rcases pair with _ | ⟨_, _ | ⟨_, impossible⟩⟩
      · cases creation
        exact List.mem_map_of_mem isStaged
      · cases creation
      · cases impossible
  · rw [creates_of_inert (inert instruction idle)] at creation
    cases creation
  · obtain ⟨_, _, rfl⟩ := List.mem_map.mp context
    cases creation
  · obtain ⟨_, _, rfl⟩ := List.mem_map.mp record
    cases creation

private theorem exists_targets
    {closes : List Instruction}
    (closing : ∀ instruction ∈ closes,
      ∃ target, instruction.closes = some target) :
    ∃ targets : List Address,
      closes.map Instruction.closes = targets.map some := by
  induction closes with
  | nil => exact ⟨[], rfl⟩
  | cons instruction rest inductionHypothesis =>
      obtain ⟨target, first⟩ := closing instruction (by simp)
      obtain ⟨targets, others⟩ := inductionHypothesis
        fun other member => closing other (List.mem_cons_of_mem _ member)
      exact ⟨target :: targets, by simp [first, others]⟩

/-- What the library creates has an address whose key is held. -/
theorem Shape.held
    {transaction : List Instruction} (shape : Shape C transaction) :
    ∀ address ∈ created transaction, C.held address := by
  intro address member
  cases shape with
  | verifying units lamports space instruction proof held =>
      have here := List.mem_singleton.mp member
      exact here ▸ held
  | opening lamports space chunk held =>
      have here := List.mem_singleton.mp member
      exact here ▸ held
  | writing record offset data => cases member
  | closing units closing =>
      rw [created_closing units closing] at member
      cases member
  | consuming units withTails vetted inert =>
      obtain ⟨staged, isStaged, rfl⟩ :=
        List.mem_map.mp (vetted.created_consuming inert address member)
      exact (vetted staged isStaged).held
  | @creatingMint plan held _ =>
      rw [plan.created_transaction, List.mem_singleton] at member
      exact member ▸ held
  | inert inert =>
      rw [created_inert inert] at member
      cases member

/-- Whatever the library sends leaves every address complete or empty, or as it
was if nothing was created there. -/
theorem Shape.left
    {transaction : List Instruction} (shape : Shape C transaction)
    (ran :
      runTransaction C.programs signers transaction accounts = some after) :
    ∀ address,
      address ∉ created transaction ∧ after address = accounts address ∨
        Completed C [transaction] address (after address) := by
  intro address
  cases shape with
  | @verifying context units lamports space instruction proof held =>
      obtain ⟨_, rfl⟩ := runTransaction_verify ran
      by_cases here : address = context
      · subst here
        rw [Function.update_self]
        exact Or.inr (.verified (List.mem_singleton_self _))
      · exact Or.inl
          ⟨fun member => here (List.mem_singleton.mp member),
            Function.update_of_ne here ..⟩
  | @opening record lamports space chunk held =>
      obtain ⟨_, _, rfl⟩ := runTransaction_recordOpening ran
      by_cases here : address = record
      · subst here
        rw [Function.update_self]
        exact Or.inr (.recorded _)
      · exact Or.inl
          ⟨fun member => here (List.mem_singleton.mp member),
            Function.update_of_ne here ..⟩
  | writing record offset data =>
      rw [runTransaction_singleton] at ran
      rcases run_recordWrite_left ran address with none | same | ⟨_, wrote⟩
      · cases none
      · exact Or.inl ⟨fun member => (by cases member), same⟩
      · exact Or.inr (wrote ▸ .recorded _)
  | @closing units closes closing =>
      obtain ⟨_, limited, ran⟩ := runTransaction_cons_eq_some ran
      cases limited
      obtain ⟨targets, closed⟩ := exists_targets closing
      rw [created_closing units closing,
        runTransaction_closes closed ran address]
      split
      case isTrue => exact Or.inr .closed
      case isFalse => exact Or.inl ⟨List.not_mem_nil, rfl⟩
  | consuming units withTails vetted inert =>
      obtain ⟨_, limited, ran⟩ := runTransaction_cons_eq_some ran
      cases limited
      rcases vetted.runTransaction_consuming inert ran address with
        ⟨notStaged, same⟩ | none | ⟨_, wrote⟩
      · exact Or.inl
          ⟨fun member =>
            notStaged (vetted.created_consuming inert address member), same⟩
      · exact Or.inr (none ▸ .closed)
      · exact Or.inr (wrote ▸ .recorded _)
  | @creatingMint plan held authorities =>
      obtain rfl := plan.runTransaction ran
      by_cases here : address = plan.mint
      · subst here
        rw [Function.update_self]
        exact Or.inr (.minted rfl (List.mem_singleton_self _) authorities)
      · rw [plan.created_transaction]
        exact Or.inl
          ⟨fun member => here (List.mem_singleton.mp member),
            Function.update_of_ne here ..⟩
  | inert inert =>
      rw [runTransaction_inert inert ran, created_inert inert]
      exact Or.inl ⟨List.not_mem_nil, rfl⟩

end Landing

/-! ## A whole history -/

section History

variable {C : Cluster} {landed : List (List Instruction)}
  {accounts after : Accounts}

/-- The transactions that landed. -/
def landedTransactions {State : Type} (sent : List (Sent State)) :
    List (List Instruction) :=
  (sent.filter Sent.landed).map (·.transaction)

/-- Wherever the landed transactions created an account there is nothing any
more or a complete account, and the key of the address is held. -/
def Guarded (C : Cluster) (landed : List (List Instruction))
    (accounts : Accounts) : Prop :=
  ∀ address ∈ landed.flatMap created,
    C.held address ∧ Completed C landed address (accounts address)

/-- Outsiders can do nothing to a guarded account. -/
theorem Guarded.unchanged
    (guarded : Guarded C landed accounts)
    (outside : Outsiders C.programs C.held accounts after) :
    ∀ address ∈ landed.flatMap created, after address = accounts address := by
  intro address member
  obtain ⟨held, completed⟩ := guarded address member
  exact outside.unchanged (completed.secured held)

theorem Guarded.outside
    (guarded : Guarded C landed accounts)
    (outside : Outsiders C.programs C.held accounts after) :
    Guarded C landed after := by
  intro address member
  rw [guarded.unchanged outside address member]
  exact guarded address member

/-- A transaction of the library that lands keeps everything guarded. -/
theorem Guarded.land
    {transaction : List Instruction} {signers : List Address}
    (guarded : Guarded C landed accounts) (shape : Shape C transaction)
    (ran :
      runTransaction C.programs signers transaction accounts = some after) :
    Guarded C (landed ++ [transaction]) after := by
  intro address member
  rw [List.flatMap_append, List.mem_append] at member
  have later : ∀ one ∈ [transaction], one ∈ landed ++ [transaction] :=
    fun one isLast => List.mem_append_right _ isLast
  rcases shape.left ran address with ⟨notCreated, same⟩ | completed
  · have before : address ∈ landed.flatMap created := by
      rcases member with before | now
      · exact before
      · exact absurd (by simpa using now) notCreated
    obtain ⟨held, completed⟩ := guarded address before
    rw [same]
    exact ⟨held, completed.mono fun one isEarlier =>
      List.mem_append_left _ isEarlier⟩
  · refine ⟨?_, completed.mono later⟩
    rcases member with before | now
    · exact (guarded address before).1
    · exact shape.held address (by simpa using now)

theorem landedTransactions_append
    {State : Type} (sent : List (Sent State)) (one : Sent State) :
    landedTransactions (sent ++ [one]) =
      landedTransactions sent ++
        if one.landed then [one.transaction] else [] := by
  unfold landedTransactions
  rw [List.filter_append, List.map_append]
  rcases landed : one.landed with _ | _ <;> simp [landed]

/-- One more send, whatever becomes of it and whatever others do. -/
theorem Guarded.send
    {sent : List (Sent C.State)} {s : C.State}
    {transaction : List Instruction} (signers : List Keypair)
    (guarded : Guarded C (landedTransactions sent) (C.accounts s))
    (shape : Shape C transaction) :
    Guarded C
      (landedTransactions
        (sent ++ [⟨transaction, signers, C.send s transaction signers⟩]))
      (C.accounts (C.send s transaction signers).after) := by
  have before := guarded.outside (C.outsiders_before s transaction signers)
  rw [landedTransactions_append]
  rcases outcome : (C.send s transaction signers).outcome with error | receipt
  · rw [C.not_landed s transaction signers error outcome]
    simpa [Sent.landed, outcome, Except.toBool] using before
  · have landed := before.land shape
      (C.landed s transaction signers receipt outcome)
    simpa [Sent.landed, outcome, Except.toBool] using landed

/-- In a history of the library's transactions everything created is guarded
right after every send, and when it has returned. -/
theorem Chained.guarded
    {start s : C.State} {sent : List (Sent C.State)}
    (chained : Chained C start sent s)
    (shapes : ∀ one ∈ sent, Shape C one.transaction) :
    Guarded C (landedTransactions sent) (C.accounts s) ∧
      ∀ earlier one, earlier ++ [one] <+: sent →
        Guarded C (landedTransactions (earlier ++ [one]))
          (C.accounts one.delivery.after) := by
  induction chained with
  | nil =>
      refine ⟨by simp [Guarded, landedTransactions], ?_⟩
      intro earlier one isPrefix
      simp at isPrefix
  | @send sent s transaction signers _ inductionHypothesis =>
      obtain ⟨now, before⟩ := inductionHypothesis fun one member =>
        shapes one (List.mem_append_left _ member)
      have shape : Shape C transaction :=
        shapes _ (List.mem_append_right _ (List.mem_singleton_self _))
      have landed := now.send signers shape
      refine ⟨landed.outside (C.outsiders_after s transaction signers), ?_⟩
      intro earlier one isPrefix
      rcases List.prefix_concat_iff.mp isPrefix with whole | shorter
      · obtain ⟨rfl, same⟩ := List.append_inj' whole rfl
        cases same
        exact landed
      · exact before earlier one shorter

end History
end Remit
