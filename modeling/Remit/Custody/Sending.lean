import Remit.Custody.Landing
import Remit.Mint

/-!
# What the library sends

Whatever becomes of the sends, the proof operations and the creation of a mint
send only transactions of the known shapes.
-/

namespace Remit

open Flows Flow

variable {C : Cluster}

/-- Between the two worlds, transactions of known shapes were sent. -/
def World.Sends (before after : World C) : Prop :=
  ∃ later, after.sent = before.sent ++ later ∧
    ∀ one ∈ later, Shape C one.transaction

/-- Vetted accounts stay vetted, and transactions of known shapes were sent. -/
def Session.Sends (before after : Session C) : Prop :=
  (before.accounts.Vetted C → after.accounts.Vetted C) ∧
    before.world.Sends after.world

instance : IsPreorder (World C) World.Sends where
  refl world := ⟨[], by simp, by simp⟩
  trans := by
    rintro first second third ⟨later, sent, shapes⟩ ⟨more, sent', shapes'⟩
    refine ⟨later ++ more, by rw [sent', sent, List.append_assoc], ?_⟩
    intro one member
    rcases List.mem_append.mp member with earlier | last
    · exact shapes one earlier
    · exact shapes' one last

instance : IsPreorder (Session C) Session.Sends where
  refl session := ⟨id, refl session.world⟩
  trans _ _ _ first second :=
    ⟨second.1 ∘ first.1, IsTrans.trans _ _ _ first.2 second.2⟩

/-! ## Steps on the world -/

namespace World

theorem within_send
    {transaction : List Instruction} {signers : List Keypair}
    (shape : Shape C transaction) :
    Within Sends (fun _ => True)
      (World.send transaction signers : Flow (World C) Error Receipt) := by
  intro world
  have sends : world.Sends (world.deliver transaction signers) :=
    ⟨[world.sending transaction signers], rfl, by
      intro one member
      rw [List.mem_singleton.mp member]
      exact shape⟩
  exact ensures_send (fun _ _ => ⟨sends, fun _ _ => trivial⟩)
    fun _ _ => ⟨sends, fun _ _ => trivial⟩

theorem within_newKeypair :
    Within Sends (fun keypair => C.held keypair.pubkey)
      (newKeypair : Flow (World C) Error Keypair) := by
  intro world
  refine ensures_newKeypair ⟨⟨[], by simp, by simp⟩, ?_⟩
  rintro _ ⟨⟩
  exact C.held_keypair _

theorem within_fits (instructions : List Instruction) :
    Within Sends (fun _ => True)
      (fits instructions : Flow (World C) Error Bool) := by
  unfold fits
  split
  · exact .pure trivial
  · exact .panicking

theorem within_rent (space : Nat) :
    Within Sends (fun _ => True) (rent space : Flow (World C) Error Nat) :=
  .read fun _ => trivial

end World

theorem within_checkedUnits (units : Nat) :
    Within World.Sends (fun _ => True)
      (checkedUnits units : Flow (World C) Error Nat) := by
  unfold checkedUnits
  split
  · exact .pure trivial
  · exact .panicking

theorem within_createContextAccount (contextSize : Nat) (context : Address) :
    Within World.Sends
      (fun instruction => ∃ lamports space,
        instruction =
          .createAccount C.payer context lamports space
            C.programs.zkElGamalProof)
      (createContextAccount contextSize context :
        Flow (World C) Error Instruction) :=
  .bind (World.within_rent _) fun lamports _ =>
    .pure ⟨lamports, contextStateSize contextSize, rfl⟩

theorem within_writeChunks (record : Address) (bytes : Bytes) (offset : Nat) :
    Within World.Sends
      (fun tail => ∀ write, tail = some write →
        ∃ offset data, write = .recordWrite record C.payer offset data)
      (writeChunks record bytes offset :
        Flow (World C) Error (Option Instruction)) := by
  fun_induction writeChunks record bytes offset with
  | case1 => exact .panicking
  | case2 => exact .fail
  | case3 offset =>
      refine .pure ?_
      rintro _ ⟨⟩
      exact ⟨offset, _, rfl⟩
  | case4 offset _ _ _ _ _ _ inductionHypothesis =>
      exact .bind (World.within_send (.writing ..))
        fun _ _ => inductionHypothesis
  | case5 =>
      refine .pure ?_
      rintro _ ⟨⟩

/-! ## Closing -/

/-- Every instruction of a batch closes an account. -/
def Closing (batch : List (Instruction × Nat)) : Prop :=
  ∀ item ∈ batch, ∃ target, item.1.closes = some target

theorem within_budgeted
    {batch : List (Instruction × Nat)} (closing : Closing batch) :
    Within World.Sends (Shape C)
      (budgeted batch : Flow (World C) Error (List Instruction)) := by
  refine .bind (within_checkedUnits _) fun units _ => .pure (.closing units ?_)
  intro instruction member
  obtain ⟨item, isItem, rfl⟩ := List.mem_map.mp member
  exact closing item isItem

theorem within_overflows
    {batch : List (Instruction × Nat)} (closing : Closing batch) :
    Within World.Sends (fun _ => True)
      (overflows batch : Flow (World C) Error Bool) := by
  unfold overflows
  split
  · exact .bind (within_budgeted closing) fun transaction _ =>
      .bind (World.within_fits transaction) fun _ _ => .pure trivial
  · exact .pure trivial

theorem within_sendBatches
    {batch rest : List (Instruction × Nat)}
    (batchCloses : Closing batch) (restCloses : Closing rest) :
    Within World.Sends (fun _ => True)
      (sendBatches batch rest : Flow (World C) Error Unit) := by
  induction rest generalizing batch with
  | nil =>
      unfold sendBatches
      split
      · exact .bind (within_budgeted batchCloses) fun transaction shape =>
          .bind (World.within_send shape) fun _ _ => .pure trivial
      · exact .pure trivial
  | cons item rest inductionHypothesis =>
      have itemCloses : Closing [item] := fun one member =>
        restCloses one (by simp [List.mem_singleton.mp member])
      have othersClose : Closing rest := fun one member =>
        restCloses one (List.mem_cons_of_mem _ member)
      have extendedCloses : Closing (batch ++ [item]) := by
        intro one member
        rcases List.mem_append.mp member with earlier | last
        · exact batchCloses one earlier
        · exact itemCloses one last
      unfold sendBatches
      refine .bind (within_overflows extendedCloses) fun overflowing _ => ?_
      split
      · exact .bind (within_budgeted batchCloses) fun transaction shape =>
          .bind (World.within_send shape) fun _ _ =>
            inductionHypothesis itemCloses othersClose
      · exact inductionHypothesis extendedCloses othersClose

namespace ProofAccounts

theorem within_closeAfter
    {α : Type} (self : ProofAccounts) (result : Except Error α) :
    Within World.Sends (fun _ => True)
      (self.closeAfter result : Flow (World C) Error α) := by
  have closes :
      Within World.Sends (fun _ => True)
        (({ self with staged := [] } : ProofAccounts).close :
          Flow (World C) Error Unit) := by
    refine within_sendBatches (by simp [Closing]) ?_
    intro item member
    rcases List.mem_append.mp member with context | record
    · obtain ⟨address, _, rfl⟩ := List.mem_map.mp context
      exact ⟨address, rfl⟩
    · obtain ⟨address, _, rfl⟩ := List.mem_map.mp record
      exact ⟨address, rfl⟩
  exact .bind closes.result fun closed _ =>
    .bind (.ofExcept_any _) fun value _ =>
      .bind (.ofExcept_any _) fun _ _ => .pure trivial

/-! ## Consuming -/

theorem Vetted.withoutTails
    {self : ProofAccounts} (vetted : self.Vetted C) :
    self.withoutTails.Vetted C := by
  intro staged member
  obtain ⟨one, isStaged, rfl⟩ := List.mem_map.mp member
  have was := vetted one isStaged
  exact ⟨was.held, was.create, was.verify, fun _ impossible => by
    cases impossible⟩

variable {self : ProofAccounts} {instructions : List Instruction}

theorem Vetted.within_build
    (vetted : self.Vetted C)
    (inert : ∀ instruction ∈ instructions, instruction.Inert)
    (units : Nat) (withTails : Bool) :
    Within World.Sends (Shape C)
      (self.build instructions units withTails :
        Flow (World C) Error (List Instruction)) :=
  .bind (within_checkedUnits _) fun total _ =>
    .pure (.consuming total withTails vetted inert)

theorem Vetted.within_sendTails (vetted : self.Vetted C) :
    Within World.Sends (fun _ => True)
      (sendTails self.tails : Flow (World C) Error Unit) := by
  have writes : ∀ tail ∈ self.tails, Shape C [tail] := by
    intro tail member
    obtain ⟨staged, isStaged, kept⟩ := List.mem_filterMap.mp member
    obtain ⟨record, offset, data, rfl⟩ :=
      (vetted staged isStaged).tail tail kept
    exact .writing record offset data
  generalize self.tails = tails at writes
  induction tails with
  | nil => exact .pure trivial
  | cons tail rest inductionHypothesis =>
      exact .bind (World.within_send (writes tail (by simp))) fun _ _ =>
        inductionHypothesis fun other member =>
          writes other (List.mem_cons_of_mem _ member)

theorem within_sendConsuming
    (self : ProofAccounts) {transaction : List Instruction}
    (shape : Shape C transaction) (signers : List Keypair) :
    Within World.Sends (fun _ => True)
      (self.sendConsuming transaction signers :
        Flow (World C) Error Receipt) := by
  unfold sendConsuming
  refine .bind (World.within_fits transaction) fun fits _ => ?_
  split
  · refine .bind (World.within_send shape).result fun outcome _ => ?_
    cases outcome with
    | ok receipt => exact .pure trivial
    | error error => exact within_closeAfter _ _
  · exact within_closeAfter _ _

theorem Vetted.within_consume
    (vetted : self.Vetted C)
    (inert : ∀ instruction ∈ instructions, instruction.Inert)
    (signers : List Keypair) (units : Nat) :
    Within World.Sends (fun _ => True)
      (self.consume instructions signers units :
        Flow (World C) Error Receipt) := by
  unfold consume
  refine .bind (vetted.within_build inert units true) fun transaction shape =>
    .bind (World.within_fits transaction) fun fits _ => ?_
  split
  · exact within_sendConsuming self shape signers
  · refine .bind vetted.within_sendTails.result fun outcome _ => ?_
    cases outcome with
    | error error => exact within_closeAfter _ _
    | ok done =>
        exact .bind (vetted.withoutTails.within_build inert units false)
          fun transaction shape =>
            within_sendConsuming self.withoutTails shape signers

end ProofAccounts

/-! ## Staging -/

namespace Session

theorem within_onWorld
    {α : Type} {good : α → Prop} {flow : Flow (World C) Error α}
    (within : Within World.Sends good flow) :
    Within Session.Sends good (Session.onWorld flow) :=
  fun session => .zoom ((within session.world).mono
    fun _ _ moved => ⟨⟨id, moved.1⟩, moved.2⟩)

theorem within_track
    {change : ProofAccounts → ProofAccounts}
    (vets : ∀ accounts, accounts.Vetted C → (change accounts).Vetted C) :
    Within Session.Sends (fun _ => True)
      (Session.track change : Flow (Session C) Error Unit) :=
  fun session => .update
    ⟨⟨vets session.accounts, refl session.world⟩, fun _ _ => trivial⟩

end Session

namespace ProofAccounts

theorem within_verify (instruction : ProofInstruction) (proof : ProofData) :
    Within Session.Sends (fun _ => True)
      (verify instruction proof : Flow (Session C) Error Address) := by
  unfold verify
  refine .bind (Session.within_onWorld World.within_newKeypair)
    fun context held => .bind
      (Session.within_onWorld (within_createContextAccount _ _)) ?_
  rintro _ ⟨lamports, space, rfl⟩
  dsimp only
  refine .bind (Session.within_onWorld (World.within_fits _)) fun fits _ => ?_
  split
  · refine .bind (Session.within_onWorld (World.within_send
      (.verifying _ lamports space instruction proof.bytes held)))
      fun _ _ => .bind (Session.within_track ?_) fun _ _ => .pure trivial
    exact fun _ vetted => vetted
  · exact .fail

theorem within_stageFromRecord
    (instruction : ProofInstruction) (proof : ProofData) :
    Within Session.Sends (fun _ => True)
      (stageFromRecord instruction proof :
        Flow (Session C) Error Address) := by
  unfold stageFromRecord
  refine .bind (Session.within_onWorld World.within_newKeypair)
    fun record recordHeld => .bind
      (Session.within_onWorld (World.within_rent _)) fun lamports _ => ?_
  refine .bind (Session.within_onWorld (within_foundOrPanic _))
    fun offset _ => ?_
  refine .bind (Session.within_onWorld (World.within_send
    (.opening lamports _ _ recordHeld))) fun _ _ =>
    .bind (Session.within_track fun _ vetted => vetted) fun _ _ => ?_
  refine .bind (Session.within_onWorld (within_writeChunks _ _ _))
    fun tailWrite writes => .bind
      (Session.within_onWorld World.within_newKeypair)
      fun context contextHeld => .bind
        (Session.within_onWorld (within_createContextAccount _ _)) ?_
  rintro _ ⟨lamports, space, rfl⟩
  refine .bind (Session.within_track ?_) fun _ _ => .pure trivial
  intro accounts vetted staged member
  rcases List.mem_append.mp member with earlier | last
  · exact vetted staged earlier
  · rw [List.mem_singleton.mp last]
    exact ⟨contextHeld, ⟨lamports, space, rfl⟩, ⟨instruction, _, rfl⟩,
      fun write kept => ⟨record.pubkey, writes write kept⟩⟩

end ProofAccounts

/-! ## Creating a mint -/

/-- The mint that `planFromInits` plans from the inits of some extensions. -/
def plannedMint (mint : Address) (authorities : Authorities)
    (params : StablecoinParams) (lamports space : Nat)
    (configs : List ExtensionConfig) : PlannedMint where
  mint
  lamports
  space
  configs
  mintAuthority := authorities.mint.pubkey
  freezeAuthority := some authorities.freeze.pubkey
  decimals := params.decimals

/-- The inits of some extensions. -/
def initsOf (mint : Address) (configs : List ExtensionConfig) :
    List ExtensionInit :=
  configs.map fun config =>
    (config.extensionType, .token (.initializeExtension mint config))

theorem metadataInstructions_inert (mint : Address) (authorities : Authorities)
    (params : StablecoinParams) :
    ∀ instruction ∈ metadataInstructions mint authorities params,
      instruction.Inert := by
  intro instruction member
  rcases List.mem_cons.mp member with rfl | member
  · trivial
  · obtain ⟨_, _, rfl⟩ := List.mem_map.mp member
    trivial

theorem within_planFromInits
    (mint : Address) (authorities : Authorities) (params : StablecoinParams)
    (configs : List ExtensionConfig) :
    Within World.Sends
      (fun plan => ∃ lamports space,
        plan.initializeInstructions =
            (plannedMint mint authorities params lamports space
              configs).transaction C.programs C.payer ∧
          plan.metadata = metadataInstructions mint authorities params)
      (planFromInits mint authorities params (initsOf mint configs) :
        Flow (World C) Error MintPlan) := by
  have initializes :
      Within World.Sends
        (fun instruction => instruction =
          .token (.initializeMint2 mint authorities.mint.pubkey
            (some authorities.freeze.pubkey) params.decimals))
        (Flow.ofExcept (tokenInstruction C.programs
          (.initializeMint2 mint authorities.mint.pubkey
            (some authorities.freeze.pubkey) params.decimals)) :
          Flow (World C) Error Instruction) := by
    exact .ofExcept fun _ built => tokenInstruction_eq_ok built
  unfold planFromInits
  refine .bind (.ofExcept_any _) fun space _ =>
    .bind (.ofExcept_any _) fun metadata _ =>
      .bind (.ofExcept_any _) fun metadataLen _ =>
        .bind (World.within_rent _) fun lamports _ => .bind initializes ?_
  rintro _ rfl
  refine .pure ⟨lamports, space, ?_, rfl⟩
  simp [PlannedMint.transaction, PlannedMint.inits, plannedMint, initsOf]

end Remit
