import Remit.Calls
import Remit.Confidential.Debits
import Remit.Custody.Sending
import Remit.Proofs.Dispatch

/-!
# Who signs what

Signing fails with a key that no instruction asks for, just as it fails without
one that some instruction does.  So a call has to pass exactly the keys that its
instructions require besides the payer's.
-/

namespace Remit

open Flows Flow

/-- The keys that an instruction of Token-2022 asks for, where every authority
is a single key. -/
def TokenInstruction.signers : TokenInstruction → List Address
  | initializeExtension .. | initializeMint2 ..
  | harvestWithheldTokensToMint .. => []
  | initializeMetadata _ _ _ mintAuthority _ _ _ => [mintAuthority]
  | updateField _ updateAuthority _ _ => [updateAuthority]
  | transferCheckedWithFee _ _ _ authority _ _ _ => [authority]
  | setTransferFee _ authority _ _ => [authority]
  | withdrawWithheldTokensFromMint _ _ authority => [authority]
  | thawAccount _ _ authority | freezeAccount _ _ authority => [authority]
  | updateDefaultAccountState _ authority _ => [authority]
  | mintToChecked _ _ authority _ _ => [authority]
  | approveChecked _ _ _ authority _ _ => [authority]
  | reallocate _ payer owner _ => [payer, owner]
  | enableCpiGuard _ owner => [owner]
  | closeAccount _ _ authority => [authority]
  | setAuthority _ authority _ _ => [authority]
  | configureAccount _ _ _ _ authority _ => [authority]
  | approveAccount _ _ authority => [authority]
  | deposit _ _ _ _ authority => [authority]
  | applyPendingBalance _ _ _ authority => [authority]
  | transferWithFee request => [request.authority]
  | withdraw request => [request.authority]

/-- The keys that an instruction asks for. -/
def Instruction.signers : Instruction → List Address
  | setComputeUnitLimit _ | recordInitialize .. | verifyProof ..
  | verifyProofFromAccount .. => []
  | createAccount fromAddress toAddress _ _ _ => [fromAddress, toAddress]
  | recordWrite _ authority _ _ => [authority]
  | recordSetAuthority _ authority _ => [authority]
  | recordCloseAccount _ authority _ => [authority]
  | closeContextState context _ => [context.contextStateAuthority]
  | token instruction => instruction.signers

/-- The interface crate marks as signers the keys that an instruction asks
for. -/
def MarksSigners (programs : Programs) : Prop :=
  ∀ instruction key,
    (∃ account ∈ (programs.tokenWire instruction).accounts,
      account.isSigner = true ∧ account.pubkey = key) ↔
        key ∈ TokenInstruction.signers instruction

/-- The keys of the payer and of some signers are those that a transaction asks
for. -/
def SignedExactly (payer : Address) (transaction : List Instruction)
    (signers : List Keypair) : Prop :=
  ∀ key, key ∈ payer :: signers.map (·.pubkey) ↔
    key ∈ payer :: transaction.flatMap Instruction.signers

/-- A single instruction that describes a mint, whose update authority neither
pays nor issues. -/
def Overdone (payer : Address) : List Instruction → Prop
  | [.token (.initializeMetadata _ updateAuthority _ mintAuthority _ _ _)] =>
      updateAuthority ≠ payer ∧ updateAuthority ≠ mintAuthority
  | _ => False

/-! ## From instructions to messages -/

section Messages

variable {programs : Programs} {payer key : Address}

/-- The signers of an instruction are marked in its accounts. -/
theorem Instruction.marked_iff
    (marks : MarksSigners programs) (instruction : Instruction) :
    (∃ account ∈ (instruction.wire programs).accounts,
      account.isSigner = true ∧ account.pubkey = key) ↔
        key ∈ instruction.signers := by
  have contextUnsigned : ∀ context account,
      account ∈ contextMetas context → account.isSigner = false := by
    intro context account member
    cases context with
    | none => cases member
    | some context =>
        simp only [contextMetas, List.mem_cons, List.not_mem_nil, or_false]
          at member
        rcases member with rfl | rfl
        · rfl
        · rfl
  cases instruction with
  | token instruction => exact marks instruction key
  | verifyProof instruction context proof =>
      simp only [wire, signers, List.not_mem_nil, iff_false]
      rintro ⟨account, member, signs, _⟩
      rw [contextUnsigned context account member] at signs
      cases signs
  | verifyProofFromAccount instruction context record offset =>
      simp only [wire, signers, List.not_mem_nil, iff_false]
      rintro ⟨account, member, signs, _⟩
      rcases List.mem_cons.mp member with rfl | member
      · cases signs
      · rw [contextUnsigned context account member] at signs
        cases signs
  | _ =>
      simp only [wire, signers]
      simp [AccountMeta.new, AccountMeta.newReadonly, @eq_comm _ key]

/-- The keys of a message that must sign are those its instructions ask
for. -/
theorem mem_signerKeys_iff
    (marks : MarksSigners programs) (transaction : List Instruction) :
    key ∈ Message.signerKeys payer
        (transaction.map (Instruction.wire programs)) ↔
      key ∈ payer :: transaction.flatMap Instruction.signers := by
  rw [Message.mem_signerKeys, List.mem_cons]
  apply or_congr_right
  constructor
  · rintro ⟨wire, member, account, here, signs, same⟩
    obtain ⟨instruction, inside, rfl⟩ := List.mem_map.mp member
    exact List.mem_flatMap.mpr ⟨instruction, inside,
      (instruction.marked_iff marks).mp ⟨account, here, signs, same⟩⟩
  · intro asked
    obtain ⟨instruction, inside, signs⟩ := List.mem_flatMap.mp asked
    obtain ⟨account, here, marked, same⟩ :=
      (instruction.marked_iff marks).mpr signs
    exact ⟨_, List.mem_map_of_mem inside, account, here, marked, same⟩

end Messages

/-! ## What is sent with which signers -/

/-- Transactions that were sent after one another can be put together. -/
theorem Chained.append
    {C : Cluster} {start middle last : C.State}
    {sent later : List (Sent C.State)}
    (first : Chained C start sent middle)
    (second : Chained C middle later last) :
    Chained C start (sent ++ later) last := by
  induction second with
  | nil =>
      rw [List.append_nil]
      exact first
  | send transaction signers _ inductionHypothesis =>
      rw [← List.append_assoc]
      exact .send transaction signers inductionHypothesis

/-- Between the two worlds, transactions were sent that are good with their
signers. -/
def World.Submits {C : Cluster}
    (good : List Instruction → List Keypair → Prop) (before after : World C) :
    Prop :=
  ∃ later, after.sent = before.sent ++ later ∧
    Chained C before.state later after.state ∧
    ∀ one ∈ later, good one.transaction one.signers

section Submitting

variable {C : Cluster} {good : List Instruction → List Keypair → Prop}

theorem World.Submits.refl (world : World C) : world.Submits good world :=
  ⟨[], by simp, .nil, by simp⟩

instance : IsPreorder (World C) (World.Submits good) where
  refl := World.Submits.refl
  trans := by
    rintro first second third ⟨later, sent, chained, holds⟩
      ⟨more, sent', chained', holds'⟩
    refine ⟨later ++ more, by rw [sent', sent, List.append_assoc],
      chained.append chained', ?_⟩
    intro one member
    rcases List.mem_append.mp member with earlier | last
    · exact holds one earlier
    · exact holds' one last

theorem World.Submits.mono
    {other : List Instruction → List Keypair → Prop} {before after : World C}
    (submits : before.Submits good after)
    (implied : ∀ transaction signers,
      good transaction signers → other transaction signers) :
    before.Submits other after := by
  obtain ⟨later, sent, chained, holds⟩ := submits
  exact ⟨later, sent, chained, fun one member =>
    implied _ _ (holds one member)⟩

theorem submits_send
    {transaction : List Instruction} {signers : List Keypair}
    (holds : good transaction signers) :
    Within (World.Submits good) (fun _ => True)
      (World.send transaction signers : Flow (World C) Error Receipt) := by
  intro world
  have submits : world.Submits good (world.deliver transaction signers) := by
    refine ⟨[world.sending transaction signers], rfl, ?_, ?_⟩
    · exact Chained.send transaction signers .nil
    · intro one member
      rw [List.mem_singleton.mp member]
      exact holds
  exact World.ensures_send (fun _ _ => ⟨submits, fun _ _ => trivial⟩)
    fun _ _ => ⟨submits, fun _ _ => trivial⟩

theorem submits_newKeypair :
    Within (World.Submits good)
      (fun keypair => ∃ number, keypair = C.keypairs number)
      (World.newKeypair : Flow (World C) Error Keypair) := by
  intro world
  refine World.ensures_newKeypair ⟨⟨[], by simp, .nil, by simp⟩, ?_⟩
  rintro _ ⟨⟩
  exact ⟨world.drawn, rfl⟩

/-- What a reading flow returns is as good along any other relation. -/
theorem submits_returning
    {α : Type} {holds : α → Prop} {flow : Flow (World C) Error α}
    (reading : Reading flow) (within : Within World.Sends holds flow) :
    Within (World.Submits good) holds flow := by
  intro world
  have returned := (within world).holds.2
  exact reading.ensures fun outcome ended =>
    ⟨.refl world, fun a same => returned a (ended.trans same)⟩

theorem submits_reading
    {α : Type} {flow : Flow (World C) Error α} (reading : Reading flow) :
    Within (World.Submits good) (fun _ => True) flow := by
  intro world
  exact reading.ensures fun _ _ => ⟨.refl world, fun _ _ => trivial⟩

/-- An instruction of Token-2022 that was built is the one asked for. -/
theorem submits_tokenInstruction (instruction : TokenInstruction) :
    Within (World.Submits good)
      (fun built => built = Instruction.token instruction)
      (Flow.ofExcept (tokenInstruction C.programs instruction) :
        Flow (World C) Error Instruction) :=
  .ofExcept fun _ built => tokenInstruction_eq_ok built

theorem submits_fits (instructions : List Instruction) :
    Within (World.Submits good) (fun _ => True)
      (World.fits instructions : Flow (World C) Error Bool) := by
  unfold World.fits
  split
  · exact .pure trivial
  · exact .panicking

theorem submits_rent (space : Nat) :
    Within (World.Submits good) (fun _ => True)
      (World.rent space : Flow (World C) Error Nat) :=
  .read fun _ => trivial

theorem submits_checkedUnits (units : Nat) :
    Within (World.Submits good) (fun _ => True)
      (checkedUnits units : Flow (World C) Error Nat) := by
  unfold checkedUnits
  split
  · exact .pure trivial
  · exact .panicking

theorem submits_sendAll
    {transactions : List (List Instruction)}
    (holds : ∀ transaction ∈ transactions, good transaction []) :
    Within (World.Submits good) (fun _ => True)
      (sendAll transactions : Flow (World C) Error Unit) := by
  induction transactions with
  | nil => exact .pure trivial
  | cons transaction rest inductionHypothesis =>
      exact .bind (submits_send (holds transaction List.mem_cons_self))
        fun _ _ => inductionHypothesis fun other member =>
          holds other (List.mem_cons_of_mem _ member)

end Submitting

/-! ## Transactions of a call -/

/-- What a call with some keys sends: a transaction with exactly the signers
that it asks for, unless it is overdone.  All of them are keys of the call or
drawn for proof accounts, and its instructions of Token-2022, if it has any,
are those of the call. -/
structure SignedWith (C : Cluster) (keys : List Keypair)
    (carries : List TokenInstruction → Prop)
    (transaction : List Instruction) (signers : List Keypair) : Prop where
  exactly :
    SignedExactly C.payer transaction signers ↔ ¬ Overdone C.payer transaction
  given : ∀ signer ∈ signers,
    signer ∈ keys ∨ ∃ number, signer = C.keypairs number
  carried :
    tokenInstructions transaction = [] ∨ carries (tokenInstructions transaction)

section Signing

variable {C : Cluster} {keys : List Keypair}
  {carries : List TokenInstruction → Prop}

/-- An instruction that does not describe a mint. -/
def TokenInstruction.Undescribing (instruction : TokenInstruction) : Prop :=
  ∀ metadata updateAuthority mint mintAuthority name symbol uri,
    instruction ≠ .initializeMetadata metadata updateAuthority mint
      mintAuthority name symbol uri

/-- A transaction that begins with no description of a mint is not overdone. -/
theorem not_overdone_cons
    {payer : Address} {first : Instruction} {rest : List Instruction}
    (other : ∀ instruction, first = .token instruction →
      instruction.Undescribing) :
    ¬ Overdone payer (first :: rest) := by
  intro overdone
  unfold Overdone at overdone
  split at overdone
  case h_1 same =>
      injection same with head
      exact other _ head _ _ _ _ _ _ _ rfl
  case h_2 => exact overdone

/-- A transaction of which only the payer signs, without instructions of
Token-2022. -/
theorem SignedWith.unsigned
    {first : Instruction} {rest : List Instruction}
    (paid : ∀ instruction ∈ first :: rest,
      ∀ key ∈ instruction.signers, key = C.payer)
    (plain : Plain (first :: rest)) :
    SignedWith C keys carries (first :: rest) [] where
  exactly := by
    refine iff_of_true (fun key => ?_) (not_overdone_cons ?_)
    · rw [List.mem_cons, List.mem_cons]
      constructor
      · rintro (isPayer | none)
        · exact .inl isPayer
        · cases none
      · rintro (isPayer | asked)
        · exact .inl isPayer
        · obtain ⟨instruction, inside, signs⟩ := List.mem_flatMap.mp asked
          exact .inl (paid instruction inside key signs)
    · rintro instruction rfl
      have impossible := List.all_eq_true.mp plain _ List.mem_cons_self
      cases impossible
  given := by simp
  carried := .inl plain.tokenInstructions

/-- A transaction of a drawn key without instructions of Token-2022. -/
theorem SignedWith.drawn
    {first : Instruction} {rest : List Instruction} {signer : Keypair}
    (exactly : SignedExactly C.payer (first :: rest) [signer])
    (plain : Plain (first :: rest))
    (drawn : ∃ number, signer = C.keypairs number) :
    SignedWith C keys carries (first :: rest) [signer] where
  exactly := by
    refine iff_of_true exactly (not_overdone_cons ?_)
    rintro instruction rfl
    have impossible := List.all_eq_true.mp plain _ List.mem_cons_self
    cases impossible
  given := fun other member => by
    rw [List.mem_singleton.mp member]
    exact .inr drawn
  carried := .inl plain.tokenInstructions

/-- Instructions of Token-2022 that ask for the keys of the given signers, and
possibly for the payer's. -/
theorem SignedWith.tokens
    (first : TokenInstruction) (rest : List TokenInstruction)
    {signers : List Keypair}
    (exactly : ∀ key,
      key ∈ C.payer :: signers.map (·.pubkey) ↔
        key ∈ C.payer :: (first :: rest).flatMap TokenInstruction.signers)
    (other : first.Undescribing)
    (among : ∀ signer ∈ signers, signer ∈ keys)
    (carried : carries (first :: rest)) :
    SignedWith C keys carries ((first :: rest).map .token) signers where
  exactly := by
    refine iff_of_true (fun key => ?_) (not_overdone_cons ?_)
    · rw [exactly key, List.flatMap_map]
      rfl
    · rintro instruction same
      injection same with same
      exact same ▸ other
  given := fun signer member => .inl (among signer member)
  carried := by
    rw [tokenInstructions_map]
    exact .inr carried

/-! ## Proof accounts -/

/-- A staged proof whose context was drawn. -/
structure Staged.Ours (C : Cluster) (staged : Staged) : Prop
    extends staged.Vetted C where
  drawn : ∃ number, staged.context = C.keypairs number

/-- Of its instructions only the payer and the context sign. -/
theorem Staged.Ours.mem_signers
    {staged : Staged} {withTails : Bool} {instruction : Instruction}
    {key : Address} (ours : staged.Ours C)
    (part : instruction ∈ ProofAccounts.stagedPart withTails staged)
    (signs : key ∈ instruction.signers) :
    key = C.payer ∨ key = staged.context.pubkey := by
  rcases List.mem_append.mp part with isTail | isProof
  · split at isTail
    · obtain ⟨_, _, _, rfl⟩ := ours.tail instruction (by simpa using isTail)
      exact .inl (List.mem_singleton.mp signs)
    · cases isTail
  · simp only [List.mem_cons, List.not_mem_nil, or_false] at isProof
    obtain ⟨_, _, create⟩ := ours.create
    obtain ⟨_, _, verify⟩ := ours.verify
    rcases isProof with rfl | rfl
    · rw [create] at signs
      simpa [Instruction.signers] using signs
    · rw [verify] at signs
      cases signs

/-- None of them is one of Token-2022. -/
theorem Staged.Ours.token?_eq_none
    {staged : Staged} {withTails : Bool} {instruction : Instruction}
    (ours : staged.Ours C)
    (part : instruction ∈ ProofAccounts.stagedPart withTails staged) :
    instruction.token? = none := by
  rcases List.mem_append.mp part with isTail | isProof
  · split at isTail
    · obtain ⟨_, _, _, rfl⟩ := ours.tail instruction (by simpa using isTail)
      rfl
    · cases isTail
  · simp only [List.mem_cons, List.not_mem_nil, or_false] at isProof
    obtain ⟨_, _, create⟩ := ours.create
    obtain ⟨_, _, verify⟩ := ours.verify
    rcases isProof with rfl | rfl
    · rw [create]
      rfl
    · rw [verify]
      rfl

/-- All staged proofs are. -/
def ProofAccounts.Ours (C : Cluster) (self : ProofAccounts) : Prop :=
  ∀ staged ∈ self.staged, staged.Ours C

namespace ProofAccounts

theorem submits_closeAfter
    {α : Type} (self : ProofAccounts) (result : Except Error α) :
    Within (World.Submits (SignedWith C keys carries)) (fun _ => True)
      (self.closeAfter result : Flow (World C) Error α) := by
  have close :
      Within (World.Submits (SignedWith C keys carries)) (fun _ => True)
        (({ self with staged := [] } : ProofAccounts).close :
          Flow (World C) Error Unit) := by
    rw [close_eq]
    refine submits_sendAll fun transaction member => ?_
    obtain ⟨batch, closes, rfl, _⟩ := cleaning_batches _ transaction member
    refine .unsigned (fun instruction inside key signs => ?_) ?_
    · rcases List.mem_cons.mp inside with rfl | inside
      · cases signs
      · obtain ⟨item, isItem, rfl⟩ := List.mem_map.mp inside
        rcases closes item isItem with ⟨context, rfl⟩ | ⟨record, rfl⟩
        · exact List.mem_singleton.mp signs
        · exact List.mem_singleton.mp signs
    · refine List.all_eq_true.mpr fun instruction inside => ?_
      rcases List.mem_cons.mp inside with rfl | inside
      · rfl
      · obtain ⟨item, isItem, rfl⟩ := List.mem_map.mp inside
        rcases closes item isItem with ⟨context, rfl⟩ | ⟨record, rfl⟩
        · rfl
        · rfl
  exact .bind close.result fun _ _ => .bind (.ofExcept_any _) fun _ _ =>
    .bind (.ofExcept_any _) fun _ _ => .pure trivial

variable {self : ProofAccounts} {instructions : List Instruction}
  {owner : Keypair}

theorem Ours.withoutTails (ours : self.Ours C) : self.withoutTails.Ours C := by
  intro staged member
  obtain ⟨one, among, rfl⟩ := List.mem_map.mp member
  have was := ours one among
  exact ⟨⟨was.held, was.create, was.verify, fun _ impossible => by
    cases impossible⟩, was.drawn⟩

/-- Instructions of a call that the owner signs. -/
structure Asks (owner : Keypair) (carries : List TokenInstruction → Prop)
    (instructions : List Instruction) : Prop where
  signs : ∀ key,
    key ∈ instructions.flatMap Instruction.signers ↔ key = owner.pubkey
  carried : carries (tokenInstructions instructions)

/-- The proof accounts of the consuming transaction bring no instruction of
Token-2022. -/
theorem Ours.tokenInstructions_consuming
    (ours : self.Ours C) (withTails : Bool) :
    tokenInstructions (self.consuming C.payer instructions withTails) =
      tokenInstructions instructions := by
  have staged : tokenInstructions
      (self.staged.flatMap (stagedPart withTails)) = [] := by
    apply List.filterMap_eq_nil_iff.mpr
    intro instruction member
    obtain ⟨one, among, part⟩ := List.mem_flatMap.mp member
    exact (ours one among).token?_eq_none part
  have contexts : ∀ addresses : List Address,
      tokenInstructions (addresses.map fun context =>
        .closeContextState (contextInfo context C.payer) C.payer) = [] := by
    intro addresses
    apply List.filterMap_eq_nil_iff.mpr
    intro instruction member
    obtain ⟨_, _, rfl⟩ := List.mem_map.mp member
    rfl
  have records : tokenInstructions (self.records.map fun record =>
      .recordCloseAccount record C.payer C.payer) = [] := by
    apply List.filterMap_eq_nil_iff.mpr
    intro instruction member
    obtain ⟨_, _, rfl⟩ := List.mem_map.mp member
    rfl
  unfold consuming
  rw [tokenInstructions_append, tokenInstructions_append,
    tokenInstructions_append, staged, contexts, records, List.nil_append,
    List.append_nil, List.append_nil]

/-- The consuming transaction asks for the keys of the staged contexts and of
the owner. -/
theorem Ours.signedExactly_consuming
    (ours : self.Ours C)
    (signs : ∀ key,
      key ∈ instructions.flatMap Instruction.signers ↔ key = owner.pubkey)
    (units : Nat) (withTails : Bool) :
    SignedExactly C.payer
      (withComputeUnitLimit units
        (self.consuming C.payer instructions withTails))
      ([owner] ++ self.staged.map (·.context)) := by
  intro key
  rw [List.mem_cons, List.mem_cons]
  constructor
  · rintro (isPayer | member)
    · exact .inl isPayer
    · right
      rw [withComputeUnitLimit, List.flatMap_cons, consuming,
        List.flatMap_append, List.flatMap_append, List.flatMap_append]
      obtain ⟨signer, isSigner, rfl⟩ := List.mem_map.mp member
      rcases List.mem_append.mp isSigner with isOwner | isContext
      · rw [List.mem_singleton.mp isOwner]
        have asked := (signs owner.pubkey).mpr rfl
        simp [asked]
      · obtain ⟨staged, among, rfl⟩ := List.mem_map.mp isContext
        have asked : staged.context.pubkey ∈
            (self.staged.flatMap (stagedPart withTails)).flatMap
              Instruction.signers := by
          obtain ⟨_, _, create⟩ := (ours staged among).create
          refine List.mem_flatMap.mpr ⟨staged.create, ?_, ?_⟩
          · exact List.mem_flatMap.mpr ⟨staged, among, by simp [stagedPart]⟩
          · rw [create]
            simp [Instruction.signers]
        simp [asked]
  · rintro (isPayer | asked)
    · exact .inl isPayer
    · obtain ⟨instruction, inside, signed⟩ := List.mem_flatMap.mp asked
      rcases List.mem_cons.mp inside with rfl | inside
      · cases signed
      · unfold consuming at inside
        rcases List.mem_append.mp inside with inside | isRecord
        · rcases List.mem_append.mp inside with inside | isContext
          · rcases List.mem_append.mp inside with isStaged | isAsked
            · obtain ⟨staged, among, part⟩ := List.mem_flatMap.mp isStaged
              rcases (ours staged among).mem_signers part signed with
                isPayer | isContext
              · exact .inl isPayer
              · right
                rw [isContext]
                exact List.mem_map_of_mem (List.mem_append_right _
                  (List.mem_map_of_mem among))
            · right
              have isOwner := (signs key).mp
                (List.mem_flatMap.mpr ⟨instruction, isAsked, signed⟩)
              simp [isOwner]
          · obtain ⟨_, _, rfl⟩ := List.mem_map.mp isContext
            exact .inl (List.mem_singleton.mp signed)
        · obtain ⟨_, _, rfl⟩ := List.mem_map.mp isRecord
          exact .inl (List.mem_singleton.mp signed)

theorem Ours.signedWith_consuming
    (ours : self.Ours C) (asks : Asks owner carries instructions)
    (units : Nat) (withTails : Bool) :
    SignedWith C [owner] carries
      (withComputeUnitLimit units
        (self.consuming C.payer instructions withTails))
      ([owner] ++ self.staged.map (·.context)) where
  exactly :=
    iff_of_true (ours.signedExactly_consuming asks.signs units withTails)
      (not_overdone_cons fun _ impossible => by cases impossible)
  given := by
    intro signer member
    rcases List.mem_append.mp member with isOwner | isContext
    · exact .inl isOwner
    · obtain ⟨staged, among, rfl⟩ := List.mem_map.mp isContext
      exact .inr (ours staged among).drawn
  carried := by
    right
    have same : tokenInstructions (withComputeUnitLimit units
        (self.consuming C.payer instructions withTails)) =
          tokenInstructions instructions :=
      ours.tokenInstructions_consuming withTails
    rw [same]
    exact asks.carried

theorem Ours.submits_sendTails (ours : self.Ours C) :
    Within (World.Submits (SignedWith C keys carries)) (fun _ => True)
      (sendTails self.tails : Flow (World C) Error Unit) := by
  have writes : ∀ tail ∈ self.tails, SignedWith C keys carries [tail] [] := by
    intro tail member
    obtain ⟨staged, among, kept⟩ := List.mem_filterMap.mp member
    obtain ⟨_, _, _, rfl⟩ := (ours staged among).tail tail kept
    refine .unsigned (fun instruction inside key signs => ?_) rfl
    rw [List.mem_singleton.mp inside] at signs
    exact List.mem_singleton.mp signs
  generalize self.tails = tails at writes
  induction tails with
  | nil => exact .pure trivial
  | cons tail rest inductionHypothesis =>
      exact .bind (submits_send (writes tail List.mem_cons_self))
        fun _ _ => inductionHypothesis fun other member =>
          writes other (List.mem_cons_of_mem _ member)

theorem submits_sendConsuming
    (self : ProofAccounts) {transaction : List Instruction}
    {signers : List Keypair}
    (signed : SignedWith C keys carries transaction
      (signers ++ self.staged.map (·.context))) :
    Within (World.Submits (SignedWith C keys carries)) (fun _ => True)
      (self.sendConsuming transaction signers :
        Flow (World C) Error Receipt) := by
  unfold sendConsuming
  refine .bind (submits_fits transaction) fun fits _ => ?_
  split
  · refine .bind (submits_send signed).result fun outcome _ => ?_
    cases outcome with
    | ok receipt => exact .pure trivial
    | error error => exact submits_closeAfter _ _
  · exact submits_closeAfter _ _

theorem Ours.submits_consume
    (ours : self.Ours C) (asks : Asks owner carries instructions)
    (units : Nat) :
    Within (World.Submits (SignedWith C [owner] carries)) (fun _ => True)
      (self.consume instructions [owner] units :
        Flow (World C) Error Receipt) := by
  have builds : ∀ {accounts : ProofAccounts}, accounts.Ours C →
      ∀ withTails, Within (World.Submits (SignedWith C [owner] carries))
        (fun transaction => SignedWith C [owner] carries transaction
          ([owner] ++ accounts.staged.map (·.context)))
        (accounts.build instructions units withTails :
          Flow (World C) Error (List Instruction)) :=
    fun theirs withTails => .bind (submits_checkedUnits _) fun total _ =>
      .pure (theirs.signedWith_consuming asks total withTails)
  unfold consume
  refine .bind (builds ours true) fun transaction signed =>
    .bind (submits_fits transaction) fun fits _ => ?_
  split
  · exact submits_sendConsuming self signed
  · refine .bind ours.submits_sendTails.result fun outcome _ => ?_
    cases outcome with
    | error error => exact submits_closeAfter _ _
    | ok done =>
        exact .bind (builds ours.withoutTails false) fun transaction signed =>
          submits_sendConsuming self.withoutTails signed

end ProofAccounts

/-! ## Staging -/

/-- Proof accounts stay ours, and transactions were sent that are good with
their signers. -/
def Session.Submits (good : List Instruction → List Keypair → Prop)
    (before after : Session C) : Prop :=
  (before.accounts.Ours C → after.accounts.Ours C) ∧
    before.world.Submits good after.world

instance (good : List Instruction → List Keypair → Prop) :
    IsPreorder (Session C) (Session.Submits good) where
  refl session := ⟨id, refl session.world⟩
  trans _ _ _ first second :=
    ⟨second.1 ∘ first.1, IsTrans.trans _ _ _ first.2 second.2⟩

namespace Session

variable {good : List Instruction → List Keypair → Prop}

theorem submits_onWorld
    {α : Type} {holds : α → Prop} {flow : Flow (World C) Error α}
    (within : Within (World.Submits good) holds flow) :
    Within (Session.Submits good) holds (Session.onWorld flow) :=
  fun session => .zoom ((within session.world).mono
    fun _ _ moved => ⟨⟨id, moved.1⟩, moved.2⟩)

theorem submits_track
    {change : ProofAccounts → ProofAccounts}
    (keeps : ∀ accounts, accounts.Ours C → (change accounts).Ours C) :
    Within (Session.Submits good) (fun _ => True)
      (Session.track change : Flow (Session C) Error Unit) :=
  fun session => .update
    ⟨⟨keeps session.accounts, refl session.world⟩, fun _ _ => trivial⟩

end Session

theorem submits_createContextAccount
    {good : List Instruction → List Keypair → Prop}
    (contextSize : Nat) (context : Address) :
    Within (World.Submits good)
      (fun instruction => ∃ lamports space,
        instruction =
          .createAccount C.payer context lamports space
            C.programs.zkElGamalProof)
      (createContextAccount contextSize context :
        Flow (World C) Error Instruction) :=
  .bind (submits_rent _) fun lamports _ =>
    .pure ⟨lamports, contextStateSize contextSize, rfl⟩

theorem submits_writeChunks (record : Address) (bytes : Bytes) (offset : Nat) :
    Within (World.Submits (SignedWith C keys carries))
      (fun tail => ∀ write, tail = some write →
        ∃ offset data, write = .recordWrite record C.payer offset data)
      (writeChunks record bytes offset :
        Flow (World C) Error (Option Instruction)) := by
  fun_induction writeChunks record bytes offset with
  | case1 => exact .panicking
  | case2 => exact .fail
  | case3 offset =>
      refine .pure ?_
      rintro _ ⟨⟩
      exact ⟨offset, _, rfl⟩
  | case4 offset _ _ _ _ _ _ inductionHypothesis =>
      refine .bind (submits_send (.unsigned (fun instruction inside key signs =>
        ?_) rfl)) fun _ _ => inductionHypothesis
      rw [List.mem_singleton.mp inside] at signs
      exact List.mem_singleton.mp signs
  | case5 =>
      refine .pure ?_
      rintro _ ⟨⟩

namespace ProofAccounts

theorem submits_verify (instruction : ProofInstruction) (proof : ProofData) :
    Within (Session.Submits (SignedWith C keys carries)) (fun _ => True)
      (verify instruction proof : Flow (Session C) Error Address) := by
  unfold verify
  refine .bind (Session.submits_onWorld submits_newKeypair)
    fun context drawn => .bind
      (Session.submits_onWorld (submits_createContextAccount _ _)) ?_
  rintro _ ⟨lamports, space, rfl⟩
  dsimp only
  refine .bind (Session.submits_onWorld (submits_fits _)) fun fits _ => ?_
  split
  · have signed : SignedWith C keys carries
        (verifying C.programs C.payer context.pubkey
          (computeUnits instruction + OVERHEAD_UNITS) lamports space instruction
          proof.bytes) [context] :=
      .drawn (fun key => by simp [Instruction.signers]) rfl drawn
    exact .bind (Session.submits_onWorld (submits_send signed)) fun _ _ =>
      .bind (Session.submits_track fun _ ours => ours) fun _ _ => .pure trivial
  · exact .fail

theorem submits_stageFromRecord
    (instruction : ProofInstruction) (proof : ProofData) :
    Within (Session.Submits (SignedWith C keys carries)) (fun _ => True)
      (stageFromRecord instruction proof :
        Flow (Session C) Error Address) := by
  unfold stageFromRecord
  refine .bind (Session.submits_onWorld submits_newKeypair)
    fun record recordDrawn => .bind
      (Session.submits_onWorld (submits_rent _)) fun lamports _ => ?_
  have signed : ∀ chunk, SignedWith C keys carries
      (recordOpening C.programs C.payer record.pubkey lamports
        (recordSpace proof.bytes) chunk) [record] := by
    refine fun chunk => .drawn (fun key => ?_) rfl recordDrawn
    simp [Instruction.signers]
    tauto
  refine .bind (Session.submits_onWorld (within_foundOrPanic _))
    fun offset _ => ?_
  refine .bind (Session.submits_onWorld (submits_send (signed _))) fun _ _ =>
    .bind (Session.submits_track fun _ ours => ours) fun _ _ => ?_
  refine .bind (Session.submits_onWorld (submits_writeChunks _ _ _))
    fun tailWrite writes => .bind
      (Session.submits_onWorld submits_newKeypair) ?_
  rintro _ ⟨number, rfl⟩
  refine .bind
    (Session.submits_onWorld (submits_createContextAccount _ _)) ?_
  rintro _ ⟨lamports, space, rfl⟩
  refine .bind (Session.submits_track ?_) fun _ _ => .pure trivial
  intro accounts ours staged member
  rcases List.mem_append.mp member with earlier | last
  · exact ours staged earlier
  · rw [List.mem_singleton.mp last]
    exact
      { held := C.held_keypair number
        create := ⟨lamports, space, rfl⟩
        verify := ⟨instruction, _, rfl⟩
        tail := fun write kept => ⟨record.pubkey, writes write kept⟩
        drawn := ⟨number, rfl⟩ }

end ProofAccounts

/-- What a debit sends is signed by the owner and the drawn keys. -/
theorem submits_debiting
    {Plan : Type} {load : Flow (World C) Error Plan}
    {stage : Plan → Flow (Session C) Error (List Instruction)}
    {owner : Keypair}
    (reading : Reading load)
    (stages : ∀ plan, Within (Session.Submits (SignedWith C [owner] carries))
      (ProofAccounts.Asks owner carries) (stage plan))
    (units : Nat) :
    Within (World.Submits (SignedWith C [owner] carries)) (fun _ => True)
      (debiting load stage owner units) := by
  have prepares : ∀ plan, Within (World.Submits (SignedWith C [owner] carries))
      (fun (prepared : Except Error (List Instruction) × ProofAccounts) =>
        prepared.2.Ours C ∧ ∀ instructions, prepared.1 = .ok instructions →
          ProofAccounts.Asks owner carries instructions)
      (Session.prepare (stage plan)) := by
    intro plan world
    have unused : ({} : ProofAccounts).Ours C := fun _ member => by cases member
    refine Session.ensures_prepare ((stages plan ⟨{}, world⟩).mono ?_)
    rintro ((error | _) | instructions) session ⟨⟨kept, submits⟩, staged⟩
    · refine ⟨submits, ?_⟩
      rintro _ ⟨⟩
      exact ⟨kept unused, fun _ impossible => by cases impossible⟩
    · exact ⟨submits, fun _ impossible => by cases impossible⟩
    · refine ⟨submits, ?_⟩
      rintro _ ⟨⟩
      refine ⟨kept unused, ?_⟩
      rintro _ ⟨⟩
      exact staged instructions rfl
  unfold debiting
  refine .bind (submits_reading reading) fun plan _ =>
    .bind (prepares plan) ?_
  rintro ⟨prepared, accounts⟩ ⟨ours, asked⟩
  have finishes : Within (World.Submits (SignedWith C [owner] carries))
      (fun _ => True)
      (finish prepared accounts [owner] units :
        Flow (World C) Error Receipt) := by
    cases prepared with
    | ok instructions =>
        exact ours.submits_consume (asked instructions rfl) units
    | error error => exact accounts.submits_closeAfter _
  exact .bind finishes fun _ _ => .pure trivial

end Signing
end Remit
