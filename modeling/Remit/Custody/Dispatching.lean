import Remit.Custody
import Remit.Proofs.Packets

/-!
# No oversized transaction

Whatever calls were made before, every transaction that a proof operation sends
fits a packet.  Where something cannot fit, the operation fails with an error,
unless measuring panics: of a proof whose length has no prefix of 16 bits, or of
a consuming transaction with too many keys, bytes or units.
-/

namespace Remit

open Flows Flow

variable {C : Cluster}

/-- The calls on proof accounts. -/
def Operation.OnProofs : Operation → Prop
  | createMint .. => False
  | _ => True

/-- The proof accounts of every session are settled. -/
def Desk.Settled (desk : Desk C) : Prop :=
  ∀ session, (desk.sessions session).Settled C 0 desk.world.drawn

theorem Desk.settled_initial (state : C.State) (drawn : Nat) :
    (Desk.initial state drawn : Desk C).Settled :=
  fun _ => .empty (Nat.zero_le _)

theorem posts_createMintFrom
    (mint : Keypair) (authorities : Authorities) (params : StablecoinParams)
    (inits : List ExtensionInit) :
    Within (World.Posts fun _ => True) (fun _ => True)
      (createMintFrom mint authorities params inits :
        Flow (World C) Error Unit) := by
  have plans : Within (World.Posts fun _ => True) (fun _ => True)
      (planFromInits mint.pubkey authorities params inits :
        Flow (World C) Error MintPlan) :=
    .bind (.ofExcept_any _) fun _ _ => .bind (.ofExcept_any _) fun _ _ =>
      .bind (.ofExcept_any _) fun _ _ => .bind (World.posts_rent _)
        fun _ _ => .bind (.ofExcept_any _) fun _ _ => .pure trivial
  exact .bind plans fun _ _ => .bind (World.posts_send trivial)
    fun _ _ => .bind (World.posts_send trivial) fun _ _ => .pure trivial

namespace Desk

/-- A session that was worked on, next to the others. -/
theorem settled_update
    {desk : Desk C} {session : Nat} {accounts : ProofAccounts}
    {world : World C}
    (settled : desk.Settled) (later : desk.world.drawn ≤ world.drawn)
    (changed : accounts.Settled C 0 world.drawn) :
    Desk.Settled
      ⟨Function.update desk.sessions session accounts, world⟩ := by
  intro other
  by_cases same : other = session
  · subst same
    dsimp only
    rw [Function.update_self]
    exact changed
  · dsimp only
    rw [Function.update_of_ne same]
    exact (settled other).later later

end Desk

namespace Operation

/-- What `consume` is called for, if this is what the operation does. -/
def Asks (operation : Operation) (asked : List Instruction → Nat → Prop) :
    Prop :=
  ∀ session instructions signers units,
    operation = .consume session instructions signers units →
      asked instructions units

/-- Every call keeps the sessions settled, and a call on proof accounts sends
only what fits. -/
theorem perform_posts
    (asked : Nat → List Instruction → Nat → Prop) {desk : Desk C}
    (operation : Operation) (settled : desk.Settled)
    (asks : operation.Asks (asked desk.world.drawn)) :
    (operation.perform desk).Settled ∧
      desk.world.drawn ≤ (operation.perform desk).world.drawn ∧
      (operation.OnProofs →
        desk.world.Posts (Dispatched C asked)
          (operation.perform desk).world) := by
  cases operation with
  | verify session instruction proof =>
      have moved := (ProofAccounts.posts_verify (C := C) asked instruction
        proof).moved ⟨desk.sessions session, desk.world⟩
      dsimp only [perform]
      exact ⟨Desk.settled_update settled moved.world.drawn
          (moved.settled 0 (settled session)),
        moved.world.drawn, fun _ => moved.world⟩
  | stageFromRecord session instruction proof =>
      have moved := (ProofAccounts.posts_stageFromRecord (C := C) asked
        instruction proof).moved
          ⟨desk.sessions session, desk.world⟩
      dsimp only [perform]
      exact ⟨Desk.settled_update settled moved.world.drawn
          (moved.settled 0 (settled session)),
        moved.world.drawn, fun _ => moved.world⟩
  | consume session instructions signers units =>
      have isAsked := asks session instructions signers units rfl
      have moved := ((settled session).posts_consume asked isAsked
        signers).moved desk.world
      exact ⟨Desk.settled_update settled moved.drawn
          (.empty (Nat.zero_le _)),
        moved.drawn, fun _ => moved⟩
  | closeAfter session result =>
      have moved := (ProofAccounts.posts_closeAfter asked
        (desk.sessions session) result).moved desk.world
      exact ⟨Desk.settled_update settled moved.drawn
          (.empty (Nat.zero_le _)),
        moved.drawn, fun _ => moved⟩
  | createMint mint authorities params inits =>
      have moved := (posts_createMintFrom (C := C) mint authorities params
        inits).moved desk.world
      exact ⟨fun session => (settled session).later moved.drawn,
        moved.drawn, fun impossible => impossible.elim⟩

end Operation

namespace Desk

variable {desk : Desk C} {operations : List Operation}

/-- So does every sequence of calls. -/
theorem run_settled (settled : desk.Settled) :
    (desk.run operations).Settled := by
  induction operations generalizing desk with
  | nil => exact settled
  | cons operation rest inductionHypothesis =>
      exact inductionHypothesis
        (Operation.perform_posts (fun _ _ _ => True) operation settled
          fun _ _ _ _ _ => trivial).1

theorem run_drawn (settled : desk.Settled) :
    desk.world.drawn ≤ (desk.run operations).world.drawn := by
  induction operations generalizing desk with
  | nil => exact Nat.le_refl _
  | cons operation rest inductionHypothesis =>
      have step := Operation.perform_posts (fun _ _ _ => True) operation
        settled fun _ _ _ _ _ => trivial
      exact Nat.le_trans step.2.1 (inductionHypothesis step.1)

/-- Every sequence of calls on proof accounts sends only what fits, and
`consume` is asked with no more keys drawn than in the end. -/
theorem run_posts
    {asked : List Instruction → Nat → Prop} {limit : Nat}
    (settled : desk.Settled)
    (onProofs : ∀ operation ∈ operations, operation.OnProofs)
    (asks : ∀ operation ∈ operations, operation.Asks asked)
    (limited : (desk.run operations).world.drawn ≤ limit) :
    desk.world.Posts
      (Dispatched C fun drawn instructions units =>
        drawn ≤ limit ∧ asked instructions units)
      (desk.run operations).world := by
  induction operations generalizing desk with
  | nil => exact refl desk.world
  | cons operation rest inductionHypothesis =>
      have here : desk.world.drawn ≤ limit :=
        Nat.le_trans (run_drawn settled) limited
      have step := Operation.perform_posts
        (fun drawn instructions units =>
          drawn ≤ limit ∧ asked instructions units)
        operation settled fun session instructions signers units same =>
          ⟨here, asks operation List.mem_cons_self session instructions
            signers units same⟩
      exact IsTrans.trans _ _ _
        (step.2.2 (onProofs operation List.mem_cons_self))
        (inductionHypothesis step.1
          (fun other member => onProofs other (List.mem_cons_of_mem _ member))
          (fun other member => asks other (List.mem_cons_of_mem _ member))
          limited)

end Desk

/-! ## Where something cannot fit -/

/-- Every transaction sent since `before` fits a packet, and the call failed
with an error if something is too large. -/
def Tidy {α : Type} (before : World C) (tooLarge : Prop)
    (outcome : Except (Stop Error) α) (reached : World C) : Prop :=
  (∃ later, reached.sent = before.sent ++ later ∧
    ∀ one ∈ later,
      transactionSize C.programs one.transaction C.payer ≤
        PACKET_DATA_SIZE) ∧
    (tooLarge → ∃ error, outcome = .error (.error error))

/-- The transaction that `verify` would send. -/
def nextVerifying (world : World C) (instruction : ProofInstruction)
    (proof : ProofData) : List Instruction :=
  verifying C.programs C.payer (C.keypairs world.drawn).pubkey
    (computeUnits instruction + OVERHEAD_UNITS)
    (C.minimumBalanceForRentExemption world.state
      (contextStateSize proof.contextSize))
    (contextStateSize proof.contextSize) instruction proof.bytes

/-- How `stageFromRecord` would open its record. -/
def nextOpening (world : World C) (proof : ProofData) :
    Bytes → List Instruction :=
  recordOpening C.programs C.payer (C.keypairs world.drawn).pubkey
    (C.minimumBalanceForRentExemption world.state (recordSpace proof.bytes))
    (recordSpace proof.bytes)

namespace Operation

/-- What a call on proof accounts owes: `verify` may find its transaction too
large, staging may find no chunk that fits, `consume` its last transaction too
large, and closing a single close instruction. -/
def IsTidy (desk : Desk C) : Operation → Prop
  | verify session instruction proof =>
      Ensures (ProofAccounts.verify instruction proof)
        ⟨desk.sessions session, desk.world⟩ fun outcome reached =>
          Tidy desk.world
            (fitsInOneTransaction C.programs
              (nextVerifying desk.world instruction proof) C.payer = false)
            outcome reached.world
  | stageFromRecord session instruction proof =>
      Ensures (ProofAccounts.stageFromRecord instruction proof)
        ⟨desk.sessions session, desk.world⟩ fun outcome reached =>
          Tidy desk.world
            (largestChunk C.programs C.payer proof.bytes
                (nextOpening desk.world proof) = none ∨
              ∃ offset < proof.bytes.length, ∀ len,
                recordChunk C.programs C.payer
                    (C.keypairs desk.world.drawn).pubkey proof.bytes offset =
                  some len → len = 0)
            outcome reached.world
  | consume session instructions signers units =>
      Ensures ((desk.sessions session).consume instructions signers units)
        desk.world
        (Tidy desk.world ((desk.sessions session).TooLarge C instructions))
  | closeAfter session result =>
      Ensures ((desk.sessions session).closeAfter result) desk.world
        (Tidy desk.world
          (∃ instruction ∈ (desk.sessions session).closes C.payer,
            batchFits C.programs C.payer [instruction] = false))
  | createMint .. => True

/-- What the call has to measure can be measured: the transaction of `verify`,
the first half of a proof that is staged, and what `consume` cannot fit. -/
def Measures (desk : Desk C) : Operation → Prop
  | verify _ _ proof => proof.bytes.length + 1 < 2 ^ 16
  | stageFromRecord _ _ proof => (proof.bytes.length + 1) / 2 + 13 < 2 ^ 16
  | consume session instructions _ units =>
      (desk.sessions session).TooLarge C instructions →
        (desk.sessions session).Measurable C instructions units
  | _ => True

end Operation

/-! ## What verifying and staging do where something cannot fit -/

section Measuring

variable {proof : ProofData}

theorem fails_verify
    {instruction : ProofInstruction} (session : Session C)
    (measures : proof.bytes.length + 1 < 2 ^ 16)
    (tooLarge :
      fitsInOneTransaction C.programs
        (nextVerifying session.world instruction proof) C.payer = false) :
    Ensures (ProofAccounts.verify instruction proof) session
      fun outcome _ => ∃ error, outcome = .error (.error error) := by
  have serializes : messageSerializes C.programs
      (nextVerifying session.world instruction proof) C.payer = true :=
    (messageSerializes_verifying_iff ..).mpr measures
  have measured := World.fits_eq serializes
  rw [tooLarge] at measured
  unfold nextVerifying verifying at measured
  unfold ProofAccounts.verify
  refine .bind (.zoom (World.ensures_newKeypair ?_))
  refine .bind (.zoom (.bind (.read (.pure ?_))))
  dsimp only
  rw [measured]
  exact .bind (.zoom (.pure (.fail ⟨_, rfl⟩)))

/-- A proof that is too long to be measured. -/
theorem not_serializes_nextVerifying
    (instruction : ProofInstruction) (world : World C)
    (long : ¬ proof.bytes.length + 1 < 2 ^ 16) :
    messageSerializes C.programs (nextVerifying world instruction proof)
      C.payer = false :=
  Bool.eq_false_iff.mpr
    ((messageSerializes_verifying_iff ..).not.mpr long)

theorem panics_verify
    (instruction : ProofInstruction) (session : Session C)
    (long : ¬ proof.bytes.length + 1 < 2 ^ 16) :
    Ensures (ProofAccounts.verify instruction proof) session
      fun outcome _ => outcome = .error .panic := by
  have measured := World.fits_panics
    (not_serializes_nextVerifying instruction session.world long)
  unfold nextVerifying verifying at measured
  unfold ProofAccounts.verify
  refine .bind (.zoom (World.ensures_newKeypair ?_))
  refine .bind (.zoom (.bind (.read (.pure ?_))))
  dsimp only
  rw [measured]
  exact .bind (.zoom (.panicking rfl))

theorem panics_stageFromRecord
    (instruction : ProofInstruction) (session : Session C)
    (nothing : largestChunk C.programs C.payer proof.bytes
      (nextOpening session.world proof) = none) :
    Ensures (ProofAccounts.stageFromRecord instruction proof) session
      fun outcome _ => outcome = .error .panic := by
  unfold nextOpening at nothing
  unfold ProofAccounts.stageFromRecord
  refine .bind (.zoom (World.ensures_newKeypair ?_))
  refine .bind (.zoom (.read ?_))
  dsimp only
  rw [nothing]
  exact .bind (.zoom (.panicking rfl))

/-- A proof whose halves can be measured is staged in chunks that fit. -/
theorem finds_chunks
    (world : World C)
    (measures : (proof.bytes.length + 1) / 2 + 13 < 2 ^ 16) :
    ¬ (largestChunk C.programs C.payer proof.bytes
          (nextOpening world proof) = none ∨
        ∃ offset < proof.bytes.length, ∀ len,
          recordChunk C.programs C.payer (C.keypairs world.drawn).pubkey
            proof.bytes offset = some len → len = 0) := by
  rintro (nothing | ⟨offset, unfinished, stuck⟩)
  · have long := largestChunk_recordOpening_eq_none_iff.mp nothing
    omega
  · cases chunk : recordChunk C.programs C.payer
        (C.keypairs world.drawn).pubkey proof.bytes offset with
    | none =>
        have long := recordChunk_eq_none_iff.mp chunk
        omega
    | some len =>
        exact (recordChunk_pos unfinished chunk).ne' (stuck len chunk)

end Measuring

section Tidying

variable {α σ : Type} (worldOf : σ → World C) {flow : Flow σ Error α}
  {state : σ} {tooLarge : Prop}

/-- A flow that sends only what fits, and fails if something is too large. -/
theorem tidy_of_posts
    {asked : Nat → List Instruction → Nat → Prop}
    (posts : Ensures flow state fun _ reached =>
      (worldOf state).Posts (Dispatched C asked) (worldOf reached))
    (fails : tooLarge → Ensures flow state
      fun outcome _ => ∃ error, outcome = .error (.error error)) :
    Ensures flow state fun outcome reached =>
      Tidy (worldOf state) tooLarge outcome (worldOf reached) := by
  refine (posts.and (Ensures.all fails)).mono ?_
  rintro outcome reached ⟨moved, failed⟩
  obtain ⟨later, sent, dispatched⟩ := moved.sent
  exact ⟨⟨later, sent, fun one member =>
    of_decide_eq_true (dispatched one member).2⟩, failed⟩

/-- A panic is no error, so nothing is too large for a tidy call that
panics. -/
theorem not_tooLarge_of_panics
    {before : World C}
    (tidy : Ensures flow state fun outcome reached =>
      Tidy before tooLarge outcome (worldOf reached))
    (panics : Ensures flow state fun outcome _ => outcome = .error .panic) :
    ¬ tooLarge := by
  intro large
  obtain ⟨error, failed⟩ := tidy.holds.2 large
  have panicked := panics.holds
  rw [failed] at panicked
  cases panicked

end Tidying

/-- On settled sessions a call is tidy exactly when it can measure what it has
to. -/
theorem Operation.isTidy_iff
    {desk : Desk C} (settled : desk.Settled) (operation : Operation) :
    operation.IsTidy desk ↔ operation.Measures desk := by
  cases operation with
  | verify session instruction proof =>
      constructor
      · intro tidy
        by_contra long
        apply not_tooLarge_of_panics Session.world tidy
          (panics_verify instruction _ long)
        exact not_fits_of_not_serializes
          (not_serializes_nextVerifying instruction desk.world long)
      · intro measures
        have posts := ProofAccounts.posts_verify (C := C) (fun _ _ _ => True)
          instruction proof ⟨desk.sessions session, desk.world⟩
        exact tidy_of_posts Session.world
          (posts.mono fun _ _ moved => moved.1.world)
          (fails_verify ⟨desk.sessions session, desk.world⟩ measures)
  | stageFromRecord session instruction proof =>
      constructor
      · intro tidy
        by_contra long
        have nothing : largestChunk C.programs C.payer proof.bytes
            (nextOpening desk.world proof) = none :=
          largestChunk_recordOpening_eq_none_iff.mpr (Nat.le_of_not_lt long)
        exact not_tooLarge_of_panics Session.world tidy
          (panics_stageFromRecord instruction _ nothing) (.inl nothing)
      · intro measures
        have posts := ProofAccounts.posts_stageFromRecord (C := C)
          (fun _ _ _ => True) instruction proof
          ⟨desk.sessions session, desk.world⟩
        exact tidy_of_posts Session.world
          (posts.mono fun _ _ moved => moved.1.world)
          fun stuck => absurd stuck (finds_chunks desk.world measures)
  | closeAfter session result =>
      have posts := ProofAccounts.posts_closeAfter (C := C)
        (fun _ _ _ => True) (desk.sessions session) result desk.world
      refine iff_of_true (tidy_of_posts id
        (posts.mono fun _ _ moved => moved.1) ?_) trivial
      rintro ⟨instruction, member, tooLarge⟩
      rw [← ProofAccounts.closing_fst] at member
      obtain ⟨item, among, rfl⟩ := List.mem_map.mp member
      have fits := ((desk.sessions session).isClose_closing C.payer item
        among).fits C.programs
      rw [fits] at tooLarge
      cases tooLarge
  | createMint => exact Iff.rfl
  | consume session instructions signers units =>
      constructor
      · intro tidy tooLarge
        by_contra unmeasurable
        exact not_tooLarge_of_panics id tidy
          (ProofAccounts.panics_consume unmeasurable signers desk.world)
          tooLarge
      · intro measures
        exact tidy_of_posts id
          (((settled session).posts_consume (fun _ _ _ => True) trivial signers
            desk.world).mono fun _ _ moved => moved.1)
          fun tooLarge => (settled session).fails_consume tooLarge
            (measures tooLarge) signers desk.world

/-- Whatever was called before, a call sends nothing oversized and fails with
an error where something cannot fit, exactly when it can measure what it has
to. -/
theorem nothing_oversized_iff
    (C : Cluster) (state : C.State) (drawn : Nat) (earlier : List Operation)
    (operation : Operation) :
    operation.IsTidy ((Desk.initial state drawn : Desk C).run earlier) ↔
      operation.Measures ((Desk.initial state drawn).run earlier) :=
  operation.isTidy_iff (Desk.run_settled (Desk.settled_initial state drawn))

/-! ## More signers than a header counts -/

namespace Quiet

/-- A confidential transfer out of the account of one holder. -/
def payout (number : Nat) : Instruction :=
  .token <| .transferWithFee
    { source := (keypair number).pubkey
      mint := payer
      destination := payer
      newDecryptableBalance := ⟨0⟩
      auditorCiphertextLo := ⟨0⟩
      auditorCiphertextHi := ⟨0⟩
      authority := (keypair number).pubkey
      equality := payer
      amountValidity := payer
      feeSigma := payer
      feeValidity := payer
      range := payer }

/-- Payouts of 256 holders. -/
def payouts : List Instruction :=
  (List.range 256).map payout

/-- Each of them has a signer of its own. -/
theorem many_signers (withTails : Bool) :
    256 ≤ (Message.signerKeys payer
      ((withComputeUnitLimit 0 (({} : ProofAccounts).consuming payer payouts
        withTails)).map (Instruction.wire programs))).length := by
  let holders := (List.range 256).map fun number => (keypair number).pubkey
  have distinct : holders.Nodup := by
    refine List.Nodup.map_on ?_ List.nodup_range
    intro left leftMember right rightMember same
    have leftSmall := List.mem_range.mp leftMember
    have rightSmall := List.mem_range.mp rightMember
    exact keypair_injOn (by omega) (by omega) (congrArg Keypair.mk same)
  have signing : holders ⊆ Message.signerKeys payer
      ((withComputeUnitLimit 0 (({} : ProofAccounts).consuming payer payouts
        withTails)).map (Instruction.wire programs)) := by
    intro holder member
    obtain ⟨number, small, rfl⟩ := List.mem_map.mp member
    apply Message.mem_signerKeys.mpr
    refine .inr ⟨(payout number).wire programs, ?_,
      ⟨(keypair number).pubkey, true, false⟩, ?_, rfl, rfl⟩
    · apply List.mem_map_of_mem
      apply List.mem_cons_of_mem
      have among : payout number ∈ payouts := List.mem_map_of_mem small
      simpa [ProofAccounts.consuming] using among
    · simp [payout, Instruction.wire, programs, transferWire]
  have bound := (distinct.subperm signing).length_le
  rwa [List.length_map, List.length_range] at bound

/-- Consuming them does not fit, and panics instead of failing. -/
theorem payouts_are_not_tidy :
    ¬ Operation.IsTidy (Desk.initial ⟨fun _ => none, fun _ => none⟩ 0 :
        Desk cluster) (.consume 0 payouts [] 200000) := by
  intro tidy
  have measures := (Operation.isTidy_iff (Desk.settled_initial _ _) _).mp tidy
  have tooLarge : ({} : ProofAccounts).TooLarge cluster payouts := by
    intro withTails
    rw [batchFits, fitsInOneTransaction, decide_eq_false_iff_not]
    have signers := many_signers withTails
    have size := transactionSize_ge programs
      (withComputeUnitLimit 0 (({} : ProofAccounts).consuming payer payouts
        withTails)) payer
    unfold PACKET_DATA_SIZE
    intro small
    have bound := Nat.le_trans size small
    omega
  have serializes : messageSerializes programs
      (withComputeUnitLimit 0 (({} : ProofAccounts).consuming payer payouts
        true)) payer = true := (measures tooLarge).2
  have signers := many_signers true
  simp only [messageSerializes, Message.serializes, Message.headerFits,
    Bool.and_eq_true, decide_eq_true_eq] at serializes
  omega

end Quiet
end Remit
