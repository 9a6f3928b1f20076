import Remit.Proofs.Dispatch

/-!
# What cannot fit

Where a transaction cannot fit a packet, the proof operations fail with an
error and do not send it.  The exceptions are proofs that are too long for a
length prefix, and `consume` with so many keys, bytes or units that measuring
its transaction panics.
-/

namespace Remit

open Flows Flow

variable {C : Cluster}

/-! ## Nothing else panics -/

theorem steady_sendAll (transactions : List (List Instruction)) :
    ∀ world : World C, Ensures (sendAll transactions) world
      fun outcome _ => outcome ≠ .error .panic := by
  induction transactions with
  | nil => exact fun world => .pure (by simp)
  | cons transaction rest inductionHypothesis =>
      exact fun world => .bind (World.ensures_send
        (fun _ _ => inductionHypothesis _) fun _ _ => by simp)

theorem steady_sendTails (tails : List Instruction) :
    ∀ world : World C, Ensures (ProofAccounts.sendTails tails) world
      fun outcome _ => outcome ≠ .error .panic := by
  induction tails with
  | nil => exact fun world => .pure (by simp)
  | cons tail rest inductionHypothesis =>
      exact fun world => .bind (World.ensures_send
        (fun _ _ => inductionHypothesis _) fun _ _ => by simp)

/-- An error that is handed to `closeAfter` is handed back. -/
theorem returns_closeAfter
    {α : Type} (self : ProofAccounts) (error : Error) (world : World C) :
    Ensures (self.closeAfter (.error error : Except Error α)) world
      fun outcome _ => outcome = .error (.error error) := by
  unfold ProofAccounts.closeAfter
  have steady :
      Ensures (({ self with staged := [] } : ProofAccounts).close) world
        fun outcome _ => outcome ≠ .error .panic := by
    rw [ProofAccounts.close_eq]
    exact steady_sendAll _ world
  refine .bind (.result (steady.mono ?_))
  rintro ((_ | _) | _) reached ended
  · exact .bind (.fail rfl)
  · exact absurd rfl ended
  · exact .bind (.fail rfl)

/-! ## Measuring -/

section Measuring

variable {programs : Programs} {payer : Address}

/-- A verification can be measured as long as its data, a tag and the proof,
has a length prefix. -/
theorem messageSerializes_verifying_iff
    (programs : Programs) (payer : Address)
    (context : Address) (units lamports space : Nat)
    (instruction : ProofInstruction) (proof : Bytes) :
    messageSerializes programs
          (verifying programs payer context units lamports space instruction
            proof) payer = true ↔
      proof.length + 1 < 2 ^ 16 := by
  have owner := programs.zkElGamalProof.length_eq
  unfold messageSerializes
  rw [Message.serializes_iff_of_few]
  · simp only [verifying, withComputeUnitLimit, List.map_cons, List.map_nil,
      List.mem_cons, List.not_mem_nil, or_false, forall_eq_or_imp, forall_eq,
      Instruction.wire, contextMetas, List.length_cons, List.length_nil,
      List.length_append, length_leBytes, owner]
    omega
  · apply Nat.le_trans (Message.length_accountKeys_le ..)
    simp [verifying, withComputeUnitLimit, Instruction.wire, contextMetas,
      contextInfo]
  · simp [verifying, withComputeUnitLimit]

/-- The data of whatever fits a packet is short. -/
theorem length_data_of_fits
    {instructions : List Instruction} {instruction : Instruction}
    (fits : fitsInOneTransaction programs instructions payer = true)
    (member : instruction ∈ instructions) :
    (instruction.wire programs).data.length < PACKET_DATA_SIZE := by
  have small := of_decide_eq_true fits
  have parts := transactionSize_ge programs instructions payer
  have part := List.single_le_sum (by simp) _
    (List.mem_map_of_mem (f := fun instruction : Instruction =>
      Message.instructionLength (instruction.wire programs)) member)
  have longer := Message.lt_instructionLength (instruction.wire programs)
  omega

section Searching

variable {data : Bytes} {build : Bytes → List Instruction}

/-- The first prefix that is measured is half of the data.  If it can be
measured, the search goes on to shorter ones or to data that is short. -/
theorem largestChunk_eq_none_iff
    (measurable : ∀ chunk : Bytes,
      messageSerializes programs (build chunk) payer = true ↔
        chunk.length + 13 < 2 ^ 16)
    (small : ∀ chunk : Bytes,
      fitsInOneTransaction programs (build chunk) payer = true →
        chunk.length < PACKET_DATA_SIZE) :
    largestChunk programs payer data build = none ↔
      2 ^ 16 ≤ (data.length + 1) / 2 + 13 := by
  have answers : ∀ mid, mid ≤ data.length → mid + 13 < 2 ^ 16 →
      measuredFits programs (build (data.take mid)) payer =
        some (fitsInOneTransaction programs (build (data.take mid)) payer) := by
    intro mid inside short
    apply measuredFits_of_serializes
    rw [measurable, List.length_take]
    omega
  constructor
  · intro nothing
    by_contra short
    have found : ∃ n, largestChunk programs payer data build = some n := by
      unfold largestChunk
      by_cases whole : data.length + 13 < 2 ^ 16
      · apply largestChunk.exists_search (Nat.zero_le _)
        intro mid _ inside
        rw [answers mid inside (by omega)]
        exact Option.some_ne_none _
      · have tooLong : fitsInOneTransaction programs
            (build (data.take ((0 + data.length + 1) / 2))) payer = false := by
          apply Bool.eq_false_iff.mpr
          intro fits
          have bound := small _ fits
          rw [List.length_take] at bound
          unfold PACKET_DATA_SIZE at bound
          omega
        rw [largestChunk.search, if_pos (by omega)]
        dsimp only
        rw [answers _ (by omega) (by omega), tooLong]
        apply largestChunk.exists_search (Nat.zero_le _)
        intro mid _ inside
        rw [answers mid (by omega) (by omega)]
        exact Option.some_ne_none _
    obtain ⟨n, found⟩ := found
    rw [nothing] at found
    cases found
  · intro long
    have unmeasured : measuredFits programs
        (build (data.take ((0 + data.length + 1) / 2))) payer = none := by
      apply measuredFits_eq_none_iff.mpr
      apply Bool.eq_false_iff.mpr
      rw [ne_eq, measurable, List.length_take]
      omega
    unfold largestChunk
    rw [largestChunk.search, if_pos (by omega)]
    dsimp only
    rw [unmeasured]

end Searching

/-- Opening a record can be measured as long as half of the proof, with what
comes before it in the write, has a length prefix. -/
theorem largestChunk_recordOpening_eq_none_iff
    {record : Address} {lamports space : Nat} {bytes : Bytes} :
    largestChunk programs payer bytes
          (recordOpening programs payer record lamports space) = none ↔
      2 ^ 16 ≤ (bytes.length + 1) / 2 + 13 := by
  refine largestChunk_eq_none_iff
    (serializes_openingWires_iff programs payer record lamports space)
    fun chunk fits => ?_
  have writes : Instruction.recordWrite record payer 0 chunk ∈
      recordOpening programs payer record lamports space chunk := by
    simp [recordOpening]
  have short := length_data_of_fits fits writes
  simp only [Instruction.wire, List.length_cons, List.length_append] at short
  omega

theorem recordChunk_eq_none_iff
    {record : Address} {bytes : Bytes} {offset : Nat} :
    recordChunk programs payer record bytes offset = none ↔
      2 ^ 16 ≤ (bytes.length - offset + 1) / 2 + 13 := by
  rw [← List.length_drop]
  refine largestChunk_eq_none_iff
    (serializes_writeWires_iff programs payer record offset)
    fun chunk fits => ?_
  have short := length_data_of_fits fits (List.mem_singleton_self _)
  simp only [Instruction.wire, List.length_cons, List.length_append] at short
  omega

/-- A record write always takes at least one byte. -/
theorem recordChunk_pos
    {record : Address} {bytes : Bytes} {offset len : Nat}
    (unfinished : offset < bytes.length)
    (found : recordChunk programs payer record bytes offset = some len) :
    0 < len := by
  have rest : 0 < (bytes.drop offset).length := by
    rw [List.length_drop]
    omega
  have oneByte : ((bytes.drop offset).take 1).length = 1 := by
    rw [List.length_take]
    omega
  have one :
      fitsInOneTransaction programs
        [.recordWrite record payer offset ((bytes.drop offset).take 1)]
        payer = true := by
    apply decide_eq_true
    apply Nat.le_trans (transactionSize_le ..)
    simp [Instruction.wire, Message.looseSize, Message.instructionLength,
      Message.compactLength, AccountMeta.new, AccountMeta.newReadonly,
      PACKET_DATA_SIZE, oneByte]
  apply Nat.pos_of_ne_zero
  rintro rfl
  rcases (largestChunk_boundary found).fails with ended | fails
  · omega
  · have fails := measuredFits_eq_some fails
    rw [one] at fails
    cases fails

end Measuring

namespace ProofAccounts

variable {self : ProofAccounts} {start drawn : Nat}
  {instructions : List Instruction} {units : Nat}

/-! ## Measuring the consuming transaction -/

/-- The consuming transaction cannot fit, with or without the tails. -/
def TooLarge (C : Cluster) (self : ProofAccounts)
    (instructions : List Instruction) : Prop :=
  ∀ withTails,
    batchFits C.programs (C.payer)
      (self.consuming C.payer instructions withTails) = false

/-- The consuming transaction can be measured: its message can be serialized
and its budget fits 32 bits. -/
def Measurable (C : Cluster) (self : ProofAccounts)
    (instructions : List Instruction) (units : Nat) : Prop :=
  self.consumingUnits units true < 2 ^ 32 ∧
    messageSerializes C.programs
      (withComputeUnitLimit 0 (self.consuming C.payer instructions true))
      C.payer = true

theorem consuming_withoutTails :
    self.withoutTails.consuming C.payer instructions false =
      self.consuming C.payer instructions false := by
  have parts : ∀ staged : Staged,
      stagedPart false { staged with tailWrite := none } =
        stagedPart false staged := fun _ => rfl
  simp only [consuming, ProofAccounts.withoutTails, List.flatMap_map, parts,
    List.map_map, Function.comp_def]

theorem consumingUnits_withoutTails (self : ProofAccounts) (units : Nat) :
    self.withoutTails.consumingUnits units false ≤
      self.consumingUnits units true := by
  have each : (self.withoutTails.staged.map (stagedUnits false)).sum ≤
      (self.staged.map (stagedUnits true)).sum := by
    rw [ProofAccounts.withoutTails, List.map_map]
    apply List.sum_le_sum
    intro staged _
    simp [stagedUnits]
  have same : self.withoutTails.staged.length = self.staged.length := by
    simp [ProofAccounts.withoutTails]
  unfold consumingUnits
  rw [same]
  simp only [ProofAccounts.withoutTails] at each ⊢
  omega

/-- Leaving out the tails leaves the instructions in their order. -/
theorem consuming_sublist (withTails : Bool) :
    (self.consuming C.payer instructions false).Sublist
      (self.consuming C.payer instructions withTails) := by
  have parts :
      (self.staged.flatMap (stagedPart false)).Sublist
        (self.staged.flatMap (stagedPart withTails)) := by
    induction self.staged with
    | nil => exact .slnil
    | cons staged rest inductionHypothesis =>
        rw [List.flatMap_cons, List.flatMap_cons]
        have part :
            (stagedPart false staged).Sublist
              (stagedPart withTails staged) := by
          simp [stagedPart]
        exact part.append inductionHypothesis
  unfold consuming
  exact ((parts.append (.refl _)).append (.refl _)).append (.refl _)

/-- What is left out without the tails is a write of a record by the payer,
and the record is closed in any case. -/
theorem Settled.mem_withoutTails_or
    (settled : self.Settled C start drawn) {instruction : Instruction}
    (member : instruction ∈ self.consuming C.payer instructions true) :
    instruction ∈ self.consuming C.payer instructions false ∨
      ∃ record offset data,
        instruction = .recordWrite record C.payer offset data ∧
          .recordCloseAccount record C.payer C.payer ∈
            self.consuming C.payer instructions false := by
  simp only [consuming, List.mem_append, List.mem_flatMap] at member ⊢
  rcases member with ((⟨staged, among, part⟩ | caller) | context) | record
  · simp only [stagedPart, List.mem_append, if_true, List.mem_cons,
      List.not_mem_nil, or_false] at part
    rcases part with tail | body
    · obtain ⟨proof, record, verify, _, tails⟩ :=
        (settled.staged staged among).charged
      have kept : staged.tailWrite = some instruction := by
        simpa using tail
      obtain ⟨offset, data, isWrite, _⟩ := tails _ kept
      have tracked := settled.recorded staged among _ _ _ _ verify
      exact .inr ⟨record, offset, data, isWrite,
        .inr (List.mem_map_of_mem tracked)⟩
    · exact .inl (.inl (.inl (.inl
        ⟨staged, among, by simpa [stagedPart] using body⟩)))
  · exact .inl (.inl (.inl (.inr caller)))
  · exact .inl (.inl (.inr context))
  · exact .inl (.inr record)

/-- A message that can be serialized with the tails can be serialized without
them: what they sign or write is signed or written anyway. -/
theorem Settled.serializes_withoutTails
    (settled : self.Settled C start drawn)
    (serializes : messageSerializes C.programs
      (withComputeUnitLimit 0 (self.consuming C.payer instructions true))
      C.payer = true) :
    messageSerializes C.programs
      (withComputeUnitLimit 0 (self.consuming C.payer instructions false))
      C.payer = true := by
  have sublist : (self.consuming C.payer instructions false).Sublist
      (self.consuming C.payer instructions true) := consuming_sublist true
  have fewer := sublist.cons_cons (Instruction.setComputeUnitLimit 0)
  have wires := wires_subset C.programs fewer.subset
  refine Message.serializes_mono (fewer.map (Instruction.wire C.programs))
    ?_ ?_ serializes
  · intro key
    refine ⟨fun member => Message.signerKeys_mono C.payer wires member, ?_⟩
    intro member
    rcases Message.mem_signerKeys.mp member with
      isPayer | ⟨wire, here, account, inside, signs, same⟩
    · exact Message.mem_signerKeys.mpr (.inl isPayer)
    · obtain ⟨instruction, among, rfl⟩ := List.mem_map.mp here
      rcases List.mem_cons.mp among with rfl | among
      · cases inside
      rcases settled.mem_withoutTails_or among with
        still | ⟨record, offset, data, rfl, _⟩
      · exact Message.mem_signerKeys.mpr (.inr
          ⟨_, List.mem_map_of_mem (List.mem_cons_of_mem _ still), account,
            inside, signs, same⟩)
      · simp only [Instruction.wire, AccountMeta.new,
          AccountMeta.newReadonly, List.mem_cons, List.not_mem_nil,
          or_false] at inside
        -- Only the payer signs a write, and it signs anyway.
        rcases inside with rfl | rfl
        · cases signs
        · exact Message.mem_signerKeys.mpr (.inl same.symm)
  · intro key member
    rcases Message.mem_writableKeys.mp member with
      isPayer | ⟨wire, here, account, inside, writes, same⟩
    · exact Message.mem_writableKeys.mpr (.inl isPayer)
    · obtain ⟨instruction, among, rfl⟩ := List.mem_map.mp here
      rcases List.mem_cons.mp among with rfl | among
      · cases inside
      rcases settled.mem_withoutTails_or among with
        still | ⟨record, offset, data, rfl, closed⟩
      · exact Message.mem_writableKeys.mpr (.inr
          ⟨_, List.mem_map_of_mem (List.mem_cons_of_mem _ still), account,
            inside, writes, same⟩)
      · simp only [Instruction.wire, AccountMeta.new,
          AccountMeta.newReadonly, List.mem_cons, List.not_mem_nil,
          or_false] at inside
        -- A write writes its record only, which is written when it is closed.
        rcases inside with rfl | rfl
        · exact Message.mem_writableKeys.mpr (.inr
            ⟨_, List.mem_map_of_mem (List.mem_cons_of_mem _ closed), _,
              List.mem_cons_self, rfl, same⟩)
        · cases writes

/-! ## Consuming what cannot fit -/

theorem fails_sendConsuming
    {transaction : List Instruction}
    (serializes : messageSerializes C.programs transaction C.payer = true)
    (tooLarge :
      fitsInOneTransaction C.programs transaction C.payer = false)
    (signers : List Keypair) (world : World C) :
    Ensures (self.sendConsuming transaction signers) world
      fun outcome _ => ∃ error, outcome = .error (.error error) := by
  unfold sendConsuming
  rw [World.fits_eq serializes, tooLarge, pure_bind]
  exact (returns_closeAfter self _ world).mono
    fun _ _ returned => ⟨_, returned⟩

/-- A consuming transaction that can be measured and cannot fit makes the call
fail with an error. -/
theorem Settled.fails_consume
    (settled : self.Settled C start drawn)
    (tooLarge : self.TooLarge C instructions)
    (measurable : self.Measurable C instructions units)
    (signers : List Keypair) (world : World C) :
    Ensures (self.consume instructions signers units) world
      fun outcome _ => ∃ error, outcome = .error (.error error) := by
  obtain ⟨budget, serializes⟩ := measurable
  have withTails := tooLarge true
  rw [← fits_withComputeUnitLimit (self.consumingUnits units true)]
    at withTails
  have withoutTails := tooLarge false
  rw [← fits_withComputeUnitLimit
    (self.withoutTails.consumingUnits units false)] at withoutTails
  unfold consume build checkedUnits
  rw [if_pos budget, pure_bind, pure_bind,
    World.fits_eq
      ((messageSerializes_withComputeUnitLimit _ 0 _).trans serializes),
    withTails, pure_bind]
  refine .bind (.result ((steady_sendTails _ world).mono ?_))
  rintro ((error | _) | ⟨⟩) reached steady
  · exact (returns_closeAfter self.withoutTails error reached).mono
      fun _ _ returned => ⟨_, returned⟩
  · exact absurd rfl steady
  · have lowered := Nat.lt_of_le_of_lt
      (consumingUnits_withoutTails self units) budget
    dsimp only
    rw [if_pos lowered, pure_bind, pure_bind]
    refine fails_sendConsuming ?_ ?_ signers reached
    · rw [consuming_withoutTails]
      exact (messageSerializes_withComputeUnitLimit _ 0 _).trans
        (settled.serializes_withoutTails serializes)
    · rw [consuming_withoutTails]
      exact withoutTails

/-- Measuring a transaction that cannot be measured panics. -/
theorem panics_consume
    (unmeasurable : ¬ self.Measurable C instructions units)
    (signers : List Keypair) (world : World C) :
    Ensures (self.consume instructions signers units) world
      fun outcome _ => outcome = .error .panic := by
  unfold consume build checkedUnits
  by_cases budget : self.consumingUnits units true < 2 ^ 32
  · have broken : messageSerializes C.programs
        (withComputeUnitLimit (self.consumingUnits units true)
          (self.consuming C.payer instructions true)) C.payer = false := by
      apply Bool.eq_false_iff.mpr
      intro serializes
      exact unmeasurable ⟨budget,
        (messageSerializes_withComputeUnitLimit _ _ _).trans serializes⟩
    rw [if_pos budget, pure_bind, pure_bind, World.fits_panics broken]
    exact .bind (.panicking rfl)
  · rw [if_neg budget]
    exact .bind (.bind (.panicking rfl))

end ProofAccounts
end Remit
