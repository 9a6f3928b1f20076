import Remit.Proofs.Consuming

/-!
# The invariant of a proof operation

`Sound` relates the world to a `ProofLog` while an operation builds up its
proof accounts.  Beside `Tracked` it says that nothing the operation created is
left open untracked, and that the chunks that landed in a record and the tail
that is kept back tile the proof.
-/

namespace Remit

open Flows Overwrite

/-- The address at which an instruction creates an account. -/
def Instruction.creates : Instruction → Option Address
  | .createAccount _ toAddress _ _ _ => some toAddress
  | _ => none

/-- The addresses at which a transaction creates accounts. -/
def created (transaction : List Instruction) : List Address :=
  transaction.filterMap Instruction.creates

def Instruction.token? : Instruction → Option TokenInstruction
  | .token instruction => some instruction
  | _ => none

/-- The Token-2022 instructions of a transaction. -/
def tokenInstructions (transaction : List Instruction) :
    List TokenInstruction :=
  transaction.filterMap Instruction.token?

/-- The instructions of a transaction that has no others. -/
theorem tokenInstructions_map (instructions : List TokenInstruction) :
    tokenInstructions (instructions.map .token) = instructions := by
  induction instructions with
  | nil => rfl
  | cons instruction rest inductionHypothesis =>
      exact congrArg (instruction :: ·) inductionHypothesis

/-- Whether an instruction neither is a Token-2022 instruction nor verifies a
proof from a record. -/
def Instruction.plain : Instruction → Bool
  | .token _ => false
  | .verifyProofFromAccount .. => false
  | _ => true

/-- A transaction that only prepares or closes proof accounts. -/
def Plain (transaction : List Instruction) : Prop :=
  transaction.all Instruction.plain = true

theorem Plain.tokenInstructions
    {transaction : List Instruction} (plain : Plain transaction) :
    tokenInstructions transaction = [] := by
  apply List.filterMap_eq_nil_iff.mpr
  intro instruction member
  have plainHere := List.all_eq_true.mp plain instruction member
  cases instruction <;> first | rfl | cases plainHere

def Instruction.writeTo (record : Address) : Instruction → Option (Nat × Bytes)
  | .recordWrite written _ offset data =>
      if written = record then some (offset, data) else none
  | _ => none

/-- What a transaction writes into a record, with the offsets. -/
def writesTo (record : Address) (transaction : List Instruction) :
    List (Nat × Bytes) :=
  transaction.filterMap (Instruction.writeTo record)

/-- What the landed transactions wrote into a record. -/
def landedWrites {State : Type} (record : Address)
    (sent : List (Sent State)) : List (Nat × Bytes) :=
  (sent.filter Sent.landed).flatMap fun one => writesTo record one.transaction

/-- The write that is kept back for a staged proof. -/
def StagedProof.keptBack (proof : StagedProof) : List (Nat × Bytes) :=
  writesTo proof.record proof.staged.tailWrite.toList

variable {C : Cluster}

/-- The accounts created by landed transactions are gone or among `targets`. -/
def Residue (world : World C) (targets : List Address) : Prop :=
  ∀ one ∈ world.sent, one.landed = true →
    ∀ address ∈ created one.transaction,
      C.held address ∧
        (world.accounts address = none ∨ address ∈ targets)

structure Sound (world : World C) (log : ProofLog) : Prop where
  tracked : Tracked C.programs C.payer world.accounts log
  residue : Residue world log.targets
  laid : ∀ proof ∈ log.staged,
    Tiles proof.bytes 0
      (landedWrites proof.record world.sent ++ proof.keptBack)
  unwritten : ∀ record, record ∉ log.records →
    landedWrites record world.sent = []
  contextsHeld : ∀ proof ∈ log.staged, C.held proof.context

theorem Sound.initial (state : C.State) (drawn : Nat) :
    Sound (World.initial state drawn) {} where
  tracked := .empty
  residue := by simp [Residue, World.initial]
  laid := by simp
  unwritten := by simp [World.initial, landedWrites]
  contextsHeld := by simp

/-! ## One transaction -/

section Deliver

variable {world : World C} {transaction : List Instruction}
  {signers : List Keypair} {log log' : ProofLog}

theorem landedWrites_deliver_of_landed
    {record : Address} {receipt : Receipt}
    (landed :
      (C.send world.state transaction signers).outcome = .ok receipt) :
    landedWrites record (world.deliver transaction signers).sent =
      landedWrites record world.sent ++ writesTo record transaction := by
  simp only [landedWrites, World.deliver, List.filter_append,
    List.flatMap_append, List.filter_cons, World.landed_sending landed,
    if_true, List.filter_nil, List.flatMap_singleton]
  rfl

theorem landedWrites_deliver_of_failed
    {record : Address} {error : Error}
    (failed :
      (C.send world.state transaction signers).outcome = .error error) :
    landedWrites record (world.deliver transaction signers).sent =
      landedWrites record world.sent := by
  simp [landedWrites, World.deliver, World.not_landed_sending failed]

/-- What a landed transaction goes through. -/
theorem landed_steps
    {receipt : Receipt}
    (landed :
      (C.send world.state transaction signers).outcome = .ok receipt) :
    ∃ before after,
      Outsiders C.programs C.held world.accounts before ∧
        runTransaction C.programs (C.payer :: signers.map (·.pubkey))
            transaction before = some after ∧
          Outsiders C.programs C.held after
            (world.deliver transaction signers).accounts :=
  ⟨_, _, C.outsiders_before .., C.landed _ _ _ _ landed,
    C.outsiders_after ..⟩

/-- A transaction that does not land changes nothing by itself. -/
theorem failed_steps
    {error : Error}
    (failed :
      (C.send world.state transaction signers).outcome = .error error) :
    Outsiders C.programs C.held world.accounts
      (world.deliver transaction signers).accounts := by
  have after :=
    C.outsiders_after world.state transaction signers
  rw [C.not_landed _ _ _ _ failed] at after
  exact (C.outsiders_before ..).trans after

/-- An empty address whose key no outsider holds stays empty. -/
theorem Outsiders.empty
    {before after : Accounts} {address : Address}
    (outside : Outsiders C.programs C.held before after)
    (held : C.held address) (blank : before address = none) :
    after address = none := by
  rw [outside.unchanged (by rw [blank]; exact held), blank]

theorem Residue.failed
    {targets : List Address} {error : Error}
    (residue : Residue world targets)
    (failed :
      (C.send world.state transaction signers).outcome = .error error) :
    Residue (world.deliver transaction signers) targets := by
  intro one member landed address creation
  rcases List.mem_append.mp member with old | new
  · obtain ⟨held, gone | open_⟩ := residue one old landed address creation
    · exact ⟨held, Or.inl ((failed_steps failed).empty held gone)⟩
    · exact ⟨held, Or.inr open_⟩
  · rw [List.mem_singleton.mp new, World.not_landed_sending failed] at landed
    cases landed

/-- What a landed transaction has to do to the accounts for the residue to be
among new targets. -/
theorem Residue.landed
    {targets targets' : List Address} {receipt : Receipt}
    (residue : Residue world targets)
    (landed :
      (C.send world.state transaction signers).outcome = .ok receipt)
    (kept : ∀ before after,
      Outsiders C.programs C.held world.accounts before →
      runTransaction C.programs (C.payer :: signers.map (·.pubkey))
          transaction before = some after →
        (∀ address, before address = none ∨ address ∈ targets →
          after address = none ∨ address ∈ targets') ∧
        ∀ address ∈ created transaction,
          C.held address ∧ (after address = none ∨ address ∈ targets')) :
    Residue (world.deliver transaction signers) targets' := by
  obtain ⟨before, after, outside, ran, later⟩ := landed_steps landed
  obtain ⟨old, new⟩ := kept before after outside ran
  have settle : ∀ address, C.held address →
      after address = none ∨ address ∈ targets' →
        (world.deliver transaction signers).accounts address = none ∨
          address ∈ targets' := by
    intro address held settled
    rcases settled with gone | open_
    · exact Or.inl (later.empty held gone)
    · exact Or.inr open_
  intro one member oneLanded address creation
  rcases List.mem_append.mp member with earlier | last
  · obtain ⟨held, open_⟩ := residue one earlier oneLanded address creation
    refine ⟨held, settle address held (old address ?_)⟩
    rcases open_ with gone | open_
    · exact Or.inl (outside.empty held gone)
    · exact Or.inr open_
  · rw [List.mem_singleton.mp last] at creation
    obtain ⟨held, open_⟩ := new address creation
    exact ⟨held, settle address held open_⟩

theorem Sound.failed
    {error : Error}
    (sound : Sound world log)
    (failed :
      (C.send world.state transaction signers).outcome = .error error) :
    Sound (world.deliver transaction signers) log where
  tracked := sound.tracked.outsiders C.held_payer (failed_steps failed)
  residue := sound.residue.failed failed
  laid proof member := by
    rw [landedWrites_deliver_of_failed failed]
    exact sound.laid proof member
  unwritten record untracked := by
    rw [landedWrites_deliver_of_failed failed]
    exact sound.unwritten record untracked
  contextsHeld := sound.contextsHeld

/-- What a landed transaction has to do to lead from one log to another. -/
theorem Sound.landed
    {receipt : Receipt}
    (sound : Sound world log)
    (landed :
      (C.send world.state transaction signers).outcome = .ok receipt)
    (grows : log.targets ⊆ log'.targets)
    (creates : ∀ address ∈ created transaction,
      C.held address ∧ address ∈ log'.targets)
    (kept : ∀ before after,
      Tracked C.programs C.payer before log →
      runTransaction C.programs (C.payer :: signers.map (·.pubkey))
          transaction before = some after →
        Tracked C.programs C.payer after log' ∧
          ∀ address, before address = none →
            after address = none ∨ address ∈ log'.targets)
    (laid : ∀ proof ∈ log'.staged,
      Tiles proof.bytes 0
        (landedWrites proof.record world.sent ++
          writesTo proof.record transaction ++ proof.keptBack))
    (unwritten : ∀ record, record ∉ log'.records →
      record ∉ log.records ∧ writesTo record transaction = [])
    (contextsHeld : ∀ proof ∈ log'.staged, C.held proof.context) :
    Sound (world.deliver transaction signers) log' where
  tracked := by
    obtain ⟨before, after, outside, ran, later⟩ := landed_steps landed
    have tracked := sound.tracked.outsiders C.held_payer outside
    exact (kept before after tracked ran).1.outsiders C.held_payer later
  residue := by
    refine sound.residue.landed landed fun before after outside ran => ?_
    have tracked := sound.tracked.outsiders C.held_payer outside
    refine ⟨?_, fun address creation => ?_⟩
    · rintro address (blank | member)
      · exact (kept before after tracked ran).2 address blank
      · exact Or.inr (grows member)
    · exact ⟨(creates address creation).1,
        Or.inr (creates address creation).2⟩
  laid proof member := by
    rw [landedWrites_deliver_of_landed landed]
    exact laid proof member
  unwritten record untracked := by
    rw [landedWrites_deliver_of_landed landed,
      sound.unwritten record (unwritten record untracked).1,
      (unwritten record untracked).2, List.append_nil]
  contextsHeld := contextsHeld

end Deliver
end Remit
