import Remit.Cluster

/-!
# Moving zero-knowledge proofs on-chain

Every confidential debit needs proofs that are too large for its transaction.
A small proof is verified into a context-state account, which is created in
the same transaction.  A range proof is written into a record account and
verified from there inside the transaction that uses it.  The accounts are
closed afterwards.
-/

namespace Remit

open Flows

def OVERHEAD_UNITS : Nat := 2000

def RECORD_CLOSE_UNITS : Nat := 5000

def RECORD_WRITE_UNITS : Nat := 2000

/-- Compute units the ZK ElGamal Proof program charges for an instruction. -/
def computeUnits : ProofInstruction → Nat
  | .closeContextState => 3300
  | .verifyZeroCiphertext => 6000
  | .verifyCiphertextCiphertextEquality => 8000
  | .verifyCiphertextCommitmentEquality => 6400
  | .verifyPubkeyValidity => 2600
  | .verifyPercentageWithCap => 6500
  | .verifyBatchedRangeProofU64 => 111000
  | .verifyBatchedRangeProofU128 => 200000
  | .verifyBatchedRangeProofU256 => 368000
  | .verifyGroupedCiphertext2HandlesValidity => 6400
  | .verifyBatchedGroupedCiphertext2HandlesValidity => 13000
  | .verifyGroupedCiphertext3HandlesValidity => 8100
  | .verifyBatchedGroupedCiphertext3HandlesValidity => 16400

/-- A proof: its bytes, and the size of the context its verification leaves. -/
structure ProofData where
  bytes : Bytes
  contextSize : Nat
deriving DecidableEq

/-- A record-backed proof whose verification waits for the consuming
transaction. -/
structure Staged where
  context : Keypair
  /-- The last record chunk, if it has not been written yet. -/
  tailWrite : Option Instruction
  create : Instruction
  verify : Instruction
  units : Nat
deriving DecidableEq

/-- The proof accounts of one confidential operation: verified context-state
accounts, record accounts, and the staged proofs. -/
structure ProofAccounts where
  contexts : List Address := []
  records : List Address := []
  staged : List Staged := []
deriving DecidableEq

/-- A world together with the proof accounts a caller tracks. -/
structure Session (C : Cluster) where
  accounts : ProofAccounts
  world : World C

variable {C : Cluster}

namespace Session

/-- Work on the world of a session. -/
def onWorld {α : Type} (flow : Flow (World C) Error α) :
    Flow (Session C) Error α :=
  Flow.zoom Session.world (fun world session => { session with world }) flow

/-- Change what is tracked. -/
def track (change : ProofAccounts → ProofAccounts) :
    Flow (Session C) Error Unit :=
  Flow.update fun session =>
    { session with accounts := change session.accounts }

/-- Run the preparation of an operation that starts with no proof accounts.
Its result is handed back together with the accounts tracked by then. -/
def prepare {α : Type} (flow : Flow (Session C) Error α) :
    Flow (World C) Error (Except Error α × ProofAccounts) :=
  Flows.Flow.mk fun world =>
    match Flow.exec flow ⟨{}, world⟩ with
    | (.ok a, session) => (.ok (.ok a, session.accounts), session.world)
    | (.error (.error e), session) =>
        (.ok (.error e, session.accounts), session.world)
    | (.error .panic, session) => (.error .panic, session.world)

end Session

def contextInfo (context authority : Address) : ContextStateInfo :=
  ⟨context, authority⟩

/-- Bytes of a context-state account: authority, proof type, context. -/
def contextStateSize (contextSize : Nat) : Nat :=
  32 + 1 + contextSize

def createContextAccount (contextSize : Nat) (context : Address) :
    Flow (World C) Error Instruction := do
  let space := contextStateSize contextSize
  let lamports ← World.rent space
  pure (.createAccount C.payer context lamports space
    C.programs.zkElGamalProof)

/-- The binary search of `largestChunk`, which ends without a result where a
measurement panics. -/
def largestChunk.search (fits : Nat → Option Bool) (low high : Nat) :
    Option Nat :=
  if low < high then
    let mid := (low + high + 1) / 2
    match fits mid with
    | some true => search fits mid high
    | some false => search fits low (mid - 1)
    | none => none
  else some low
termination_by high - low

/-- Largest prefix of `data` for which `build prefix` still fits in one
transaction. -/
def largestChunk (programs : Programs) (payer : Address) (data : Bytes)
    (build : Bytes → List Instruction) : Option Nat :=
  largestChunk.search
    (fun mid => measuredFits programs (build (data.take mid)) payer)
    0 data.length

/-- The chunk that was found, or the panic that ended the search. -/
def foundOrPanic : Option Nat → Flow (World C) Error Nat
  | some len => pure len
  | none => Flow.panicking

theorem ensures_foundOrPanic
    {world : World C} {found : Option Nat}
    {post : Except (Stop Error) Nat → World C → Prop}
    (answered : ∀ len, found = some len → post (.ok len) world)
    (panicked : post (.error .panic) world) :
    Flow.Ensures (foundOrPanic found) world post := by
  cases found with
  | some len => exact .pure (answered len rfl)
  | none => exact .panicking panicked

theorem within_foundOrPanic
    {along : World C → World C → Prop} [IsPreorder (World C) along]
    (found : Option Nat) :
    Flow.Within along (fun _ => True)
      (foundOrPanic found : Flow (World C) Error Nat) := by
  cases found with
  | some len => exact .pure trivial
  | none => exact .panicking

/-- A compute budget, which has to fit 32 bits. -/
def checkedUnits (units : Nat) : Flow (World C) Error Nat :=
  if units < 2 ^ 32 then pure units else Flow.panicking

theorem ensures_checkedUnits
    {world : World C} {units : Nat}
    {post : Except (Stop Error) Nat → World C → Prop}
    (checked : post (.ok units) world) (panicked : post (.error .panic) world) :
    Flow.Ensures (checkedUnits units) world post := by
  unfold checkedUnits
  split
  · exact .pure checked
  · exact .panicking panicked

def budgeted (batch : List (Instruction × Nat)) :
    Flow (World C) Error (List Instruction) := do
  let units ← checkedUnits ((batch.map Prod.snd).sum + OVERHEAD_UNITS)
  pure (withComputeUnitLimit units (batch.map Prod.fst))

/-- Bytes of the record account of a proof. -/
def recordSpace (bytes : Bytes) : Nat :=
  RecordData.WRITABLE_START_INDEX + bytes.length

/-- The first transaction about a record: it is created, initialized and
filled with a first chunk. -/
def recordOpening (programs : Programs) (payer record : Address)
    (lamports space : Nat) (chunk : Bytes) : List Instruction :=
  [.createAccount payer record lamports space programs.record,
    .recordInitialize record payer,
    .recordWrite record payer 0 chunk]

/-- How many of the bytes from `offset` on a single write transaction takes. -/
def recordChunk (programs : Programs) (payer record : Address) (bytes : Bytes)
    (offset : Nat) : Option Nat :=
  largestChunk programs payer (bytes.drop offset) fun chunk =>
    [.recordWrite record payer offset chunk]

/-- Write full chunks until the rest fits in a single write, and keep that one
back. -/
def writeChunks (record : Address) (bytes : Bytes) (offset : Nat) :
    Flow (World C) Error (Option Instruction) :=
  if offset < bytes.length then
    let rest := bytes.drop offset
    match recordChunk C.programs C.payer record bytes offset with
    | none => Flow.panicking
    | some len =>
        if len = 0 then
          Flow.fail (.invalid "record write does not fit a transaction")
        else if len = rest.length then
          pure (some (.recordWrite record C.payer offset rest))
        else do
          let _ ← World.send
            [.recordWrite record C.payer offset (rest.take len)] []
          writeChunks record bytes (offset + len)
  else pure none
termination_by bytes.length - offset

/-- Whether a batch of several close instructions is too large. -/
def overflows (batch : List (Instruction × Nat)) :
    Flow (World C) Error Bool :=
  if batch.length > 1 then do
    let transaction ← budgeted batch
    let fits ← World.fits transaction
    pure !fits
  else pure false

/-- Pack close instructions greedily into as few transactions as fit, and send
each when it is full. -/
def sendBatches :
    List (Instruction × Nat) → List (Instruction × Nat) →
      Flow (World C) Error Unit
  | batch, [] => do
      if batch ≠ [] then
        let transaction ← budgeted batch
        let _ ← World.send transaction []
  | batch, item :: rest => do
      let extended := batch ++ [item]
      if ← overflows extended then
        let transaction ← budgeted batch
        let _ ← World.send transaction []
        sendBatches [item] rest
      else
        sendBatches extended rest

namespace ProofAccounts

/-- Create a context-state account and verify `proof` into it, in one
transaction. -/
def verify (instruction : ProofInstruction) (proof : ProofData) :
    Flow (Session C) Error Address := do
  let context ← Session.onWorld World.newKeypair
  let create ← Session.onWorld <|
    createContextAccount proof.contextSize context.pubkey
  let transaction :=
    withComputeUnitLimit (computeUnits instruction + OVERHEAD_UNITS)
      [create,
        .verifyProof instruction (some (contextInfo context.pubkey C.payer))
          proof.bytes]
  if ← Session.onWorld (World.fits transaction) then
    let _ ← Session.onWorld (World.send transaction [context])
    Session.track fun accounts =>
      { accounts with contexts := accounts.contexts ++ [context.pubkey] }
    pure context.pubkey
  else
    Flow.fail <| .invalid <|
      instruction.name ++
        " does not fit next to its CreateAccount; use stage_from_record"

/-- Write `proof` into a new record account now, and verify it from there
inside the consuming transaction. -/
def stageFromRecord (instruction : ProofInstruction) (proof : ProofData) :
    Flow (Session C) Error Address := do
  let bytes := proof.bytes
  let record ← Session.onWorld World.newKeypair
  let lamports ← Session.onWorld (World.rent (recordSpace bytes))
  let opening :=
    recordOpening C.programs C.payer record.pubkey lamports (recordSpace bytes)
  let offset ← Session.onWorld <|
    foundOrPanic (largestChunk C.programs C.payer bytes opening)
  let _ ← Session.onWorld (World.send (opening (bytes.take offset)) [record])
  Session.track fun accounts =>
    { accounts with records := accounts.records ++ [record.pubkey] }
  let tailWrite ← Session.onWorld (writeChunks record.pubkey bytes offset)
  let context ← Session.onWorld World.newKeypair
  let createContext ← Session.onWorld <|
    createContextAccount proof.contextSize context.pubkey
  Session.track fun accounts =>
    { accounts with
      staged := accounts.staged ++
        [{ context
           tailWrite
           create := createContext
           verify :=
             .verifyProofFromAccount instruction
               (some (contextInfo context.pubkey C.payer)) record.pubkey
               RecordData.WRITABLE_START_INDEX
           units := computeUnits instruction }] }
  pure context.pubkey

/-- The close instructions of the tracked contexts and records, each with its
budget. -/
def closing (self : ProofAccounts) (payer : Address) :
    List (Instruction × Nat) :=
  (self.contexts.map fun context =>
      (.closeContextState (contextInfo context payer) payer,
        computeUnits .closeContextState)) ++
    self.records.map fun record =>
      (.recordCloseAccount record payer payer, RECORD_CLOSE_UNITS)

def close (self : ProofAccounts) : Flow (World C) Error Unit :=
  sendBatches [] (self.closing C.payer)

/-- Close every account created so far, then hand back `result`. -/
def closeAfter {α : Type} (self : ProofAccounts) (result : Except Error α) :
    Flow (World C) Error α := do
  let closed ← Flow.result ({ self with staged := [] } : ProofAccounts).close
  let value ← Flow.ofExcept result
  let _ ← Flow.ofExcept closed
  pure value

/-- The record write, creation and verification of a staged proof. -/
def stagedPart (withTails : Bool) (staged : Staged) : List Instruction :=
  (if withTails then staged.tailWrite.toList else []) ++
    [staged.create, staged.verify]

/-- The budget of `stagedPart`. -/
def stagedUnits (withTails : Bool) (staged : Staged) : Nat :=
  (if withTails ∧ staged.tailWrite.isSome then RECORD_WRITE_UNITS else 0) +
    staged.units

/-- The instructions of the consuming transaction. -/
def consuming (self : ProofAccounts) (payer : Address)
    (instructions : List Instruction) (withTails : Bool) : List Instruction :=
  self.staged.flatMap (stagedPart withTails) ++ instructions ++
    ((self.contexts ++ self.staged.map (·.context.pubkey)).map fun context =>
      .closeContextState (contextInfo context payer) payer) ++
    self.records.map fun record => .recordCloseAccount record payer payer

/-- The compute budget of the consuming transaction. -/
def consumingUnits (self : ProofAccounts) (units : Nat) (withTails : Bool) :
    Nat :=
  units + OVERHEAD_UNITS + (self.staged.map (stagedUnits withTails)).sum +
    (self.contexts.length + self.staged.length) *
      computeUnits .closeContextState +
    self.records.length * RECORD_CLOSE_UNITS

def build (self : ProofAccounts) (instructions : List Instruction)
    (units : Nat) (withTails : Bool) :
    Flow (World C) Error (List Instruction) := do
  let total ← checkedUnits (self.consumingUnits units withTails)
  pure <| withComputeUnitLimit total <|
    self.consuming C.payer instructions withTails

/-- The tail writes that are still kept back. -/
def tails (self : ProofAccounts) : List Instruction :=
  self.staged.filterMap (·.tailWrite)

/-- The proof accounts once their tail writes were taken out. -/
def withoutTails (self : ProofAccounts) : ProofAccounts :=
  { self with staged := self.staged.map ({ · with tailWrite := none }) }

def sendTails : List Instruction → Flow (World C) Error Unit
  | [] => pure ()
  | tail :: rest => do
      let _ ← World.send [tail] []
      sendTails rest

/-- Send the consuming transaction if it fits; close what is tracked where it
does not fit or fails. -/
def sendConsuming (self : ProofAccounts) (transaction : List Instruction)
    (signers : List Keypair) : Flow (World C) Error Receipt := do
  if ← World.fits transaction then
    let keypairs := signers ++ self.staged.map (·.context)
    match ← Flow.result (World.send transaction keypairs) with
    | .ok receipt => pure receipt
    | .error error =>
        -- The failed transaction created none of the staged contexts.
        closeAfter { self with staged := [] } (.error error)
  else
    self.closeAfter <| .error <|
      .invalid "proofs and instruction do not fit one transaction"

/-- Send `instructions` in one transaction together with the staged
verifications before them and the closing of every proof account after them.
Record tails ride along if they fit and are written just before otherwise. -/
def consume (self : ProofAccounts) (instructions : List Instruction)
    (signers : List Keypair) (units : Nat) :
    Flow (World C) Error Receipt := do
  let transaction ← self.build instructions units true
  if ← World.fits transaction then
    self.sendConsuming transaction signers
  else
    match ← Flow.result (sendTails self.tails) with
    | .error error => self.withoutTails.closeAfter (.error error)
    | .ok () =>
        let transaction ← self.withoutTails.build instructions units false
        self.withoutTails.sendConsuming transaction signers

end ProofAccounts
end Remit
