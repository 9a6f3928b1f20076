import Remit.Confidential.Execution
import Remit.Token.Contract
import Remit.Token.Layout

/-!
# A quiet cluster

A cluster on which nobody else acts.  A transaction lands exactly when its
instructions can be carried out.  Of Token-2022 it knows the confidential
transfer and the instructions that set up a mint, whose data it does not keep.
-/

namespace Remit
namespace Quiet

open Transparent

/-- The accounts and the data of a confidential transfer. -/
def transferWire (program : Address) (transfer : TransferWithFee) :
    WireInstruction where
  programId := program
  accounts :=
    [⟨transfer.source, false, true⟩, ⟨transfer.mint, false, false⟩,
      ⟨transfer.destination, false, true⟩, ⟨transfer.equality, false, false⟩,
      ⟨transfer.amountValidity, false, false⟩,
      ⟨transfer.feeSigma, false, false⟩, ⟨transfer.feeValidity, false, false⟩,
      ⟨transfer.range, false, false⟩, ⟨transfer.authority, true, false⟩]
  data :=
    [27, 13] ++ leBytes 36 transfer.newDecryptableBalance.code ++
      leBytes 64 transfer.auditorCiphertextLo.code ++
      leBytes 64 transfer.auditorCiphertextHi.code ++ [0, 0, 0, 0, 0]

def programs : Programs where
  system := Address.filled 10
  computeBudget := Address.filled 11
  record := Address.filled 12
  zkElGamalProof := Address.filled 13
  token2022 := Address.filled 14
  distinct := by decide
  tokenWire
    | .transferWithFee transfer => transferWire (Address.filled 14) transfer
    | _ => ⟨Address.filled 14, [], []⟩
  tokenCheck _ := .ok ()

abbrev Tokens := Address → Option TokenData

/-- The proof accounts, and the data of mints and token accounts. -/
structure State where
  accounts : Accounts
  tokens : Tokens

/-- The token accounts, as far as they decode. -/
def decoded (tokens : Tokens) : TokenAccounts :=
  fun address =>
    (tokens address).bind fun data =>
      (AccountSnapshot.decode Layout.interface address data 0).toOption

/-- What the proofs of a transfer state. -/
def statementOf (accounts : Accounts) (transfer : TransferWithFee) :
    Option TransferStatement :=
  match accounts transfer.equality, accounts transfer.amountValidity,
      accounts transfer.feeValidity with
  | some (.context _ .verifyCiphertextCommitmentEquality equality),
      some (.context _ .verifyBatchedGroupedCiphertext3HandlesValidity amount),
      some (.context _ .verifyBatchedGroupedCiphertext2HandlesValidity fee) =>
      some ⟨crypto.provenBalance equality, crypto.provenAmount amount,
        crypto.provenFee fee⟩
  | _, _, _ => none

/-- The data once two accounts were written. -/
def written (tokens : Tokens) (chain : TokenAccounts)
    (source destination : Address) : Tokens :=
  fun address =>
    if address = source ∨ address = destination then
      (chain address).map Layout.writeAccount
    else tokens address

/-- Carry out a transfer, if the accounts it leaves have a layout. -/
def carryOut (state : State) (transfer : TransferWithFee) : Option Tokens :=
  match statementOf state.accounts transfer with
  | none => none
  | some statement =>
      match executeTransfer (decoded state.tokens) transfer.source
          transfer.destination statement transfer.newDecryptableBalance with
      | none => none
      | some chain =>
          let tokens :=
            written state.tokens chain transfer.source transfer.destination
          if decoded tokens transfer.source = chain transfer.source ∧
              decoded tokens transfer.destination =
                chain transfer.destination then
            some tokens
          else none

/-- Whether an instruction sets up a mint. -/
def setsUpMint : TokenInstruction → Bool
  | .initializeExtension .. | .initializeMint2 .. | .initializeMetadata ..
  | .updateField .. => true
  | _ => false

/-- What the Token-2022 instructions of a transaction do to the data. -/
def carryOutAll (state : State) (transaction : List Instruction) :
    Option Tokens :=
  match tokenInstructions transaction with
  | [.transferWithFee transfer] => carryOut state transfer
  | instructions =>
      if instructions.all setsUpMint then some state.tokens else none

def payer : Address :=
  Address.filled 20

/-- The state after a transaction, if it can be carried out. -/
def process (state : State) (transaction : List Instruction)
    (signers : List Keypair) : Option State :=
  match runTransaction programs (payer :: signers.map (·.pubkey)) transaction
      state.accounts with
  | none => none
  | some accounts =>
      (carryOutAll state transaction).map fun tokens => ⟨accounts, tokens⟩

/-- The keypair with a number. -/
def keypair (number : Nat) : Keypair :=
  ⟨⟨leBytes 32 (number + 256), length_leBytes ..⟩⟩

theorem keypair_injOn {left right : Nat}
    (leftSmall : left < 2 ^ 64) (rightSmall : right < 2 ^ 64)
    (same : keypair left = keypair right) : left = right := by
  have bytes : leBytes 32 (left + 256) = leBytes 32 (right + 256) :=
    congrArg (fun keypair => keypair.pubkey.bytes) same
  have numbers := leBytes_injective (by omega) (by omega) bytes
  omega

def send (state : State) (transaction : List Instruction)
    (signers : List Keypair) : Delivery State :=
  match process state transaction signers with
  | some next => ⟨.ok ⟨0, 0, []⟩, state, next, next⟩
  | none =>
      ⟨.error (.transaction (.other 0) []), state, state, state⟩

theorem send_attempts
    {state : State} {transaction : List Instruction}
    {signers : List Keypair} :
    (send state transaction signers).Attempts state
      (process state transaction signers) id := by
  unfold send
  cases process state transaction signers with
  | none => exact .leftAlone state id (.transaction (.other 0) [])
  | some next => exact .carriedOut state id _ next

theorem process_eq_some
    {state next : State} {transaction : List Instruction}
    {signers : List Keypair}
    (processed : process state transaction signers = some next) :
    runTransaction programs (payer :: signers.map (·.pubkey)) transaction
          state.accounts = some next.accounts ∧
      carryOutAll state transaction = some next.tokens := by
  unfold process at processed
  split at processed
  case h_1 => cases processed
  case h_2 accounts ran =>
      obtain ⟨tokens, carried, rfl⟩ := Option.map_eq_some_iff.mp processed
      exact ⟨ran, carried⟩

/-- The cluster.  Nobody but its user holds a key. -/
def cluster : Cluster where
  programs := programs
  State := State
  Data := TokenData
  interface := Layout.interface
  payer := payer
  keypairs := keypair
  held _ := True
  accountData state address := state.tokens address
  lamports _ _ := 0
  epoch _ := 0
  minimumBalanceForRentExemption _ space := space
  send := send
  accounts := State.accounts
  held_payer := trivial
  held_keypair _ := trivial
  outsiders_before state transaction signers := by
    rw [send_attempts.before]
    exact .refl _
  landed state transaction signers receipt landed := by
    rw [send_attempts.before]
    exact (process_eq_some (send_attempts.ok landed)).1
  not_landed state transaction signers error failed := by
    rw [send_attempts.error failed, send_attempts.before]
  outsiders_after state transaction signers := by
    rw [send_attempts.next]
    exact .refl _

/-! ## Its contract -/

theorem executeTransfer_elsewhere
    {chain after : TokenAccounts} {source destination address : Address}
    {statement : TransferStatement} {newDecryptable : DecryptableBalance}
    (executed :
      executeTransfer chain source destination statement newDecryptable =
        some after)
    (away : ¬ (address = source ∨ address = destination)) :
    after address = chain address := by
  push Not at away
  unfold executeTransfer at executed
  split at executed
  case h_2 => cases executed
  case h_1 =>
      split at executed
      case h_1 => cases executed
      case h_2 =>
          split at executed
          case isFalse => cases executed
          case isTrue =>
              cases executed
              rw [Function.update_of_ne away.2, Function.update_of_ne away.1]

/-- What is carried out is the transfer that the proofs state. -/
theorem carryOut_eq_some
    {state : State} {transfer : TransferWithFee} {tokens : Tokens}
    (carried : carryOut state transfer = some tokens) :
    ∃ statement,
      statementOf state.accounts transfer = some statement ∧
        executeTransfer (decoded state.tokens) transfer.source
          transfer.destination statement transfer.newDecryptableBalance =
            some (decoded tokens) := by
  unfold carryOut at carried
  split at carried
  case h_1 => cases carried
  case h_2 statement stated =>
      split at carried
      case h_1 => cases carried
      case h_2 chain executed =>
          dsimp only at carried
          split at carried
          case isFalse => cases carried
          case isTrue laidOut =>
              cases carried
              refine ⟨statement, stated, executed.trans (congrArg some ?_)⟩
              funext address
              by_cases here : address = transfer.source ∨
                  address = transfer.destination
              · rcases here with rfl | rfl
                · exact laidOut.1.symm
                · exact laidOut.2.symm
              · rw [executeTransfer_elsewhere executed here]
                simp only [decoded, written, if_neg here]

theorem contract (withheldKey : PodElGamalPubkey) :
    TokenContract cluster crypto withheldKey where
  transfers := by
    intro state transaction signers receipt transfer equality amountValidity
      feeValidity landed carried contexts
    have before : (send state transaction signers).before = state :=
      send_attempts.before
    have ran := (process_eq_some (send_attempts.ok landed)).2
    simp only [carryOutAll, carried] at ran
    obtain ⟨statement, stated, executed⟩ := carryOut_eq_some ran
    change TransferContexts (send state transaction signers).before.accounts
      transfer equality amountValidity feeValidity at contexts
    rw [before] at contexts
    obtain ⟨⟨_, equalityHeld⟩, ⟨_, amountHeld⟩, ⟨_, feeHeld⟩⟩ := contexts
    simp only [statementOf, equalityHeld, amountHeld, feeHeld] at stated
    cases stated
    change Executes crypto withheldKey
      (decoded (send state transaction signers).before.tokens) _
      (decoded (send state transaction signers).after.tokens)
    rw [before]
    exact executeTransfer_sound executed

end Quiet
end Remit
