import Remit.Coin.Allowances
import Remit.Library.Runs
import Remit.Probe
import Remit.Token.Guard

/-!
# Calls of the two programs

Transactions call the agent and the probe, whoever signs them and whatever they
pass.  Each ends by invoking a token program with the signatures of the call and
those of the addresses that it derives, and CPI Guard is in force there.
-/

namespace Remit
namespace Probe

open Agent (AccountInfo Invocation)
open Flows Runs

inductive OnChain where
  | agent
  | probe
deriving DecidableEq

def OnChain.id : OnChain → Address
  | agent => Agent.ID
  | probe => ID

/-- A call of a program by a transaction. -/
structure ProgramCall (Data : Type) where
  program : OnChain
  signers : List Address
  accounts : List (AccountInfo Data)
  instructionData : Bytes

/-- What surrounds the programs: the hash that derives addresses, the layout of
mints, and the older token program, for which some builders of the interface
crate work as well.  They reject any other program. -/
structure ProgramSetting (Data : Type) where
  programs : Programs
  interface : TokenInterface Data
  hash : AddressHash
  olderToken : Address
  check : BuilderCheck
  rejects : ∀ program instruction, check program instruction = .ok () →
    program = programs.token2022 ∨ program = olderToken

section Calling

variable {Data : Type} (setting : ProgramSetting Data)

namespace ProgramSetting

/-- Run the entrypoint of the called program. -/
def process (call : ProgramCall Data) (epoch : Nat) :
    Except (Stop ProgramError) (Invocation Data) :=
  match call.program with
  | .agent =>
      Agent.processInstruction setting.hash setting.programs setting.interface
        epoch Agent.ID call.accounts call.instructionData
  | .probe =>
      processInstruction setting.interface setting.check epoch ID call.accounts
        call.instructionData

/-- What the invoked program does.  Token-2022 carries the instruction out.  The
older token program owns none of the accounts.  Any other program may send
whatever instructions it likes on to Token-2022. -/
inductive Invokes (signers : List Address) (invocation : Invocation Data)
    (chain : TokenChain) : TokenChain → Prop where
  | token {after : TokenChain} :
      invocation.program = setting.programs.token2022 →
      invocation.instruction.performInvoked signers chain = some after →
      Invokes signers invocation chain after
  | older :
      invocation.program ≠ setting.programs.token2022 →
      invocation.program = setting.olderToken →
      Invokes signers invocation chain chain
  | foreign {after : TokenChain} (instructions : List TokenInstruction) :
      invocation.program ≠ setting.programs.token2022 →
      invocation.program ≠ setting.olderToken →
      chain.performAllInvoked signers instructions = some after →
      Invokes signers invocation chain after

/-- A call that succeeds. -/
inductive Executes (call : ProgramCall Data) (chain : TokenChain) :
    TokenChain → Prop where
  | mk {invocation : Invocation Data} {derived : List Address}
      {after : TokenChain} :
      setting.process call chain.epoch = .ok invocation →
      invocation.signerSeeds.mapM
        (createProgramAddress setting.hash · call.program.id) = some derived →
      setting.Invokes (call.signers ++ derived) invocation chain after →
      Executes call chain after

end ProgramSetting

/-- Those who sign when a call is carried out: the signers of the transaction,
and the addresses that the agent derives. -/
def ProgramCall.Acts (call : ProgramCall Data) (key : Address) : Prop :=
  key ∈ call.signers ∨
    call.program = .agent ∧ Derives setting.hash Agent.ID key

variable {setting} {call : ProgramCall Data} {chain after : TokenChain}

/-- The addresses that seeds derive are derived. -/
theorem mapM_createProgramAddress
    {hash : AddressHash} {programId : Address} {seeds : List (List Bytes)}
    {derived : List Address}
    (created : seeds.mapM (createProgramAddress hash · programId) =
      some derived) :
    ∀ key ∈ derived, Derives hash programId key := by
  induction seeds generalizing derived with
  | nil =>
      cases created
      simp
  | cons first rest inductionHypothesis =>
      rw [List.mapM_cons] at created
      obtain ⟨address, isFirst, created⟩ := Option.bind_eq_some_iff.mp created
      obtain ⟨others, areRest, created⟩ := Option.bind_eq_some_iff.mp created
      cases created
      intro key member
      rcases List.mem_cons.mp member with rfl | later
      · exact ⟨first, isFirst⟩
      · exact inductionHypothesis areRest key later

/-- A call that succeeds has transferred or approved with the signatures that it
has, or nothing. -/
theorem ProgramSetting.Executes.performs
    (executes : setting.Executes call chain after) :
    after = chain ∨ ∃ signers, ∃ instruction : TokenInstruction,
      (∀ key ∈ signers, call.Acts setting key) ∧
        instruction.IsForwardable ∧
        instruction.performInvoked signers chain = some after := by
  obtain ⟨processed, created, invokes⟩ := executes
  unfold ProgramSetting.process at processed
  cases isProgram : call.program with
  | agent =>
      rw [isProgram] at processed created
      obtain ⟨_, _, _, _, _, _, _, _, _, ofToken2022, transfers, _⟩ :=
        Agent.processInstruction_eq_ok processed
      have acts := mapM_createProgramAddress created
      cases invokes with
      | token _ performed =>
          refine .inr ⟨_, _, fun key member => ?_, ?_, performed⟩
          · exact (List.mem_append.mp member).imp_right fun derived =>
              ⟨isProgram, acts key derived⟩
          · rw [transfers]
            trivial
      | older other => exact absurd ofToken2022 other
      | foreign _ other => exact absurd ofToken2022 other
  | probe =>
      rw [isProgram] at processed created
      obtain ⟨_, _, _, _, tokenProgram, _, instruction, _, _, _, _, checked,
        isTokenProgram, forwards, noSeeds⟩ := processInstruction_eq_ok processed
      have known := setting.rejects _ _ checked
      rw [noSeeds] at created
      cases created
      cases invokes with
      | token _ performed =>
          refine .inr ⟨_, _, fun key member => ?_, ?_, performed⟩
          · exact .inl (by simpa using member)
          · rw [forwards]
            cases instruction with
            | forwardOwnerTransfer => trivial
            | forwardApprove => trivial
      | older => exact .inl rfl
      | foreign _ other notOlder =>
          rw [isTokenProgram] at other notOlder
          rcases known with token2022 | older
          · exact absurd token2022 other
          · exact absurd older notOlder

end Calling
end Probe
end Remit
