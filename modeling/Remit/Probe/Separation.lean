import Remit.Probe.Calls
import Remit.Token.Guarding

/-!
# What CPI Guard tells apart

A delegate that a program signs for works the same before and after the owner
switches CPI Guard on, while the owner's own signature is of no use to programs
any more.
-/

namespace Remit
namespace Probe

open Agent (AccountInfo Invocation Passes)
open Flows

section Separating

variable {Data : Type} {setting : ProgramSetting Data}
  {call : ProgramCall Data} {chain after : TokenChain}

/-! ## The agent -/

/-- Somebody else's transfer is not blocked where it was not blocked before. -/
theorem blocked_guarding
    {place source mint destination authority : Address}
    {amount decimals fee : Nat}
    (unowned : ∀ account, chain.accounts place = some account →
      account.owner ≠ authority) :
    TokenInstruction.blocked (chain.guarding place)
        (.transferCheckedWithFee source mint destination authority amount
          decimals fee) =
      TokenInstruction.blocked chain
        (.transferCheckedWithFee source mint destination authority amount
          decimals fee) := by
  unfold TokenInstruction.blocked
  dsimp only [TokenChain.guarding]
  cases found : chain.accounts source with
  | none => rfl
  | some account =>
      by_cases here : source = place
      · subst here
        have other := unowned account found
        simp [AccountSnapshot.guardedAt_owner, other]
      · simp [AccountSnapshot.guardedAt, here]

/-- In an epoch, a call of the agent fails or is one transfer by an address that
the agent derives. -/
theorem agent_transfers (isAgent : call.program = .agent) (epoch : Nat) :
    (∀ chain after, chain.epoch = epoch → ¬ setting.Executes call chain after) ∨
      ∃ signers source mint destination mandate amount decimals fee,
        Derives setting.hash Agent.ID mandate ∧
          ∀ chain after, chain.epoch = epoch →
            (setting.Executes call chain after ↔
              (TokenInstruction.transferCheckedWithFee source mint destination
                mandate amount decimals fee).performInvoked signers chain =
                  some after) := by
  cases outcome : setting.process call epoch with
  | error stop =>
      left
      rintro chain after rfl ⟨processed, _⟩
      rw [outcome] at processed
      cases processed
  | ok invocation =>
      have processed := outcome
      unfold ProgramSetting.process at processed
      rw [isAgent] at processed
      obtain ⟨source, destination, mint, mandate, amount, bump, decimals, fee,
        found, ofToken2022, transfers, seeds⟩ :=
        Agent.processInstruction_eq_ok processed
      have created := findProgramAddress_eq_some found
      have derived : invocation.signerSeeds.mapM
          (createProgramAddress setting.hash · call.program.id) =
            some [mandate] := by
        rw [seeds, isAgent]
        simp [OnChain.id, created]
      refine .inr ⟨call.signers ++ [mandate], source, mint, destination,
        mandate, amount.toNat, decimals, fee, ⟨_, created⟩, ?_⟩
      rintro chain after rfl
      rw [← transfers]
      constructor
      · rintro ⟨again, derives, invokes⟩
        cases outcome.symm.trans again
        cases derived.symm.trans derives
        cases invokes with
        | token _ performed => exact performed
        | older other => exact absurd ofToken2022 other
        | foreign _ other => exact absurd ofToken2022 other
      · intro performed
        exact ⟨outcome, derived, .token ofToken2022 performed⟩

/-- It does not matter whether CPI Guard is switched on before or after a call
of the agent. -/
theorem executes_guarding
    {place : Address} (isAgent : call.program = .agent)
    (unsignable : ∀ account, chain.accounts place = some account →
      ¬ Derives setting.hash Agent.ID account.owner) :
    setting.Executes call (chain.guarding place) after ↔
      ∃ plain, setting.Executes call chain plain ∧
        after = plain.guarding place := by
  rcases agent_transfers isAgent chain.epoch with
    fails | ⟨signers, source, mint, destination, mandate, amount, decimals, fee,
      derives, transfers⟩
  · constructor
    · intro executes
      exact absurd executes (fails (chain.guarding place) after rfl)
    · rintro ⟨plain, executes, _⟩
      exact absurd executes (fails chain plain rfl)
  · have unowned : ∀ account, chain.accounts place = some account →
        account.owner ≠ mandate := fun account found owned =>
      unsignable account found (owned ▸ derives)
    have switched : ∀ transferred : Option TokenChain,
        transferred.map (·.guarding place) = some after ↔
          ∃ plain, transferred = some plain ∧ after = plain.guarding place := by
      intro transferred
      rw [Option.map_eq_some_iff]
      exact exists_congr fun plain => and_congr_right fun _ => eq_comm
    rw [transfers (chain.guarding place) after rfl]
    simp only [transfers chain _ rfl]
    unfold TokenInstruction.performInvoked
    rw [blocked_guarding unowned]
    split
    · simp
    · have same : TokenInstruction.perform signers (chain.guarding place)
          (.transferCheckedWithFee source mint destination mandate amount
            decimals fee) =
          (TokenInstruction.perform signers chain
            (.transferCheckedWithFee source mint destination mandate amount
              decimals fee)).map (·.guarding place) :=
        TokenChain.guarding_transferChecked
      rw [same]
      exact switched _

/-- A call of the agent leaves every account with its owner. -/
theorem executes_owner
    {place : Address} {account : AccountSnapshot}
    (isAgent : call.program = .agent)
    (executes : setting.Executes call chain after)
    (found : chain.accounts place = some account) :
    ∃ left, after.accounts place = some left ∧ left.owner = account.owner := by
  rcases agent_transfers isAgent chain.epoch with
    fails | ⟨signers, source, mint, destination, mandate, amount, decimals, fee,
      _, transfers⟩
  · exact absurd executes (fails chain after rfl)
  · have performed := (TokenInstruction.performInvoked_eq_some.mp
      ((transfers chain after rfl).mp executes)).2
    have terms := (TokenChain.transferChecked_sameTerms performed).2 place
    rw [found] at terms
    generalize after.accounts place = left at terms ⊢
    cases terms with
    | some same => exact ⟨_, rfl, same.owner⟩

/-! ## The probe -/

/-- A call of the probe as a client builds it, with the mint as it is. -/
structure BuiltCall (setting : ProgramSetting Data) (epoch : Nat)
    (target : AccountMeta) (source mint owner : Address)
    (data : ProbeInstruction) (decimals fee : Nat) (call : ProgramCall Data) :
    Prop where
  program : call.program = .probe
  passes : Passes (build setting.programs target source mint owner data)
    call.accounts
  packed : call.instructionData = data.pack
  current : ∃ mintInfo lamports snapshot,
    call.accounts[1]? = some mintInfo ∧
      MintSnapshot.decode setting.interface mint mintInfo.data lamports =
        .ok snapshot ∧
      snapshot.decimals = decimals ∧
      ∀ amount, data = .forwardOwnerTransfer amount →
        snapshot.chargedFee epoch amount.toNat = some fee

/-- What a client builds invokes what the data says. -/
theorem BuiltCall.executes_iff
    {target : AccountMeta} {source mint owner : Address}
    {data : ProbeInstruction} {decimals fee : Nat}
    (builds : BuildsForToken2022 setting.programs setting.check)
    (built : BuiltCall setting chain.epoch target source mint owner data
      decimals fee call) :
    setting.Executes call chain after ↔
      (data.forwards source mint target.pubkey owner decimals
        fee).performInvoked call.signers chain = some after := by
  obtain ⟨mintInfo, lamports, snapshot, second, decoded, rfl, charged⟩ :=
    built.current
  have outcome : processInstruction setting.interface setting.check chain.epoch
      ID call.accounts data.pack = _ :=
    processInstruction_build builds built.passes second decoded charged
  have processed : setting.process call chain.epoch =
      .ok
        { program := setting.programs.token2022
          instruction := data.forwards source mint target.pubkey owner
            snapshot.decimals fee
          accounts := call.accounts
          signerSeeds := [] } := by
    unfold ProgramSetting.process
    rw [built.program, built.packed]
    exact outcome
  constructor
  · rintro ⟨again, derives, invokes⟩
    cases processed.symm.trans again
    cases derives
    cases invokes with
    | token _ performed => simpa using performed
    | older other => exact absurd rfl other
    | foreign _ other => exact absurd rfl other
  · intro performed
    refine ⟨processed, rfl, .token rfl ?_⟩
    simpa using performed

/-- Nothing that the owner's signature is forwarded into gets through the
guard. -/
theorem blocked_forwards
    {source mint target owner : Address} {account : AccountSnapshot}
    {decimals fee : Nat} (data : ProbeInstruction)
    (found : chain.accounts source = some account)
    (guarded : account.isGuarded = true) (owned : account.owner = owner) :
    (data.forwards source mint target owner decimals fee).blocked chain =
      true := by
  cases data with
  | forwardOwnerTransfer =>
      exact TokenInstruction.blocked_transfer.mpr
        ⟨account, found, guarded, owned⟩
  | forwardApprove =>
      exact TokenInstruction.blocked_approve.mpr ⟨account, found, guarded⟩

theorem unblocked_forwards
    {source mint target owner : Address} {decimals fee : Nat}
    (data : ProbeInstruction)
    (unguarded : ∀ account, chain.accounts source = some account →
      account.isGuarded = false) :
    (data.forwards source mint target owner decimals fee).blocked chain =
      false := by
  rw [Bool.eq_false_iff]
  intro blocks
  cases data with
  | forwardOwnerTransfer =>
      obtain ⟨account, found, guarded, _⟩ :=
        TokenInstruction.blocked_transfer.mp blocks
      exact Bool.false_ne_true ((unguarded account found).symm.trans guarded)
  | forwardApprove =>
      obtain ⟨account, found, guarded⟩ :=
        TokenInstruction.blocked_approve.mp blocks
      exact Bool.false_ne_true ((unguarded account found).symm.trans guarded)

/-- Once the owner has switched CPI Guard on, every call of the agent does
exactly what it would have done before, and all that the probe is built for
with the owner's signature fails, which did before what the owner could have
asked Token-2022 for. -/
theorem guard_separates_delegate_from_owner
    (setting : ProgramSetting Data)
    (builds : BuildsForToken2022 setting.programs setting.check)
    {place owner : Address} {signers : List Address}
    {chain guarded : TokenChain}
    (enabled : (TokenInstruction.enableCpiGuard place owner).perform signers
      chain = some guarded)
    (unsignable : ¬ Derives setting.hash Agent.ID owner) :
    (∀ call : ProgramCall Data, call.program = .agent → ∀ after,
      setting.Executes call guarded after ↔
        ∃ plain, setting.Executes call chain plain ∧
          (TokenInstruction.enableCpiGuard place owner).perform signers plain =
            some after) ∧
    ∀ (call : ProgramCall Data) target mint data decimals fee,
      BuiltCall setting chain.epoch target place mint owner data decimals fee
          call →
        (∀ after, ¬ setting.Executes call guarded after) ∧
        ((∀ account, chain.accounts place = some account →
            account.isGuarded = false) →
          ∀ after, setting.Executes call chain after ↔
            (data.forwards place mint target.pubkey owner decimals fee).perform
              call.signers chain = some after) := by
  obtain ⟨⟨account, found, owned⟩, signed, rfl⟩ :=
    TokenChain.enableCpiGuard_eq_some.mp enabled
  constructor
  · intro call isAgent after
    have underivable : ∀ other, chain.accounts place = some other →
        ¬ Derives setting.hash Agent.ID other.owner := by
      intro other otherFound
      cases found.symm.trans otherFound
      rw [owned]
      exact unsignable
    rw [executes_guarding isAgent underivable]
    refine exists_congr fun plain => and_congr_right fun executes => ?_
    obtain ⟨left, leftFound, sameOwner⟩ :=
      executes_owner isAgent executes found
    constructor
    · intro switched
      exact TokenChain.enableCpiGuard_eq_some.mpr
        ⟨⟨left, leftFound, sameOwner.trans owned⟩, signed, switched⟩
    · intro performed
      exact (TokenChain.enableCpiGuard_eq_some.mp performed).2.2
  · intro call target mint data decimals fee built
    constructor
    · intro after executes
      have sameEpoch : BuiltCall setting (chain.guarding place).epoch target
          place mint owner data decimals fee call := built
      have performed := (sameEpoch.executes_iff builds).mp executes
      have switched : (chain.guarding place).accounts place =
          some account.guarded := by
        rw [TokenChain.guarding_eq_setAccount found,
          TokenChain.setAccount_self]
      have blocks : (data.forwards place mint target.pubkey owner decimals
          fee).blocked (chain.guarding place) = true :=
        blocked_forwards data switched rfl owned
      have unblocked :=
        (TokenInstruction.performInvoked_eq_some.mp performed).1
      exact Bool.false_ne_true (unblocked.symm.trans blocks)
    · intro unguarded after
      rw [built.executes_iff builds, TokenInstruction.performInvoked_eq_some]
      exact and_iff_right (unblocked_forwards data unguarded)

end Separating

/-! ## Alice switches the guard on -/

namespace Quiet

open Transparent Remit.Quiet

def setting : ProgramSetting TokenData where
  programs := programs
  interface := Layout.interface
  hash := Agent.Quiet.mandateHash
  olderToken := Address.filled 15
  check program _ :=
    if program = programs.token2022 then .ok ()
    else .error .incorrectProgramId
  rejects program _ checked := by
    by_cases known : program = programs.token2022
    · exact .inl known
    · rw [if_neg known] at checked
      cases checked

theorem setting_builds :
    BuildsForToken2022 setting.programs setting.check :=
  fun _ _ _ _ _ _ _ => rfl

/-- The keeper calls the agent. -/
def keeperCall : ProgramCall TokenData where
  program := .agent
  signers := Agent.Quiet.keeperCall.signers
  accounts := Agent.Quiet.keeperCall.accounts
  instructionData := Agent.Quiet.keeperCall.instructionData

/-- Alice signs a transfer of 100 to Bob that the probe forwards. -/
def probeCall : ProgramCall TokenData where
  program := .probe
  signers := [alice]
  accounts :=
    [Agent.Quiet.passed alice programs.token2022 (Layout.writeMint sharedMint),
      Agent.Quiet.passed sharedMint.address programs.token2022
        (Layout.writeMint sharedMint),
      Agent.Quiet.passed bob programs.token2022 (Layout.writeMint sharedMint),
      Agent.Quiet.passed alice programs.system (Layout.writeMint sharedMint),
      Agent.Quiet.passed programs.token2022 programs.system
        (Layout.writeMint sharedMint)]
  instructionData := (ProbeInstruction.forwardOwnerTransfer 100).pack

theorem probeCall_built :
    BuiltCall setting 0 (.new bob false) alice sharedMint.address alice
      (.forwardOwnerTransfer 100) 2 1 probeCall where
  program := rfl
  passes := rfl
  packed := rfl
  current := by
    have decoded : MintSnapshot.decode Layout.interface sharedMint.address
        (Layout.writeMint sharedMint) sharedMint.lamports =
          .ok sharedMint := by
      decide +kernel
    refine ⟨_, _, _, rfl, decoded, rfl, ?_⟩
    rintro amount ⟨⟩
    decide

theorem keeperCall_executes :
    setting.Executes keeperCall Agent.Quiet.approvedState.chain
      Agent.Quiet.paidChain := by
  have processed : setting.process keeperCall 0 =
      .ok
        { program := programs.token2022
          instruction :=
            .transferCheckedWithFee alice sharedMint.address bob
              Agent.Quiet.mandate 100 2 1
          accounts := keeperCall.accounts
          signerSeeds := [Agent.mandateSeeds alice bob 100 ++ [[255]]] } := by
    decide +kernel
  have derived :
      [Agent.mandateSeeds alice bob 100 ++ [[255]]].mapM
        (createProgramAddress Agent.Quiet.mandateHash · Agent.ID) =
          some [Agent.Quiet.mandate] := by
    decide +kernel
  exact .mk processed derived (.token rfl rfl)

theorem underivable_alice : ¬ Derives setting.hash Agent.ID alice :=
  fun derives =>
    absurd (Agent.Quiet.signable_mandate derives) (by decide)

/-- The keeper goes on, and the probe is stopped. -/
theorem keeper_goes_on :
    let guarded := Agent.Quiet.approvedState.chain.guarding alice
    setting.Executes keeperCall guarded
        (Agent.Quiet.paidChain.guarding alice) ∧
      (∀ after, ¬ setting.Executes probeCall guarded after) ∧
      ∃ after, setting.Executes probeCall Agent.Quiet.approvedState.chain
        after := by
  have enabled : (TokenInstruction.enableCpiGuard alice alice).perform [alice]
      Agent.Quiet.approvedState.chain =
        some (Agent.Quiet.approvedState.chain.guarding alice) :=
    TokenChain.enableCpiGuard_eq_some.mpr
      ⟨⟨_, rfl, rfl⟩, List.mem_singleton.mpr rfl, rfl⟩
  obtain ⟨agents, probes⟩ := guard_separates_delegate_from_owner setting
    setting_builds enabled underivable_alice
  obtain ⟨stopped, before⟩ := probes probeCall _ _ _ _ _ probeCall_built
  refine ⟨(agents keeperCall rfl _).mpr
    ⟨Agent.Quiet.paidChain, keeperCall_executes, ?_⟩, stopped, ?_⟩
  · exact TokenChain.enableCpiGuard_eq_some.mpr
      ⟨⟨_, rfl, rfl⟩, List.mem_singleton.mpr rfl, rfl⟩
  · refine ⟨_, (before ?_ _).mpr rfl⟩
    rintro account ⟨⟩
    rfl

end Quiet
end Probe
end Remit
