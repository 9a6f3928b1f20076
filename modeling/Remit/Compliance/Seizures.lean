import Remit.Cluster.Busy

/-!
# Seizures are atomic

What a seizure reads may be outdated when its transaction lands.  Then either
the transaction fails, or it takes the amount and leaves every account as
frozen as it was.
-/

namespace Remit

open Flows

/-! ## Freeze flags -/

/-- Every account is frozen after if and only if it was frozen before. -/
def TokenChain.SameFreezes (before after : TokenChain) : Prop :=
  ∀ address, (after.accounts address).map (·.isFrozen) =
    (before.accounts address).map (·.isFrozen)

/-- What a seizure does to the chain. -/
structure TokenChain.Seizes (source destination : Address) (amount : Nat)
    (before after : TokenChain) : Prop where
  sameFreezes : before.SameFreezes after
  debit : source ≠ destination → ∃ payer left,
    before.accounts source = some payer ∧ after.accounts source = some left ∧
      left.amount + amount = payer.amount

namespace TokenChain

variable {signers : List Address} {chain after : TokenChain}
  {source mint destination authority freezeAuthority : Address}
  {amount decimals fee : Nat}

theorem SameFreezes.of_transfer
    (transferred :
      chain.transferChecked signers source mint destination authority amount
        decimals fee = some after) :
    chain.SameFreezes after := by
  intro address
  have same := (transferChecked_sameTerms transferred).2 address
  generalize chain.accounts address = before at same ⊢
  generalize after.accounts address = left at same ⊢
  cases same with
  | none => rfl
  | some terms => exact congrArg some terms.isFrozen

/-- A transfer to another account takes the amount from the source. -/
theorem transferChecked_debit
    (transferred :
      chain.transferChecked signers source mint destination authority amount
        decimals fee = some after)
    (different : source ≠ destination) :
    ∃ payer left, chain.accounts source = some payer ∧
      after.accounts source = some left ∧
      left.amount + amount = payer.amount := by
  obtain ⟨payer, _, _, debited, found, _, _, _, _, _, debits, moved⟩ :=
    transferChecked_eq_some transferred
  rcases moved with ⟨same, _⟩ | ⟨_, credited, _, rfl⟩
  · exact absurd same different
  · have debit := AccountSnapshot.debitedBy_eq_some debits
    refine ⟨payer, debited, found, ?_, ?_⟩
    · rw [setAccount_of_ne _ different, setAccount_self]
    · have enough := debit.1
      rw [debit.2.1]
      omega

/-- The single transfer of a seizure from an account that was read open. -/
theorem Seizes.of_transfer
    (carried :
      chain.carryOutAll signers
        [.transferCheckedWithFee source mint destination authority amount
          decimals fee] = some after) :
    chain.Seizes source destination amount after := by
  obtain ⟨moved, transferred, rest⟩ := Option.bind_eq_some_iff.mp carried
  cases rest
  exact ⟨.of_transfer transferred, transferChecked_debit transferred⟩

/-- The thaw needs a frozen account and the freeze leaves one. -/
theorem Seizes.of_thaw_transfer_freeze
    (carried :
      chain.carryOutAll signers
        [.thawAccount source mint freezeAuthority,
          .transferCheckedWithFee source mint destination authority amount
            decimals fee,
          .freezeAccount source mint freezeAuthority] = some after) :
    chain.Seizes source destination amount after := by
  obtain ⟨thawed, thaws, carried⟩ := Option.bind_eq_some_iff.mp carried
  obtain ⟨moved, transferred, carried⟩ := Option.bind_eq_some_iff.mp carried
  obtain ⟨frozen, freezes, rest⟩ := Option.bind_eq_some_iff.mp carried
  cases rest
  obtain ⟨account, found, wasFrozen, _, rfl⟩ := toggleFreeze_eq_some thaws
  obtain ⟨left, leftFound, _, _, rfl⟩ := toggleFreeze_eq_some freezes
  refine ⟨fun address => ?_, fun different => ?_⟩
  · by_cases here : address = source
    · subst here
      have before : account.isFrozen = true := by simpa using wasFrozen
      rw [setAccount_self, found, Option.map_some, Option.map_some, before]
      rfl
    · rw [setAccount_of_ne _ here, SameFreezes.of_transfer transferred address,
        setAccount_of_ne _ here]
  · obtain ⟨payer, rest, payerFound, restFound, taken⟩ :=
      transferChecked_debit transferred different
    rw [setAccount_self] at payerFound
    cases payerFound
    rw [restFound] at leftFound
    cases leftFound
    exact ⟨account, _, found, setAccount_self .., taken⟩

end TokenChain

/-! ## The call -/

section Calling

variable {C : Cluster} (source destination : Address)
  (freezeAuthority permanentDelegate : Keypair) (amount : Nat)

/-- What is left to do of a seizure once the account, the mint and the epoch
were read. -/
def Seizure.conclude (account : AccountSnapshot) (mint : MintSnapshot)
    (epoch : Nat) : Flow (World C) Error FeeTransfer := do
  let seizure ← Flow.ofExcept <|
    Seizure.prepare C.programs source destination freezeAuthority
      permanentDelegate amount account mint epoch
  let _ ← World.send seizure.instructions seizure.signers
  pure seizure.moved

theorem seize_eq :
    (seize source destination freezeAuthority permanentDelegate amount :
        Flow (World C) Error FeeTransfer) = (do
      let account ← World.loadAccount source
      let mint ← World.loadMint account.mint
      let epoch ← World.epoch
      Seizure.conclude source destination freezeAuthority permanentDelegate
        amount account mint epoch) :=
  rfl

/-- The instructions of a seizure, and who signs them. -/
theorem Seizure.prepare_tokens
    {programs : Programs} {account : AccountSnapshot} {mint : MintSnapshot}
    {epoch : Nat} {seizure : Seizure}
    (prepared :
      Seizure.prepare programs source destination freezeAuthority
        permanentDelegate amount account mint epoch = .ok seizure) :
    ∃ tokens, seizure.instructions = tokens.map .token ∧
      seizure.moved.amount = amount ∧
      tokens.all TokenInstruction.isPublic = true ∧
      ∀ (signers : List Address) (chain after : TokenChain),
        chain.carryOutAll signers tokens = some after →
          chain.Seizes source destination amount after := by
  obtain ⟨fee, moved, _, shape⟩ := prepare_eq_ok prepared
  have named : seizure.moved.amount = amount := by rw [moved]
  rcases shape with ⟨_, instructions, _⟩ | ⟨_, instructions, _⟩
  · exact ⟨_, instructions.trans (by rfl), named, rfl,
      fun _ _ _ carried => .of_thaw_transfer_freeze carried⟩
  · exact ⟨_, instructions.trans (by rfl), named, rfl,
      fun _ _ _ carried => .of_transfer carried⟩

/-- The transactions that a seizure has sent by the time it ends, and how it
ends. -/
structure SeizesAtomically (later : List (Sent C.State))
    (outcome : Except (Stop Error) FeeTransfer) : Prop where
  few : later.length ≤ 1
  sameFreezes : ∀ one ∈ later,
    (C.tokenChain one.delivery.before).SameFreezes
      (C.tokenChain one.delivery.after)
  seized : ∀ moved, outcome = .ok moved →
    moved.amount = amount ∧ ∃ one, later = [one] ∧ one.landed = true ∧
      (C.tokenChain one.delivery.before).Seizes source destination amount
        (C.tokenChain one.delivery.after)
  unmoved : ∀ error, outcome = .error (.error error) → ∀ one ∈ later,
    C.tokenChain one.delivery.after = C.tokenChain one.delivery.before
  returns : outcome ≠ .error .panic

variable {source destination freezeAuthority permanentDelegate amount}

/-- A seizure that gives up before it sends anything. -/
theorem SeizesAtomically.nothing_sent (error : Error) :
    SeizesAtomically (C := C) source destination amount []
      (.error (.error error)) where
  few := Nat.zero_le 1
  sameFreezes := by simp
  seized := by simp
  unmoved := by simp
  returns := by simp

theorem Seizure.ensures_conclude
    (contract : PublicContract C) (source destination : Address)
    (freezeAuthority permanentDelegate : Keypair) (amount : Nat) (account : AccountSnapshot)
    (mint : MintSnapshot) (epoch : Nat) (world : World C) :
    Flow.Ensures
      (conclude source destination freezeAuthority permanentDelegate amount
        account mint epoch) world
      fun outcome reached => ∃ later, reached.sent = world.sent ++ later ∧
        SeizesAtomically source destination amount later outcome := by
  refine .bind (.ofExcept (fun seizure prepared => ?_) fun error _ =>
    ⟨[], by simp, .nothing_sent error⟩)
  obtain ⟨tokens, instructions, named, isPublic, seizes⟩ :=
    prepare_tokens source destination freezeAuthority permanentDelegate amount
      prepared
  dsimp only
  rw [instructions]
  refine .bind (contract.ensures_send isPublic
    (fun receipt outcome carried => ?_) fun error _ unmoved => ?_)
  · have done := seizes _ _ _ carried
    refine .pure ⟨_, rfl, ?_⟩
    exact
      { few := Nat.le_refl 1
        sameFreezes := by simpa using done.sameFreezes
        seized := by
          intro moved same
          cases same
          exact ⟨named, _, rfl, World.landed_sending outcome, done⟩
        unmoved := by simp
        returns := by simp }
  · refine ⟨_, rfl, ?_⟩
    exact
      { few := Nat.le_refl 1
        sameFreezes := by
          intro one member
          rw [List.mem_singleton.mp member, unmoved]
          exact fun _ => rfl
        seized := by simp
        unmoved := by simpa using unmoved
        returns := by simp }

end Calling

/-- Whatever was read when, a seizure sends at most one transaction, which
leaves every account as frozen as it found it.  If the seizure succeeds the
amount has left the source, and if it fails nothing has changed. -/
theorem seizure_is_atomic
    {C : Cluster} (contract : PublicContract C)
    (source destination : Address)
    (freezeAuthority permanentDelegate : Keypair) (amount : Nat)
    (world : World C) :
    (∀ account mint epoch,
      Flow.Ensures
        (Seizure.conclude source destination freezeAuthority permanentDelegate
          amount account mint epoch) world
        fun outcome reached => ∃ later, reached.sent = world.sent ++ later ∧
          SeizesAtomically source destination amount later outcome) ∧
    Flow.Ensures
      (seize source destination freezeAuthority permanentDelegate amount) world
      fun outcome reached => ∃ later, reached.sent = world.sent ++ later ∧
        SeizesAtomically source destination amount later outcome := by
  have concludes := fun account mint epoch =>
    Seizure.ensures_conclude contract source destination freezeAuthority
      permanentDelegate amount account mint epoch world
  refine ⟨concludes, ?_⟩
  have nothing (error : Error) :
      ∃ later, world.sent = world.sent ++ later ∧
        SeizesAtomically (C := C) source destination amount later
          (.error (.error error)) :=
    ⟨[], by simp, .nothing_sent error⟩
  rw [seize_eq]
  refine .bind (World.ensures_loadAccount (fun account _ => ?_) nothing)
  refine .bind (World.ensures_loadMint (fun mint _ => ?_) nothing)
  exact .bind (.read (concludes account mint _))

/-! ## A seizure on a busy cluster -/

namespace Busy

/-- A frozen account, one to seize to, and one that is frozen by somebody else
while the seizure is under way. -/
def sanctioned : Address :=
  Address.filled 41

def custody : Address :=
  Address.filled 42

def bystander : Address :=
  Address.filled 43

def holdings (state : AccountState) : List (Address × TokenData) :=
  [(stablecoin, stablecoinData ⟨0, 5000, 25⟩ ⟨0, 5000, 25⟩),
    (sanctioned, holding (Address.filled 51) 1000 .frozen 0),
    (custody, holding (Address.filled 52) 50 .initialized 3),
    (bystander, holding (Address.filled 53) 200 state 0)]

def beforeSeizure : State where
  accounts _ := none
  ledger := ⟨tokensAt (holdings .initialized), 5⟩
  turns :=
    [⟨fun ledger => { ledger with tokens := tokensAt (holdings .frozen) }, id⟩]

/-- The seizure succeeds while another account is frozen. -/
theorem sanctioned_is_seized :
    (Flow.exec
      (seize sanctioned custody freezeAuthority seizureAuthority 401)
      (World.initial (C := cluster publicEffect) beforeSeizure 0)).1 =
        .ok ⟨401, 2, 5⟩ ∧
    Flow.Ensures
      (seize sanctioned custody freezeAuthority seizureAuthority 401)
      (World.initial (C := cluster publicEffect) beforeSeizure 0)
      fun outcome reached => ∃ later, reached.sent = [] ++ later ∧
        SeizesAtomically sanctioned custody 401 later outcome := by
  refine ⟨by decide +kernel, ?_⟩
  exact (seizure_is_atomic publicContract sanctioned custody freezeAuthority
    seizureAuthority 401 _).2

end Busy
end Remit
