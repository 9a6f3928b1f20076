import Remit.State

/-!
# What Token-2022 does to public balances

A chain is the mints and token accounts that decode, and the epoch.  Freezing,
thawing and `TransferCheckedWithFee` are carried out on it as the program
documents them: a mint's permanent delegate moves any amount, an account's
delegate at most what is left of its allowance, and the owner the rest.
-/

namespace Remit

@[ext]
structure TokenChain where
  accounts : Address → Option AccountSnapshot
  mints : Address → Option MintSnapshot
  epoch : Nat

/-- The fee that is charged on an amount in an epoch. -/
def MintSnapshot.chargedFee (mint : MintSnapshot) (epoch amount : Nat) :
    Option Nat :=
  match mint.transferFee with
  | none => some 0
  | some config => config.calculateEpochFee epoch amount

namespace AccountSnapshot

variable (account : AccountSnapshot)

/-- Use an allowance.  Once nothing is left of it there is no delegate. -/
def spendAllowance (delegate : Address) (amount : Nat) : AccountSnapshot :=
  { account with
    delegate :=
      if account.delegatedAmount = amount then none else some delegate
    delegatedAmount := account.delegatedAmount - amount }

/-- Let an authority move an amount out of the account, if it may. -/
def debitedBy (permanentDelegate : Option Address) (authority : Address)
    (amount : Nat) : Option AccountSnapshot :=
  let paid := { account with amount := account.amount - amount }
  if amount ≤ account.amount then
    if permanentDelegate = some authority then some paid
    else if account.delegate = some authority then
      if amount ≤ account.delegatedAmount then
        some (paid.spendAllowance authority amount)
      else none
    else if account.owner = authority then some paid
    else none
  else none

/-- Credit an amount, and withhold its fee in the account. -/
def creditedWith (amount fee : Nat) : Option AccountSnapshot :=
  if fee ≤ amount ∧ account.amount + (amount - fee) < 2 ^ 64 then
    let received :=
      { account with amount := account.amount + (amount - fee) }
    if fee = 0 then some received
    else
      match account.withheldFee with
      | none => none
      | some withheld =>
          if withheld + fee < 2 ^ 64 then
            some { received with withheldFee := some (withheld + fee) }
          else none
  else none

/-- What no transfer changes in an account. -/
structure SameTerms (before after : AccountSnapshot) : Prop where
  address : after.address = before.address
  mint : after.mint = before.mint
  owner : after.owner = before.owner
  state : after.state = before.state
  extensions : after.extensions = before.extensions

variable {account} {after : AccountSnapshot}

theorem SameTerms.refl : account.SameTerms account :=
  ⟨rfl, rfl, rfl, rfl, rfl⟩

theorem SameTerms.isFrozen (same : account.SameTerms after) :
    after.isFrozen = account.isFrozen := by
  unfold AccountSnapshot.isFrozen
  rw [same.state]

/-- A debit takes the amount, and an allowance pays for it unless the
permanent delegate or the owner asked for it. -/
theorem debitedBy_eq_some
    {permanentDelegate : Option Address} {authority : Address} {amount : Nat}
    (debited : account.debitedBy permanentDelegate authority amount =
      some after) :
    amount ≤ account.amount ∧ after.amount = account.amount - amount ∧
      account.SameTerms after ∧
      (permanentDelegate = some authority ∨ account.owner = authority ∨
        account.delegate = some authority) ∧
      (permanentDelegate ≠ some authority →
        account.delegate = some authority →
          amount ≤ account.delegatedAmount ∧
            after.delegatedAmount = account.delegatedAmount - amount ∧
            (after.delegate = some authority ∨ after.delegate = none)) := by
  unfold debitedBy at debited
  split at debited
  case isFalse => cases debited
  case isTrue enough =>
      split at debited
      case isTrue permanent =>
          cases debited
          exact ⟨enough, rfl, ⟨rfl, rfl, rfl, rfl, rfl⟩, .inl permanent,
            fun other => absurd permanent other⟩
      case isFalse =>
          split at debited
          case isTrue delegated =>
              split at debited
              case isFalse => cases debited
              case isTrue allowed =>
                  cases debited
                  refine ⟨enough, rfl, ⟨rfl, rfl, rfl, rfl, rfl⟩,
                    .inr (.inr delegated), fun _ _ => ⟨allowed, rfl, ?_⟩⟩
                  unfold spendAllowance
                  split
                  · exact .inr rfl
                  · exact .inl rfl
          case isFalse other =>
              split at debited
              case isFalse => cases debited
              case isTrue owned =>
                  cases debited
                  exact ⟨enough, rfl, ⟨rfl, rfl, rfl, rfl, rfl⟩,
                    .inr (.inl owned), fun _ same => absurd same other⟩

/-- Whoever is not the delegate leaves the allowance alone. -/
theorem debitedBy_delegate
    {permanentDelegate : Option Address} {authority delegate : Address}
    {amount : Nat}
    (debited : account.debitedBy permanentDelegate authority amount =
      some after)
    (other : authority ≠ delegate)
    (delegated : after.delegate = some delegate) :
    account.delegate = some delegate ∧
      after.delegatedAmount = account.delegatedAmount := by
  unfold debitedBy at debited
  split at debited
  case isFalse => cases debited
  case isTrue =>
      split at debited
      case isTrue =>
          cases debited
          exact ⟨delegated, rfl⟩
      case isFalse =>
          split at debited
          case isTrue =>
              split at debited
              case isFalse => cases debited
              case isTrue =>
                  cases debited
                  unfold spendAllowance at delegated
                  dsimp only at delegated
                  split at delegated
                  · cases delegated
                  · exact absurd (Option.some.inj delegated) other
          case isFalse =>
              split at debited
              case isFalse => cases debited
              case isTrue =>
                  cases debited
                  exact ⟨delegated, rfl⟩

/-- A credit adds up to the amount. -/
theorem creditedWith_eq_some
    {amount fee : Nat}
    (credited : account.creditedWith amount fee = some after) :
    account.SameTerms after ∧
      after.amount + after.withheldFee.getD 0 =
        account.amount + account.withheldFee.getD 0 + amount ∧
      after.delegate = account.delegate ∧
      after.delegatedAmount = account.delegatedAmount ∧
      account.amount ≤ after.amount := by
  unfold creditedWith at credited
  split at credited
  case isFalse => cases credited
  case isTrue fits =>
      dsimp only at credited
      split at credited
      case isTrue free =>
          cases credited
          refine ⟨⟨rfl, rfl, rfl, rfl, rfl⟩, ?_, rfl, rfl,
            Nat.le_add_right ..⟩
          dsimp only
          omega
      case isFalse =>
          split at credited
          case h_1 => cases credited
          case h_2 withheld present =>
              split at credited
              case isFalse => cases credited
              case isTrue =>
                  cases credited
                  refine ⟨⟨rfl, rfl, rfl, rfl, rfl⟩, ?_, rfl, rfl,
                    Nat.le_add_right ..⟩
                  simp only [Option.getD_some, present]
                  omega

end AccountSnapshot

namespace TokenChain

variable (signers : List Address) (chain : TokenChain)

/-- The chain with another state of one account. -/
def setAccount (address : Address) (account : Option AccountSnapshot) :
    TokenChain :=
  { chain with accounts := Function.update chain.accounts address account }

@[simp]
theorem setAccount_mints (address : Address)
    (account : Option AccountSnapshot) :
    (chain.setAccount address account).mints = chain.mints :=
  rfl

@[simp]
theorem setAccount_self (address : Address)
    (account : Option AccountSnapshot) :
    (chain.setAccount address account).accounts address = account := by
  simp [setAccount]

theorem setAccount_of_ne
    {address other : Address} (different : other ≠ address)
    (account : Option AccountSnapshot) :
    (chain.setAccount address account).accounts other =
      chain.accounts other := by
  simp [setAccount, Function.update_of_ne different]

/-- Freeze or thaw an account. -/
def toggleFreeze (address mint authority : Address) (freeze : Bool) :
    Option TokenChain :=
  match chain.accounts address, chain.mints mint with
  | some account, some mintState =>
      if account.isFrozen = !freeze ∧ account.mint = mint ∧
          mintState.freezeAuthority = some authority ∧ authority ∈ signers then
        some <| chain.setAccount address <| some
          { account with state := if freeze then .frozen else .initialized }
      else none
  | _, _ => none

/-- `TransferCheckedWithFee`.  A transfer to the source itself is checked and
moves nothing. -/
def transferChecked (source mint destination authority : Address)
    (amount decimals fee : Nat) : Option TokenChain :=
  match chain.accounts source, chain.accounts destination,
      chain.mints mint with
  | some payer, some payee, some mintState =>
      if authority ∈ signers ∧ payer.mint = mint ∧ payee.mint = mint ∧
          payer.isFrozen = false ∧ payee.isFrozen = false ∧
          mintState.decimals = decimals ∧
          mintState.chargedFee chain.epoch amount = some fee then
        match payer.debitedBy mintState.permanentDelegate authority amount with
        | none => none
        | some debited =>
            if source = destination then some chain
            else
              (payee.creditedWith amount fee).map fun credited =>
                (chain.setAccount source (some debited)).setAccount
                  destination (some credited)
      else none
  | _, _, _ => none

end TokenChain

/-- Carry out an instruction, if it is one of these. -/
def TokenInstruction.carryOut (signers : List Address) (chain : TokenChain) :
    TokenInstruction → Option TokenChain
  | thawAccount account mint authority =>
      chain.toggleFreeze signers account mint authority false
  | freezeAccount account mint authority =>
      chain.toggleFreeze signers account mint authority true
  | transferCheckedWithFee source mint destination authority amount decimals
      fee =>
      chain.transferChecked signers source mint destination authority amount
        decimals fee
  | _ => none

/-- Carry out the instructions of a transaction, all of them or none. -/
def TokenChain.carryOutAll (signers : List Address) (chain : TokenChain) :
    List TokenInstruction → Option TokenChain
  | [] => some chain
  | instruction :: rest =>
      (instruction.carryOut signers chain).bind fun next =>
        next.carryOutAll signers rest

namespace TokenChain

variable {signers : List Address} {chain after : TokenChain}

theorem toggleFreeze_eq_some
    {address mint authority : Address} {freeze : Bool}
    (toggled :
      chain.toggleFreeze signers address mint authority freeze = some after) :
    ∃ account, chain.accounts address = some account ∧
      account.isFrozen = !freeze ∧ account.mint = mint ∧
      after = chain.setAccount address
        (some
          { account with
            state := if freeze then .frozen else .initialized }) := by
  unfold toggleFreeze at toggled
  split at toggled
  case h_2 => cases toggled
  case h_1 account mintState found _ =>
      split at toggled
      case isFalse => cases toggled
      case isTrue allowed =>
          cases toggled
          exact ⟨account, found, allowed.1, allowed.2.1, rfl⟩

/-- A transfer changes nothing, when it goes to the source itself, or debits
the source and credits the destination. -/
theorem transferChecked_eq_some
    {source mint destination authority : Address} {amount decimals fee : Nat}
    (transferred :
      chain.transferChecked signers source mint destination authority amount
        decimals fee = some after) :
    ∃ payer payee mintState debited,
      chain.accounts source = some payer ∧
      chain.accounts destination = some payee ∧
      chain.mints mint = some mintState ∧ payer.mint = mint ∧
      payer.isFrozen = false ∧ payee.isFrozen = false ∧
      payer.debitedBy mintState.permanentDelegate authority amount =
        some debited ∧
      (source = destination ∧ after = chain ∨
        source ≠ destination ∧ ∃ credited,
          payee.creditedWith amount fee = some credited ∧
          after = (chain.setAccount source (some debited)).setAccount
            destination (some credited)) := by
  unfold transferChecked at transferred
  split at transferred
  case h_2 => cases transferred
  case h_1 payer payee mintState payerFound payeeFound mintFound =>
      split at transferred
      case isFalse => cases transferred
      case isTrue allowed =>
          obtain ⟨_, ofMint, _, unfrozen, otherUnfrozen, _, _⟩ := allowed
          split at transferred
          case h_1 => cases transferred
          case h_2 debited debits =>
              refine ⟨payer, payee, mintState, debited, payerFound, payeeFound,
                mintFound, ofMint, unfrozen, otherUnfrozen, debits, ?_⟩
              split at transferred
              case isTrue same =>
                  cases transferred
                  exact .inl ⟨same, rfl⟩
              case isFalse different =>
                  obtain ⟨credited, credits, rfl⟩ :=
                    Option.map_eq_some_iff.mp transferred
                  exact .inr ⟨different, credited, credits, rfl⟩

/-- Whoever sends it, a transfer keeps the terms of every account. -/
theorem transferChecked_sameTerms
    {source mint destination authority : Address} {amount decimals fee : Nat}
    (transferred :
      chain.transferChecked signers source mint destination authority amount
        decimals fee = some after) :
    after.mints = chain.mints ∧
      ∀ address, Option.Rel AccountSnapshot.SameTerms
        (chain.accounts address) (after.accounts address) := by
  have unchanged : ∀ account : Option AccountSnapshot,
      Option.Rel AccountSnapshot.SameTerms account account := by
    rintro (_ | account)
    · exact .none
    · exact .some .refl
  obtain ⟨payer, payee, _, debited, payerFound, payeeFound, _, _, _, _, debits,
    moved⟩ := transferChecked_eq_some transferred
  rcases moved with ⟨_, rfl⟩ | ⟨different, credited, credits, rfl⟩
  · exact ⟨rfl, fun address => unchanged _⟩
  · refine ⟨rfl, fun address => ?_⟩
    by_cases here : address = destination
    · subst here
      rw [setAccount_self, payeeFound]
      exact .some (AccountSnapshot.creditedWith_eq_some credits).1
    · rw [setAccount_of_ne _ here]
      by_cases there : address = source
      · subst there
        rw [setAccount_self, payerFound]
        exact .some (AccountSnapshot.debitedBy_eq_some debits).2.2.1
      · rw [setAccount_of_ne _ there]
        exact unchanged _

end TokenChain

/-! ## What is left alone -/

/-- No instruction that is carried out touches a mint. -/
theorem TokenInstruction.carryOut_mints
    {signers : List Address} {chain after : TokenChain}
    {instruction : TokenInstruction}
    (carried : instruction.carryOut signers chain = some after) :
    after.mints = chain.mints := by
  cases instruction with
  | thawAccount account mint authority =>
      obtain ⟨_, _, _, _, rfl⟩ := TokenChain.toggleFreeze_eq_some carried
      rfl
  | freezeAccount account mint authority =>
      obtain ⟨_, _, _, _, rfl⟩ := TokenChain.toggleFreeze_eq_some carried
      rfl
  | transferCheckedWithFee =>
      exact (TokenChain.transferChecked_sameTerms carried).1
  | _ => cases carried

theorem TokenChain.carryOutAll_mints
    {signers : List Address} {instructions : List TokenInstruction}
    {chain after : TokenChain}
    (carried : chain.carryOutAll signers instructions = some after) :
    after.mints = chain.mints := by
  induction instructions generalizing chain with
  | nil =>
      cases carried
      rfl
  | cons instruction rest inductionHypothesis =>
      obtain ⟨next, first, onward⟩ := Option.bind_eq_some_iff.mp carried
      rw [inductionHypothesis onward]
      exact TokenInstruction.carryOut_mints first

/-- The accounts that an instruction may change. -/
def TokenInstruction.touched : TokenInstruction → List Address
  | thawAccount account _ _ => [account]
  | freezeAccount account _ _ => [account]
  | transferCheckedWithFee source _ destination _ _ _ _ =>
      [source, destination]
  | _ => []

theorem TokenInstruction.carryOut_elsewhere
    {signers : List Address} {chain after : TokenChain}
    {instruction : TokenInstruction} {address : Address}
    (carried : instruction.carryOut signers chain = some after)
    (away : address ∉ instruction.touched) :
    after.accounts address = chain.accounts address := by
  cases instruction with
  | thawAccount account mint authority =>
      have other : address ≠ account := by simpa [touched] using away
      obtain ⟨_, _, _, _, rfl⟩ := TokenChain.toggleFreeze_eq_some carried
      exact chain.setAccount_of_ne other _
  | freezeAccount account mint authority =>
      have other : address ≠ account := by simpa [touched] using away
      obtain ⟨_, _, _, _, rfl⟩ := TokenChain.toggleFreeze_eq_some carried
      exact chain.setAccount_of_ne other _
  | transferCheckedWithFee source mint destination =>
      have others : address ≠ source ∧ address ≠ destination := by
        simpa [touched] using away
      obtain ⟨_, _, _, _, _, _, _, _, _, _, _, moved⟩ :=
        TokenChain.transferChecked_eq_some carried
      rcases moved with ⟨_, rfl⟩ | ⟨_, _, _, rfl⟩
      · rfl
      · rw [TokenChain.setAccount_of_ne _ others.2,
          TokenChain.setAccount_of_ne _ others.1]
  | _ => cases carried

theorem TokenChain.carryOutAll_elsewhere
    {signers : List Address} {instructions : List TokenInstruction}
    {chain after : TokenChain} {address : Address}
    (carried : chain.carryOutAll signers instructions = some after)
    (away : ∀ instruction ∈ instructions, address ∉ instruction.touched) :
    after.accounts address = chain.accounts address := by
  induction instructions generalizing chain with
  | nil =>
      cases carried
      rfl
  | cons instruction rest inductionHypothesis =>
      obtain ⟨next, first, onward⟩ := Option.bind_eq_some_iff.mp carried
      have later : ∀ other ∈ rest, address ∉ other.touched :=
        fun other member => away other (List.mem_cons_of_mem _ member)
      rw [inductionHypothesis onward later]
      exact TokenInstruction.carryOut_elsewhere first
        (away instruction List.mem_cons_self)

theorem TokenInstruction.carryOut_epoch
    {signers : List Address} {chain after : TokenChain}
    {instruction : TokenInstruction}
    (carried : instruction.carryOut signers chain = some after) :
    after.epoch = chain.epoch := by
  cases instruction with
  | thawAccount account mint authority =>
      obtain ⟨_, _, _, _, rfl⟩ := TokenChain.toggleFreeze_eq_some carried
      rfl
  | freezeAccount account mint authority =>
      obtain ⟨_, _, _, _, rfl⟩ := TokenChain.toggleFreeze_eq_some carried
      rfl
  | transferCheckedWithFee =>
      obtain ⟨_, _, _, _, _, _, _, _, _, _, _, moved⟩ :=
        TokenChain.transferChecked_eq_some carried
      rcases moved with ⟨_, rfl⟩ | ⟨_, _, _, rfl⟩
      · rfl
      · rfl
  | _ => cases carried

theorem TokenChain.carryOutAll_epoch
    {signers : List Address} {instructions : List TokenInstruction}
    {chain after : TokenChain}
    (carried : chain.carryOutAll signers instructions = some after) :
    after.epoch = chain.epoch := by
  induction instructions generalizing chain with
  | nil =>
      cases carried
      rfl
  | cons instruction rest inductionHypothesis =>
      obtain ⟨next, first, onward⟩ := Option.bind_eq_some_iff.mp carried
      rw [inductionHypothesis onward]
      exact TokenInstruction.carryOut_epoch first

end Remit
