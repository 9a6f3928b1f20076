import Remit.Confidential.Ledger

/-!
# The books behind the ciphertexts

Behind the ciphertexts of each account stand four integers: the halves of the
pending balance, the available balance and the withheld fees.  Every step of a
ledger keeps such books, and keeps the sum over all accounts, whichever calls
overlap.
-/

namespace Remit

open Flows Runs

variable {crypto : Crypto} {roster : Roster crypto}

/-- The integers an account's ciphertexts encrypt. -/
structure AccountBook where
  low : Int
  high : Int
  available : Nat
  withheld : Nat

/-- The book of an account agrees with its ciphertexts.  Each credit moves the
halves by at most `2 ^ 16` and `2 ^ 32`, so the counter bounds them. -/
structure Agrees (crypto : Crypto) (withheldKey : PodElGamalPubkey)
    (keys : ConfidentialKeys crypto) (received : Nat) (book : AccountBook)
    (account : AccountSnapshot) (state : ConfidentialTransferAccount) : Prop where
  opens : keys.Opens state
  low : crypto.Encrypts (crypto.secretOf state.elgamalPubkey) book.low
    state.pendingBalanceLo
  high : crypto.Encrypts (crypto.secretOf state.elgamalPubkey) book.high
    state.pendingBalanceHi
  available : crypto.Encrypts (crypto.secretOf state.elgamalPubkey)
    book.available state.availableBalance
  withheld : ∃ withheld,
    account.confidentialWithheld = some withheld ∧
      crypto.Encrypts (crypto.secretOf withheldKey) book.withheld
        withheld.withheldAmount
  lowBound : |book.low| ≤ state.pendingBalanceCreditCounter * 2 ^ 16
  highBound : |book.high| ≤ state.pendingBalanceCreditCounter * 2 ^ 32
  counterBound :
    state.pendingBalanceCreditCounter ≤
      state.maximumPendingBalanceCreditCounter
  maximumBound : state.maximumPendingBalanceCreditCounter < 2 ^ 64
  received : book.low + book.high * 2 ^ 16 = received

/-- An account of the ledger whose book agrees with it. -/
def Holds (roster : Roster crypto) (ledger : Ledger) (book : AccountBook)
    (address : Address) : Prop :=
  ∃ account state,
    ledger.chain address = some account ∧
      account.confidential = some state ∧
      Agrees crypto roster.withheldKeys.pubkey (roster.keys address)
        (ledger.received address) book account state

/-- The public amount of an account. -/
def TokenAccounts.publicAmount (chain : TokenAccounts) (address : Address) :
    Nat :=
  (chain address).elim 0 (·.amount)

/-- All that an account is worth. -/
def worth (ledger : Ledger) (book : AccountBook) (address : Address) : Nat :=
  ledger.chain.publicAmount address + ledger.received address +
    book.available + book.withheld

/-- There are books that agree with all accounts and add up to `total`. -/
structure Balanced (roster : Roster crypto) (total : Nat) (ledger : Ledger)
    (books : Address → AccountBook) : Prop where
  holds : ∀ address ∈ roster.accounts, Holds roster ledger (books address) address
  total :
    ∑ address ∈ roster.accounts, worth ledger (books address) address = total

namespace Agrees

variable {withheldKey : PodElGamalPubkey} {keys : ConfidentialKeys crypto}
  {received : Nat} {book : AccountBook} {account : AccountSnapshot}
  {state : ConfidentialTransferAccount}

theorem pending
    (agrees : Agrees crypto withheldKey keys received book account state) :
    Pending crypto state book.low book.high where
  encryptsLow := agrees.low
  encryptsHigh := agrees.high
  lowSmall := by
    have := agrees.lowBound
    have := agrees.counterBound
    have := agrees.maximumBound
    omega
  highSmall := by
    have := agrees.highBound
    have := agrees.counterBound
    have := agrees.maximumBound
    omega

/-- One more credit. -/
theorem credit
    {low high : Int} {lo hi : PodElGamalCiphertext} {amount : Nat}
    (agrees : Agrees crypto withheldKey keys received book account state)
    (room : state.Creditable)
    (adds : AddsPending crypto state low high lo hi)
    (lowSmall : |low| ≤ 2 ^ 16) (highSmall : |high| ≤ 2 ^ 32)
    (whole : low + high * 2 ^ 16 = amount) :
    Agrees crypto withheldKey keys (received + amount)
      { book with low := book.low + low, high := book.high + high }
      account (state.credited lo hi) where
  opens := agrees.opens
  low := agrees.low.adds adds.1
  high := agrees.high.adds adds.2
  available := agrees.available
  withheld := agrees.withheld
  lowBound := by
    have := abs_add_le book.low low
    have := agrees.lowBound
    simp only [ConfidentialTransferAccount.credited]
    push_cast
    omega
  highBound := by
    have := abs_add_le book.high high
    have := agrees.highBound
    simp only [ConfidentialTransferAccount.credited]
    push_cast
    omega
  counterBound := room.2.2
  maximumBound := agrees.maximumBound
  received := by
    have := agrees.received
    push_cast
    omega

/-- The proven rest of a debit is what the book says. -/
theorem debit
    {amount : Nat} {against available : PodElGamalCiphertext}
    (agrees : Agrees crypto withheldKey keys received book account state)
    (fits : book.available < 2 ^ 64) (small : amount < 2 ^ 64)
    (debits : DebitsAvailable crypto state against amount available)
    (newDecryptable : DecryptableBalance) :
    amount ≤ book.available ∧
      Agrees crypto withheldKey keys received
        { book with available := book.available - amount }
        account (state.debited available newDecryptable) := by
  obtain ⟨_, rfl, adds, remaining, remainingFits, rest⟩ := debits
  have same : (book.available : Int) + -amount = remaining :=
    (agrees.available.adds adds).unique rest
      (by rw [abs_lt]; omega) (by rw [abs_lt]; omega)
  refine ⟨by omega, ?_⟩
  have left : ((book.available - amount : Nat) : Int) = remaining := by omega
  exact
    { agrees with
      available := by
        show crypto.Encrypts _ ((book.available - amount : Nat) : Int) _
        rw [left]
        exact rest }

/-- The pending balance moves to the available balance as a whole. -/
theorem apply
    {available lo hi : PodElGamalCiphertext}
    (agrees : Agrees crypto withheldKey keys received book account state)
    (applies : AppliesPending crypto state available lo hi)
    (credits : Nat) (newDecryptable : DecryptableBalance) :
    Agrees crypto withheldKey keys 0
      { book with
        low := 0, high := 0, available := book.available + received }
      account (state.applied available lo hi credits newDecryptable) := by
  obtain ⟨valid, sum, zeroLow, zeroHigh⟩ := applies
  exact
    { opens := agrees.opens
      low := zeroLow
      high := zeroHigh
      available := by
        refine ⟨valid, sum.trans ?_⟩
        have whole : ((book.available + received : Nat) : Int) =
            book.available + book.low + 2 ^ 16 * book.high := by
          have := agrees.received
          push_cast
          omega
        show _ =
          (((book.available + received : Nat) : Int) : ZMod crypto.order)
        rw [whole, agrees.available.2, agrees.low.2, agrees.high.2]
        push_cast
        ring
      withheld := agrees.withheld
      lowBound := by simp [ConfidentialTransferAccount.applied]
      highBound := by simp [ConfidentialTransferAccount.applied]
      counterBound := Nat.zero_le _
      maximumBound := agrees.maximumBound
      received := rfl }

/-- A change of what the book does not speak about. -/
theorem withAmount
    (agrees : Agrees crypto withheldKey keys received book account state)
    (amount : Nat) (confidential : Option ConfidentialTransferAccount) :
    Agrees crypto withheldKey keys received book
      { account with amount, confidential } state :=
  { agrees with }

end Agrees

/-! ## One step -/

section Step

variable {total : Nat} {ledger after : Ledger} {books : Address → AccountBook}
  {book : AccountBook} {address : Address}

theorem Holds.frame
    (holds : Holds roster ledger book address)
    (chain : after.chain address = ledger.chain address)
    (received : after.received address = ledger.received address) :
    Holds roster after book address := by
  unfold Holds
  rw [chain, received]
  exact holds

private theorem worth_frame
    (chain : after.chain address = ledger.chain address)
    (received : after.received address = ledger.received address) :
    worth after book address = worth ledger book address := by
  unfold worth TokenAccounts.publicAmount
  rw [chain, received]

/-- Two sums that differ in two places only, and agree on those two together. -/
private theorem sum_eq_of_two
    {accounts : Finset Address} {one other : Address} {f g : Address → Nat}
    (oneMember : one ∈ accounts) (otherMember : other ∈ accounts)
    (different : one ≠ other)
    (elsewhere : ∀ x, x ≠ one → x ≠ other → f x = g x)
    (together : f one + f other = g one + g other) :
    ∑ x ∈ accounts, f x = ∑ x ∈ accounts, g x := by
  have otherLeft : other ∈ accounts.erase one :=
    Finset.mem_erase.mpr ⟨different.symm, otherMember⟩
  have rest :
      ∑ x ∈ (accounts.erase one).erase other, f x =
        ∑ x ∈ (accounts.erase one).erase other, g x := by
    apply Finset.sum_congr rfl
    intro x member
    simp only [Finset.mem_erase] at member
    exact elsewhere x member.2.1 member.1
  rw [← Finset.add_sum_erase accounts f oneMember,
    ← Finset.add_sum_erase (accounts.erase one) f otherLeft,
    ← Finset.add_sum_erase accounts g oneMember,
    ← Finset.add_sum_erase (accounts.erase one) g otherLeft, rest]
  omega

/-- A step that changes one account and leaves it worth what it was. -/
theorem Balanced.change_one
    (balanced : Balanced roster total ledger books) (book : AccountBook)
    (chain : ∀ x, x ≠ address → after.chain x = ledger.chain x)
    (received : ∀ x, x ≠ address → after.received x = ledger.received x)
    (holds : Holds roster after book address)
    (kept : worth after book address = worth ledger (books address) address) :
    Balanced roster total after (Function.update books address book) where
  holds x member := by
    by_cases here : x = address
    · rw [here, Function.update_self]
      exact holds
    · rw [Function.update_of_ne here]
      exact (balanced.holds x member).frame (chain x here) (received x here)
  total := by
    rw [← balanced.total]
    apply Finset.sum_congr rfl
    intro x _
    by_cases here : x = address
    · rw [here, Function.update_self, kept]
    · rw [Function.update_of_ne here,
        worth_frame (chain x here) (received x here)]

/-- A step that changes two accounts and leaves them worth what they were. -/
theorem Balanced.change_two
    {other : Address} (balanced : Balanced roster total ledger books)
    (book otherBook : AccountBook)
    (member : address ∈ roster.accounts) (otherMember : other ∈ roster.accounts)
    (different : address ≠ other)
    (chain : ∀ x, x ≠ address → x ≠ other → after.chain x = ledger.chain x)
    (received : ∀ x, x ≠ address → x ≠ other →
      after.received x = ledger.received x)
    (holds : Holds roster after book address)
    (otherHolds : Holds roster after otherBook other)
    (kept :
      worth after book address + worth after otherBook other =
        worth ledger (books address) address +
          worth ledger (books other) other) :
    Balanced roster total after
      (Function.update (Function.update books address book) other
        otherBook) where
  holds x xMember := by
    by_cases there : x = other
    · rw [there, Function.update_self]
      exact otherHolds
    rw [Function.update_of_ne there]
    by_cases here : x = address
    · rw [here, Function.update_self]
      exact holds
    · rw [Function.update_of_ne here]
      exact (balanced.holds x xMember).frame (chain x here there)
        (received x here there)
  total := by
    rw [← balanced.total]
    apply sum_eq_of_two member otherMember different
    · intro x here there
      rw [Function.update_of_ne there, Function.update_of_ne here,
        worth_frame (chain x here there) (received x here there)]
    · rw [Function.update_of_ne different, Function.update_self,
        Function.update_self, kept]

/-- What an account is worth is part of the total. -/
theorem Balanced.worth_le
    (balanced : Balanced roster total ledger books)
    (member : address ∈ roster.accounts) :
    worth ledger (books address) address ≤ total := by
  rw [← balanced.total]
  exact Finset.single_le_sum
    (f := fun x => worth ledger (books x) x) (fun _ _ => Nat.zero_le _) member

/-- The book of a configured account agrees with it. -/
theorem Balanced.agrees
    {account : AccountSnapshot} {state : ConfidentialTransferAccount}
    (balanced : Balanced roster total ledger books)
    (member : address ∈ roster.accounts)
    (found : ledger.chain address = some account)
    (configured : account.confidential = some state) :
    Agrees crypto roster.withheldKeys.pubkey (roster.keys address)
      (ledger.received address) (books address) account state := by
  obtain ⟨account', state', found', configured', agrees⟩ :=
    balanced.holds address member
  rw [found] at found'
  cases found'
  rw [configured] at configured'
  cases configured'
  exact agrees

theorem Balanced.available_lt
    (balanced : Balanced roster total ledger books) (fits : total < 2 ^ 64)
    (member : address ∈ roster.accounts) :
    (books address).available < 2 ^ 64 := by
  have bounded := balanced.worth_le member
  unfold worth at bounded
  omega

private theorem abs_lowPart_le (amount : Nat) : |lowPart amount| ≤ 2 ^ 16 := by
  unfold lowPart
  rw [abs_le]
  omega

private theorem abs_highPart_le
    {amount : Nat} (small : amount < 2 ^ 48) : |highPart amount| ≤ 2 ^ 32 := by
  unfold highPart
  rw [abs_le]
  omega

private theorem abs_lowPart_sub_le (amount fee : Nat) :
    |lowPart amount - lowPart fee| ≤ 2 ^ 16 := by
  unfold lowPart
  rw [abs_le]
  omega

private theorem abs_highPart_sub_le
    {amount fee : Nat} (small : amount < 2 ^ 48) (feeSmall : fee ≤ amount) :
    |highPart amount - highPart fee| ≤ 2 ^ 32 := by
  unfold highPart
  rw [abs_le]
  omega

private theorem net_parts {amount fee : Nat} (feeSmall : fee ≤ amount) :
    lowPart amount - lowPart fee + (highPart amount - highPart fee) * 2 ^ 16 =
      (amount - fee : Nat) := by
  have amountParts := lowPart_add_highPart amount
  have feeParts := lowPart_add_highPart fee
  push_cast [feeSmall]
  omega

/-- The ledger once an execution led to a chain. -/
def Ledger.executed (ledger : Ledger) (execution : Execution)
    (chain : TokenAccounts) : Ledger :=
  { ledger with chain, received := execution.received ledger.received }

theorem Balanced.deposit
    {amount : Nat} {account : AccountSnapshot}
    {state : ConfidentialTransferAccount} {lo hi : PodElGamalCiphertext}
    (balanced : Balanced roster total ledger books)
    (member : address ∈ roster.accounts)
    (found : ledger.chain address = some account)
    (configured : account.confidential = some state)
    (funded : amount ≤ account.amount) (small : amount < 2 ^ 48)
    (room : state.Creditable)
    (adds :
      AddsPending crypto state (lowPart amount) (highPart amount) lo hi) :
    ∃ books, Balanced roster total
      (ledger.executed (.deposit address amount)
        (Function.update ledger.chain address <| some
          { account with
            amount := account.amount - amount
            confidential := some (state.credited lo hi) })) books := by
  have credited := (balanced.agrees member found configured).credit room adds
    (abs_lowPart_le amount) (abs_highPart_le small)
    (lowPart_add_highPart amount)
  refine ⟨_, balanced.change_one
    { books address with
      low := (books address).low + lowPart amount
      high := (books address).high + highPart amount }
    (fun x here => Function.update_of_ne here ..)
    (fun x here => Function.update_of_ne here ..)
    ⟨_, _, Function.update_self .., rfl, ?_⟩ ?_⟩
  · simp only [Ledger.executed, Execution.received, Function.update_self]
    exact credited.withAmount _ _
  · simp only [worth, TokenAccounts.publicAmount, Ledger.executed,
      Execution.received, Function.update_self, found, Option.elim_some]
    omega

theorem Balanced.applyPendingBalance
    {account : AccountSnapshot} {state : ConfidentialTransferAccount}
    {available lo hi : PodElGamalCiphertext}
    (balanced : Balanced roster total ledger books)
    (member : address ∈ roster.accounts)
    (found : ledger.chain address = some account)
    (configured : account.confidential = some state)
    (applies : AppliesPending crypto state available lo hi)
    (credits : Nat) (newDecryptable : DecryptableBalance) :
    ∃ books, Balanced roster total
      (ledger.executed (.applyPendingBalance address credits newDecryptable)
        (Function.update ledger.chain address <| some <|
          account.withConfidential
            (state.applied available lo hi credits newDecryptable))) books := by
  have applied := (balanced.agrees member found configured).apply
    applies credits newDecryptable
  refine ⟨_, balanced.change_one
    { books address with
      low := 0
      high := 0
      available := (books address).available + ledger.received address }
    (fun x here => Function.update_of_ne here ..)
    (fun x here => Function.update_of_ne here ..)
    ⟨_, _, Function.update_self .., rfl, ?_⟩ ?_⟩
  · simp only [Ledger.executed, Execution.received, Function.update_self]
    exact applied.withAmount _ _
  · simp only [worth, TokenAccounts.publicAmount, Ledger.executed,
      Execution.received, Function.update_self, found, Option.elim_some,
      AccountSnapshot.withConfidential]
    omega

theorem Balanced.transfer
    {destination : Address} {payer payee : AccountSnapshot}
    {paying paid : ConfidentialTransferAccount}
    {withheld : ConfidentialTransferFeeAmount} {statement : TransferStatement}
    {available lo hi fees : PodElGamalCiphertext}
    (balanced : Balanced roster total ledger books) (fits : total < 2 ^ 64)
    (member : address ∈ roster.accounts)
    (otherMember : destination ∈ roster.accounts)
    (different : address ≠ destination)
    (found : ledger.chain address = some payer)
    (configured : payer.confidential = some paying)
    (otherFound : ledger.chain destination = some payee)
    (otherConfigured : payee.confidential = some paid)
    (withheldFound : payee.confidentialWithheld = some withheld)
    (room : paid.Creditable) (small : statement.amount < 2 ^ 48)
    (feeSmall : statement.fee ≤ statement.amount)
    (debits :
      DebitsAvailable crypto paying statement.against statement.amount
        available)
    (adds :
      AddsPending crypto paid
        (lowPart statement.amount - lowPart statement.fee)
        (highPart statement.amount - highPart statement.fee) lo hi)
    (addsFee :
      crypto.Adds (crypto.secretOf roster.withheldKeys.pubkey)
        withheld.withheldAmount statement.fee fees)
    (newDecryptable : DecryptableBalance) :
    ∃ books, Balanced roster total
      (ledger.executed (.transfer address destination statement newDecryptable)
        (Function.update
          (Function.update ledger.chain address <| some <|
            payer.withConfidential (paying.debited available newDecryptable))
          destination <| some
            { payee with
              confidential := some (paid.credited lo hi)
              confidentialWithheld := some ⟨fees⟩ })) books := by
  obtain ⟨enough, debited⟩ := (balanced.agrees member found configured).debit
    (balanced.available_lt fits member) (by omega) debits newDecryptable
  have otherAgrees := balanced.agrees otherMember otherFound otherConfigured
  have credited := otherAgrees.credit room adds (abs_lowPart_sub_le _ _)
    (abs_highPart_sub_le small feeSmall) (net_parts feeSmall)
  obtain ⟨withheld', withheldFound', encrypts⟩ := otherAgrees.withheld
  rw [withheldFound] at withheldFound'
  cases withheldFound'
  refine ⟨_, balanced.change_two
    { books address with
      available := (books address).available - statement.amount }
    { books destination with
      low := (books destination).low +
        (lowPart statement.amount - lowPart statement.fee)
      high := (books destination).high +
        (highPart statement.amount - highPart statement.fee)
      withheld := (books destination).withheld + statement.fee }
    member otherMember different
    (fun x here there => ?_) (fun x _ there => Function.update_of_ne there ..)
    ⟨payer.withConfidential (paying.debited available newDecryptable),
      paying.debited available newDecryptable, ?_, rfl, ?_⟩
    ⟨_, _, Function.update_self .., rfl, ?_⟩ ?_⟩
  · exact (Function.update_of_ne there ..).trans
      (Function.update_of_ne here ..)
  · exact (Function.update_of_ne different ..).trans (Function.update_self ..)
  · simp only [Ledger.executed, Execution.received,
      Function.update_of_ne different]
    exact debited.withAmount _ _
  · simp only [Ledger.executed, Execution.received, Function.update_self,
      different, if_false]
    exact
      { credited with
        withheld := ⟨_, rfl, by
          have sum := encrypts.adds addsFee
          push_cast
          exact sum⟩ }
  · simp only [worth, TokenAccounts.publicAmount, Ledger.executed,
      Execution.received, Function.update_self,
      Function.update_of_ne different, found, otherFound, Option.elim_some,
      AccountSnapshot.withConfidential, different, if_false]
    omega

theorem Balanced.transferToSelf
    {account : AccountSnapshot} {state : ConfidentialTransferAccount}
    {statement : TransferStatement} {available lo hi : PodElGamalCiphertext}
    (balanced : Balanced roster total ledger books) (fits : total < 2 ^ 64)
    (member : address ∈ roster.accounts)
    (found : ledger.chain address = some account)
    (configured : account.confidential = some state)
    (room : state.Creditable) (small : statement.amount < 2 ^ 48)
    (debits :
      DebitsAvailable crypto state statement.against statement.amount
        available)
    (adds :
      AddsPending crypto state (lowPart statement.amount)
        (highPart statement.amount) lo hi)
    (newDecryptable : DecryptableBalance) :
    ∃ books, Balanced roster total
      (ledger.executed (.transfer address address statement newDecryptable)
        (Function.update ledger.chain address <| some <|
          account.withConfidential
            ((state.debited available newDecryptable).credited lo hi)))
      books := by
  obtain ⟨enough, debited⟩ := (balanced.agrees member found configured).debit
    (balanced.available_lt fits member) (by omega) debits newDecryptable
  have credited := debited.credit room adds (abs_lowPart_le _)
    (abs_highPart_le small) (lowPart_add_highPart statement.amount)
  refine ⟨_, balanced.change_one
    { books address with
      low := (books address).low + lowPart statement.amount
      high := (books address).high + highPart statement.amount
      available := (books address).available - statement.amount }
    (fun x here => Function.update_of_ne here ..)
    (fun x here => Function.update_of_ne here ..)
    ⟨_, _, Function.update_self .., rfl, ?_⟩ ?_⟩
  · simp only [Ledger.executed, Execution.received, Function.update_self,
      if_true]
    exact credited.withAmount _ _
  · simp only [worth, TokenAccounts.publicAmount, Ledger.executed,
      Execution.received, Function.update_self, found, Option.elim_some,
      AccountSnapshot.withConfidential, if_true]
    omega

theorem Balanced.withdraw
    {amount : Nat} {account : AccountSnapshot}
    {state : ConfidentialTransferAccount}
    {against available : PodElGamalCiphertext}
    (balanced : Balanced roster total ledger books) (fits : total < 2 ^ 64)
    (member : address ∈ roster.accounts)
    (found : ledger.chain address = some account)
    (configured : account.confidential = some state)
    (small : amount < 2 ^ 64)
    (debits : DebitsAvailable crypto state against amount available)
    (newDecryptable : DecryptableBalance) :
    ∃ books, Balanced roster total
      (ledger.executed (.withdraw address amount against newDecryptable)
        (Function.update ledger.chain address <| some
          { account with
            amount := account.amount + amount
            confidential := some (state.debited available newDecryptable) }))
      books := by
  obtain ⟨enough, debited⟩ := (balanced.agrees member found configured).debit
    (balanced.available_lt fits member) small debits newDecryptable
  refine ⟨_, balanced.change_one
    { books address with
      available := (books address).available - amount }
    (fun x here => Function.update_of_ne here ..) (fun _ _ => rfl)
    ⟨_, _, Function.update_self .., rfl, ?_⟩ ?_⟩
  · exact debited.withAmount _ _
  · simp only [worth, TokenAccounts.publicAmount, Ledger.executed,
      Execution.received, Function.update_self, found, Option.elim_some]
    omega

/-- Whatever is executed keeps the books. -/
theorem Balanced.execute
    {execution : Execution} {chain : TokenAccounts}
    (balanced : Balanced roster total ledger books) (fits : total < 2 ^ 64)
    (within : ∀ address ∈ execution.addresses, address ∈ roster.accounts)
    (executes :
      Executes crypto roster.withheldKeys.pubkey ledger.chain execution
        chain) :
    ∃ books, Balanced roster total (ledger.executed execution chain) books := by
  cases executes with
  | deposit found configured _ funded small room adds =>
      exact balanced.deposit (within _ (by simp [Execution.addresses])) found
        configured funded small room adds
  | applyPendingBalance found configured _ applies =>
      exact balanced.applyPendingBalance
        (within _ (by simp [Execution.addresses])) found configured applies _ _
  | transfer different found configured _ otherFound otherConfigured _ _
      withheld room small feeSmall debits adds addsFee =>
      exact balanced.transfer fits (within _ (by simp [Execution.addresses]))
        (within _ (by simp [Execution.addresses])) different found configured
        otherFound otherConfigured withheld room small feeSmall debits adds
        addsFee _
  | transferToSelf found configured _ room small _ debits adds =>
      exact balanced.transferToSelf fits
        (within _ (by simp [Execution.addresses])) found configured room small
        debits adds _
  | withdraw found configured _ overflow debits =>
      exact balanced.withdraw fits (within _ (by simp [Execution.addresses]))
        found configured (by omega) debits _

end Step
end Remit
