import Remit.Coin.Public

/-!
# Hidden money

What each confidential instruction moves, whatever its ciphertexts are.  A
debit never takes more than there is, since what remains is proven to fit 64
bits and no purse of a backed coin is larger.
-/

namespace Remit

open Purses

variable {crypto : Crypto} {coin : Coin} {signers : List Address}
  {chain : TokenChain} {purses : Purse →₀ Nat}

section Showing

variable {withheldKey : PodElGamalPubkey} {account changed : AccountSnapshot}
  {state changedState : ConfidentialTransferAccount}
  {before later : Compartment → Nat}

/-- An account of which the amount and the confidential balances have
changed. -/
theorem Shows.hiding
    (shows : Shows crypto withheldKey account before)
    (configured : changed.confidential = some changedState)
    (withheldFee : changed.withheldFee = account.withheldFee)
    (confidentialWithheld :
      changed.confidentialWithheld = account.confidentialWithheld)
    (spendable : later .spendable = changed.amount)
    (fees : later .fees = before .fees)
    (pending :
      crypto.plaintext (crypto.secretOf changedState.elgamalPubkey)
          changedState.pendingBalanceLo +
        2 ^ 16 * crypto.plaintext (crypto.secretOf changedState.elgamalPubkey)
          changedState.pendingBalanceHi = later .pending)
    (cleared : later .pending = 0 →
      crypto.plaintext (crypto.secretOf changedState.elgamalPubkey)
          changedState.pendingBalanceLo = 0 ∧
        crypto.plaintext (crypto.secretOf changedState.elgamalPubkey)
          changedState.pendingBalanceHi = 0)
    (available :
      crypto.plaintext (crypto.secretOf changedState.elgamalPubkey)
        changedState.availableBalance = later .available)
    (hidden : later .hidden = before .hidden) :
    Shows crypto withheldKey changed later where
  spendable := spendable
  fees := by rw [fees, shows.fees, withheldFee]
  unconfigured absent := by
    rw [configured] at absent
    cases absent
  pending other found := by
    rw [configured] at found
    cases found
    exact pending
  cleared other found nothing := by
    rw [configured] at found
    cases found
    exact cleared nothing
  available other found := by
    rw [configured] at found
    cases found
    exact available
  unwithheld absent := by
    rw [hidden]
    exact shows.unwithheld (confidentialWithheld ▸ absent)
  hidden withheld present := by
    rw [hidden]
    exact shows.hidden withheld (confidentialWithheld ▸ present)

/-- An amount in two halves, of which the lower may be short of what was taken
from it as a fee. -/
structure Halves (low high : Int) (added : Nat) : Prop where
  sum : low + 2 ^ 16 * high = added
  low : -2 ^ 16 < low
  high : 0 ≤ high

theorem halves_parts (amount : Nat) :
    Halves (lowPart amount) (highPart amount) amount := by
  have sum := lowPart_add_highPart amount
  have low : 0 ≤ lowPart amount := Int.natCast_nonneg _
  have high : 0 ≤ highPart amount := Int.natCast_nonneg _
  constructor <;> omega

/-- The halves of what is left of an amount after its fee. -/
theorem halves_net {amount fee : Nat} (small : fee ≤ amount) :
    Halves (lowPart amount - lowPart fee) (highPart amount - highPart fee)
      (amount - fee) := by
  unfold lowPart highPart
  constructor <;> omega

/-- Adding both halves of an amount adds the amount. -/
theorem AddsPending.sum
    {low high : Int} {added : Nat} {lo hi : PodElGamalCiphertext} {value : Nat}
    (adds : AddsPending crypto state low high lo hi)
    (halves : Halves low high added)
    (shown :
      crypto.plaintext (crypto.secretOf state.elgamalPubkey)
          state.pendingBalanceLo +
        2 ^ 16 * crypto.plaintext (crypto.secretOf state.elgamalPubkey)
          state.pendingBalanceHi = value) :
    crypto.plaintext (crypto.secretOf state.elgamalPubkey) lo +
        2 ^ 16 * crypto.plaintext (crypto.secretOf state.elgamalPubkey) hi =
      ((value + added : Nat) : ZMod crypto.order) := by
  have whole := congrArg (Int.cast (R := ZMod crypto.order)) halves.sum
  push_cast at whole
  rw [adds.1.2, adds.2.2, Nat.cast_add, ← shown, ← whole]
  ring

/-- Where nothing is pending after an amount was added, nothing was pending
before and nothing was added, to either half. -/
theorem AddsPending.cleared
    {low high : Int} {added : Nat} {lo hi : PodElGamalCiphertext} {value : Nat}
    (adds : AddsPending crypto state low high lo hi)
    (halves : Halves low high added)
    (cleared : value = 0 →
      crypto.plaintext (crypto.secretOf state.elgamalPubkey)
          state.pendingBalanceLo = 0 ∧
        crypto.plaintext (crypto.secretOf state.elgamalPubkey)
          state.pendingBalanceHi = 0)
    (nothing : value + added = 0) :
    crypto.plaintext (crypto.secretOf state.elgamalPubkey) lo = 0 ∧
      crypto.plaintext (crypto.secretOf state.elgamalPubkey) hi = 0 := by
  obtain ⟨lowWas, highWas⟩ := cleared (by omega)
  have lowZero : low = 0 := by
    have bounds := halves.low
    have sum := halves.sum
    have sign := halves.high
    omega
  have highZero : high = 0 := by
    have sum := halves.sum
    omega
  rw [adds.1.2, adds.2.2, lowWas, highWas, lowZero, highZero]
  simp

end Showing

variable {address : Address} {account : AccountSnapshot}
  {state : ConfidentialTransferAccount}

theorem settles_deposit
    {amount : Nat} {lo hi : PodElGamalCiphertext}
    (backed : Backed crypto coin purses chain)
    (here : chain.accountOf coin.mint address = some account)
    (configured : account.confidential = some state)
    (unfrozen : account.isFrozen = false) (signed : account.owner ∈ signers)
    (enough : amount ≤ account.amount)
    (adds : AddsPending crypto state (lowPart amount) (highPart amount)
      lo hi) :
    Settles coin signers chain crypto purses
      (chain.setAccount address (some
        { account with
          amount := account.amount - amount
          confidential := some (state.credited lo hi) })) := by
  have ofMint := (TokenChain.accountOf_eq_some.mp here).2
  have shows := backed.shows address account here
  have inPurse : amount ≤ purses (.account address .spendable) :=
    Nat.le_trans enough (Nat.le_of_eq shows.spendable.symm)
  refine .of_shifts
    [.shift (.account address .spendable) (.account address .pending) amount]
    backed ?_ (runAll_singleton.trans (run_shift inPurse))
    (backed.toReflects.setAccount (fun other away => ?_) ?_ ofMint ?_)
    ⟨rfl, rfl⟩ rfl
  · intro move member
    obtain rfl := List.mem_singleton.mp member
    exact .hide _ ⟨account, here, unfrozen⟩ ⟨account, here, signed⟩
  · rw [held_put_of_ne away, held_take_of_ne away]
  · rw [put_account_pool, take_account_pool, backed.pool]
  · rw [held_put, held_take]
    refine shows.hiding rfl rfl rfl (by simp [shows.spendable]) (by simp) ?_ ?_
      ?_ (by simp)
    · have sum := adds.sum (halves_parts amount)
        (shows.pending state configured)
      refine Eq.trans sum ?_
      simp
    · intro nothing
      exact adds.cleared (halves_parts amount) (shows.cleared state configured)
        (by simpa using nothing)
    · refine Eq.trans (shows.available state configured) ?_
      simp

theorem settles_apply
    {available lo hi : PodElGamalCiphertext} {credits : Nat}
    {newDecryptable : DecryptableBalance}
    (backed : Backed crypto coin purses chain)
    (here : chain.accountOf coin.mint address = some account)
    (configured : account.confidential = some state)
    (unfrozen : account.isFrozen = false) (signed : account.owner ∈ signers)
    (applies : AppliesPending crypto state available lo hi) :
    Settles coin signers chain crypto purses
      (chain.setAccount address (some (account.withConfidential
        (state.applied available lo hi credits newDecryptable)))) := by
  have ofMint := (TokenChain.accountOf_eq_some.mp here).2
  have shows := backed.shows address account here
  obtain ⟨_, folded, lowZero, highZero⟩ := applies
  refine .of_shifts
    [.shift (.account address .pending) (.account address .available)
      (purses (.account address .pending))]
    backed ?_ (runAll_singleton.trans (run_shift (Nat.le_refl _)))
    (backed.toReflects.setAccount (fun other away => ?_) ?_ ofMint ?_)
    ⟨rfl, rfl⟩ rfl
  · intro move member
    obtain rfl := List.mem_singleton.mp member
    exact .apply _ ⟨account, here, unfrozen⟩ ⟨account, here, signed⟩
  · rw [held_put_of_ne away, held_take_of_ne away]
  · rw [put_account_pool, take_account_pool, backed.pool]
  · rw [held_put, held_take]
    have amount : purses (.account address .pending) =
        held purses address .pending := rfl
    have emptied : crypto.plaintext (crypto.secretOf state.elgamalPubkey) lo +
        2 ^ 16 * crypto.plaintext (crypto.secretOf state.elgamalPubkey) hi =
          0 := by
      rw [lowZero.2, highZero.2]
      simp
    rw [amount]
    refine shows.hiding rfl rfl rfl (by simp [shows.spendable]; rfl) (by simp)
      ?_ ?_ ?_ (by simp)
    · refine Eq.trans emptied ?_
      simp
    · exact fun _ => ⟨lowZero.2.trans Int.cast_zero,
        highZero.2.trans Int.cast_zero⟩
    · refine Eq.trans folded ?_
      rw [shows.available state configured, add_assoc,
        shows.pending state configured]
      simp

/-- What a withdrawal debits becomes spendable. -/
theorem settles_withdraw
    {amount : Nat} {against available : PodElGamalCiphertext}
    {newDecryptable : DecryptableBalance}
    (backed : Backed crypto coin purses chain)
    (here : chain.accountOf coin.mint address = some account)
    (configured : account.confidential = some state)
    (unfrozen : account.isFrozen = false) (signed : account.owner ∈ signers)
    (fits : account.amount + amount < 2 ^ 64)
    (debits : DebitsAvailable crypto state against amount available) :
    Settles coin signers chain crypto purses
      (chain.setAccount address (some
        { account with
          amount := account.amount + amount
          confidential :=
            some (state.debited available newDecryptable) })) := by
  have ofMint := (TokenChain.accountOf_eq_some.mp here).2
  have shows := backed.shows address account here
  obtain ⟨enough, left⟩ := debits.le (by omega)
    (backed.held_lt address .available) (shows.available state configured)
  refine .of_shifts
    [.shift (.account address .available) (.account address .spendable) amount]
    backed ?_ (runAll_singleton.trans (run_shift enough))
    (backed.toReflects.setAccount (fun other away => ?_) ?_ ofMint ?_)
    ⟨rfl, rfl⟩ rfl
  · intro move member
    obtain rfl := List.mem_singleton.mp member
    exact .reveal _ ⟨account, here, unfrozen⟩ ⟨account, here, signed⟩
  · rw [held_put_of_ne away, held_take_of_ne away]
  · rw [put_account_pool, take_account_pool, backed.pool]
  · rw [held_put, held_take]
    refine shows.hiding rfl rfl rfl (by simp [shows.spendable]) (by simp) ?_ ?_
      ?_ (by simp)
    · refine Eq.trans (shows.pending state configured) ?_
      simp
    · intro nothing
      exact shows.cleared state configured (by simpa using nothing)
    · refine Eq.trans left ?_
      simp

/-- What a transfer to the source itself debits is pending there. -/
theorem settles_transferToSelf
    {statement : TransferStatement} {available lo hi : PodElGamalCiphertext}
    {newDecryptable : DecryptableBalance}
    (backed : Backed crypto coin purses chain)
    (here : chain.accountOf coin.mint address = some account)
    (configured : account.confidential = some state)
    (unfrozen : account.isFrozen = false) (signed : account.owner ∈ signers)
    (small : statement.amount < 2 ^ 48)
    (debits : DebitsAvailable crypto state statement.against statement.amount
      available)
    (adds : AddsPending crypto state (lowPart statement.amount)
      (highPart statement.amount) lo hi) :
    Settles coin signers chain crypto purses
      (chain.setAccount address (some (account.withConfidential
        ((state.debited available newDecryptable).credited lo hi)))) := by
  have ofMint := (TokenChain.accountOf_eq_some.mp here).2
  have shows := backed.shows address account here
  obtain ⟨enough, left⟩ := debits.le (by omega)
    (backed.held_lt address .available) (shows.available state configured)
  refine .of_shifts
    [.shift (.account address .available) (.account address .pending)
      statement.amount]
    backed ?_ (runAll_singleton.trans (run_shift enough))
    (backed.toReflects.setAccount (fun other away => ?_) ?_ ofMint ?_)
    ⟨rfl, rfl⟩ rfl
  · intro move member
    obtain rfl := List.mem_singleton.mp member
    exact .send _ ⟨account, here, unfrozen⟩ ⟨account, here, unfrozen⟩
      ⟨account, here, signed⟩
  · rw [held_put_of_ne away, held_take_of_ne away]
  · rw [put_account_pool, take_account_pool, backed.pool]
  · rw [held_put, held_take]
    refine shows.hiding rfl rfl rfl (by simp [shows.spendable]; rfl) (by simp)
      ?_ ?_ ?_ (by simp)
    · have sum := adds.sum (halves_parts statement.amount)
        (shows.pending state configured)
      refine Eq.trans sum ?_
      simp
    · intro nothing
      exact adds.cleared (halves_parts statement.amount)
        (shows.cleared state configured) (by simpa using nothing)
    · refine Eq.trans left ?_
      simp

/-- What a transfer debits is pending at the destination, but for the fee,
which is withheld there. -/
theorem settles_transfer
    {source destination : Address} {payer payee : AccountSnapshot}
    {paying paid : ConfidentialTransferAccount}
    {withheld : ConfidentialTransferFeeAmount} {statement : TransferStatement}
    {available lo hi fees : PodElGamalCiphertext}
    {newDecryptable : DecryptableBalance}
    (backed : Backed crypto coin purses chain)
    (different : source ≠ destination)
    (here : chain.accountOf coin.mint source = some payer)
    (configured : payer.confidential = some paying)
    (unfrozen : payer.isFrozen = false) (signed : payer.owner ∈ signers)
    (there : chain.accountOf coin.mint destination = some payee)
    (payeeConfigured : payee.confidential = some paid)
    (payeeUnfrozen : payee.isFrozen = false)
    (present : payee.confidentialWithheld = some withheld)
    (small : statement.amount < 2 ^ 48)
    (feeSmall : statement.fee ≤ statement.amount)
    (debits : DebitsAvailable crypto paying statement.against statement.amount
      available)
    (adds : AddsPending crypto paid
      (lowPart statement.amount - lowPart statement.fee)
      (highPart statement.amount - highPart statement.fee) lo hi)
    (withholds : crypto.Adds (crypto.secretOf coin.withheldKey)
      withheld.withheldAmount statement.fee fees) :
    Settles coin signers chain crypto purses
      ((chain.setAccount source (some (payer.withConfidential
        (paying.debited available newDecryptable)))).setAccount destination
          (some
            { payee with
              confidential := some (paid.credited lo hi)
              confidentialWithheld := some ⟨fees⟩ })) := by
  have ofMint := (TokenChain.accountOf_eq_some.mp here).2
  have payeeOfMint := (TokenChain.accountOf_eq_some.mp there).2
  have shows := backed.shows source payer here
  have payeeShows := backed.shows destination payee there
  obtain ⟨enough, left⟩ := debits.le (by omega)
    (backed.held_lt source .available) (shows.available paying configured)
  have inPurse : statement.amount - statement.fee + statement.fee ≤
      purses (.account source .available) := by
    unfold held at enough
    omega
  have apart : Purse.account source .available ≠
      .account destination .pending := by simp
  have permitted : Thawed coin chain source ∧ Thawed coin chain destination ∧
      OwnerSigns coin signers chain source :=
    ⟨⟨payer, here, unfrozen⟩, ⟨payee, there, payeeUnfrozen⟩,
      payer, here, signed⟩
  refine .of_shifts
    [.shift (.account source .available) (.account destination .pending)
        (statement.amount - statement.fee),
      .shift (.account source .available) (.account destination .hidden)
        statement.fee]
    backed ?_ (runAll_split apart inPurse)
    (backed.toReflects.setAccounts different (fun other away apart => ?_) ?_
      ofMint payeeOfMint ?_ ?_)
    ⟨rfl, rfl⟩ rfl
  · intro move member
    rcases List.mem_cons.mp member with rfl | last
    · exact .send _ permitted.1 permitted.2.1 permitted.2.2
    · obtain rfl := List.mem_singleton.mp last
      exact .withhold _ permitted.1 permitted.2.1 permitted.2.2
  · rw [held_put_of_ne apart, held_take_of_ne away, held_put_of_ne apart,
      held_take_of_ne away]
  · simp
  · rw [held_put_of_ne different, held_take, held_put_of_ne different,
      held_take]
    refine shows.hiding rfl rfl rfl (by simp [shows.spendable]; rfl) (by simp)
      ?_ ?_ ?_ (by simp)
    · refine Eq.trans (shows.pending paying configured) ?_
      simp
    · intro nothing
      exact shows.cleared paying configured (by simpa using nothing)
    · refine Eq.trans left ?_
      have rest : held purses source .available - statement.amount =
          held purses source .available - (statement.amount - statement.fee) -
            statement.fee := by omega
      rw [rest]
      simp
  · rw [held_put, held_take_of_ne different.symm, held_put,
      held_take_of_ne different.symm]
    have sum := adds.sum (halves_net feeSmall)
      (payeeShows.pending paid payeeConfigured)
    exact
      { spendable := by simp [payeeShows.spendable]
        fees := by simp [payeeShows.fees]
        unconfigured := by simp
        pending := fun other found => by
          cases found
          refine Eq.trans sum ?_
          simp
        cleared := fun other found nothing => by
          cases found
          exact adds.cleared (halves_net feeSmall)
            (payeeShows.cleared paid payeeConfigured) (by simpa using nothing)
        available := fun other found => by
          cases found
          refine Eq.trans (payeeShows.available paid payeeConfigured) ?_
          simp
        unwithheld := by simp
        hidden := fun other found => by
          cases found
          refine Eq.trans withholds.2 ?_
          rw [payeeShows.hidden withheld present]
          simp }

/-- What an owner has asked for with a confidential instruction. -/
theorem settles_execution
    {execution : Execution} {accounts : TokenAccounts}
    (backed : Backed crypto coin purses chain)
    (found : chain.accounts execution.payer = some account)
    (ofMint : account.mint = coin.mint) (unfrozen : account.isFrozen = false)
    (signed : account.owner ∈ signers)
    (executes :
      Executes crypto coin.withheldKey chain.accounts execution accounts) :
    Settles coin signers chain crypto purses { chain with accounts } := by
  have here : chain.accountOf coin.mint execution.payer = some account :=
    TokenChain.accountOf_eq_some.mpr ⟨found, ofMint⟩
  cases executes with
  | deposit other configured _ enough _ _ adds =>
      obtain rfl := Option.some.inj (found.symm.trans other)
      exact settles_deposit backed here configured unfrozen signed enough adds
  | applyPendingBalance other configured _ applies =>
      obtain rfl := Option.some.inj (found.symm.trans other)
      exact settles_apply backed here configured unfrozen signed applies
  | transfer different other configured _ otherFound otherConfigured
      otherUnfrozen sameMint present _ small feeSmall debits adds withholds =>
      obtain rfl := Option.some.inj (found.symm.trans other)
      exact settles_transfer backed different here configured unfrozen signed
        (TokenChain.accountOf_eq_some.mpr
          ⟨otherFound, sameMint.trans ofMint⟩)
        otherConfigured otherUnfrozen present small feeSmall debits adds
        withholds
  | transferToSelf other configured _ _ small _ debits adds =>
      obtain rfl := Option.some.inj (found.symm.trans other)
      exact settles_transferToSelf backed here configured unfrozen signed small
        debits adds
  | withdraw other configured _ fits debits =>
      obtain rfl := Option.some.inj (found.symm.trans other)
      exact settles_withdraw backed here configured unfrozen signed fits debits

end Remit
