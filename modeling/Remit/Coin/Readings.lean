import Remit.Coin.Calls

/-!
# What can be read of the accounts

The readers of pending balances and of confidentially withheld fees tell what is
in the purses, or nothing.  So what they tell of any accounts never adds up to
more than the supply.
-/

namespace Remit

set_option maxRecDepth 2000

open Flows Flow Purses

section Reading

variable {crypto : Crypto} {withheldKey : PodElGamalPubkey}
  {account : AccountSnapshot} {held : Compartment → Nat}

/-- What small decryption finds is the residue that is encrypted. -/
theorem plaintext_of_decryptU32
    {secret : crypto.Secret} {pod : PodElGamalCiphertext} {read : Nat}
    (decrypted : decryptU32 crypto secret pod = .ok read) :
    read < 2 ^ 32 ∧ crypto.plaintext secret pod = read := by
  obtain ⟨ciphertext, parsed, decrypted⟩ := except_bind_eq_ok decrypted
  unfold elgamalCiphertext at parsed
  split at parsed
  case isFalse => cases parsed
  case isTrue valid =>
      cases parsed
      have large := crypto.order_large
      have positive : NeZero crypto.order := ⟨by omega⟩
      rw [crypto.decryptU32_eq secret pod valid] at decrypted
      split at decrypted
      case h_2 => cases decrypted
      case h_1 amount found =>
          obtain ⟨small, same⟩ := Option.ite_none_right_eq_some.mp found
          cases same
          cases decrypted
          exact ⟨small, (ZMod.natCast_zmod_val _).symm⟩

/-- The pending balance that the owner reads is pending. -/
theorem Shows.reads_pending
    {keys : ConfidentialKeys crypto} {read : Nat}
    (shows : Shows crypto withheldKey account held)
    (small : held .pending < 2 ^ 64)
    (opens : ∀ state, account.confidential = some state → keys.Opens state)
    (known : pendingBalance account keys = .ok read) :
    read = held .pending := by
  obtain ⟨state, required, known⟩ := except_bind_eq_ok known
  have configured := AccountSnapshot.requireConfidential_eq_ok required
  obtain ⟨low, high, lowRead, highRead, rfl⟩ := decryptLoHi_eq_ok known
  obtain ⟨lowSmall, lowShown⟩ := plaintext_of_decryptU32 lowRead
  obtain ⟨highSmall, highShown⟩ := plaintext_of_decryptU32 highRead
  have shown := shows.pending state configured
  rw [← opens state configured, lowShown, highShown] at shown
  have same : ((high * 2 ^ 16 + low : Nat) : ZMod crypto.order) =
      held .pending := by
    rw [← shown]
    push_cast
    ring
  exact natCast_inj (by omega) (by omega) same

/-- The fees that the issuer reads are withheld. -/
theorem Shows.reads_hidden
    {issuer : ElGamalKeypair crypto.Secret} {read : Nat}
    (shows : Shows crypto withheldKey account held)
    (small : held .hidden < 2 ^ 64)
    (opens : issuer.secret = crypto.secretOf withheldKey)
    (known : withheldConfidentialFee account issuer = .ok read) :
    read = held .hidden := by
  unfold withheldConfidentialFee at known
  split at known
  case h_1 => cases known
  case h_2 withheld present =>
      obtain ⟨readSmall, readShown⟩ := plaintext_of_decryptU32 known
      have shown := shows.hidden withheld present
      rw [← opens, readShown] at shown
      exact natCast_inj (by omega) (by omega) shown

/-- What can be read of an account: what is public, and what its owner and the
issuer can decrypt.  A reader that fails tells nothing. -/
def readable (account : AccountSnapshot) (keys : ConfidentialKeys crypto)
    (issuer : ElGamalKeypair crypto.Secret) : Nat :=
  account.amount + account.withheldFee.getD 0 +
    (pendingBalance account keys).toOption.getD 0 +
      (withheldConfidentialFee account issuer).toOption.getD 0

theorem toOption_getD_le
    {outcome : Except Error Nat} {bound : Nat}
    (known : ∀ read, outcome = .ok read → read = bound) :
    outcome.toOption.getD 0 ≤ bound := by
  cases outcome with
  | error error => exact Nat.zero_le _
  | ok read => exact Nat.le_of_eq (known read rfl)

/-- No more can be read of an account than is in its purses. -/
theorem Shows.readable_le
    {keys : ConfidentialKeys crypto} {issuer : ElGamalKeypair crypto.Secret}
    (shows : Shows crypto withheldKey account held)
    (small : ∀ compartment, held compartment < 2 ^ 64)
    (opens : ∀ state, account.confidential = some state → keys.Opens state)
    (issues : issuer.secret = crypto.secretOf withheldKey) :
    readable account keys issuer ≤
      held .spendable + held .fees + held .pending + held .hidden := by
  have spendable := shows.spendable
  have fees := shows.fees
  have pending :
      (pendingBalance account keys).toOption.getD 0 ≤ held .pending :=
    toOption_getD_le fun _ known =>
      shows.reads_pending (small .pending) opens known
  have hidden :
      (withheldConfidentialFee account issuer).toOption.getD 0 ≤
        held .hidden :=
    toOption_getD_le fun _ known =>
      shows.reads_hidden (small .hidden) issues known
  unfold readable
  omega

end Reading

section Adding

variable {crypto : Crypto} {coin : Coin} {purses : Purse →₀ Nat}
  {chain : TokenChain}

/-- The purses of an account that readers look into. -/
def readCompartments : Finset Compartment :=
  {.spendable, .fees, .pending, .hidden}

/-- What is read of different accounts and of the mint are parts of the supply,
and different ones. -/
theorem Backed.sum_readable_le
    (backed : Backed crypto coin purses chain)
    {issuer : ElGamalKeypair crypto.Secret}
    (issues : issuer.secret = crypto.secretOf coin.withheldKey)
    (holders : Finset Address) (account : Address → AccountSnapshot)
    (keys : Address → ConfidentialKeys crypto)
    (found : ∀ address ∈ holders,
      chain.accountOf coin.mint address = some (account address))
    (opens : ∀ address ∈ holders, ∀ state,
      (account address).confidential = some state →
        (keys address).Opens state) :
    ∑ address ∈ holders, readable (account address) (keys address) issuer +
        (chain.mintWithheld coin.mint).getD 0 ≤
      chain.supply coin.mint := by
  have parts : ∀ address ∈ holders,
      readable (account address) (keys address) issuer ≤
        ∑ compartment ∈ readCompartments, held purses address compartment := by
    intro address member
    have known := (backed.shows address _ (found address member)).readable_le
      (backed.held_lt address) (opens address member) issues
    refine known.trans (Nat.le_of_eq ?_)
    simp [readCompartments, Nat.add_assoc]
  let purse : Address × Compartment ↪ Purse :=
    ⟨fun part => .account part.1 part.2, fun _ _ same =>
      Prod.ext (Purse.account.inj same).1 (Purse.account.inj same).2⟩
  let looked : Finset Purse := (holders ×ˢ readCompartments).map purse
  have outside : Purse.pool ∉ looked := by
    intro member
    obtain ⟨part, _, same⟩ := Finset.mem_map.mp member
    cases same
  have whole := sum_le_total purses (insert .pool looked)
  rw [Finset.sum_insert outside, Finset.sum_map, Finset.sum_product,
    backed.supply, backed.pool] at whole
  have sums := Finset.sum_le_sum parts
  exact (Nat.add_comm ..).trans_le
    ((Nat.add_le_add_left sums _).trans whole)

end Adding
/-- From the day before the coin exists, whatever calls are made and whatever
others do: what can be read of different accounts around a transaction and what
the mint withholds never add up to more than the supply. -/
theorem readings_never_exceed_the_supply
    (C : Cluster) (crypto : Crypto) (coin : Coin)
    (contract : CoinContract C crypto coin fun _ => True)
    (state : C.State) (unborn : Unborn coin (C.tokenChain state))
    (issuer : ElGamalKeypair crypto.Secret)
    (issues : issuer.secret = crypto.secretOf coin.withheldKey)
    (calls : List (LibraryCall crypto)) (drawn : Nat) :
    ∀ one ∈ (LibraryCall.runAll (World.initial state drawn : World C)
        calls).sent,
      HoldsAround C (fun chain =>
        ∀ (holders : Finset Address) (account : Address → AccountSnapshot)
          (keys : Address → ConfidentialKeys crypto),
          (∀ address ∈ holders,
            chain.accountOf coin.mint address = some (account address)) →
          (∀ address ∈ holders, ∀ state,
            (account address).confidential = some state →
              (keys address).Opens state) →
          ∑ address ∈ holders,
              readable (account address) (keys address) issuer +
              (chain.mintWithheld coin.mint).getD 0 ≤
            chain.supply coin.mint) one := by
  intro one member
  have around :=
    (LibraryCall.isBacked_runAll contract unborn.isBacked calls drawn).1 one
      member
  obtain ⟨_, before⟩ := around.before
  obtain ⟨_, after⟩ := around.after
  obtain ⟨_, next⟩ := around.next
  exact
    { before := before.sum_readable_le issues
      after := after.sum_readable_le issues
      next := next.sum_readable_le issues }

/-- A close that fails for want of the authority, and an issue, which can be
read of the holder. -/
theorem an_issue_can_be_read :
    let calls : List (LibraryCall Transparent.crypto) :=
      [.closeMint Busy.stablecoin Busy.freezeAuthority Coining.treasury,
        .mintTo Busy.stablecoin Coining.holder Coining.mintAuthority 100]
    let sent := (LibraryCall.runAll
      (World.initial .unborn 0 : World Coining.cluster) calls).sent
    let issuer : ElGamalKeypair Transparent.crypto.Secret := ⟨⟨0⟩, ()⟩
    sent.map (fun one => (one.landed,
        ((Coining.cluster.tokenChain one.delivery.after).accountOf
          Busy.stablecoin Coining.holder).map
            (readable · Quiet.ownerKeys issuer))) =
        [(false, some 0), (true, some 100)] ∧
      ∀ one ∈ sent, HoldsAround Coining.cluster (fun chain =>
        ∀ (holders : Finset Address) (account : Address → AccountSnapshot)
          (keys : Address → ConfidentialKeys Transparent.crypto),
          (∀ address ∈ holders,
            chain.accountOf Busy.stablecoin address =
              some (account address)) →
          (∀ address ∈ holders, ∀ state,
            (account address).confidential = some state →
              (keys address).Opens state) →
          ∑ address ∈ holders,
              readable (account address) (keys address) issuer +
              (chain.mintWithheld Busy.stablecoin).getD 0 ≤
            chain.supply Busy.stablecoin) one := by
  refine ⟨by decide, ?_⟩
  exact readings_never_exceed_the_supply Coining.cluster Transparent.crypto
    Coining.token (Coining.contract trivial) .unborn ⟨rfl, fun _ => rfl⟩
    ⟨⟨0⟩, ()⟩ rfl _ 0

end Remit
