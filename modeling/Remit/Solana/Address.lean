import Mathlib.Data.Nat.Digits.Defs

/-!
# Addresses, keypairs and little-endian numbers

An address is a string of exactly 32 bytes; the length is part of the type, so
seeds and messages built from addresses have a known layout.
-/

namespace Remit

abbrev Bytes := List UInt8

/-- A 32-byte account address. -/
structure Address where
  bytes : Bytes
  length_eq : bytes.length = 32
deriving DecidableEq

namespace Address

/-- The address whose bytes are all `byte`. -/
def filled (byte : UInt8) : Address :=
  ⟨List.replicate 32 byte, List.length_replicate ..⟩

instance : Inhabited Address := ⟨filled 0⟩

theorem bytes_injective {left right : Address}
    (equal : left.bytes = right.bytes) : left = right := by
  cases left
  cases right
  simp only at equal
  subst equal
  rfl

private def base58Alphabet : List Char :=
  "123456789ABCDEFGHJKLMNPQRSTUVWXYZabcdefghijkmnopqrstuvwxyz".toList

/-- The base58 text by which messages name an address. -/
def display (address : Address) : String :=
  let number := Nat.ofDigits 256 (address.bytes.reverse.map UInt8.toNat)
  let leading := address.bytes.takeWhile (· = 0)
  String.ofList <|
    leading.map (fun _ => '1') ++
      ((Nat.digits 58 number).reverse.map fun digit =>
        base58Alphabet.getD digit '1')

end Address

/-- A signing key.  Only its public half matters to the model: holding the
keypair is what allows to sign for the address. -/
structure Keypair where
  pubkey : Address
deriving DecidableEq, Inhabited

/-- The `width` low bytes of a number, the lowest first. -/
def leBytes (width n : Nat) : Bytes :=
  match width with
  | 0 => []
  | width + 1 => UInt8.ofNat n :: leBytes width (n / 256)

@[simp]
theorem length_leBytes (width n : Nat) :
    (leBytes width n).length = width := by
  induction width generalizing n with
  | zero => rfl
  | succ width inductionHypothesis =>
      simp [leBytes, inductionHypothesis]

/-- Numbers that fit the width are determined by their little-endian bytes. -/
theorem leBytes_injective
    {width left right : Nat}
    (leftFits : left < 256 ^ width) (rightFits : right < 256 ^ width)
    (equal : leBytes width left = leBytes width right) :
    left = right := by
  induction width generalizing left right with
  | zero =>
      simp only [Nat.pow_zero] at leftFits rightFits
      omega
  | succ width inductionHypothesis =>
      simp only [leBytes, List.cons.injEq] at equal
      obtain ⟨lowEqual, highEqual⟩ := equal
      have highs : left / 256 = right / 256 := by
        apply inductionHypothesis _ _ highEqual
        · rw [Nat.div_lt_iff_lt_mul (by decide), ← Nat.pow_succ]
          exact leftFits
        · rw [Nat.div_lt_iff_lt_mul (by decide), ← Nat.pow_succ]
          exact rightFits
      have lows : left % 256 = right % 256 := by
        have values := congrArg UInt8.toNat lowEqual
        simpa using values
      omega

/-- The number that little-endian bytes stand for. -/
def leValue : Bytes → Nat
  | [] => 0
  | byte :: rest => byte.toNat + 256 * leValue rest

theorem leValue_leBytes
    {width n : Nat} (fits : n < 256 ^ width) :
    leValue (leBytes width n) = n := by
  induction width generalizing n with
  | zero =>
      simp only [Nat.pow_zero] at fits
      simp only [leBytes, leValue]
      omega
  | succ width inductionHypothesis =>
      have high : n / 256 < 256 ^ width := by
        rw [Nat.div_lt_iff_lt_mul (by decide), ← Nat.pow_succ]
        exact fits
      simp only [leBytes, leValue, inductionHypothesis high,
        UInt8.toNat_ofNat']
      omega

theorem leValue_lt (bytes : Bytes) : leValue bytes < 256 ^ bytes.length := by
  induction bytes with
  | nil => decide
  | cons byte rest inductionHypothesis =>
      have low : byte.toNat < 256 := byte.toNat_lt
      rw [leValue, List.length_cons, Nat.pow_succ]
      omega

/-- Every string of bytes is what it stands for, written out again. -/
theorem leBytes_leValue (bytes : Bytes) :
    leBytes bytes.length (leValue bytes) = bytes := by
  induction bytes with
  | nil => rfl
  | cons byte rest inductionHypothesis =>
      have low : byte.toNat < 256 := byte.toNat_lt
      have first :
          UInt8.ofNat (byte.toNat + 256 * leValue rest) = byte := by
        apply UInt8.toNat_inj.mp
        rw [UInt8.toNat_ofNat']
        omega
      have others :
          (byte.toNat + 256 * leValue rest) / 256 = leValue rest := by
        omega
      rw [List.length_cons, leBytes, leValue, first, others,
        inductionHypothesis]

end Remit
