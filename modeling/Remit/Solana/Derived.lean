import Remit.Solana.Address

/-!
# Program-derived addresses

A program signs for the addresses that are derived from its own address and
some seeds.  The seeds are concatenated without separators and hashed; hashes
on the curve, which could have a private key, are no derived addresses.  The
hash is a parameter.
-/

namespace Remit

/-- The hash of a byte string as an address, unless it is on the curve. -/
abbrev AddressHash := Bytes → Option Address

def MAX_SEEDS : Nat := 16

def MAX_SEED_LEN : Nat := 32

def PDA_MARKER : Bytes :=
  "ProgramDerivedAddress".toUTF8.toList

section Derivation

variable (hash : AddressHash)

/-- The address that seeds derive for a program, if there is one. -/
def createProgramAddress (seeds : List Bytes) (programId : Address) :
    Option Address :=
  if seeds.length ≤ MAX_SEEDS ∧ ∀ seed ∈ seeds, seed.length ≤ MAX_SEED_LEN then
    hash (seeds.flatten ++ programId.bytes ++ PDA_MARKER)
  else none

/-- Try the bump seeds from `bump` down to one. -/
def tryBumps (seeds : List Bytes) (programId : Address) :
    Nat → Option (Address × UInt8)
  | 0 => none
  | bump + 1 =>
      match createProgramAddress hash
          (seeds ++ [[UInt8.ofNat (bump + 1)]]) programId with
      | some address => some (address, UInt8.ofNat (bump + 1))
      | none => tryBumps seeds programId bump

/-- The address of the largest bump seed that derives one. -/
def findProgramAddress (seeds : List Bytes) (programId : Address) :
    Option (Address × UInt8) :=
  tryBumps hash seeds programId 255

/-- No two byte strings have the same hash. -/
def CollisionFree : Prop :=
  ∀ left right address,
    hash left = some address → hash right = some address → left = right

/-- A program can sign for the address. -/
def Derives (programId address : Address) : Prop :=
  ∃ seeds, createProgramAddress hash seeds programId = some address

end Derivation

variable {hash : AddressHash} {seeds other : List Bytes}
  {programId address : Address}

theorem createProgramAddress_eq_some
    (created : createProgramAddress hash seeds programId = some address) :
    hash (seeds.flatten ++ programId.bytes ++ PDA_MARKER) = some address := by
  unfold createProgramAddress at created
  split at created
  case isTrue => exact created
  case isFalse => cases created

/-- The same address is derived from the same bytes only. -/
theorem flatten_eq_of_createProgramAddress
    (collisionFree : CollisionFree hash)
    (first : createProgramAddress hash seeds programId = some address)
    (second : createProgramAddress hash other programId = some address) :
    seeds.flatten = other.flatten := by
  have same := collisionFree _ _ _ (createProgramAddress_eq_some first)
    (createProgramAddress_eq_some second)
  have withoutMarker := List.append_cancel_right same
  exact List.append_cancel_right withoutMarker

/-- An address that is found is derived with the bump seed. -/
theorem tryBumps_eq_some
    {bump : UInt8} {limit : Nat}
    (found : tryBumps hash seeds programId limit = some (address, bump)) :
    createProgramAddress hash (seeds ++ [[bump]]) programId =
      some address := by
  induction limit with
  | zero => cases found
  | succ limit inductionHypothesis =>
      unfold tryBumps at found
      split at found
      case h_1 created =>
          cases found
          exact created
      case h_2 => exact inductionHypothesis found

theorem findProgramAddress_eq_some
    {bump : UInt8}
    (found : findProgramAddress hash seeds programId = some (address, bump)) :
    createProgramAddress hash (seeds ++ [[bump]]) programId =
      some address :=
  tryBumps_eq_some found

end Remit
