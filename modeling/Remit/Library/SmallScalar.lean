import Mathlib.Data.ZMod.Basic
import Mathlib.Algebra.Field.ZMod

/-!
# Small integers in a large ring of residues

An additively homomorphic scheme computes on residues modulo a large order,
while its users mean integers.  As long as an integer stays far below the
order in absolute value, reading its residue as a number below a small bound
succeeds exactly when the integer itself lies between zero and that bound, and
then returns the integer.  Negative integers read as residues near the order.
-/

namespace SmallScalar

variable {order : ℕ}

/-- The residue of a negative integer that is small in absolute value lies
near the order. -/
theorem val_intCast_of_neg
    {z : ℤ} (negative : z < 0) (near : -(order : ℤ) ≤ z) :
    (((z : ZMod order)).val : ℤ) = z + order := by
  have positive : 0 < order := by omega
  have : NeZero order := ⟨positive.ne'⟩
  rw [ZMod.val_intCast, ← Int.add_emod_right]
  exact Int.emod_eq_of_lt (by omega) (by omega)

theorem val_intCast_of_nonneg
    {z : ℤ} (nonneg : 0 ≤ z) (small : z < order) :
    (((z : ZMod order)).val : ℤ) = z := by
  have positive : 0 < order := by omega
  have : NeZero order := ⟨positive.ne'⟩
  rw [ZMod.val_intCast]
  exact Int.emod_eq_of_lt nonneg small

/-- Reading a residue below `bound` succeeds exactly for the integers between
zero and `bound`. -/
theorem val_intCast_lt_iff
    {z : ℤ} {bound : ℕ}
    (above : -(order : ℤ) + bound ≤ z) (below : z < order) :
    ((z : ZMod order)).val < bound ↔ 0 ≤ z ∧ z < bound := by
  rcases lt_or_ge z 0 with negative | nonneg
  · have value :
        (((z : ZMod order)).val : ℤ) = z + order :=
      val_intCast_of_neg negative (by omega)
    constructor
    · intro small
      omega
    · rintro ⟨nonneg, _⟩
      omega
  · have value := val_intCast_of_nonneg nonneg below
    constructor
    · intro small
      exact ⟨nonneg, by omega⟩
    · rintro ⟨_, small⟩
      omega

end SmallScalar
