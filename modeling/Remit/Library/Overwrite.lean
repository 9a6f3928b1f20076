import Mathlib.Data.List.Basic

/-!
# Filling a buffer piece by piece

A buffer is filled from left to right by writes that each replace a segment.
`Tiles` says that a list of pieces covers the data from a position to its end
without gap or overlap, and `Filled` measures how far a buffer agrees with the
data.  Writing the next piece moves the measure by the length of that piece.
-/

namespace Overwrite

variable {α : Type}

/-- Replace the segment of `buffer` that starts at `offset` by `piece`. -/
def overwrite (buffer : List α) (offset : Nat) (piece : List α) : List α :=
  buffer.take offset ++ piece ++ buffer.drop (offset + piece.length)

theorem length_overwrite
    {buffer piece : List α} {offset : Nat}
    (fits : offset + piece.length ≤ buffer.length) :
    (overwrite buffer offset piece).length = buffer.length := by
  simp only [overwrite, List.length_append, List.length_take,
    List.length_drop]
  omega

theorem take_overwrite
    {buffer piece : List α} {offset : Nat}
    (fits : offset + piece.length ≤ buffer.length) :
    (overwrite buffer offset piece).take (offset + piece.length) =
      buffer.take offset ++ piece := by
  have headLength :
      (buffer.take offset ++ piece).length = offset + piece.length := by
    simp only [List.length_append, List.length_take]
    omega
  rw [overwrite, ← headLength, List.take_left]

/-- The buffer has the length of the data and agrees with it below `position`. -/
structure Filled (data : List α) (position : Nat) (buffer : List α) : Prop where
  length_eq : buffer.length = data.length
  agrees : buffer.take position = data.take position

theorem Filled.zero
    {data buffer : List α} (length_eq : buffer.length = data.length) :
    Filled data 0 buffer :=
  ⟨length_eq, by simp⟩

/-- Writing the next piece of the data extends the filled part over it. -/
theorem Filled.extend
    {data buffer piece : List α} {position : Nat}
    (filled : Filled data position buffer)
    (cut : piece = (data.drop position).take piece.length)
    (inside : position + piece.length ≤ data.length) :
    Filled data (position + piece.length)
      (overwrite buffer position piece) := by
  have fits : position + piece.length ≤ buffer.length := by
    rw [filled.length_eq]
    exact inside
  refine ⟨?_, ?_⟩
  · rw [length_overwrite fits]
    exact filled.length_eq
  · rw [take_overwrite fits, filled.agrees, List.take_add, ← cut]

theorem Filled.complete
    {data buffer : List α} {position : Nat}
    (filled : Filled data position buffer)
    (whole : data.length ≤ position) :
    buffer = data := by
  have agrees := filled.agrees
  rwa [List.take_of_length_le (by rw [filled.length_eq]; exact whole),
    List.take_of_length_le whole] at agrees

/-- The pieces, each with its offset, cover `data` from `position` to the end
in order, without gap or overlap, and each piece is cut from its offset. -/
def Tiles (data : List α) : Nat → List (Nat × List α) → Prop
  | position, [] => position = data.length
  | position, (offset, piece) :: rest =>
      offset = position ∧
        piece = (data.drop position).take piece.length ∧
        position + piece.length ≤ data.length ∧
        Tiles data (position + piece.length) rest

/-- Tiles laid up to a position and tiles laid from there on fit together. -/
theorem tiles_cons_cut
    {data : List α} {position length : Nat} {rest : List (Nat × List α)}
    (inside : position + length ≤ data.length)
    (tiled : Tiles data (position + length) rest) :
    Tiles data position
      ((position, (data.drop position).take length) :: rest) := by
  have pieceLength : ((data.drop position).take length).length = length := by
    simp only [List.length_take, List.length_drop]
    omega
  refine ⟨rfl, by rw [pieceLength], by rw [pieceLength]; exact inside, ?_⟩
  rwa [pieceLength]

/-- The pieces laid so far reach exactly up to `position`: whatever tiles the
rest completes them to a tiling. -/
def LaidTo (data : List α) (pieces : List (Nat × List α)) (position : Nat) :
    Prop :=
  ∀ rest, Tiles data position rest → Tiles data 0 (pieces ++ rest)

theorem LaidTo.zero (data : List α) : LaidTo data [] 0 :=
  fun _ tiled => tiled

/-- Laying the next cut moves the position over it. -/
theorem LaidTo.extend
    {data : List α} {pieces : List (Nat × List α)} {position length : Nat}
    (laid : LaidTo data pieces position)
    (inside : position + length ≤ data.length) :
    LaidTo data
      (pieces ++ [(position, (data.drop position).take length)])
      (position + length) := by
  intro rest tiled
  rw [List.append_assoc]
  exact laid _ (tiles_cons_cut inside tiled)

theorem LaidTo.complete
    {data : List α} {pieces : List (Nat × List α)}
    (laid : LaidTo data pieces data.length) :
    Tiles data 0 pieces := by
  have tiled := laid [] rfl
  rwa [List.append_nil] at tiled

/-- The pieces of a tiling, put one after another, are the data. -/
theorem Tiles.flatten
    {data : List α} {pieces : List (Nat × List α)} :
    ∀ {position : Nat}, Tiles data position pieces →
      (pieces.map Prod.snd).flatten = data.drop position := by
  induction pieces with
  | nil =>
      intro position tiled
      have atEnd : position = data.length := tiled
      simp [atEnd]
  | cons head rest inductionHypothesis =>
      obtain ⟨offset, piece⟩ := head
      intro position tiled
      obtain ⟨_, cut, _, restTiled⟩ := tiled
      have restFlat := inductionHypothesis restTiled
      rw [List.map_cons, List.flatten_cons, restFlat,
        ← List.drop_drop]
      conv_lhs => arg 1; rw [cut]
      exact List.take_append_drop piece.length (data.drop position)

end Overwrite
