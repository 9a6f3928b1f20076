import Mathlib.Algebra.Ring.Nat

/-!
# Codecs

A codec writes values as sequences of symbols, and reads what it has written
back from the front of any sequence.  Which values it can write is part of it.
Codecs for pairs and for counted lists are put together from those for their
parts.
-/

namespace Codecs

/-- A writer and a reader.  What fits is read back, in front of anything. -/
structure Codec (σ α : Type) where
  Fits : α → Prop
  encode : α → List σ
  decode : List σ → Option (α × List σ)
  decode_encode : ∀ a rest, Fits a → decode (encode a ++ rest) = some (a, rest)

namespace Codec

variable {σ α β : Type}

/-- Read one value and nothing after it. -/
def read (codec : Codec σ α) (input : List σ) : Option α :=
  match codec.decode input with
  | some (a, []) => some a
  | _ => none

theorem read_encode
    (codec : Codec σ α) {a : α} (fits : codec.Fits a) :
    codec.read (codec.encode a) = some a := by
  have decoded := codec.decode_encode a [] fits
  rw [List.append_nil] at decoded
  rw [read, decoded]

/-- One symbol. -/
def symbol : Codec σ σ where
  Fits _ := True
  encode one := [one]
  decode
    | [] => none
    | one :: rest => some (one, rest)
  decode_encode _ _ _ := rfl

/-- As many symbols as the width says. -/
def block (width : Nat) : Codec σ (List σ) where
  Fits symbols := symbols.length = width
  encode symbols := symbols
  decode input :=
    if input.length < width then none
    else some (input.take width, input.drop width)
  decode_encode symbols rest fits := by
    rw [if_neg (by simp [fits]), ← fits, List.take_left, List.drop_left]

/-- Values that are written as others. -/
def via (codec : Codec σ β) (write : α → β) (restore : β → Option α) :
    Codec σ α where
  Fits a := codec.Fits (write a) ∧ restore (write a) = some a
  encode a := codec.encode (write a)
  decode input := do
    let (written, rest) ← codec.decode input
    let a ← restore written
    pure (a, rest)
  decode_encode a rest fits := by
    simp [codec.decode_encode _ rest fits.1, fits.2]

/-- One value and then another. -/
def pair (first : Codec σ α) (second : Codec σ β) : Codec σ (α × β) where
  Fits both := first.Fits both.1 ∧ second.Fits both.2
  encode both := first.encode both.1 ++ second.encode both.2
  decode input := do
    let (a, rest) ← first.decode input
    let (b, rest) ← second.decode rest
    pure ((a, b), rest)
  decode_encode both rest fits := by
    simp [List.append_assoc, first.decode_encode _ _ fits.1,
      second.decode_encode _ _ fits.2]

/-- Read a number of values. -/
def decodeMany (codec : Codec σ α) : Nat → List σ → Option (List α × List σ)
  | 0, input => some ([], input)
  | count + 1, input => do
      let (a, rest) ← codec.decode input
      let (as, rest) ← decodeMany codec count rest
      pure (a :: as, rest)

theorem decodeMany_encode
    (codec : Codec σ α) (items : List α) (rest : List σ)
    (fits : ∀ a ∈ items, codec.Fits a) :
    codec.decodeMany items.length (items.flatMap codec.encode ++ rest) =
      some (items, rest) := by
  induction items with
  | nil => rfl
  | cons a items inductionHypothesis =>
      have first := codec.decode_encode a
        (items.flatMap codec.encode ++ rest) (fits a List.mem_cons_self)
      have others := inductionHypothesis fun b member =>
        fits b (List.mem_cons_of_mem a member)
      simp [List.append_assoc, decodeMany, first, others]

/-- A list after its length. -/
def counted (count : Codec σ Nat) (item : Codec σ α) : Codec σ (List α) where
  Fits items := count.Fits items.length ∧ ∀ a ∈ items, item.Fits a
  encode items := count.encode items.length ++ items.flatMap item.encode
  decode input := do
    let (length, rest) ← count.decode input
    item.decodeMany length rest
  decode_encode items rest fits := by
    simp [List.append_assoc, count.decode_encode _ _ fits.1,
      item.decodeMany_encode items rest fits.2]

section Lengths

theorem length_encode_pair
    (first : Codec σ α) (second : Codec σ β) (both : α × β) :
    ((first.pair second).encode both).length =
      (first.encode both.1).length + (second.encode both.2).length :=
  List.length_append

theorem length_encode_counted
    (count : Codec σ Nat) (item : Codec σ α) (items : List α) :
    ((counted count item).encode items).length =
      (count.encode items.length).length +
        (items.map fun a => (item.encode a).length).sum := by
  have whole : (counted count item).encode items =
      count.encode items.length ++ items.flatMap item.encode := rfl
  rw [whole, List.length_append, List.length_flatMap]

end Lengths

end Codec

end Codecs
