/-
Hashing in pieces is hashing the whole. What a hash keeps after some
pieces is what folding the blocks of those bytes leaves (`Fed`), since
bytes that fill no block yet are only put in front of the next piece
(`blocks_append`). Each piece preserves that, and at the end the same
padding follows in both ways.

The scheme is the one that the hashes of the family share, with the size
of a block, the words and the compression as parameters. None of these
is looked into: that the blocks of two byte strings in a row are those
of the first, and then those of what it left over with the second, holds
for every compression. So nothing here is about a particular hash, but
the last statement, which is about the one that documents are signed
with.

The invariant speaks of the bytes fed so far, of which a hash in
progress keeps their number and no more than a block. The number is
needed for the padding and would not follow from what is kept.
-/
import Attestation.Hash.Sha384

namespace Attestation

namespace Sha2.Scheme

section

variable {Word : Type} {size : Nat} (s : Scheme Word size)
  [Add Word] [AndOp Word] [XorOp Word] [Complement Word]

/-- Without bytes there are no blocks. -/
theorem blocks_nil (c : Chain Word) : s.blocks c [] = (c, []) := by
  rw [blocks]
  split
  · rfl
  · rename_i h
    rw [List.drop_nil] at h
    cases h

/-- By induction along the blocks of the first bytes: while there are
whole ones, what is behind does not matter to them. -/
theorem blocks_append (c : Chain Word) (data more : Bytes) :
    s.blocks c (data ++ more)
      = s.blocks (s.blocks c data).1 ((s.blocks c data).2 ++ more) := by
  fun_induction blocks s c data with
  | case1 c data hshort => rfl
  | case2 c data b rest hwhole ih =>
    have hlength := congrArg List.length hwhole
    simp only [List.length_drop, List.length_cons] at hlength
    have hdrop : (data ++ more).drop (s.blockSize - 1)
        = b :: (rest ++ more) := by
      rw [List.drop_append_of_le_length (by omega), hwhole]
      rfl
    have htake : (data ++ more).take s.blockSize
        = data.take s.blockSize :=
      List.take_append_of_le_length (by omega)
    rw [← ih, blocks]
    split
    · rename_i hnone
      rw [hdrop] at hnone
      cases hnone
    · rename_i hsome
      rw [hdrop] at hsome
      cases hsome
      rw [htake]

/-- The state is that of a hash that has seen the bytes. -/
structure Fed (p : Progress Word) (data : Bytes) : Prop where
  blocks_eq : s.blocks s.initial data = (p.chain, p.pending)
  length_eq : p.length = data.length

/-- At the start nothing was fed. -/
theorem fed_start : s.Fed s.start [] :=
  ⟨s.blocks_nil s.initial, rfl⟩

variable {s} {p : Progress Word} {data : Bytes}

/-- The step: a piece more. -/
theorem Fed.feed (h : s.Fed p data) (piece : Bytes) :
    s.Fed (s.feed p piece) (data ++ piece) := by
  refine ⟨?_, ?_⟩
  · rw [s.blocks_append, h.blocks_eq]
    rfl
  · rw [List.length_append, ← h.length_eq]
    rfl

/-- The run: any number of pieces, in their order. -/
theorem Fed.foldl (h : s.Fed p data) (pieces : List Bytes) :
    s.Fed (pieces.foldl s.feed p) (data ++ pieces.flatten) := by
  induction pieces generalizing p data with
  | nil => simpa using h
  | cons piece pieces ih => simpa using ih (h.feed piece)

/-- At the end the digest is that of all bytes together. -/
theorem Fed.finish_eq (h : s.Fed p data) : s.finish p = s.digest data := by
  rw [digest, s.blocks_append, h.blocks_eq, ← h.length_eq]
  rfl

end

end Sha2.Scheme

/-- The digest does not depend on where the pieces are cut. -/
theorem sha384Pieces_eq (pieces : List Bytes) :
    sha384Pieces pieces = sha384 pieces.flatten :=
  (Sha384.scheme.fed_start.foldl pieces).finish_eq

end Attestation
