/-
The SHA-2 construction, over a record of the decisions in which its
members differ. A message is padded to whole blocks and the blocks are
folded into a state of eight words.

There are two ways to a digest: `digest` takes the whole message at
once, and `start`, `feed` and `finish` take it in pieces of any size
and keep only the state, the bytes that do not fill a block yet, and
the count of bytes seen.
-/
import Attestation.Bytes.Fixed

namespace Attestation

namespace Sha2

/-- The eight words of state that pass from block to block. -/
structure Chain (Word : Type) where
  a : Word
  b : Word
  c : Word
  d : Word
  e : Word
  f : Word
  g : Word
  h : Word

/-- What a member of the family decides: its words, its tables, its
four mixing functions, and how a final state is written in `size`
bytes. A block holds sixteen words. -/
structure Scheme (Word : Type) (size : Nat) where
  /-- Bytes in a word. -/
  wordSize : Nat
  /-- The state before the first block. -/
  initial : Chain Word
  /-- One constant for each round. -/
  constants : List Word
  /-- Reads the bytes of a word. -/
  word : Bytes → Word
  /-- Mixes the first word of the state. -/
  upper0 : Word → Word
  /-- Mixes the fifth word of the state. -/
  upper1 : Word → Word
  /-- Mixes the message word of fifteen rounds before. -/
  lower0 : Word → Word
  /-- Mixes the message word of two rounds before. -/
  lower1 : Word → Word
  /-- Writes the digest. -/
  output : Chain Word → FixedBytes size

namespace Scheme

variable {Word : Type} {size : Nat}

-- ======================================================== one block

/-- Bytes in a block. -/
def blockSize (s : Scheme Word size) : Nat :=
  16 * s.wordSize

/-- The first `count` words of a block. -/
def words (s : Scheme Word size) : (count : Nat) → Bytes → List Word
  | 0, _ => []
  | count + 1, block =>
    s.word (block.take s.wordSize)
      :: s.words count (block.drop s.wordSize)

section Rounds

variable [Add Word] [AndOp Word] [XorOp Word] [Complement Word]

/-- One round: `w` is the round constant plus the message word. -/
@[specialize]
def round (s : Scheme Word size) (c : Chain Word) (w : Word) :
    Chain Word :=
  let choice := (c.e &&& c.f) ^^^ (~~~ c.e &&& c.g)
  let majority := (c.a &&& c.b) ^^^ (c.a &&& c.c) ^^^ (c.b &&& c.c)
  let t := c.h + s.upper1 c.e + choice + w
  { a := t + (s.upper0 c.a + majority), b := c.a, c := c.b, d := c.c,
    e := c.d + t, f := c.e, g := c.f, h := c.g }

/-- The message word that joins sixteen words `w :: rest`, the oldest
first. -/
@[specialize]
def nextWord (s : Scheme Word size) (w : Word) (rest : List Word) :
    Word :=
  s.lower1 (rest.getD 13 w) + rest.getD 8 w
    + s.lower0 (rest.getD 0 w) + w

/-- One round for each constant. The window holds the sixteen message
words from this round's on. -/
@[specialize]
def rounds (s : Scheme Word size) :
    (constants window : List Word) → Chain Word → Chain Word
  | k :: constants, w :: rest, c =>
    s.rounds constants (rest ++ [s.nextWord w rest]) (s.round c (k + w))
  | _, _, c => c

/-- The state after a block: the rounds' outcome added word by word to
the state before. -/
@[specialize]
def compress (s : Scheme Word size) (c : Chain Word) (block : Bytes) :
    Chain Word :=
  let r := s.rounds s.constants (s.words 16 block) c
  { a := c.a + r.a, b := c.b + r.b, c := c.c + r.c, d := c.d + r.d,
    e := c.e + r.e, f := c.f + r.f, g := c.g + r.g, h := c.h + r.h }

-- ====================================================== many blocks

/-- Folds the whole blocks of `data` into the state, and leaves the
bytes after them. -/
@[specialize]
def blocks (s : Scheme Word size) (c : Chain Word) (data : Bytes) :
    Chain Word × Bytes :=
  match _h : data.drop (s.blockSize - 1) with
  | [] => (c, data)
  | _ :: rest => s.blocks (s.compress c (data.take s.blockSize)) rest
termination_by data.length
decreasing_by
  have := congrArg List.length _h
  simp only [List.length_drop, List.length_cons] at this
  omega

/-- What is appended to a message of `length` bytes: a one bit, zeros,
and the length in bits, so that the blocks come out whole. -/
def padding (s : Scheme Word size) (length : Nat) : Bytes :=
  let used := (length + 1 + 2 * s.wordSize) % s.blockSize
  0x80 :: List.replicate ((s.blockSize - used) % s.blockSize) 0
    ++ Bytes.ofNat (2 * s.wordSize) (8 * length)

/-- The digest of a message. -/
@[specialize]
def digest (s : Scheme Word size) (data : Bytes) : FixedBytes size :=
  s.output (s.blocks s.initial (data ++ s.padding data.length)).1

-- ======================================================== in pieces

/-- The state of a hash that is fed in pieces. -/
structure Progress (Word : Type) where
  /-- The state after the whole blocks seen. -/
  chain : Chain Word
  /-- The bytes seen after those blocks. -/
  pending : Bytes
  /-- How many bytes were seen. -/
  length : Nat

/-- Nothing seen yet. -/
def start (s : Scheme Word size) : Progress Word :=
  ⟨s.initial, [], 0⟩

/-- Takes one more piece. -/
@[specialize]
def feed (s : Scheme Word size) (p : Progress Word) (piece : Bytes) :
    Progress Word :=
  let (chain, pending) := s.blocks p.chain (p.pending ++ piece)
  ⟨chain, pending, p.length + piece.length⟩

/-- The digest of everything seen. -/
@[specialize]
def finish (s : Scheme Word size) (p : Progress Word) :
    FixedBytes size :=
  s.output (s.blocks p.chain (p.pending ++ s.padding p.length)).1

end Rounds

end Scheme

end Sha2

end Attestation
