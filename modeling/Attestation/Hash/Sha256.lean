/-
SHA-256: thirty-two-bit words, blocks of 64 bytes, 64 rounds. The
starting state is the fraction of the square roots of the first eight
primes, the round constants that of the cube roots of the first
sixty-four.
-/
import Attestation.Hash.Sha2

namespace Attestation

namespace Sha256

/-- The bits of a word turned right by `n` places. -/
def rotate (w n : UInt32) : UInt32 :=
  w >>> n ||| w <<< (32 - n)

def initial : Sha2.Chain UInt32 :=
  ⟨0x6a09e667, 0xbb67ae85, 0x3c6ef372, 0xa54ff53a,
   0x510e527f, 0x9b05688c, 0x1f83d9ab, 0x5be0cd19⟩

def constants : List UInt32 :=
  [0x428a2f98, 0x71374491, 0xb5c0fbcf, 0xe9b5dba5, 0x3956c25b,
   0x59f111f1, 0x923f82a4, 0xab1c5ed5, 0xd807aa98, 0x12835b01,
   0x243185be, 0x550c7dc3, 0x72be5d74, 0x80deb1fe, 0x9bdc06a7,
   0xc19bf174, 0xe49b69c1, 0xefbe4786, 0x0fc19dc6, 0x240ca1cc,
   0x2de92c6f, 0x4a7484aa, 0x5cb0a9dc, 0x76f988da, 0x983e5152,
   0xa831c66d, 0xb00327c8, 0xbf597fc7, 0xc6e00bf3, 0xd5a79147,
   0x06ca6351, 0x14292967, 0x27b70a85, 0x2e1b2138, 0x4d2c6dfc,
   0x53380d13, 0x650a7354, 0x766a0abb, 0x81c2c92e, 0x92722c85,
   0xa2bfe8a1, 0xa81a664b, 0xc24b8b70, 0xc76c51a3, 0xd192e819,
   0xd6990624, 0xf40e3585, 0x106aa070, 0x19a4c116, 0x1e376c08,
   0x2748774c, 0x34b0bcb5, 0x391c0cb3, 0x4ed8aa4a, 0x5b9cca4f,
   0x682e6ff3, 0x748f82ee, 0x78a5636f, 0x84c87814, 0x8cc70208,
   0x90befffa, 0xa4506ceb, 0xbef9a3f7, 0xc67178f2]

/-- The number that bytes spell, as a word. -/
def word (data : Bytes) : UInt32 :=
  data.foldl (fun w b => w <<< 8 ||| b.toUInt32) 0

/-- The four bytes of a word. -/
def bytes (w : UInt32) : Bytes :=
  [(w >>> 24).toUInt8, (w >>> 16).toUInt8, (w >>> 8).toUInt8,
   w.toUInt8]

/-- The decisions that make the hash SHA-256. -/
def scheme : Sha2.Scheme UInt32 32 where
  wordSize := 4
  initial := initial
  constants := constants
  word := word
  upper0 w := rotate w 2 ^^^ rotate w 13 ^^^ rotate w 22
  upper1 w := rotate w 6 ^^^ rotate w 11 ^^^ rotate w 25
  lower0 w := rotate w 7 ^^^ rotate w 18 ^^^ w >>> 3
  lower1 w := rotate w 17 ^^^ rotate w 19 ^^^ w >>> 10
  output c :=
    ⟨bytes c.a ++ bytes c.b ++ bytes c.c ++ bytes c.d
      ++ bytes c.e ++ bytes c.f ++ bytes c.g ++ bytes c.h, rfl⟩

end Sha256

abbrev Digest256 := FixedBytes 32

def sha256 (data : Bytes) : Digest256 :=
  Sha256.scheme.digest data

end Attestation
