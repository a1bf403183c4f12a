/-
The two encodings of a signature. A raw signature has room for any two
numbers of 48 bytes, and a DER signature for numbers of any length. On
what is accepted they agree: DER signatures are accepted exactly when
they are the shortest writing of a pair in range whose raw writing is
accepted (`verifyDer_agrees`).

`Der.integerWidth` is what makes the writing unique. A content that is
read as an INTEGER has that many bytes and no other number
(`isMinimal_iff_length`), so there is no choice of leading zeros; the
lengths have no choice either (`ofDer?_eq_some_iff`). Without this a
signature could be written in several ways, and whoever stores or
compares signatures would be surprised.

The width counts a bit more than the number has, since the first bit is
a sign. A number of 48 bytes may therefore need 49, and a small one
fewer; the equivalence between width and range (`integerWidth_le_iff`)
is the arithmetic behind it, and everything else about widths follows
from there.

That no signature with a number out of range is accepted comes from the
check itself (`inRange_of_accepts`). It is what makes the raw side of
the equivalence total: a pair in range always has a raw writing, and
reading that gives the pair back.
-/
import Attestation.Proofs.Bytes.DerElement
import Attestation.Signature.Ecdsa
import Mathlib.Data.Nat.Size
import Mathlib.Logic.ExistsUnique

namespace Attestation

-- ============================================================ writing

namespace Der

/-- How many bytes the bits of a number take with a sign bit above
them. -/
def integerWidth (n : Nat) : Nat :=
  n.size / 8 + 1

/-- A length as DER has it: in one byte if it is below 128, and
otherwise after the count of its bytes, the first of which is not
zero. -/
def lengthBytes (n : Nat) : Bytes :=
  if n < 128 then [UInt8.ofNat n]
  else
    let width := (n.size + 7) / 8
    UInt8.ofNat (128 + width) :: Bytes.ofNat width n

/-- A tag, the length of the content, and the content. -/
def tagged (tag : UInt8) (content : Bytes) : Bytes :=
  tag :: lengthBytes content.length ++ content

/-- The INTEGER for a number that is not negative. -/
def integer (n : Nat) : Bytes :=
  tagged 0x02 (Bytes.ofNat (integerWidth n) n)

end Der

namespace Ecdsa

open P384 Reader

/-- The two INTEGERs of a pair. -/
def Pair.integers (pair : Pair) : Bytes :=
  Der.integer pair.r ++ Der.integer pair.s

/-- A pair in DER: the SEQUENCE of its INTEGERs. -/
def Pair.der (pair : Pair) : Bytes :=
  Der.tagged 0x30 pair.integers

/-- A pair in 48 bytes for each number. -/
def Pair.raw (pair : Pair) : RawSignature :=
  ⟨Bytes.ofNat 48 pair.r ++ Bytes.ofNat 48 pair.s, by simp⟩

variable {n width : Nat} {content signature : Bytes} {pair : Pair}
  {r r' : Reader} {key : PublicKey} {digest : Digest384}
  {raw : RawSignature}

-- ================================================== shortest numbers

/-- So many bytes hold a number and a sign bit. -/
theorem integerWidth_le_iff (hwidth : 0 < width) :
    Der.integerWidth n ≤ width ↔ 2 * n < 256 ^ width := by
  have hpow : 256 ^ width = 2 * 2 ^ (8 * width - 1) := by
    have hbits : 256 ^ width = 2 ^ (8 * width - 1 + 1) := by
      rw [Nat.sub_add_cancel (by omega), Nat.pow_mul]
    rw [hbits, Nat.pow_succ, Nat.mul_comm]
  have hsize : n.size ≤ 8 * width - 1 ↔ n < 2 ^ (8 * width - 1) :=
    Nat.size_le
  unfold Der.integerWidth
  rw [hpow]
  omega

/-- The content of an INTEGER that is accepted has the one width that
its number leaves. -/
theorem isMinimal_iff_length :
    isMinimal content = true
      ↔ content.length = Der.integerWidth (Bytes.bigEndian content) := by
  rcases content with _ | ⟨b, _ | ⟨c, rest⟩⟩
  · simp [isMinimal, Der.integerWidth]
  · -- one byte: only the sign bit matters
    have hle := integerWidth_le_iff (n := b.toNat) Nat.one_pos
    have hpos : 0 < Der.integerWidth b.toNat := Nat.succ_pos _
    have hsmall : b < 0x80 ↔ b.toNat < 128 := UInt8.lt_iff_toNat_lt
    simp only [isMinimal, decide_eq_true_eq, Bytes.bigEndian_cons,
      List.length_nil, List.length_singleton, Bytes.bigEndian_nil,
      Nat.pow_zero, Nat.mul_one, Nat.add_zero, hsmall]
    omega
  · -- the two highest bytes say how far the bits reach
    have hpos : 0 < 256 ^ rest.length := Nat.pow_pos (by omega)
    have hhead : Bytes.bigEndian (b :: c :: rest) / 256 ^ rest.length
        = 256 * b.toNat + c.toNat := by
      have hlt := Bytes.bigEndian_lt rest
      rw [Bytes.bigEndian_cons, Bytes.bigEndian_cons, List.length_cons,
        Nat.pow_succ, Nat.mul_comm (256 ^ rest.length) 256,
        ← Nat.mul_assoc, ← Nat.add_assoc, ← Nat.add_mul,
        Nat.mul_comm b.toNat, Nat.mul_comm _ (256 ^ rest.length),
        Nat.mul_add_div hpos, Nat.div_eq_of_lt hlt, Nat.add_zero]
    have hwide := integerWidth_le_iff
      (n := Bytes.bigEndian (b :: c :: rest)) (Nat.succ_pos (rest.length + 1))
    have hnarrow := integerWidth_le_iff
      (n := Bytes.bigEndian (b :: c :: rest)) (Nat.succ_pos rest.length)
    have hsign : 2 * Bytes.bigEndian (b :: c :: rest)
          < 256 ^ (rest.length + 2)
        ↔ 256 * b.toNat + c.toNat < 32768 := by
      rw [← hhead, Nat.div_lt_iff_lt_mul hpos, Nat.pow_add]
      omega
    have hfew : 2 * Bytes.bigEndian (b :: c :: rest)
          < 256 ^ (rest.length + 1)
        ↔ 256 * b.toNat + c.toNat < 128 := by
      rw [← hhead, Nat.div_lt_iff_lt_mul hpos, Nat.pow_succ]
      omega
    have hc : c.toNat < 256 := c.toNat_lt
    have hb : b < 0x80 ↔ b.toNat < 128 := UInt8.lt_iff_toNat_lt
    have hzero : b = 0 ↔ b.toNat = 0 := UInt8.toNat_inj.symm
    have hhigh : 0x80 ≤ c ↔ 128 ≤ c.toNat := UInt8.le_iff_toNat_le
    rw [hsign] at hwide
    rw [hfew] at hnarrow
    simp only [isMinimal, Bool.and_eq_true, Bool.or_eq_true, bne_iff_ne,
      decide_eq_true_eq, List.length_cons, ne_eq, hb, hzero, hhigh]
    omega

/-- The shortest content of a number is read as the number. -/
theorem bigEndian_shortest (n : Nat) :
    Bytes.bigEndian (Bytes.ofNat (Der.integerWidth n) n) = n := by
  apply Bytes.bigEndian_ofNat
  have hpos : 0 < Der.integerWidth n := Nat.succ_pos _
  have hfits := (integerWidth_le_iff hpos).1 (Nat.le_refl _)
  omega

/-- A number has one shortest content, and it is the one of its width.
-/
theorem isMinimal_iff :
    isMinimal content = true ∧ Bytes.bigEndian content = n
      ↔ content = Bytes.ofNat (Der.integerWidth n) n := by
  rw [isMinimal_iff_length]
  constructor
  · rintro ⟨hlength, rfl⟩
    rw [← hlength, Bytes.ofNat_bigEndian]
  · rintro rfl
    rw [bigEndian_shortest, Bytes.length_ofNat]
    exact ⟨rfl, rfl⟩

-- ====================================================== reading them

theorem lengthBytes_of_lt (h : n < 128) :
    Der.lengthBytes n = [UInt8.ofNat n] :=
  if_pos h

/-- A number is read exactly from its INTEGER, if the content is short
enough for a length of one byte. -/
theorem integer?_iff_passes :
    integer? r = some (n, r')
      ↔ Der.integerWidth n < 128 ∧ r.Passes (Der.integer n) r' := by
  unfold integer?
  constructor
  · intro h
    obtain ⟨r₁, htag, h₁⟩ := Option.bind_eq_some_iff.1 h
    obtain ⟨⟨length, r₂⟩, hlength, h₂⟩ := Option.bind_eq_some_iff.1 h₁
    obtain ⟨⟨content, r₃⟩, htake, h₃⟩ := Option.bind_eq_some_iff.1 h₂
    have htag := pass?_iff_passes.1 htag
    obtain ⟨hshort, hlength⟩ := shortLength?_iff_passes.1 hlength
    obtain ⟨hlen, hcontent⟩ := take?_iff_passes.1 htake
    by_cases hminimal : isMinimal content = true
    · simp only [hminimal, if_true, Option.some.injEq, Prod.mk.injEq] at h₃
      obtain ⟨hn, rfl⟩ := h₃
      obtain rfl := isMinimal_iff.1 ⟨hminimal, hn⟩
      rw [Bytes.length_ofNat] at hlen
      subst hlen
      refine ⟨hshort, ?_⟩
      rw [Der.integer, Der.tagged, Bytes.length_ofNat,
        lengthBytes_of_lt hshort]
      exact (htag.trans hlength).trans hcontent
    · simp [hminimal] at h₃
  · rintro ⟨hshort, h⟩
    rw [Der.integer, Der.tagged, Bytes.length_ofNat,
      lengthBytes_of_lt hshort] at h
    obtain ⟨r₂, hhead, hcontent⟩ := passes_append_iff.1 h
    obtain ⟨r₁, htag, hlength⟩ := passes_cons_iff.1 hhead
    have htake := take?_iff_passes.2
      ⟨Bytes.length_ofNat (Der.integerWidth n) n, hcontent⟩
    have hminimal := (isMinimal_iff (n := n)).2 rfl
    rw [pass?_iff_passes.2 htag]
    simp [shortLength?_iff_passes.2 ⟨hshort, hlength⟩, htake, hminimal]

/-- A pair is read exactly from its DER, if that is short. -/
theorem ofDer?_eq_some_iff :
    Pair.ofDer? signature = some pair
      ↔ pair.integers.length < 128 ∧ signature = pair.der := by
  -- if both together are short, so is each
  have hwidths : pair.integers.length < 128 →
      Der.integerWidth pair.r < 128 ∧ Der.integerWidth pair.s < 128 := by
    intro h
    simp only [Pair.integers, Der.integer, Der.tagged, List.length_append,
      List.length_cons, Bytes.length_ofNat] at h
    omega
  unfold Pair.ofDer?
  constructor
  · intro h
    obtain ⟨r₁, htag, h₁⟩ := Option.bind_eq_some_iff.1 h
    obtain ⟨⟨length, r₂⟩, hlength, h₂⟩ := Option.bind_eq_some_iff.1 h₁
    have htag := pass?_iff_passes.1 htag
    obtain ⟨hshort, hlength⟩ := shortLength?_iff_passes.1 hlength
    by_cases hall : r₂.remaining = length
    · simp only [hall, if_true] at h₂
      obtain ⟨⟨n, r₃⟩, hr, h₃⟩ := Option.bind_eq_some_iff.1 h₂
      obtain ⟨⟨m, r₄⟩, hs, h₄⟩ := Option.bind_eq_some_iff.1 h₃
      have hboth := (integer?_iff_passes.1 hr).2.trans
        (integer?_iff_passes.1 hs).2
      by_cases hempty : r₄.isEmpty = true
      · simp only [hempty, if_true, Option.some.injEq] at h₄
        subst h₄
        have hrest : r₂.rest = Pair.integers ⟨n, m⟩ := by
          rw [hboth.rest_eq, isEmpty_iff.1 hempty, List.append_nil]
          rfl
        -- the announced length is that of what was read, to the last byte
        obtain rfl : (Pair.integers ⟨n, m⟩).length = length := by
          rw [← hrest]
          exact hall
        refine ⟨hshort, ?_⟩
        rw [(htag.trans hlength).eq_append, hrest, Pair.der, Der.tagged,
          lengthBytes_of_lt hshort]
        rfl
      · simp [hempty] at h₄
    · simp [hall] at h₂
  · rintro ⟨hshort, rfl⟩
    obtain ⟨hwidthR, hwidthS⟩ := hwidths hshort
    have hder : pair.der = [0x30] ++ [UInt8.ofNat pair.integers.length]
        ++ pair.integers := by
      rw [Pair.der, Der.tagged, lengthBytes_of_lt hshort]
      rfl
    obtain ⟨r₂, hhead, hrest⟩ := exists_passes_ofBytes hder
    obtain ⟨r₁, htag, hlength⟩ := passes_append_iff.1 hhead
    obtain ⟨r₄, hboth, hempty⟩ := exists_passes
      (hrest.trans (List.append_nil _).symm)
    obtain ⟨r₃, hr, hs⟩ := passes_append_iff.1 hboth
    rw [pass?_iff_passes.2 htag]
    simp [shortLength?_iff_passes.2 ⟨hshort, hlength⟩, remaining, hrest,
      integer?_iff_passes.2 ⟨hwidthR, hr⟩,
      integer?_iff_passes.2 ⟨hwidthS, hs⟩, isEmpty_iff.2 hempty]

-- ========================================================= agreement

/-- The raw writing of a pair in range is read as the pair. -/
theorem ofRaw_raw (h : pair.InRange) : Pair.ofRaw pair.raw = pair := by
  have horder : order < 256 ^ 48 := by decide
  obtain ⟨⟨-, hr⟩, -, hs⟩ := h
  have hfirst : pair.raw.toList.take 48 = Bytes.ofNat 48 pair.r :=
    List.take_left' (Bytes.length_ofNat _ _)
  have hsecond : pair.raw.toList.drop 48 = Bytes.ofNat 48 pair.s :=
    List.drop_left' (Bytes.length_ofNat _ _)
  rw [Pair.ofRaw, hfirst, hsecond,
    Bytes.bigEndian_ofNat (Nat.lt_trans hr horder),
    Bytes.bigEndian_ofNat (Nat.lt_trans hs horder)]

/-- Every raw signature is the raw writing of what it is read as. -/
theorem raw_ofRaw (raw : RawSignature) : (Pair.ofRaw raw).raw = raw := by
  have hlen := raw.length_toList
  apply FixedBytes.ext
  calc Bytes.ofNat 48 (Bytes.bigEndian (raw.toList.take 48))
        ++ Bytes.ofNat 48 (Bytes.bigEndian (raw.toList.drop 48))
      = raw.toList.take 48 ++ raw.toList.drop 48 := by
        rw [Bytes.ofNat_bigEndian_of_length (by simp [hlen]),
          Bytes.ofNat_bigEndian_of_length (by simp [hlen])]
    _ = raw.toList := List.take_append_drop 48 _

/-- What is accepted is in range. -/
theorem inRange_of_accepts (h : accepts key digest pair = true) :
    pair.InRange := by
  unfold accepts at h
  split at h
  · cases h
  · exact of_decide_eq_true (Bool.and_eq_true_iff.1 h).1

/-- The DER of a pair in range has lengths of one byte. -/
theorem length_integers_lt (h : pair.InRange) :
    pair.integers.length < 128 := by
  have horder : 2 * order < 256 ^ 49 := by decide
  have hwidth (m : Nat) (hm : m < order) : Der.integerWidth m ≤ 49 :=
    (integerWidth_le_iff (by omega)).2 (by omega)
  have hr := hwidth pair.r h.1.2
  have hs := hwidth pair.s h.2.2
  simp only [Pair.integers, Der.integer, Der.tagged, List.length_append,
    List.length_cons, Bytes.length_ofNat,
    lengthBytes_of_lt (Nat.lt_of_le_of_lt hr (by omega)),
    lengthBytes_of_lt (Nat.lt_of_le_of_lt hs (by omega)),
    List.length_nil]
  omega

/-- A DER signature is accepted when it is read as an accepted pair. -/
theorem verifyDer_eq_true_iff :
    verifyDer key digest signature = true
      ↔ ∃ pair, Pair.ofDer? signature = some pair
        ∧ accepts key digest pair = true := by
  unfold verifyDer
  cases Pair.ofDer? signature <;> simp

/-- A DER signature is accepted exactly when it is the one writing of a
pair in range whose raw writing is accepted. So a pair that is accepted
at all has exactly one DER signature, and every raw signature that is
accepted is that of a pair with one. -/
theorem verifyDer_agrees (key : PublicKey) (digest : Digest384) :
    (∀ signature, verifyDer key digest signature = true
      ↔ ∃ pair : Pair, pair.InRange ∧ signature = pair.der
        ∧ verifyRaw key digest pair.raw = true)
      ∧ (∀ pair : Pair, pair.InRange →
          verifyRaw key digest pair.raw = true →
          ∃! signature, verifyDer key digest signature = true
            ∧ Pair.ofDer? signature = some pair)
      ∧ ∀ raw, verifyRaw key digest raw = true →
          ∃ pair : Pair, pair.InRange ∧ raw = pair.raw
            ∧ verifyDer key digest pair.der = true := by
  have hiff (signature : Bytes) : verifyDer key digest signature = true
      ↔ ∃ pair : Pair, pair.InRange ∧ signature = pair.der
        ∧ verifyRaw key digest pair.raw = true := by
    rw [verifyDer_eq_true_iff]
    constructor
    · rintro ⟨pair, hread, haccepts⟩
      have hrange := inRange_of_accepts haccepts
      refine ⟨pair, hrange, (ofDer?_eq_some_iff.1 hread).2, ?_⟩
      rw [verifyRaw, ofRaw_raw hrange]
      exact haccepts
    · rintro ⟨pair, hrange, rfl, hraw⟩
      rw [verifyRaw, ofRaw_raw hrange] at hraw
      exact ⟨pair,
        ofDer?_eq_some_iff.2 ⟨length_integers_lt hrange, rfl⟩, hraw⟩
  refine ⟨hiff, ?_, ?_⟩
  · intro pair hrange hraw
    refine ⟨pair.der, ⟨(hiff _).2 ⟨pair, hrange, rfl, hraw⟩, ?_⟩, ?_⟩
    · exact ofDer?_eq_some_iff.2 ⟨length_integers_lt hrange, rfl⟩
    · rintro other ⟨-, hread⟩
      exact (ofDer?_eq_some_iff.1 hread).2
  · intro raw hraw
    have hrange : (Pair.ofRaw raw).InRange := inRange_of_accepts hraw
    refine ⟨Pair.ofRaw raw, hrange, (raw_ofRaw raw).symm, ?_⟩
    refine (hiff _).2 ⟨Pair.ofRaw raw, hrange, rfl, ?_⟩
    rw [raw_ofRaw]
    exact hraw

end Ecdsa

end Attestation
