/-
UTF-8 is read and written by functions that are inverse to each other
(`decode_eq_ok_iff`): the bytes that can be read as a text are those
that the text is written as, and no others. So no text has two
spellings, none is spelled with more bytes than it needs, and no half of
a pair of surrogates is read as a character.

The reader looks at ranges of bytes and the writer at ranges of numbers.
The two meet in one statement for each length of a character
(`character_two_iff` and the ones after it), which says in numbers what
the reader accepts and what it makes of it; the rest is arithmetic. The
bounds on the second byte that three of the first bytes have are what
keeps spellings from being too long (`e0`, `f0`), from the surrogates
(`ed`) and from the end of the numbers (`f4`).

With one character settled in both directions (`encodeChar_of_character`
and `character_encodeChar`), a whole text goes by induction on the
characters when it is written and on the number of bytes when it is
read. The reader also counts places and keeps the characters so far; the
statement is general in both.

Two small theories end the module, of texts that are ASCII, where bytes
and characters are the same, and of the visible characters among them,
which are those that digits and symbols are made of.
-/
import Attestation.Text.Utf8
import Mathlib.Data.List.Basic

namespace Attestation

namespace Utf8

variable {b : UInt8} {rest after : Bytes} {ch : Char}

-- ================================================= single characters

/-- A byte that is not the first of a character. -/
def Follows (b : UInt8) : Prop :=
  0x80 ≤ b.toNat ∧ b.toNat ≤ 0xbf

/-- The range of bytes that continue a character, in numbers. -/
theorem follows_iff : 0x80 ≤ b ∧ b ≤ 0xbf ↔ Follows b := by
  rw [UInt8.le_iff_toNat_le, UInt8.le_iff_toNat_le]
  rfl

/-- The bytes after the second one, and the number they lead to. -/
theorem continuation_eq_ok_iff {left seen code n : Nat} :
    continuation left seen code rest = .ok (n, after)
      ↔ ∃ tail : Bytes, rest = tail ++ after ∧ tail.length = left
          ∧ (∀ b ∈ tail, Follows b)
          ∧ n = tail.foldl (fun n b => 64 * n + b.toNat % 64) code := by
  induction left generalizing seen code rest with
  | zero =>
    unfold continuation
    constructor
    · intro h
      cases h
      exact ⟨[], rfl, rfl, List.forall_mem_nil _, rfl⟩
    · intro h
      obtain ⟨tail, hrest, hlen, -, hn⟩ := h
      rw [List.length_eq_zero_iff] at hlen
      subst hlen
      rw [hrest, hn]
      rfl
  | succ left ih =>
    cases rest with
    | nil =>
      unfold continuation
      constructor
      · intro h
        cases h
      · intro h
        obtain ⟨tail, hrest, hlen, -⟩ := h
        rw [(List.append_eq_nil_iff.1 hrest.symm).1] at hlen
        cases hlen
    | cons b rest =>
      unfold continuation
      constructor
      · intro h
        simp only at h
        split at h
        · rename_i hb
          obtain ⟨tail, hrest, hlen, hall, hn⟩ := ih.1 h
          refine ⟨b :: tail, ?_, ?_, ?_, hn⟩
          · rw [hrest, List.cons_append]
          · rw [List.length_cons, hlen]
          · exact List.forall_mem_cons.2 ⟨follows_iff.1 hb, hall⟩
        · cases h
      · intro h
        obtain ⟨tail, hrest, hlen, hall, hn⟩ := h
        cases tail with
        | nil => cases hlen
        | cons b' tail =>
          cases hrest
          obtain ⟨hb, hall⟩ := List.forall_mem_cons.1 hall
          simp only
          rw [if_pos (follows_iff.2 hb)]
          exact ih.2 ⟨tail, rfl, Nat.succ.inj hlen, hall, hn⟩

/-- The first bytes of characters of two bytes. -/
theorem lead?_two (h : 0xc2 ≤ b.toNat) (h' : b.toNat ≤ 0xdf) :
    lead? b = some (2, 0x80, 0xbf) :=
  if_pos ⟨UInt8.le_iff_toNat_le.2 h, UInt8.le_iff_toNat_le.2 h'⟩

/-- The first bytes of characters of three bytes, and what may stand
after them. -/
theorem lead?_three (h : 0xe0 ≤ b.toNat) (h' : b.toNat ≤ 0xef) :
    ∃ low high, lead? b = some (3, low, high)
      ∧ ∀ c : UInt8, low ≤ c ∧ c ≤ high
          ↔ Follows c ∧ (b.toNat = 0xe0 → 0xa0 ≤ c.toNat)
            ∧ (b.toNat = 0xed → c.toNat ≤ 0x9f) := by
  unfold lead? Follows
  simp only [UInt8.le_iff_toNat_le, ← UInt8.toNat_inj, UInt8.reduceToNat]
  split
  · omega
  split
  · exact ⟨_, _, rfl, fun c => by simp only [UInt8.reduceToNat]; omega⟩
  split
  · exact ⟨_, _, rfl, fun c => by simp only [UInt8.reduceToNat]; omega⟩
  split
  · exact ⟨_, _, rfl, fun c => by simp only [UInt8.reduceToNat]; omega⟩
  · omega

/-- The first bytes of characters of four bytes, and what may stand
after them. -/
theorem lead?_four (h : 0xf0 ≤ b.toNat) (h' : b.toNat ≤ 0xf4) :
    ∃ low high, lead? b = some (4, low, high)
      ∧ ∀ c : UInt8, low ≤ c ∧ c ≤ high
          ↔ Follows c ∧ (b.toNat = 0xf0 → 0x90 ≤ c.toNat)
            ∧ (b.toNat = 0xf4 → c.toNat ≤ 0x8f) := by
  unfold lead? Follows
  simp only [UInt8.le_iff_toNat_le, ← UInt8.toNat_inj, UInt8.reduceToNat]
  iterate 4
    split
    · omega
  split
  · exact ⟨_, _, rfl, fun c => by simp only [UInt8.reduceToNat]; omega⟩
  split
  · exact ⟨_, _, rfl, fun c => by simp only [UInt8.reduceToNat]; omega⟩
  split
  · exact ⟨_, _, rfl, fun c => by simp only [UInt8.reduceToNat]; omega⟩
  · omega

/-- No character begins with one of the other bytes. -/
theorem lead?_none (h : b.toNat < 0xc2 ∨ 0xf4 < b.toNat) :
    lead? b = none := by
  unfold lead?
  simp only [UInt8.le_iff_toNat_le, ← UInt8.toNat_inj, UInt8.reduceToNat]
  iterate 7
    split
    · omega
  rfl

/-- A character of more than one byte is read when its first byte says
what may stand second, and this and what follows stands there. -/
theorem character_eq_ok_iff_of_lead {size : Nat} {low high : UInt8}
    (hb : 0x80 ≤ b.toNat) (h : lead? b = some (size, low, high)) :
    character b rest = .ok (ch, after)
      ↔ ∃ c tail, rest = c :: (tail ++ after) ∧ (low ≤ c ∧ c ≤ high)
          ∧ tail.length = size - 2 ∧ (∀ b ∈ tail, Follows b)
          ∧ ch = Char.ofNat (tail.foldl (fun n b => 64 * n + b.toNat % 64)
              (64 * (b.toNat % (0x80 >>> size)) + c.toNat % 64)) := by
  have hascii : ¬b < 0x80 := by
    rw [UInt8.lt_iff_toNat_lt]
    exact Nat.not_lt.2 hb
  rw [character, if_neg hascii, h]
  cases rest with
  | nil =>
    constructor
    · intro h
      cases h
    · intro h
      obtain ⟨c, tail, hrest, -⟩ := h
      cases hrest
  | cons c rest =>
    constructor
    · intro h
      simp only at h
      split at h
      · rename_i hc
        split at h
        · cases h
        · rename_i n after' hn
          cases h
          obtain ⟨tail, hrest, hlen, hall, hn⟩ := continuation_eq_ok_iff.1 hn
          exact ⟨c, tail, by rw [hrest], hc, hlen, hall, by rw [hn]⟩
      · cases h
    · intro h
      obtain ⟨c', tail, hrest, hc, hlen, hall, hch⟩ := h
      cases hrest
      simp only
      rw [if_pos hc, continuation_eq_ok_iff.2 ⟨tail, rfl, hlen, hall, rfl⟩,
        hch]

theorem character_one (h : b.toNat ≤ 0x7f) :
    character b rest = .ok (Char.ofNat b.toNat, rest) := by
  have hb : b < 0x80 := UInt8.lt_iff_toNat_lt.2 (Nat.lt_succ_of_le h)
  rw [character, if_pos hb]

/-- A character of two bytes: any byte may continue it. -/
theorem character_two_iff (h : 0xc2 ≤ b.toNat) (h' : b.toNat ≤ 0xdf) :
    character b rest = .ok (ch, after)
      ↔ ∃ c, rest = c :: after ∧ Follows c
          ∧ ch = Char.ofNat (64 * (b.toNat % 32) + c.toNat % 64) := by
  rw [character_eq_ok_iff_of_lead (by omega) (lead?_two h h')]
  constructor
  · intro h
    obtain ⟨c, tail, hrest, hc, hlen, -, hch⟩ := h
    rw [Nat.sub_self, List.length_eq_zero_iff] at hlen
    subst hlen
    exact ⟨c, hrest, follows_iff.1 hc, hch⟩
  · intro h
    obtain ⟨c, hrest, hc, hch⟩ := h
    exact ⟨c, [], hrest, follows_iff.2 hc, rfl, List.forall_mem_nil _, hch⟩

/-- A character of three bytes: after `e0` the second byte is not too
small, and after `ed` not too large. -/
theorem character_three_iff (h : 0xe0 ≤ b.toNat) (h' : b.toNat ≤ 0xef) :
    character b rest = .ok (ch, after)
      ↔ ∃ c d, rest = c :: d :: after
          ∧ (Follows c ∧ (b.toNat = 0xe0 → 0xa0 ≤ c.toNat)
            ∧ (b.toNat = 0xed → c.toNat ≤ 0x9f))
          ∧ Follows d
          ∧ ch = Char.ofNat (64 * (64 * (b.toNat % 16) + c.toNat % 64)
              + d.toNat % 64) := by
  obtain ⟨low, high, hlead, hsecond⟩ := lead?_three h h'
  rw [character_eq_ok_iff_of_lead (by omega) hlead]
  constructor
  · intro h
    obtain ⟨c, tail, hrest, hc, hlen, hall, hch⟩ := h
    obtain ⟨d, htail⟩ := List.length_eq_one_iff.1 hlen
    subst htail
    exact ⟨c, d, hrest, (hsecond c).1 hc, hall d List.mem_cons_self, hch⟩
  · intro h
    obtain ⟨c, d, hrest, hc, hd, hch⟩ := h
    exact ⟨c, [d], hrest, (hsecond c).2 hc, rfl,
      List.forall_mem_singleton.2 hd, hch⟩

/-- A character of four bytes: after `f0` the second byte is not too
small, and after `f4` not too large. -/
theorem character_four_iff (h : 0xf0 ≤ b.toNat) (h' : b.toNat ≤ 0xf4) :
    character b rest = .ok (ch, after)
      ↔ ∃ c d e, rest = c :: d :: e :: after
          ∧ (Follows c ∧ (b.toNat = 0xf0 → 0x90 ≤ c.toNat)
            ∧ (b.toNat = 0xf4 → c.toNat ≤ 0x8f))
          ∧ Follows d ∧ Follows e
          ∧ ch = Char.ofNat (64 * (64 * (64 * (b.toNat % 8)
              + c.toNat % 64) + d.toNat % 64) + e.toNat % 64) := by
  obtain ⟨low, high, hlead, hsecond⟩ := lead?_four h h'
  rw [character_eq_ok_iff_of_lead (by omega) hlead]
  constructor
  · intro h
    obtain ⟨c, tail, hrest, hc, hlen, hall, hch⟩ := h
    obtain ⟨d, e, htail⟩ := List.length_eq_two.1 hlen
    subst htail
    obtain ⟨hd, hall⟩ := List.forall_mem_cons.1 hall
    exact ⟨c, d, e, hrest, (hsecond c).1 hc, hd,
      hall e List.mem_cons_self, hch⟩
  · intro h
    obtain ⟨c, d, e, hrest, hc, hd, he, hch⟩ := h
    refine ⟨c, [d, e], hrest, (hsecond c).2 hc, rfl, ?_, hch⟩
    exact List.forall_mem_cons.2 ⟨hd, List.forall_mem_singleton.2 he⟩

-- ============================================================ writing

/-- A number that may be a character is that of one. -/
theorem toNat_ofNat {n : Nat}
    (h : n < 0xd800 ∨ 0xdfff < n ∧ n < 0x110000) :
    (Char.ofNat n).toNat = n := by
  rw [Char.ofNat, dif_pos h]
  rfl

theorem encodeChar_one (h : ch.toNat ≤ 0x7f) :
    String.utf8EncodeChar ch = [UInt8.ofNat ch.toNat] :=
  if_pos h

theorem encodeChar_two (h : 0x7f < ch.toNat) (h' : ch.toNat ≤ 0x7ff) :
    String.utf8EncodeChar ch
      = [UInt8.ofNat (ch.toNat / 64 % 0x20 + 0xc0),
         UInt8.ofNat (ch.toNat % 0x40 + 0x80)] :=
  (if_neg (Nat.not_le.2 h)).trans (if_pos h')

theorem encodeChar_three (h : 0x7ff < ch.toNat) (h' : ch.toNat ≤ 0xffff) :
    String.utf8EncodeChar ch
      = [UInt8.ofNat (ch.toNat / 4096 % 0x10 + 0xe0),
         UInt8.ofNat (ch.toNat / 64 % 0x40 + 0x80),
         UInt8.ofNat (ch.toNat % 0x40 + 0x80)] := by
  have hone : ¬ch.toNat ≤ 0x7f := by omega
  have htwo : ¬ch.toNat ≤ 0x7ff := by omega
  exact (if_neg hone).trans ((if_neg htwo).trans (if_pos h'))

theorem encodeChar_four (h : 0xffff < ch.toNat) :
    String.utf8EncodeChar ch
      = [UInt8.ofNat (ch.toNat / 262144 % 0x08 + 0xf0),
         UInt8.ofNat (ch.toNat / 4096 % 0x40 + 0x80),
         UInt8.ofNat (ch.toNat / 64 % 0x40 + 0x80),
         UInt8.ofNat (ch.toNat % 0x40 + 0x80)] := by
  have hone : ¬ch.toNat ≤ 0x7f := by omega
  have htwo : ¬ch.toNat ≤ 0x7ff := by omega
  have hthree : ¬ch.toNat ≤ 0xffff := by omega
  exact (if_neg hone).trans ((if_neg htwo).trans (if_neg hthree))

/-- No character is above U+10FFFF, and none is a surrogate. -/
theorem toNat_valid (ch : Char) :
    ch.toNat < 0xd800 ∨ 0xdfff < ch.toNat ∧ ch.toNat < 0x110000 :=
  ch.valid

theorem ofNat_eq_of_toNat {n : Nat} (h : n = b.toNat) :
    UInt8.ofNat n = b := by
  rw [h, UInt8.ofNat_toNat]

theorem eq_ofNat_of_toNat {n : Nat} (h : n = ch.toNat) :
    ch = Char.ofNat n := by
  rw [h, Char.ofNat_toNat]

/-- The last six bits of a number, as a byte after the first. -/
theorem toNat_following (n : Nat) :
    (UInt8.ofNat (n % 0x40 + 0x80)).toNat = n % 0x40 + 0x80 :=
  UInt8.toNat_ofNat_of_lt' (by show _ < 256; omega)

/-- Six bits with the mark of a continuation make a byte that continues.
-/
theorem follows_following (n : Nat) :
    Follows (UInt8.ofNat (n % 0x40 + 0x80)) := by
  unfold Follows
  rw [toNat_following]
  omega

/-- Whatever is read as a character was written from it. -/
theorem encodeChar_of_character (h : character b rest = .ok (ch, after)) :
    b :: rest = String.utf8EncodeChar ch ++ after := by
  by_cases hone : b.toNat ≤ 0x7f
  · rw [character_one hone] at h
    cases h
    have hch := toNat_ofNat (n := b.toNat) (by omega)
    rw [encodeChar_one (by omega), hch, UInt8.ofNat_toNat]
    rfl
  -- the first byte decides about the length, and some are none
  by_cases hlead : b.toNat < 0xc2 ∨ 0xf4 < b.toNat
  · have hascii : ¬b < 0x80 := by
      rw [UInt8.lt_iff_toNat_lt]
      exact fun hlt => hone (Nat.le_of_lt_succ hlt)
    rw [character, if_neg hascii, lead?_none hlead] at h
    cases h
  by_cases htwo : b.toNat ≤ 0xdf
  · obtain ⟨c, hrest, hc, hch⟩ :=
      (character_two_iff (by omega) htwo).1 h
    unfold Follows at hc
    have hn := toNat_ofNat (n := 64 * (b.toNat % 32) + c.toNat % 64)
      (by omega)
    rw [← hch] at hn
    rw [encodeChar_two (by omega) (by omega), hrest,
      ofNat_eq_of_toNat (b := b) (by omega),
      ofNat_eq_of_toNat (b := c) (by omega)]
    rfl
  by_cases hthree : b.toNat ≤ 0xef
  · obtain ⟨c, d, hrest, ⟨hc, hlow, hhigh⟩, hd, hch⟩ :=
      (character_three_iff (by omega) hthree).1 h
    unfold Follows at hc hd
    have hn := toNat_ofNat
      (n := 64 * (64 * (b.toNat % 16) + c.toNat % 64) + d.toNat % 64)
      (by omega)
    rw [← hch] at hn
    rw [encodeChar_three (by omega) (by omega), hrest,
      ofNat_eq_of_toNat (b := b) (by omega),
      ofNat_eq_of_toNat (b := c) (by omega),
      ofNat_eq_of_toNat (b := d) (by omega)]
    rfl
  · obtain ⟨c, d, e, hrest, ⟨hc, hlow, hhigh⟩, hd, he, hch⟩ :=
      (character_four_iff (by omega) (by omega)).1 h
    unfold Follows at hc hd he
    have hn := toNat_ofNat
      (n := 64 * (64 * (64 * (b.toNat % 8) + c.toNat % 64)
        + d.toNat % 64) + e.toNat % 64)
      (by omega)
    rw [← hch] at hn
    rw [encodeChar_four (by omega), hrest,
      ofNat_eq_of_toNat (b := b) (by omega),
      ofNat_eq_of_toNat (b := c) (by omega),
      ofNat_eq_of_toNat (b := d) (by omega),
      ofNat_eq_of_toNat (b := e) (by omega)]
    rfl

/-- The bytes of a character are read as it. -/
theorem character_encodeChar
    (h : b :: rest = String.utf8EncodeChar ch ++ after) :
    character b rest = .ok (ch, after) := by
  -- that it is no surrogate is what the bounds on the second byte need
  have hvalid := toNat_valid ch
  have htoNat {n : Nat} (hn : n < 256) : (UInt8.ofNat n).toNat = n :=
    UInt8.toNat_ofNat_of_lt' hn
  by_cases hone : ch.toNat ≤ 0x7f
  · rw [encodeChar_one hone] at h
    obtain ⟨hb, hrest⟩ := List.cons.inj h
    have hn : b.toNat = ch.toNat := by rw [hb, htoNat (by omega)]
    rw [character_one (by omega), hn, Char.ofNat_toNat, hrest]
    rfl
  by_cases htwo : ch.toNat ≤ 0x7ff
  · rw [encodeChar_two (by omega) htwo] at h
    obtain ⟨hb, hrest⟩ := List.cons.inj h
    have hn : b.toNat = ch.toNat / 64 % 0x20 + 0xc0 := by
      rw [hb, htoNat (by omega)]
    refine (character_two_iff (by omega) (by omega)).2
      ⟨_, hrest, follows_following _, eq_ofNat_of_toNat ?_⟩
    rw [toNat_following]
    omega
  by_cases hthree : ch.toNat ≤ 0xffff
  · rw [encodeChar_three (by omega) hthree] at h
    obtain ⟨hb, hrest⟩ := List.cons.inj h
    have hn : b.toNat = ch.toNat / 4096 % 0x10 + 0xe0 := by
      rw [hb, htoNat (by omega)]
    refine (character_three_iff (by omega) (by omega)).2
      ⟨_, _, hrest, ⟨follows_following _, ?_, ?_⟩, follows_following _,
        eq_ofNat_of_toNat ?_⟩
    all_goals
      simp only [toNat_following]
      omega
  · rw [encodeChar_four (by omega)] at h
    obtain ⟨hb, hrest⟩ := List.cons.inj h
    have hn : b.toNat = ch.toNat / 262144 % 0x08 + 0xf0 := by
      rw [hb, htoNat (by omega)]
    refine (character_four_iff (by omega) (by omega)).2
      ⟨_, _, _, hrest, ⟨follows_following _, ?_, ?_⟩, follows_following _,
        follows_following _, eq_ofNat_of_toNat ?_⟩
    all_goals
      simp only [toNat_following]
      omega

-- ========================================================== whole texts

variable {index : Nat} {before text : List Char} {data : Bytes}

/-- What does not begin with a character is no text. -/
theorem decodeFrom_of_error {e : Option Nat}
    (h : character b rest = .error e) :
    ∃ fault, decodeFrom index before (b :: rest) = .error fault := by
  cases e with
  | none =>
    refine ⟨.incomplete index, ?_⟩
    rw [decodeFrom]
    split
    · rfl
    all_goals simp_all
  | some length =>
    refine ⟨.invalid length index, ?_⟩
    rw [decodeFrom]
    split
    all_goals simp_all

/-- Behind a character the text goes on. -/
theorem decodeFrom_of_ok (h : character b rest = .ok (ch, after)) :
    decodeFrom index before (b :: rest)
      = decodeFrom (index + ch.utf8Size) (ch :: before) after := by
  rw [decodeFrom]
  split
  all_goals simp_all

/-- A text that is written as bytes begins with a character that can be
read. -/
theorem exists_character_of_encode (h : b :: rest = encode text) :
    ∃ ch later, text = ch :: later
      ∧ character b rest = .ok (ch, encode later) := by
  cases text with
  | nil => cases h
  | cons ch later => exact ⟨ch, later, rfl, character_encodeChar h⟩

/-- Reading goes on after what was read before. -/
theorem decodeFrom_eq_ok_iff :
    decodeFrom index before data = .ok text
      ↔ ∃ later, text = before.reverse ++ later ∧ data = encode later := by
  -- both kinds of fault end the reading, and nothing is written so
  have hbad {index : Nat} {before : List Char} {b : UInt8} {rest : Bytes}
      {e : Option Nat} (hc : character b rest = .error e) :
      decodeFrom index before (b :: rest) = .ok text
        ↔ ∃ later, text = before.reverse ++ later
            ∧ b :: rest = encode later := by
    constructor
    · intro h
      obtain ⟨fault, hfault⟩ := decodeFrom_of_error hc
      rw [hfault] at h
      cases h
    · intro h
      obtain ⟨later, -, hlater⟩ := h
      obtain ⟨ch, later, -, hch⟩ := exists_character_of_encode hlater
      rw [hc] at hch
      cases hch
  induction index, before, data using decodeFrom.induct with
  | case1 index before =>
    rw [decodeFrom]
    constructor
    · intro h
      cases h
      exact ⟨[], (List.append_nil _).symm, rfl⟩
    · intro h
      obtain ⟨later, htext, hlater⟩ := h
      cases later with
      | nil => rw [htext, List.append_nil]
      | cons ch later =>
        -- a character is written in at least one byte
        have hlen := congrArg List.length hlater
        rw [encode, List.flatMap_cons, List.length_append,
          String.length_utf8EncodeChar] at hlen
        have hpos := ch.utf8Size_pos
        simp only [List.length_nil] at hlen
        omega
  | case2 index before b rest hc => exact hbad hc
  | case3 index before b rest length hc => exact hbad hc
  | case4 index before b rest ch after hc ih =>
    rw [decodeFrom_of_ok hc]
    refine ih.trans ?_
    constructor
    · intro h
      obtain ⟨later, htext, hlater⟩ := h
      refine ⟨ch :: later, ?_, ?_⟩
      · rw [htext, List.reverse_cons, List.append_assoc]
        rfl
      · rw [encodeChar_of_character hc, hlater]
        rfl
    · intro h
      obtain ⟨later, htext, hlater⟩ := h
      obtain ⟨ch', later', hsame, hch⟩ := exists_character_of_encode hlater
      rw [hc] at hch
      cases hch
      refine ⟨later', ?_, rfl⟩
      rw [htext, hsame, List.reverse_cons, List.append_assoc]
      rfl

/-- Bytes are read as a text exactly when the text is written as
them. -/
theorem decode_eq_ok_iff : decode data = .ok text ↔ data = encode text := by
  rw [decode, decodeFrom_eq_ok_iff]
  constructor
  · intro h
    obtain ⟨later, htext, hdata⟩ := h
    rw [hdata, htext]
    rfl
  · intro h
    exact ⟨text, rfl, h⟩

/-- No two texts are written alike. -/
theorem encode_injective {text' : List Char}
    (h : encode text = encode text') : text = text' := by
  have hread : decode (encode text) = .ok text := decode_eq_ok_iff.2 rfl
  rw [decode_eq_ok_iff.2 h] at hread
  cases hread
  rfl

-- ============================================================== ASCII

/-- Bytes as characters of the same numbers. -/
def ofAscii (data : Bytes) : List Char :=
  data.map fun b => Char.ofNat b.toNat

theorem toNat_ofByte (b : UInt8) : (Char.ofNat b.toNat).toNat = b.toNat :=
  toNat_ofNat (Or.inl (Nat.lt_trans b.toNat_lt (by decide)))

/-- A byte below 128 stands for a character alone. -/
theorem encode_ofAscii (h : ∀ b ∈ data, b.toNat < 128) :
    encode (ofAscii data) = data := by
  induction data with
  | nil => rfl
  | cons b rest ih =>
    obtain ⟨hb, hrest⟩ := List.forall_mem_cons.1 h
    have hone : (Char.ofNat b.toNat).toNat ≤ 0x7f := by
      rw [toNat_ofByte]
      omega
    show String.utf8EncodeChar (Char.ofNat b.toNat)
      ++ encode (ofAscii rest) = _
    rw [encodeChar_one hone, toNat_ofByte, UInt8.ofNat_toNat, ih hrest]
    rfl

/-- A character below 128 is a byte alone. -/
theorem ofAscii_encode (h : ∀ c ∈ text, c.toNat < 128) :
    ofAscii (encode text) = text := by
  induction text with
  | nil => rfl
  | cons c rest ih =>
    obtain ⟨hc, hrest⟩ := List.forall_mem_cons.1 h
    have hbyte : (UInt8.ofNat c.toNat).toNat = c.toNat :=
      UInt8.toNat_ofNat_of_lt' (Nat.lt_trans hc (by decide))
    show ofAscii (String.utf8EncodeChar c ++ encode rest) = _
    rw [encodeChar_one (Nat.le_of_lt_succ hc)]
    show Char.ofNat (UInt8.ofNat c.toNat).toNat :: ofAscii (encode rest) = _
    rw [hbyte, Char.ofNat_toNat, ih hrest]

/-- A character of ASCII above the space. -/
def Visible (c : Char) : Prop :=
  0x20 < c.toNat ∧ c.toNat < 0x80

/-- A text is written as bytes below 128 exactly when they are its
characters. -/
theorem encode_eq_iff_ofAscii (h : ∀ b ∈ data, b.toNat < 128) :
    encode text = data ↔ text = ofAscii data := by
  refine ⟨fun htext => encode_injective ?_, fun htext => ?_⟩
  · rw [htext, encode_ofAscii h]
  · rw [htext, encode_ofAscii h]

end Utf8

end Attestation
