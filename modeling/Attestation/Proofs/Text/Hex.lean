/-
Hexadecimal texts. A text can be read as a byte string exactly when it
is, in small letters, what the byte string is written as
(`decode_encode_iff`). So every mixture of small and capital letters is
read, each byte string has one spelling in small letters, and a text
with anything else in it, of any script, is refused.

The reader works on the bytes of the text as UTF-8, in pairs, so the
statement is first about bytes: a text is the spelling of a byte string
if each pair of its bytes is two digits of either case (`Spells`, with
an equation for a pair in front). From there to characters it takes that
each digit is a visible character, which is one byte, and that no
character beyond ASCII has a digit as its small letter
(`visible_of_toLower`).

The order in which the reader finds faults is no part of this: it checks
that the length is even before it looks at any digit, and gives the
place of the first byte that is no digit. What it accepts has an even
length anyway, since it is a list of pairs.
-/
import Attestation.Proofs.Text.Blank
import Attestation.Text.Hex

namespace Attestation

namespace Hex

variable {b : UInt8} {v : Nat} {data result : Bytes}

-- ============================================================= digits

/-- The digits are those of the values below sixteen, in either
case. -/
theorem value?_eq_some_iff :
    value? b = some v
      ↔ v < 16 ∧ (Char.ofNat b.toNat).toLower = digit v := by
  have hbytes : ∀ n < 256, (∀ v ∈ value? (UInt8.ofNat n), v < 16)
      ∧ ∀ v < 16, value? (UInt8.ofNat n) = some v
          ↔ (Char.ofNat n).toLower = digit v := by
    decide +kernel
  obtain ⟨hlt, hdigit⟩ := hbytes b.toNat b.toNat_lt
  rw [UInt8.ofNat_toNat] at hlt hdigit
  refine ⟨fun h => ?_, fun h => (hdigit v h.1).2 h.2⟩
  have hv : v < 16 := hlt v h
  exact ⟨hv, (hdigit v hv).1 h⟩

theorem visible_digit (h : v < 16) : Utf8.Visible (digit v) := by
  have hall : ∀ v < 16, 0x20 < (digit v).toNat ∧ (digit v).toNat < 0x80 := by
    decide
  exact hall v h

theorem encode_cons (b : UInt8) (rest : Bytes) :
    encode (b :: rest)
      = digit (b.toNat / 16) :: digit (b.toNat % 16) :: encode rest :=
  rfl

/-- Two digits are read as the byte that is written as them. -/
theorem value?_pair_iff {high low : UInt8} :
    (∃ h l, value? high = some h ∧ value? low = some l
        ∧ UInt8.ofNat (16 * h + l) = b)
      ↔ (Char.ofNat high.toNat).toLower = digit (b.toNat / 16)
        ∧ (Char.ofNat low.toNat).toLower = digit (b.toNat % 16) := by
  have hb : b.toNat < 256 := b.toNat_lt
  refine ⟨fun h => ?_, fun h => ?_⟩
  · obtain ⟨h, l, hhigh, hlow, rfl⟩ := h
    obtain ⟨hh, hhigh⟩ := value?_eq_some_iff.1 hhigh
    obtain ⟨hl, hlow⟩ := value?_eq_some_iff.1 hlow
    have hvalue : (UInt8.ofNat (16 * h + l)).toNat = 16 * h + l :=
      UInt8.toNat_ofNat_of_lt' (by show _ < 256; omega)
    have hdiv : (16 * h + l) / 16 = h := by omega
    have hmod : (16 * h + l) % 16 = l := by omega
    rw [hvalue, hdiv, hmod]
    exact ⟨hhigh, hlow⟩
  · refine ⟨b.toNat / 16, b.toNat % 16,
      value?_eq_some_iff.2 ⟨by omega, h.1⟩,
      value?_eq_some_iff.2 ⟨by omega, h.2⟩, ?_⟩
    rw [Nat.div_add_mod, UInt8.ofNat_toNat]

-- ============================================================== texts

/-- Bytes that spell a byte string as characters, in letters of either
case. -/
def Spells (data result : Bytes) : Prop :=
  (Utf8.ofAscii data).map Char.toLower = encode result

theorem spells_nil_iff : Spells [] result ↔ result = [] := by
  cases result with
  | nil => simp [Spells, Utf8.ofAscii, encode]
  | cons b rest => simp [Spells, Utf8.ofAscii, encode_cons]

theorem spells_cons_iff {high low : UInt8} {rest : Bytes} :
    Spells (high :: low :: rest) result
      ↔ ∃ h l later, value? high = some h ∧ value? low = some l
          ∧ result = UInt8.ofNat (16 * h + l) :: later
          ∧ Spells rest later := by
  cases result with
  | nil => simp [Spells, Utf8.ofAscii, encode]
  | cons b later =>
    have hsplit : Spells (high :: low :: rest) (b :: later)
        ↔ ((Char.ofNat high.toNat).toLower = digit (b.toNat / 16)
          ∧ (Char.ofNat low.toNat).toLower = digit (b.toNat % 16))
            ∧ Spells rest later := by
      simp [Spells, Utf8.ofAscii, encode_cons, and_assoc]
    rw [hsplit, ← value?_pair_iff]
    refine ⟨fun h => ?_, fun h => ?_⟩
    · obtain ⟨⟨h, l, hhigh, hlow, rfl⟩, hrest⟩ := h
      exact ⟨h, l, later, hhigh, hlow, rfl, hrest⟩
    · obtain ⟨h, l, other, hhigh, hlow, hsame, hrest⟩ := h
      cases hsame
      exact ⟨⟨h, l, hhigh, hlow, rfl⟩, hrest⟩

/-- Reading goes on after what was read before, two digits at a
time. -/
theorem decodeFrom_eq_ok_iff {index : Nat} {before : Bytes}
    (heven : data.length % 2 = 0) :
    decodeFrom index before data = .ok result
      ↔ ∃ later, result = before.reverse ++ later
          ∧ Spells data later := by
  induction index, before, data using decodeFrom.induct with
  | case1 index before high low rest hhigh =>
    simp [decodeFrom, spells_cons_iff, hhigh]
  | case2 index before high low rest h hlow hhigh =>
    simp [decodeFrom, spells_cons_iff, hhigh, hlow]
  | case3 index before high low rest h l hlow hhigh ih =>
    have hrest : rest.length % 2 = 0 := by
      simp only [List.length_cons] at heven
      omega
    simp only [decodeFrom, hhigh, hlow, ih hrest]
    refine ⟨fun h => ?_, fun h => ?_⟩
    · obtain ⟨later, rfl, hlater⟩ := h
      refine ⟨_ :: later, ?_,
        spells_cons_iff.2 ⟨_, _, _, hhigh, hlow, rfl, hlater⟩⟩
      simp
    · obtain ⟨later, rfl, hlater⟩ := h
      obtain ⟨_, _, next, hh, hl, rfl, hnext⟩ := spells_cons_iff.1 hlater
      rw [hhigh] at hh
      rw [hlow] at hl
      cases hh
      cases hl
      exact ⟨next, by simp, hnext⟩
  | case4 rest index before hshort =>
    match rest, heven, hshort with
    | [], _, _ => simp [decodeFrom, spells_nil_iff, eq_comm]
    | [_], heven, _ => cases heven
    | a :: b :: rest, _, hshort => exact (hshort a b rest rfl).elim

theorem length_encode (data : Bytes) :
    (encode data).length = 2 * data.length := by
  induction data with
  | nil => rfl
  | cons b rest ih =>
    rw [encode_cons, List.length_cons, List.length_cons, ih,
      List.length_cons]
    omega

/-- A text is read as the byte string that it spells, pair by pair. -/
theorem decode_eq_ok_iff : decode data = .ok result ↔ Spells data result := by
  unfold decode
  split
  case isTrue heven =>
    rw [decodeFrom_eq_ok_iff heven]
    simp
  case isFalse hodd =>
    refine ⟨nofun, fun h => ?_⟩
    have hlength := congrArg List.length h
    rw [List.length_map, Utf8.ofAscii, List.length_map, length_encode]
      at hlength
    omega

-- ======================================================== characters

/-- Small letters are visible only of what is visible. -/
theorem visible_of_toLower {c : Char} (h : Utf8.Visible c.toLower) :
    Utf8.Visible c := by
  unfold Char.toLower at h
  split at h
  case isTrue hupper =>
    have ha : 65 ≤ c.toNat := hupper.1
    have hz : c.toNat ≤ 90 := hupper.2
    exact ⟨by omega, by omega⟩
  case isFalse => exact h

theorem visible_of_mem_encode {c : Char} (h : c ∈ encode data) :
    Utf8.Visible c := by
  obtain ⟨b, -, hc⟩ := List.mem_flatMap.1 h
  have hb : b.toNat < 256 := b.toNat_lt
  rcases List.mem_cons.1 hc with rfl | hc
  · exact visible_digit (by omega)
  · rw [List.mem_singleton.1 hc]
    exact visible_digit (by omega)

/-- A text that is, in small letters, what a byte string is written as
has visible characters only. -/
theorem visible_of_spelling {text : List Char}
    (h : text.map Char.toLower = encode data) :
    ∀ c ∈ text, Utf8.Visible c := by
  intro c hc
  have hmem : c.toLower ∈ encode data := by
    rw [← h]
    exact List.mem_map_of_mem hc
  exact visible_of_toLower (visible_of_mem_encode hmem)

/-- A text is read as a byte string exactly when its small letters are
what the byte string is written as. -/
theorem decode_encode_iff {text : List Char} :
    decode (Utf8.encode text) = .ok result
      ↔ text.map Char.toLower = encode result := by
  rw [decode_eq_ok_iff]
  refine ⟨fun h => ?_, fun h => ?_⟩
  · have hascii : ∀ b ∈ Utf8.encode text, b.toNat < 128 := by
      intro b hb
      rw [← Utf8.toNat_ofByte]
      exact (visible_of_spelling h _ (List.mem_map_of_mem hb)).2
    have htext := (Utf8.encode_eq_iff_ofAscii hascii).1 rfl
    rw [htext]
    exact h
  · have hascii := Utf8.ofAscii_encode fun c hc =>
      (visible_of_spelling h c hc).2
    rw [Spells, hascii]
    exact h

/-- With blanks around it allowed, a byte string is spelled by digits
between blanks. -/
theorem spelling_trim_iff {text : List Char} :
    (Text.trim text).map Char.toLower = encode result
      ↔ ∃ digits, Text.Frames digits text
          ∧ digits.map Char.toLower = encode result :=
  Text.trim_iff fun _ h => visible_of_spelling h

/-- Between blanks a text is read as the byte string that its digits are
written for. -/
theorem decode_trim_iff {text : List Char} :
    decode (Utf8.encode (Text.trim text)) = .ok result
      ↔ ∃ digits, Text.Frames digits text
          ∧ digits.map Char.toLower = encode result :=
  decode_encode_iff.trans spelling_trim_iff

/-- Byte strings are written in small letters. -/
theorem map_toLower_encode (data : Bytes) :
    (encode data).map Char.toLower = encode data := by
  have hdigit : ∀ v < 16, (digit v).toLower = digit v := by
    decide
  induction data with
  | nil => rfl
  | cons b rest ih =>
    have hb : b.toNat < 256 := b.toNat_lt
    rw [encode_cons, List.map_cons, List.map_cons, ih,
      hdigit _ (by omega), hdigit _ (by omega)]

/-- What is written is read back. -/
theorem decode_text (data : Bytes) :
    decode (Utf8.encode (text data).toList) = .ok data := by
  rw [text, String.toList_ofList]
  exact decode_encode_iff.2 (map_toLower_encode data)

end Hex

end Attestation
