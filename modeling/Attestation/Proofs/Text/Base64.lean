/-
Base64 texts. A text can be read as a byte string exactly when it is
what the byte string is written as (`decode_eq_ok_iff`): every byte
string has one spelling, padded to whole groups and with zeros in the
bits that belong to no byte.

Both sides go group by group. A group of four symbols is the number that
they spell in base 64 (`spelled`), three bytes are the number that they
spell in base 256, and these are the same numbers. So that the last
group is no exception, it is filled up first: one or two bytes become
two or three symbols, whose number has 4 or 2 bits to spare (`surplus`),
and these are the bits that have to be zero (`fill_eq_iff`).

Reading has two modes, one for all groups but the last and one for the
last, and is cut after the groups before it (`lastStart`). The whole
groups have symbols only (`decodeGroups_eq_ok_iff`). The last one is a
state machine over at most four bytes, which allows padding from the
third place on and nothing behind padding; what it lets through is
`Padded`, by induction on the bytes, with the equations that follow the
definition and determine the values.

To compare the two whole texts, the written one is cut at the same
place. A cut after a number of bytes that 3 divides falls between two
groups (`encode_append`), and the lengths force the last groups to
match.

The last part carries the statement over to characters, where the
symbols are visible ones, so that blanks around a text can be told from
the text.
-/
import Attestation.Proofs.Bytes.Digits
import Attestation.Proofs.Text.Utf8
import Attestation.Text.Base64
import Mathlib.Data.Nat.Digits.Defs

namespace Attestation

namespace Base64

variable {a b c d : UInt8} {v : Nat} {data result : Bytes}

-- ============================================================ symbols

theorem value?_symbol (h : v < 64) : value? (symbol v) = some v := by
  have hall : ∀ v < 64, value? (symbol v) = some v := by decide
  exact hall v h

/-- A byte that has a value is the symbol of the value. -/
theorem symbol_of_value? (h : value? b = some v) :
    v < 64 ∧ b = symbol v := by
  have hbytes : ∀ n < 256, ∀ v ∈ value? (UInt8.ofNat n),
      v < 64 ∧ UInt8.ofNat n = symbol v := by
    decide +kernel
  have hbyte := hbytes b.toNat b.toNat_lt v
  rw [UInt8.ofNat_toNat] at hbyte
  exact hbyte h

theorem value?_pad : value? pad = none :=
  rfl

theorem symbol_ne_pad (h : v < 64) : symbol v ≠ pad := by
  intro hpad
  have hvalue := value?_symbol h
  rw [hpad, value?_pad] at hvalue
  cases hvalue

-- ============================================================= digits

/-- The last `width` base-64 digits of `n`, most significant first. -/
def digits : (width n : Nat) → List Nat
  | 0, _ => []
  | width + 1, n => n / 64 ^ width % 64 :: digits width n

theorem length_digits (width n : Nat) : (digits width n).length = width := by
  induction width with
  | zero => rfl
  | succ width ih => rw [digits, List.length_cons, ih]

theorem digits_lt {width n : Nat} (h : v ∈ digits width n) : v < 64 := by
  induction width with
  | zero => cases h
  | succ width ih =>
    rcases List.mem_cons.1 h with rfl | h
    · exact Nat.mod_lt _ (by decide)
    · exact ih h

/-- The first value is the most significant digit. -/
theorem spelled_eq_ofDigits (vs : List Nat) :
    spelled vs = Nat.ofDigits 64 vs.reverse := by
  rw [Nat.ofDigits_eq_foldr, List.foldr_reverse]
  simp only [spelled, Nat.cast_id, Nat.add_comm]

theorem spelled_cons (v : Nat) (vs : List Nat) :
    spelled (v :: vs) = v * 64 ^ vs.length + spelled vs := by
  rw [spelled_eq_ofDigits, spelled_eq_ofDigits, List.reverse_cons,
    Nat.ofDigits_append, Nat.ofDigits_singleton, List.length_reverse,
    Nat.mul_comm, Nat.add_comm]

theorem spelled_lt {vs : List Nat} (h : ∀ v ∈ vs, v < 64) :
    spelled vs < 64 ^ vs.length := by
  rw [spelled_eq_ofDigits, ← List.length_reverse]
  exact Nat.ofDigits_lt_base_pow_length (by decide)
    fun v hv => h v (List.mem_reverse.1 hv)

/-- Symbols of a number: as many of them that spell the same number are
the same. -/
theorem spelled_injective {vs ws : List Nat}
    (hlength : vs.length = ws.length) (hvs : ∀ v ∈ vs, v < 64)
    (hws : ∀ v ∈ ws, v < 64) (h : spelled vs = spelled ws) :
    vs = ws := by
  rw [spelled_eq_ofDigits, spelled_eq_ofDigits] at h
  refine List.reverse_inj.1
    (Nat.ofDigits_inj_of_len_eq (by decide) ?_ ?_ ?_ h)
  · rw [List.length_reverse, List.length_reverse, hlength]
  · exact fun v hv => hvs v (List.mem_reverse.1 hv)
  · exact fun v hv => hws v (List.mem_reverse.1 hv)

/-- The digits of a number spell what is left of it at their width. -/
theorem spelled_digits (width n : Nat) :
    spelled (digits width n) = n % 64 ^ width := by
  induction width with
  | zero => simp [digits, spelled, Nat.mod_one]
  | succ width ih =>
    rw [digits, spelled_cons, ih, length_digits, Nat.mod_pow_succ,
      Nat.mul_comm, Nat.add_comm]

-- ============================================================= groups

/-- The bits of some symbols that belong to no byte. -/
def surplus (count : Nat) : Nat :=
  6 * count % 8

/-- The values of the symbols for one to three bytes. -/
def fill (data : Bytes) : List Nat :=
  digits (data.length + 1)
    (Bytes.bigEndian data * 2 ^ surplus (data.length + 1))

/-- One to three bytes are written as their filled up group with padding
behind it. -/
theorem encode_of_length {data : Bytes} (hpos : 0 < data.length)
    (h : data.length ≤ 3) :
    encode data = (fill data).map symbol
      ++ List.replicate (3 - data.length) pad := by
  match data, hpos, h with
  | [x], _, _ =>
    have hx : x.toNat < 256 := x.toNat_lt
    have hfill : fill [x] = [x.toNat / 4, x.toNat % 4 * 16] := by
      simp [fill, digits, surplus, Bytes.bigEndian]
      omega
    rw [hfill]
    rfl
  | [x, y], _, _ =>
    have hlt : Bytes.bigEndian [x, y] < 256 ^ 2 := Bytes.bigEndian_lt _
    unfold encode
    generalize hn : Bytes.bigEndian [x, y] = n at hlt
    have hfill : fill [x, y] = [n >>> 10, n >>> 4 % 64, n % 16 * 4] := by
      simp [fill, digits, surplus, hn, Nat.shiftRight_eq_div_pow]
      omega
    rw [hfill]
    rfl
  | [x, y, z], _, _ =>
    have hlt : Bytes.bigEndian [x, y, z] < 256 ^ 3 := Bytes.bigEndian_lt _
    unfold encode
    generalize hn : Bytes.bigEndian [x, y, z] = n at hlt
    have hfill : fill [x, y, z]
        = [n >>> 18, n >>> 12 % 64, n >>> 6 % 64, n % 64] := by
      simp [fill, digits, surplus, hn, Nat.shiftRight_eq_div_pow]
      omega
    rw [hfill]
    rfl

/-- Symbols have room for their bytes and the bits that are left. -/
theorem pow_surplus {k : Nat} (hpos : 0 < k) (h : k ≤ 3) :
    256 ^ k * 2 ^ surplus (k + 1) = 64 ^ (k + 1) := by
  have hk : k = 1 ∨ k = 2 ∨ k = 3 := by omega
  rcases hk with rfl | rfl | rfl <;> rfl

/-- The filled up group spells the number of the bytes, moved up by the
bits to spare. -/
theorem spelled_fill (hpos : 0 < data.length) (h : data.length ≤ 3) :
    spelled (fill data)
      = Bytes.bigEndian data * 2 ^ surplus (data.length + 1) := by
  rw [fill, spelled_digits]
  refine Nat.mod_eq_of_lt ?_
  rw [← pow_surplus hpos h]
  exact Nat.mul_lt_mul_of_pos_right (Bytes.bigEndian_lt data)
    (Nat.two_pow_pos _)

/-- Values are read as some bytes exactly when they are those that the
bytes are filled up to. -/
theorem fill_eq_iff {vs : List Nat} {k : Nat} (hvs : ∀ v ∈ vs, v < 64)
    (hlength : vs.length = k + 1) (hpos : 0 < k) (h : k ≤ 3) :
    (spelled vs % 2 ^ surplus (k + 1) = 0
        ∧ Bytes.ofNat k (spelled vs >>> surplus (k + 1)) = data)
      ↔ data.length = k ∧ vs = fill data := by
  have hlt := spelled_lt hvs
  rw [hlength, ← pow_surplus hpos h] at hlt
  rw [Nat.shiftRight_eq_div_pow]
  refine ⟨fun hread => ?_, fun hread => ?_⟩
  · obtain ⟨hzeros, rfl⟩ := hread
    have hk : (Bytes.ofNat k (spelled vs / 2 ^ surplus (k + 1))).length
        = k := Bytes.length_ofNat _ _
    refine ⟨hk, spelled_injective ?_ hvs (fun _ => digits_lt) ?_⟩
    · rw [fill, length_digits, hk, hlength]
    · rw [spelled_fill (by rwa [hk]) (by rwa [hk]), hk,
        Bytes.bigEndian_ofNat, Nat.div_mul_cancel]
      · exact Nat.dvd_of_mod_eq_zero hzeros
      · exact Nat.div_lt_of_lt_mul (by rwa [Nat.mul_comm])
  · obtain ⟨rfl, rfl⟩ := hread
    rw [spelled_fill hpos h, Nat.mul_mod_left,
      Nat.mul_div_cancel _ (Nat.two_pow_pos _)]
    exact ⟨rfl, Bytes.ofNat_bigEndian data⟩

-- ================================================ the last group

/-- The bytes are the symbols for some values, and then padding, which
may not be the first or second symbol; `index` symbols were before. -/
def Padded (index : Nat) (group : Bytes) (vs : List Nat) : Prop :=
  (∀ v ∈ vs, v < 64) ∧ ∃ count,
    group = vs.map symbol ++ List.replicate count pad
      ∧ (count = 0 ∨ 2 ≤ index + vs.length)

section

variable {index : Nat} {rest group : Bytes} {vs : List Nat}

theorem padded_nil_iff : Padded index [] vs ↔ vs = [] := by
  refine ⟨fun h => ?_, fun h => ?_⟩
  · obtain ⟨-, count, hgroup, -⟩ := h
    cases vs with
    | nil => rfl
    | cons v vs => cases hgroup
  · subst h
    exact ⟨nofun, 0, rfl, Or.inl rfl⟩

theorem padded_pad_iff :
    Padded index (pad :: rest) vs
      ↔ vs = [] ∧ 2 ≤ index ∧ rest.all (· == pad) = true := by
  refine ⟨fun h => ?_, fun h => ?_⟩
  · obtain ⟨hvs, count, hgroup, hindex⟩ := h
    cases vs with
    | cons v vs =>
      -- no symbol of the alphabet is padding
      have hv : v < 64 := hvs v List.mem_cons_self
      exact absurd (List.cons.inj hgroup).1.symm (symbol_ne_pad hv)
    | nil =>
      cases count with
      | zero => cases hgroup
      | succ count =>
        obtain ⟨-, rfl⟩ := List.cons.inj hgroup
        refine ⟨rfl, ?_, by simp⟩
        simpa using hindex
  · obtain ⟨rfl, hindex, hrest⟩ := h
    have hall : rest = List.replicate rest.length pad :=
      List.eq_replicate_iff.2 ⟨rfl, by simpa using hrest⟩
    refine ⟨nofun, rest.length + 1, ?_, Or.inr hindex⟩
    rw [List.replicate_succ, ← hall]
    rfl

theorem padded_cons_iff (h : b ≠ pad) :
    Padded index (b :: rest) vs
      ↔ ∃ v later, value? b = some v ∧ vs = v :: later
          ∧ Padded (index + 1) rest later := by
  refine ⟨fun hpadded => ?_, fun hpadded => ?_⟩
  · obtain ⟨hvs, count, hgroup, hindex⟩ := hpadded
    cases vs with
    | nil =>
      cases count with
      | zero => cases hgroup
      | succ count => exact absurd (List.cons.inj hgroup).1 h
    | cons v later =>
      obtain ⟨rfl, hrest⟩ := List.cons.inj hgroup
      obtain ⟨hv, hlater⟩ := List.forall_mem_cons.1 hvs
      refine ⟨v, later, value?_symbol hv, rfl, hlater, count, hrest, ?_⟩
      rw [List.length_cons] at hindex
      omega
  · obtain ⟨v, later, hvalue, rfl, hlater, count, hrest, hindex⟩ := hpadded
    obtain ⟨hv, rfl⟩ := symbol_of_value? hvalue
    refine ⟨List.forall_mem_cons.2 ⟨hv, hlater⟩, count, ?_, ?_⟩
    · rw [hrest]
      rfl
    · rw [List.length_cons]
      omega

/-- The symbol for a value, with the value. -/
def entry (v : Nat) : UInt8 × Nat :=
  (symbol v, v)

/-- The state machine lets through the padded groups, and their values
are what it collects. -/
theorem lastSymbols_eq_ok_iff {start : Nat}
    {symbols : List (UInt8 × Nat)} :
    lastSymbols start index group = .ok symbols
      ↔ ∃ vs, symbols = vs.map entry ∧ Padded index group vs := by
  induction group generalizing index symbols with
  | nil =>
    simp only [lastSymbols, padded_nil_iff]
    simp [eq_comm]
  | cons b rest ih =>
    by_cases hpad : b = pad
    · subst hpad
      simp only [lastSymbols, padded_pad_iff, if_true]
      by_cases hindex : index < 2
      · simp [hindex, Nat.not_le.2 hindex]
      · by_cases hrest : rest.all (· == pad) = true
        · simp [hindex, hrest, Nat.not_lt.1 hindex, eq_comm]
        · simp [hindex, hrest]
    · simp only [lastSymbols, if_neg hpad, padded_cons_iff hpad]
      cases hvalue : value? b with
      | none => simp
      | some v =>
        obtain ⟨-, hb⟩ := symbol_of_value? hvalue
        cases hlater : lastSymbols start (index + 1) rest with
        | error e =>
          refine ⟨nofun, fun h => ?_⟩
          obtain ⟨_, rfl, _, later, -, -, hpadded⟩ := h
          rw [ih.2 ⟨later, rfl, hpadded⟩] at hlater
          cases hlater
        | ok found =>
          obtain ⟨later, rfl, hpadded⟩ := ih.1 hlater
          refine ⟨fun h => ?_, fun h => ?_⟩
          · cases h
            refine ⟨v :: later, ?_, v, later, rfl, rfl, hpadded⟩
            rw [List.map_cons, entry, ← hb]
          · obtain ⟨_, rfl, w, other, hw, rfl, hother⟩ := h
            cases hw
            rw [ih.2 ⟨other, rfl, hother⟩] at hlater
            have hsame := Except.ok.inj hlater
            simp only [List.map_cons, hsame, entry, ← hb]

theorem map_snd_entry (vs : List Nat) :
    (vs.map entry).map Prod.snd = vs := by
  rw [List.map_map]
  exact List.map_id vs

theorem Padded.unique {ws : List Nat} (h : Padded index group vs)
    (h' : Padded index group ws) : ws = vs := by
  have hread : lastSymbols 0 index group = .ok (vs.map entry) :=
    lastSymbols_eq_ok_iff.2 ⟨vs, rfl, h⟩
  rw [lastSymbols_eq_ok_iff.2 ⟨ws, rfl, h'⟩] at hread
  rw [← map_snd_entry ws, Except.ok.inj hread, map_snd_entry]

/-- The symbols of the last group are at least two of four, and what is
left of their bits is zeros. -/
theorem decodeLast_eq_ok_iff_padded {start : Nat} :
    decodeLast start group = .ok result
      ↔ ∃ vs, Padded 0 group vs ∧ 2 ≤ vs.length ∧ group.length = 4
          ∧ spelled vs % 2 ^ surplus vs.length = 0
          ∧ Bytes.ofNat (vs.length - 1) (spelled vs >>> surplus vs.length)
            = result := by
  unfold decodeLast
  cases hsymbols : lastSymbols start 0 group with
  | error e =>
    refine ⟨nofun, fun h => ?_⟩
    obtain ⟨vs, hpadded, -⟩ := h
    rw [lastSymbols_eq_ok_iff.2 ⟨vs, rfl, hpadded⟩] at hsymbols
    cases hsymbols
  | ok symbols =>
    obtain ⟨vs, rfl, hpadded⟩ := lastSymbols_eq_ok_iff.1 hsymbols
    simp only [map_snd_entry, List.length_map, Nat.one_shiftLeft, surplus]
    cases hlast : (vs.map entry).getLast? with
    | none =>
      refine ⟨nofun, fun h => ?_⟩
      obtain ⟨ws, hws, htwo, -⟩ := h
      obtain rfl := hpadded.unique hws
      rw [List.map_eq_nil_iff.1 (List.getLast?_eq_none_iff.1 hlast)] at htwo
      exact absurd htwo (by decide)
    | some last =>
      refine ⟨fun h => ?_, fun h => ?_⟩
      · dsimp only at h
        split at h
        · cases h
        split at h
        · cases h
        split at h
        · cases h
        cases h
        exact ⟨vs, hpadded, by omega, by omega, by omega, rfl⟩
      · obtain ⟨ws, hws, htwo, hfour, hzeros, hread⟩ := h
        obtain rfl := hpadded.unique hws
        rw [← hread]
        dsimp only
        rw [if_neg (by omega), if_neg (by omega), if_neg (by omega)]

/-- A group is read as one to three bytes when it is what they are
written as. -/
theorem decodeLast_eq_ok_iff {start : Nat} :
    decodeLast start group = .ok result
      ↔ 0 < result.length ∧ result.length ≤ 3
          ∧ group = encode result := by
  rw [decodeLast_eq_ok_iff_padded]
  refine ⟨fun h => ?_, fun h => ?_⟩
  · obtain ⟨vs, ⟨hvs, count, rfl, -⟩, htwo, hfour, hread⟩ := h
    rw [List.length_append, List.length_map, List.length_replicate]
      at hfour
    obtain ⟨k, hk⟩ : ∃ k, vs.length = k + 1 := ⟨vs.length - 1, by omega⟩
    rw [hk] at hread
    obtain ⟨hlength, rfl⟩ :=
      (fill_eq_iff hvs hk (by omega) (by omega)).1 hread
    have hcount : count = 3 - result.length := by omega
    refine ⟨by omega, by omega, ?_⟩
    rw [encode_of_length (by omega) (by omega), hcount]
  · obtain ⟨hpos, hthree, rfl⟩ := h
    have hlength : (fill result).length = result.length + 1 :=
      length_digits _ _
    have hlt : ∀ v ∈ fill result, v < 64 := fun _ => digits_lt
    have hread := (fill_eq_iff hlt hlength hpos hthree).2 ⟨rfl, rfl⟩
    rw [encode_of_length hpos hthree]
    refine ⟨fill result, ⟨hlt, _, rfl, by omega⟩, by omega, ?_, ?_⟩
    · rw [List.length_append, List.length_map, List.length_replicate,
        hlength]
      omega
    · rw [hlength]
      exact hread

end

-- ======================================================= whole texts

theorem encode_cons (x y z : UInt8) (rest : Bytes) :
    encode (x :: y :: z :: rest) = encode [x, y, z] ++ encode rest :=
  rfl

/-- Whole groups are written apart from what follows them. -/
theorem encode_append {front : Bytes} (h : front.length % 3 = 0)
    (back : Bytes) :
    encode (front ++ back) = encode front ++ encode back := by
  induction front using encode.induct with
  | case1 x y z rest ih =>
    have hrest : rest.length % 3 = 0 := by
      simp only [List.length_cons] at h
      omega
    show encode (x :: y :: z :: (rest ++ back)) = _
    rw [encode_cons, ih hrest, encode_cons x y z rest,
      List.append_assoc]
  | case2 x y => cases h
  | case3 x => cases h
  | case4 => rfl

/-- Every started group of three bytes makes four symbols. -/
theorem length_encode (data : Bytes) :
    (encode data).length = (data.length + 2) / 3 * 4 := by
  induction data using encode.induct with
  | case1 x y z rest ih =>
    rw [encode_cons, List.length_append, ih]
    simp only [List.length_cons]
    show 4 + _ = _
    omega
  | case2 x y => simp [encode]
  | case3 x => simp [encode]
  | case4 => rfl

theorem encode_eq_nil_iff : encode data = [] ↔ data = [] := by
  rw [← List.length_eq_zero_iff, ← List.length_eq_zero_iff, length_encode]
  omega

/-- Bytes have values if they are the symbols of them, with no padding.
-/
theorem values_eq_ok_iff {offset : Nat} {vs : List Nat} :
    values offset data = .ok vs
      ↔ (∀ v ∈ vs, v < 64) ∧ data = vs.map symbol := by
  induction data generalizing offset vs with
  | nil =>
    simp only [values, Except.ok.injEq, List.nil_eq, List.map_eq_nil_iff]
    refine ⟨fun h => ?_, fun h => h.2⟩
    subst h
    exact ⟨nofun, rfl⟩
  | cons b rest ih =>
    rw [values]
    refine ⟨fun h => ?_, fun h => ?_⟩
    · cases hvalue : value? b with
      | none =>
        rw [hvalue] at h
        cases h
      | some v =>
        rw [hvalue] at h
        dsimp only at h
        cases hrest : values (offset + 1) rest with
        | error e =>
          rw [hrest] at h
          cases h
        | ok later =>
          rw [hrest] at h
          cases h
          obtain ⟨hv, rfl⟩ := symbol_of_value? hvalue
          obtain ⟨hlater, rfl⟩ := ih.1 hrest
          exact ⟨List.forall_mem_cons.2 ⟨hv, hlater⟩, rfl⟩
    · obtain ⟨hvs, hdata⟩ := h
      cases vs with
      | nil => cases hdata
      | cons v later =>
        obtain ⟨rfl, hrest⟩ := List.cons.inj hdata
        obtain ⟨hv, hlater⟩ := List.forall_mem_cons.1 hvs
        rw [value?_symbol hv]
        dsimp only
        rw [ih.2 ⟨hlater, hrest⟩]

/-- Four symbols of the alphabet are read as three bytes when they are
what these are written as. -/
theorem values_four_iff {offset : Nat} {group : Bytes}
    (h : group.length = 4) :
    (∃ vs, values offset group = .ok vs
        ∧ Bytes.ofNat 3 (spelled vs) = result)
      ↔ result.length = 3 ∧ group = encode result := by
  have hspell {vs : List Nat} (hvs : ∀ v ∈ vs, v < 64)
      (hlength : vs.length = 4) : Bytes.ofNat 3 (spelled vs) = result
        ↔ result.length = 3 ∧ vs = fill result := by
    rw [← fill_eq_iff hvs hlength (by decide) (by decide)]
    have hnone : surplus (3 + 1) = 0 := rfl
    rw [hnone, Nat.shiftRight_zero, Nat.pow_zero, Nat.mod_one]
    exact (and_iff_right rfl).symm
  refine ⟨fun hread => ?_, fun hread => ?_⟩
  · obtain ⟨vs, hvalues, hbytes⟩ := hread
    obtain ⟨hvs, rfl⟩ := values_eq_ok_iff.1 hvalues
    rw [List.length_map] at h
    obtain ⟨hlength, rfl⟩ := (hspell hvs h).1 hbytes
    refine ⟨hlength, ?_⟩
    rw [encode_of_length (by omega) (by omega), hlength]
    exact (List.append_nil _).symm
  · obtain ⟨hlength, rfl⟩ := hread
    have hlt : ∀ v ∈ fill result, v < 64 := fun _ => digits_lt
    have hfour : (fill result).length = 4 := by
      rw [fill, length_digits, hlength]
    refine ⟨fill result, values_eq_ok_iff.2 ⟨hlt, ?_⟩,
      (hspell hlt hfour).2 ⟨hlength, rfl⟩⟩
    rw [encode_of_length (by omega) (by omega), hlength]
    exact List.append_nil _

/-- What is written for whole groups of bytes begins with a group. -/
theorem four_cons_eq_encode_iff {rest front : Bytes}
    (h : front.length % 3 = 0) :
    a :: b :: c :: d :: rest = encode front
      ↔ ∃ group later, front = group ++ later ∧ group.length = 3
          ∧ [a, b, c, d] = encode group ∧ rest = encode later := by
  refine ⟨fun hfront => ?_, fun hfront => ?_⟩
  · match front, h, hfront with
    | [], _, hfront => cases hfront
    | x :: y :: z :: later, _, hfront =>
      have hsplit : [a, b, c, d] ++ rest
          = encode [x, y, z] ++ encode later := hfront
      obtain ⟨hgroup, hrest⟩ := List.append_inj hsplit rfl
      exact ⟨[x, y, z], later, rfl, rfl, hgroup, hrest⟩
  · obtain ⟨group, later, rfl, hgroup, hfour, rfl⟩ := hfront
    rw [encode_append (by omega), ← hfour]
    rfl

/-- Reading whole groups goes on after what was read before. -/
theorem decodeGroups_eq_ok_iff {offset : Nat} {before : Bytes}
    (h : data.length % 4 = 0) :
    decodeGroups offset before data = .ok result
      ↔ ∃ front, front.length % 3 = 0 ∧ result = before.reverse ++ front
          ∧ data = encode front := by
  induction offset, before, data using decodeGroups.induct with
  | case1 offset before a b c d rest e hvalues =>
    simp only [decodeGroups, hvalues]
    refine ⟨nofun, fun h => ?_⟩
    obtain ⟨front, hthree, -, hfront⟩ := h
    obtain ⟨group, later, -, hlength, hgroup, -⟩ :=
      (four_cons_eq_encode_iff hthree).1 hfront
    obtain ⟨vs, hvs, -⟩ := (values_four_iff rfl).2 ⟨hlength, hgroup⟩
    rw [hvalues] at hvs
    cases hvs
  | case2 offset before a b c d rest vs hvalues ih =>
    have hrest : rest.length % 4 = 0 := by
      simp only [List.length_cons] at h
      omega
    obtain ⟨hlength, hgroup⟩ :=
      (values_four_iff rfl).1 ⟨vs, hvalues, rfl⟩
    simp only [decodeGroups, hvalues, ih hrest, List.reverse_append,
      List.reverse_reverse, List.append_assoc]
    refine ⟨fun h => ?_, fun h => ?_⟩
    · obtain ⟨later, hthree, rfl, hlater⟩ := h
      refine ⟨_ ++ later, ?_, rfl, ?_⟩
      · rw [List.length_append]
        omega
      · rw [encode_append (by omega), ← hgroup, hlater]
        rfl
    · obtain ⟨front, hthree, rfl, hfront⟩ := h
      obtain ⟨group, later, rfl, hthis, hsame, hlater⟩ :=
        (four_cons_eq_encode_iff hthree).1 hfront
      obtain ⟨ws, hws, rfl⟩ := (values_four_iff rfl).2 ⟨hthis, hsame⟩
      rw [hvalues] at hws
      cases hws
      rw [List.length_append] at hthree
      exact ⟨later, by omega, rfl, hlater⟩
  | case3 rest offset before hshort =>
    -- fewer than four symbols, and a whole number of groups: none
    match rest, h, hshort with
    | [], _, _ =>
      refine ⟨fun h => ?_, fun h => ?_⟩
      · cases h
        exact ⟨[], rfl, (List.append_nil _).symm, rfl⟩
      · obtain ⟨front, -, rfl, hfront⟩ := h
        rw [encode_eq_nil_iff.1 hfront.symm, List.append_nil]
        rfl
    | a :: b :: c :: d :: rest, _, hshort =>
      exact (hshort a b c d rest rfl).elim

/-- Bytes fall into whole groups and a last one that is not empty. -/
theorem exists_last_group (h : 0 < data.length) :
    ∃ front back, data = front ++ back ∧ front.length % 3 = 0
      ∧ 0 < back.length ∧ back.length ≤ 3 := by
  refine ⟨data.take ((data.length - 1) / 3 * 3),
    data.drop ((data.length - 1) / 3 * 3),
    (List.take_append_drop _ _).symm, ?_, ?_, ?_⟩
  · rw [List.length_take]
    omega
  · rw [List.length_drop]
    omega
  · rw [List.length_drop]
    omega

/-- Where the last group of a text starts. -/
def lastStart (data : Bytes) : Nat :=
  data.length - if data.length % 4 = 0 then 4 else data.length % 4

/-- A text is read in two parts. The last symbol is looked at before
them only where the last group is too short to be read at all. -/
theorem decode_eq_ok_iff_parts (h : data ≠ []) :
    decode data = .ok result
      ↔ ∃ front back,
          decodeGroups 0 [] (data.take (lastStart data)) = .ok front
            ∧ decodeLast (lastStart data) (data.drop (lastStart data))
              = .ok back
            ∧ front ++ back = result := by
  obtain ⟨last, hlast⟩ :=
    Option.ne_none_iff_exists'.1 (mt List.getLast?_eq_none_iff.1 h)
  unfold decode
  rw [hlast]
  dsimp only
  rw [← lastStart]
  refine ⟨fun hread => ?_, fun hread => ?_⟩
  · split at hread
    · cases hread
    cases hfront : decodeGroups 0 [] (data.take (lastStart data)) with
    | error e =>
      rw [hfront] at hread
      cases hread
    | ok front =>
      rw [hfront] at hread
      dsimp only at hread
      cases hback : decodeLast (lastStart data)
          (data.drop (lastStart data)) with
      | error e =>
        rw [hback] at hread
        cases hread
      | ok back =>
        rw [hback] at hread
        exact ⟨front, back, rfl, rfl, Except.ok.inj hread⟩
  · obtain ⟨front, back, hfront, hback, rfl⟩ := hread
    obtain ⟨-, -, hgroup⟩ := decodeLast_eq_ok_iff.1 hback
    have hlength := congrArg List.length hgroup
    rw [List.length_drop, length_encode, lastStart] at hlength
    -- no text that is written has a single symbol left over
    have hodd : data.length % 4 ≠ 1 := by
      intro hodd
      rw [hodd, if_neg (by decide)] at hlength
      omega
    rw [if_neg fun hlone => hodd hlone.1, hfront, hback]

/-- A text is read as a byte string exactly when it is what the byte
string is written as. -/
theorem decode_eq_ok_iff :
    decode data = .ok result ↔ data = encode result := by
  by_cases hnil : data = []
  · subst hnil
    refine ⟨fun h => ?_, fun h => ?_⟩
    · cases h
      rfl
    · rw [encode_eq_nil_iff.1 h.symm]
      rfl
  have hpos : 0 < data.length := List.length_pos_iff.2 hnil
  rw [decode_eq_ok_iff_parts hnil]
  refine ⟨fun h => ?_, fun h => ?_⟩
  · obtain ⟨front, back, hfront, hback, rfl⟩ := h
    obtain ⟨hbackpos, hthree, hgroup⟩ := decodeLast_eq_ok_iff.1 hback
    have hfour := congrArg List.length hgroup
    rw [List.length_drop, length_encode, lastStart] at hfour
    -- the last group has four symbols, so the others are whole
    have hwhole : (data.take (lastStart data)).length % 4 = 0 := by
      rw [List.length_take, lastStart]
      by_cases hmod : data.length % 4 = 0
      · rw [if_pos hmod] at hfour ⊢
        omega
      · rw [if_neg hmod] at hfour
        omega
    obtain ⟨_, hmod, rfl, hgroups⟩ :=
      (decodeGroups_eq_ok_iff hwhole).1 hfront
    show data = encode (_ ++ back)
    rw [encode_append hmod, ← hgroups, ← hgroup, List.take_append_drop]
  · subst h
    rw [length_encode] at hpos
    obtain ⟨front, back, rfl, hmod, hbackpos, hthree⟩ :=
      exists_last_group (by omega : 0 < result.length)
    have hfour : (encode back).length = 4 := by
      rw [length_encode]
      omega
    have hwhole : (encode front).length % 4 = 0 := by
      rw [length_encode]
      omega
    have hstart : lastStart (encode front ++ encode back)
        = (encode front).length := by
      rw [lastStart, List.length_append, hfour, if_pos (by omega)]
      omega
    rw [encode_append hmod, hstart, List.take_left, List.drop_left]
    exact ⟨front, back,
      (decodeGroups_eq_ok_iff hwhole).2 ⟨front, hmod, rfl, rfl⟩,
      decodeLast_eq_ok_iff.2 ⟨hbackpos, hthree, rfl⟩, rfl⟩

example : encode (Bytes.ascii "foobar") = Bytes.ascii "Zm9vYmFy"
    ∧ encode (Bytes.ascii "fooba") = Bytes.ascii "Zm9vYmE="
    ∧ encode (Bytes.ascii "foob") = Bytes.ascii "Zm9vYg==" := by
  decide

-- ======================================================== characters

theorem visible_symbol (h : v < 64) :
    0x20 < (symbol v).toNat ∧ (symbol v).toNat < 0x80 := by
  have hall : ∀ v < 64, 0x20 < (symbol v).toNat ∧ (symbol v).toNat < 0x80 := by
    decide
  exact hall v h

theorem visible_of_mem_encode {s : UInt8} (h : s ∈ encode data) :
    0x20 < s.toNat ∧ s.toNat < 0x80 := by
  have hgroup {group : Bytes} (hpos : 0 < group.length)
      (hthree : group.length ≤ 3) (hs : s ∈ encode group) :
      0x20 < s.toNat ∧ s.toNat < 0x80 := by
    rw [encode_of_length hpos hthree] at hs
    rcases List.mem_append.1 hs with hs | hs
    · obtain ⟨v, hv, rfl⟩ := List.mem_map.1 hs
      exact visible_symbol (digits_lt hv)
    · rw [(List.mem_replicate.1 hs).2]
      decide
  induction data using encode.induct with
  | case1 x y z rest ih =>
    rw [encode_cons] at h
    rcases List.mem_append.1 h with h | h
    · exact hgroup (by simp) (by simp) h
    · exact ih h
  | case2 x y => exact hgroup (by simp) (by simp) h
  | case3 x => exact hgroup (by simp) (by simp) h
  | case4 => cases h

/-- What a byte string is written as, in characters. -/
def text (data : Bytes) : List Char :=
  Utf8.ofAscii (encode data)

/-- A Base64 text has nothing in it that is taken for a blank. -/
theorem visible_of_mem_text {c : Char} (h : c ∈ text data) :
    Utf8.Visible c := by
  obtain ⟨s, hs, rfl⟩ := List.mem_map.1 h
  rw [Utf8.Visible, Utf8.toNat_ofByte]
  exact visible_of_mem_encode hs

/-- A text is read as a byte string exactly when the byte string is
written as it. -/
theorem decode_encode_iff {content : List Char} :
    decode (Utf8.encode content) = .ok result
      ↔ content = text result := by
  rw [decode_eq_ok_iff, Utf8.encode_eq_iff_ofAscii]
  · rfl
  · exact fun s hs => (visible_of_mem_encode hs).2

end Base64

end Attestation
