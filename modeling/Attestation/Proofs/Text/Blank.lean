/-
Blanks around a text. What trimming leaves of a text is the text but for
blanks at its ends (`frames_trim`), and a word that has no blank in it
is what is left of every text with nothing but blanks around the word
(`trim_of_frames`). So to read what trimming leaves is to read a word
between blanks (`trim_iff`), and this is the form in which the other
modules use it: what can be read are words of visible characters, each
of them with blanks around it.

The other direction fails for words that begin or end in a blank, and
needs no more than this of the words: none of hexadecimal, Base64 and
decimal digits is a blank, in whatever script blanks are counted. A
character between the space and the end of ASCII is none
(`isBlank_of_visible`), whichever of the characters beyond ASCII are.
-/
import Attestation.Proofs.Text.Utf8
import Attestation.Text.Blank

namespace Attestation

namespace Text

variable {left text right word : List Char}

/-- The blanks of ASCII end with the space. -/
theorem isBlank_of_visible {c : Char} (h : Utf8.Visible c) :
    isBlank c = false := by
  obtain ⟨hlow, hhigh⟩ := h
  simp [isBlank, blankRanges]
  omega

/-- Blanks are dropped up to the first character that is none. -/
theorem dropWhile_blank (hleft : ∀ c ∈ left, isBlank c = true)
    (htext : ∀ c ∈ text, isBlank c = false) :
    (left ++ text).dropWhile isBlank = text := by
  rw [List.dropWhile_append_of_pos hleft]
  cases text with
  | nil => rfl
  | cons c rest =>
    have hc : isBlank c = false := htext c List.mem_cons_self
    rw [List.dropWhile_cons_of_neg (by simp [hc])]

/-- Trimming takes the blanks around a text away that has none in
it. -/
theorem trim_eq (hleft : ∀ c ∈ left, isBlank c = true)
    (hright : ∀ c ∈ right, isBlank c = true)
    (htext : ∀ c ∈ text, isBlank c = false) :
    trim (left ++ text ++ right) = text := by
  have hreverse : ∀ c ∈ right.reverse, isBlank c = true :=
    fun c hc => hright c (List.mem_reverse.1 hc)
  have hback : ∀ c ∈ text.reverse, isBlank c = false :=
    fun c hc => htext c (List.mem_reverse.1 hc)
  have hfront : (left ++ text ++ right).dropWhile isBlank
      = (text ++ right).dropWhile isBlank := by
    rw [List.append_assoc, List.dropWhile_append_of_pos hleft]
  cases text with
  | nil =>
    have hnone := dropWhile_blank hright (List.forall_mem_nil _)
    rw [List.append_nil] at hnone
    rw [trim, hfront, List.nil_append, hnone]
    rfl
  | cons c rest =>
    have hc : isBlank c = false := htext c List.mem_cons_self
    rw [trim, hfront, List.cons_append,
      List.dropWhile_cons_of_neg (by simp [hc]), ← List.cons_append,
      List.reverse_append, dropWhile_blank hreverse hback,
      List.reverse_reverse]

/-- A text is a word with nothing but blanks around it. -/
def Frames (word text : List Char) : Prop :=
  ∃ left right, text = left ++ word ++ right
    ∧ ∀ c ∈ left ++ right, isBlank c = true

theorem Frames.refl (text : List Char) : Frames text text :=
  ⟨[], [], by simp, nofun⟩

/-- What trimming takes away are blanks. -/
theorem frames_trim (text : List Char) : Frames (trim text) text := by
  have hall {l : List Char} {c : Char} (h : c ∈ l.takeWhile isBlank) :
      isBlank c = true :=
    List.all_eq_true.1 List.all_takeWhile c h
  let rest := text.dropWhile isBlank
  refine ⟨text.takeWhile isBlank,
    (rest.reverse.takeWhile isBlank).reverse, ?_, ?_⟩
  · rw [trim, List.append_assoc, ← List.reverse_append,
      List.takeWhile_append_dropWhile, List.reverse_reverse,
      List.takeWhile_append_dropWhile]
  · intro c hc
    rcases List.mem_append.1 hc with hc | hc
    · exact hall hc
    · exact hall (List.mem_reverse.1 hc)

/-- What is visible between blanks is what trimming leaves. -/
theorem trim_of_frames (h : Frames word text)
    (hword : ∀ c ∈ word, Utf8.Visible c) : trim text = word := by
  obtain ⟨left, right, rfl, hblank⟩ := h
  obtain ⟨hleft, hright⟩ := List.forall_mem_append.1 hblank
  apply trim_eq hleft hright
  intro c hc
  exact isBlank_of_visible (hword c hc)

/-- What is left of a text has a property that only visible words have
exactly if such a word stands between blanks. -/
theorem trim_iff {P : List Char → Prop}
    (hP : ∀ word, P word → ∀ c ∈ word, Utf8.Visible c) :
    P (trim text) ↔ ∃ word, Frames word text ∧ P word := by
  refine ⟨fun h => ⟨_, frames_trim text, h⟩, ?_⟩
  rintro ⟨word, hframes, hword⟩
  rw [trim_of_frames hframes (hP word hword)]
  exact hword

end Text

end Attestation
