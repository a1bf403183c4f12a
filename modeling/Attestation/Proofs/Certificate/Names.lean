/-
The search for a common name. A distinguished name is a row of SETs, and
in the search each of them is framed by its length, looked into and
passed over or taken. What a SET is, is decided by the first bytes of
its content alone (`Opens`): the SETs that do not open as that of a
common name does may stand in front in any number
(`find_flatMap_append`), and the first one that does settles the search,
whatever comes after it.

The search calls itself on what is left after a SET, so a proof about it
would have to go by the length of that. Instead there is `Scan`, the
search round by round, as a relation: a round passes over a SET that
does not open, and the last one takes what it finds or says why there is
nothing. Every name has one (`exists_scan`), of no more rounds than half
its bytes, since a SET has two bytes at least; and the relation says
what the search gives (`Scan.outcome_eq`). Whatever is asked about a
search is then asked by induction on its rounds.

So the text that is found always lies inside one SET, behind SETs that
were passed over (`find_eq_ok_iff`, `UpTo`). This is what the stretches
of a certificate that are never looked into rest on: names may be
replaced from there to their end.

A name is searched by itself, from zero, but the reader stands somewhere
inside a certificate. `search_shift` and `search_eq_find` say that the
place makes no difference.
-/
import Attestation.Proofs.Certificate.Layout

namespace Attestation

namespace CommonName

open Reader

-- ========================================================== contents

/-- The content opens as that of a common name: with a SEQUENCE header
that announces any length, and the identifier. -/
def Opens (content : Bytes) : Prop :=
  ∃ (form : Der.LengthForm) (n : Nat) (more : Bytes), n < form.bound
    ∧ content = 0x30 :: form.write n ++ identifier ++ more

/-- The content opens as that of a common name, and the name is a text:
after a tag of any kind and its length, its bytes are there. -/
def Holds (content text : Bytes) : Prop :=
  ∃ (form : Der.LengthForm) (n : Nat) (tag : UInt8) (value : Der.Element)
      (more : Bytes),
    n < form.bound ∧ value.content = text
      ∧ content = 0x30 :: form.write n ++ identifier
        ++ (value.write tag ++ more)

/-- A text that is held stands in the content as it is. -/
theorem Holds.exists_append {content text : Bytes}
    (h : Holds content text) :
    ∃ before after, content = before ++ text ++ after := by
  obtain ⟨form, n, tag, value, more, -, hvalue, hcontent⟩ := h
  refine ⟨0x30 :: form.write n ++ identifier
    ++ tag :: value.form.write value.content.length, more, ?_⟩
  rw [hcontent, Der.Element.write, hvalue]
  simp only [List.append_assoc, List.cons_append]

/-- The SET that an element is written as. -/
abbrev setBytes (e : Der.Element) : Bytes :=
  e.write 0x31

variable {r r' : Reader} {e holder : Der.Element}
  {name content text front rest : Bytes} {skipped : List Der.Element}

/-- What is recognized is a SEQUENCE header with any length, and the
identifier of a common name. -/
theorem opening?_iff_passes :
    opening? content = some r
      ↔ ∃ (form : Der.LengthForm) (n : Nat), n < form.bound
        ∧ (ofBytes content).Passes (0x30 :: form.write n ++ identifier)
            r := by
  unfold opening?
  constructor
  · intro h
    obtain ⟨r₁, htag, h⟩ := Option.bind_eq_some_iff.1 h
    obtain ⟨⟨n, r₂⟩, hlength, hidentifier⟩ := Option.bind_eq_some_iff.1 h
    obtain ⟨form, hn, hform⟩ := length?_iff_passes.1 hlength
    have htag := pass?_iff_passes.1 htag
    exact ⟨form, n, hn,
      (htag.trans hform).trans (pass?_iff_passes.1 hidentifier)⟩
  · intro h
    obtain ⟨form, n, hn, h⟩ := h
    obtain ⟨r₂, h, hidentifier⟩ := passes_append_iff.1 h
    obtain ⟨r₁, htag, hform⟩ := passes_cons_iff.1 h
    refine Option.bind_eq_some_iff.2 ⟨r₁, pass?_iff_passes.2 htag, ?_⟩
    exact Option.bind_eq_some_iff.2 ⟨(n, r₂),
      length?_iff_passes.2 ⟨form, hn, hform⟩,
      pass?_iff_passes.2 hidentifier⟩

/-- Nothing is recognized exactly where the content does not open so. -/
theorem opening?_eq_none_iff : opening? content = none ↔ ¬Opens content := by
  constructor
  · intro h hopens
    obtain ⟨form, n, more, hn, hcontent⟩ := hopens
    obtain ⟨r, hpasses, -⟩ := exists_passes_ofBytes hcontent
    rw [opening?_iff_passes.2 ⟨form, n, hn, hpasses⟩] at h
    cases h
  · intro h
    rw [Option.eq_none_iff_forall_ne_some]
    intro r hopening
    obtain ⟨form, n, hn, hpasses⟩ := opening?_iff_passes.1 hopening
    exact h ⟨form, n, r.rest, hn, hpasses.eq_append⟩

/-- After the identifier the text is the content of whatever element
stands there; its tag is not looked at. -/
theorem textAfter_eq_ok_iff :
    textAfter r = .ok text
      ↔ ∃ (tag : UInt8) (value : Der.Element) (r' : Reader),
          value.content = text ∧ r.Passes (value.write tag) r' := by
  unfold textAfter
  constructor
  · intro h
    obtain ⟨⟨tag, r₁⟩, htag, h⟩ := bind_eq_ok_iff.1 h
    obtain ⟨⟨n, r₂⟩, hlength, h⟩ := bind_eq_ok_iff.1 h
    obtain ⟨⟨found, r'⟩, htake, h⟩ := bind_eq_ok_iff.1 h
    cases h
    have htag := demand_byte?_iff.1 htag
    obtain ⟨form, hn, hform⟩ := demand_length?_iff.1 hlength
    obtain ⟨hlen, htext⟩ := demand_take?_iff.1 htake
    subst hlen
    exact ⟨tag, ⟨form, text, hn⟩, r', rfl,
      (htag.trans hform).trans htext⟩
  · intro h
    obtain ⟨tag, value, r', htext, h⟩ := h
    subst htext
    obtain ⟨r₂, h, htext⟩ := passes_append_iff.1 h
    obtain ⟨r₁, htag, hform⟩ := passes_cons_iff.1 h
    refine bind_eq_ok_iff.2 ⟨(tag, r₁), demand_byte?_iff.2 htag, ?_⟩
    refine bind_eq_ok_iff.2 ⟨(value.content.length, r₂),
      demand_length?_iff.2 ⟨value.form, value.fits, hform⟩, ?_⟩
    exact bind_eq_ok_iff.2 ⟨(value.content, r'),
      demand_take?_iff.2 ⟨rfl, htext⟩, rfl⟩

/-- A content holds a text exactly if the text is read from it. -/
theorem holds_iff :
    Holds content text
      ↔ ∃ r, opening? content = some r ∧ textAfter r = .ok text := by
  constructor
  · intro h
    obtain ⟨form, n, tag, value, more, hn, htext, hcontent⟩ := h
    obtain ⟨r, hpasses, hrest⟩ := exists_passes_ofBytes hcontent
    obtain ⟨r', hvalue, -⟩ := exists_passes hrest
    exact ⟨r, opening?_iff_passes.2 ⟨form, n, hn, hpasses⟩,
      textAfter_eq_ok_iff.2 ⟨tag, value, r', htext, hvalue⟩⟩
  · intro h
    obtain ⟨r, hopening, htextAfter⟩ := h
    obtain ⟨form, n, hn, hpasses⟩ := opening?_iff_passes.1 hopening
    obtain ⟨tag, value, r', htext, hvalue⟩ :=
      textAfter_eq_ok_iff.1 htextAfter
    refine ⟨form, n, tag, value, r'.rest, hn, htext, ?_⟩
    rw [← hvalue.rest_eq]
    exact hpasses.eq_append

-- ======================================================== single SETs

/-- The next SET is read where one with this content is written. -/
theorem nextSet_iff_passes :
    nextSet r = .ok (content, r')
      ↔ ∃ e : Der.Element, e.content = content ∧ r.Passes (setBytes e) r' :=
  Certificate.element_iff_passes

/-- What the next SET is does not depend on how far the reader is. -/
theorem nextSet_shift (r : Reader) (count : Nat) :
    nextSet (r.shift count)
      = (nextSet r).map fun (content, r') =>
          (content, r'.shift count) := by
  unfold nextSet
  rw [pass?_shift, demand_map]
  cases demand (r.pass? [0x31]) _ with
  | error reason => rfl
  | ok r₁ =>
    show demand (r₁.shift count).length? _ >>= _ = _
    rw [length?_shift, demand_map]
    show _ = (demand r₁.length? _ >>= _).map _
    cases demand r₁.length? _ with
    | error reason => rfl
    | ok found =>
      obtain ⟨n, r₂⟩ := found
      show demand ((r₂.shift count).take? n) _
        = (demand (r₂.take? n) _).map _
      rw [take?_shift, demand_map]

theorem nextSet_shift_of_ok (h : nextSet r = .ok (content, r'))
    (count : Nat) :
    nextSet (r.shift count) = .ok (content, r'.shift count) := by
  rw [nextSet_shift, h]
  rfl

/-- One round of the search. -/
theorem search_eq_bind (h : r.isEmpty = false) :
    search r
      = nextSet r >>= fun (content, next) =>
        match opening? content with
        | some r => textAfter r
        | none => search next := by
  rw [search, if_neg (by simp [h])]
  split
  · rename_i refusal hset
    rw [hset]
    rfl
  · rename_i content next hset
    rw [hset]
    rfl

theorem search_of_isEmpty (h : r.isEmpty = true) :
    search r = .error .commonNameNotFound := by
  rw [search, if_pos h]

theorem search_of_nextSet_error (h : r.isEmpty = false) {reason : Refusal}
    (hset : nextSet r = .error reason) : search r = .error reason := by
  rw [search_eq_bind h, hset]
  rfl

/-- A SET that opens as that of a common name settles the search, and
any other is passed over. -/
theorem search_of_nextSet (hset : nextSet r = .ok (content, r')) :
    search r
      = match opening? content with
        | some r => textAfter r
        | none => search r' := by
  have hshorter := nextSet_shorter hset
  have hunread : r.isEmpty = false :=
    List.isEmpty_eq_false_iff.2
      (List.ne_nil_of_length_pos (Nat.zero_lt_of_lt hshorter))
  rw [search_eq_bind hunread, hset]
  rfl

/-- The position has no say in what is found: the search is one of the
unread bytes. By induction on the rounds. -/
theorem search_shift (r : Reader) (count : Nat) :
    search (r.shift count) = search r := by
  induction r using search.induct with
  | case1 r hempty =>
    rw [search_of_isEmpty hempty]
    exact search_of_isEmpty hempty
  | case2 r hempty reason hset =>
    have hunread : r.isEmpty = false := eq_false_of_ne_true hempty
    have hset' : nextSet (r.shift count) = .error reason := by
      rw [nextSet_shift, hset]
      rfl
    rw [search_of_nextSet_error hunread hset,
      search_of_nextSet_error (r := r.shift count) hunread hset']
  | case3 r hempty content next hset r₁ hopening =>
    rw [search_of_nextSet hset,
      search_of_nextSet (nextSet_shift_of_ok hset count), hopening]
  | case4 r hempty content next hset hopening ih =>
    rw [search_of_nextSet hset,
      search_of_nextSet (nextSet_shift_of_ok hset count), hopening]
    exact ih

/-- The place of a name inside a certificate makes no difference. -/
theorem search_eq_find (r : Reader) : search r = find r.rest := by
  calc search r
      = search ((ofBytes r.rest).shift r.position) :=
        congrArg search (eq_shift_ofBytes r)
    _ = find r.rest := search_shift (ofBytes r.rest) r.position

theorem find_nil : find [] = .error .commonNameNotFound :=
  search_of_isEmpty rfl

/-- A SET in front is looked into, and passed over unless it opens as
that of a common name. -/
theorem find_set_append (e : Der.Element) (rest : Bytes) :
    find (setBytes e ++ rest)
      = match opening? e.content with
        | some r => textAfter r
        | none => find rest := by
  obtain ⟨r', hpasses, hrest⟩ :=
    exists_passes_ofBytes (rfl : setBytes e ++ rest = setBytes e ++ rest)
  have hset : nextSet (ofBytes (setBytes e ++ rest)) = .ok (e.content, r') :=
    nextSet_iff_passes.2 ⟨e, rfl, hpasses⟩
  rw [find, search_of_nextSet hset, search_eq_find r', hrest]

/-- A SET that does not open so may stand in front. -/
theorem find_set_append_of_not_opens (h : ¬Opens e.content) :
    find (setBytes e ++ rest) = find rest := by
  rw [find_set_append, opening?_eq_none_iff.2 h]

/-- A SET that holds a text settles the search, whatever follows. -/
theorem find_of_holds (h : Holds e.content text) (rest : Bytes) :
    find (setBytes e ++ rest) = .ok text := by
  obtain ⟨r, hopening, htext⟩ := holds_iff.1 h
  rw [find_set_append, hopening]
  exact htext

/-- By induction on the SETs that are passed over. -/
theorem find_flatMap_append (h : ∀ e ∈ skipped, ¬Opens e.content)
    (rest : Bytes) : find (skipped.flatMap setBytes ++ rest) = find rest := by
  induction skipped with
  | nil => rfl
  | cons e skipped ih =>
    rw [List.flatMap_cons, List.append_assoc,
      find_set_append_of_not_opens (h e (List.mem_cons_self ..))]
    exact ih fun e' he' => h e' (List.mem_cons_of_mem _ he')

-- ========================================================== the search

/-- A search round by round: the SETs that are passed over, and what it
comes to. It ends where the name ends, where no SET can be read, and at
the first SET that opens as that of a common name. -/
inductive Scan :
    Bytes → List Der.Element → Except Refusal Bytes → Prop where
  | ended : Scan [] [] (.error .commonNameNotFound)
  | unreadable {name : Bytes} {reason : Refusal} (hname : name ≠ [])
      (h : nextSet (ofBytes name) = .error reason) :
      Scan name [] (.error reason)
  | taken {e : Der.Element} {r : Reader} (rest : Bytes)
      (h : opening? e.content = some r) :
      Scan (setBytes e ++ rest) [] (textAfter r)
  | passed {e : Der.Element} {rest : Bytes} {skipped : List Der.Element}
      {outcome : Except Refusal Bytes} (h : ¬Opens e.content)
      (hrest : Scan rest skipped outcome) :
      Scan (setBytes e ++ rest) (e :: skipped) outcome

/-- A SET has a tag and a length. -/
theorem two_le_length_setBytes (e : Der.Element) : 2 ≤ (setBytes e).length := by
  have hform : 1 ≤ (e.form.write e.content.length).length := by
    cases e.form <;> simp [Der.LengthForm.write]
  rw [setBytes, Der.Element.write, List.length_append, List.length_cons]
  omega

/-- The search comes to an end on every name. By induction on the number
of bytes, of which each round uses at least two. -/
theorem exists_scan (name : Bytes) :
    ∃ skipped, 2 * skipped.length ≤ name.length
      ∧ Scan name skipped (find name) := by
  induction hlength : name.length using Nat.strongRecOn
    generalizing name with
  | ind n ih =>
    subst hlength
    cases hset : nextSet (ofBytes name) with
    | error reason =>
      refine ⟨[], Nat.zero_le _, ?_⟩
      by_cases hname : name = []
      · rw [hname, find_nil]
        exact .ended
      · have hunread : (ofBytes name).isEmpty = false :=
          List.isEmpty_eq_false_iff.2 hname
        rw [find, search_of_nextSet_error hunread hset]
        exact .unreadable hname hset
    | ok found =>
      obtain ⟨content, r'⟩ := found
      obtain ⟨e, rfl, hpasses⟩ := nextSet_iff_passes.1 hset
      have hname : name = setBytes e ++ r'.rest := hpasses.eq_append
      have hset := two_le_length_setBytes e
      rw [hname, find_set_append]
      cases hopening : opening? e.content with
      | some r => exact ⟨[], Nat.zero_le _, .taken r'.rest hopening⟩
      | none =>
        have hlength : name.length = (setBytes e).length + r'.rest.length := by
          rw [hname, List.length_append]
        -- a SET has at least two bytes, so fewer are left
        obtain ⟨skipped, hskipped, hscan⟩ :=
          ih r'.rest.length (by omega) r'.rest rfl
        refine ⟨e :: skipped, ?_,
          .passed (opening?_eq_none_iff.1 hopening) hscan⟩
        rw [List.length_append, List.length_cons]
        omega

/-- A search can come to nothing else. By induction on its rounds. -/
theorem Scan.outcome_eq {outcome : Except Refusal Bytes}
    (h : Scan name skipped outcome) : outcome = find name := by
  induction h with
  | ended => exact find_nil.symm
  | unreadable hname hset =>
    exact (search_of_nextSet_error (List.isEmpty_eq_false_iff.2 hname)
      hset).symm
  | taken rest hopening => rw [find_set_append, hopening]
  | passed hclosed hrest ih =>
    rw [find_set_append_of_not_opens hclosed, ih]

-- ======================================================= what is found

/-- A name up to the end of the first SET that opens as that of a common
name, and the text in it. -/
inductive UpTo : Bytes → Bytes → Prop where
  | holder {skipped : List Der.Element} {holder : Der.Element}
      {text : Bytes} (hskipped : ∀ e ∈ skipped, ¬Opens e.content)
      (hholder : Holds holder.content text) :
      UpTo (skipped.flatMap setBytes ++ setBytes holder) text

/-- The common name may come at once. -/
theorem UpTo.of_holds (h : Holds e.content text) : UpTo (setBytes e) text :=
  @UpTo.holder [] e text (fun _ he => absurd he List.not_mem_nil) h

/-- A common name may come after another SET that does not open so. -/
theorem UpTo.cons (he : ¬Opens e.content) (h : UpTo front text) :
    UpTo (setBytes e ++ front) text := by
  cases h with
  | @holder skipped holder _ hskipped hholder =>
    rw [← List.append_assoc, ← List.flatMap_cons]
    exact .holder (List.forall_mem_cons.2 ⟨he, hskipped⟩) hholder

/-- Nothing after the SET has a say. -/
theorem UpTo.find_append (h : UpTo front text) (rest : Bytes) :
    find (front ++ rest) = .ok text := by
  cases h with
  | holder hskipped hholder =>
    rw [List.append_assoc, find_flatMap_append hskipped,
      find_of_holds hholder]

/-- By induction on the rounds of the search. -/
theorem Scan.exists_upTo {outcome : Except Refusal Bytes}
    (h : Scan name skipped outcome) (hok : outcome = .ok text) :
    ∃ front rest, name = front ++ rest ∧ UpTo front text := by
  induction h with
  | ended => cases hok
  | unreadable => cases hok
  | @taken e r rest hopening =>
    have hholds : Holds e.content text := holds_iff.2 ⟨r, hopening, hok⟩
    exact ⟨setBytes e, rest, rfl, .of_holds hholds⟩
  | @passed e rest skipped outcome hclosed hrest ih =>
    obtain ⟨front, after, rfl, hupTo⟩ := ih hok
    exact ⟨setBytes e ++ front, after, (List.append_assoc ..).symm,
      hupTo.cons hclosed⟩

/-- A text is found exactly if the first SET that opens as that of a
common name holds it. -/
theorem find_eq_ok_iff :
    find name = .ok text
      ↔ ∃ front rest, name = front ++ rest ∧ UpTo front text := by
  constructor
  · intro h
    obtain ⟨skipped, -, hscan⟩ := exists_scan name
    exact hscan.exists_upTo h
  · intro h
    obtain ⟨front, rest, rfl, hupTo⟩ := h
    exact hupTo.find_append rest

/-- SETs that do not open as that of a common name are passed over, in
any number and in front of anything. The first SET that does is the one
that counts: its text is the common name, whatever follows the text in
the SET or the SET in the name. In a name without any there is none. The
search ends on every name, after at most half as many SETs as the name
has bytes; and a common name that it finds is a part of the content of
one SET of the name, the first that opens as that of a common name. -/
theorem find_first_common_name :
    (∀ (skipped : List Der.Element) (rest : Bytes),
      (∀ e ∈ skipped, ¬Opens e.content) →
        find (skipped.flatMap setBytes ++ rest) = find rest)
      ∧ find [] = .error .commonNameNotFound
      ∧ (∀ (holder : Der.Element) (text rest : Bytes),
        Holds holder.content text →
          find (setBytes holder ++ rest) = .ok text)
      ∧ (∀ name, (∃ skipped, 2 * skipped.length ≤ name.length
          ∧ Scan name skipped (find name))
        ∧ ∀ skipped outcome, Scan name skipped outcome →
          outcome = find name)
      ∧ ∀ name text, find name = .ok text →
        ∃ (skipped : List Der.Element) (holder : Der.Element)
            (before after rest : Bytes),
          name = skipped.flatMap setBytes ++ setBytes holder ++ rest
          ∧ (∀ e ∈ skipped, ¬Opens e.content)
          ∧ Holds holder.content text
          ∧ holder.content = before ++ text ++ after := by
  refine ⟨fun skipped rest h => find_flatMap_append h rest, find_nil,
    fun holder text rest h => find_of_holds h rest,
    fun name => ⟨exists_scan name, fun _ _ h => h.outcome_eq⟩,
    fun name text h => ?_⟩
  obtain ⟨front, rest, rfl, hupTo⟩ := find_eq_ok_iff.1 h
  cases hupTo with
  | @holder skipped holder _ hskipped hholder =>
    obtain ⟨before, after, hcontent⟩ := hholder.exists_append
    exact ⟨skipped, holder, before, after, rest, rfl, hskipped, hholder,
      hcontent⟩

/-- A country, and then the common name "ab" with bytes after it. -/
theorem find_first_common_name_afterCountry :
    find [0x31, 0x0b, 0x30, 0x09, 0x06, 0x03, 0x55, 0x04, 0x06, 0x13, 0x02,
        0x55, 0x53, 0x31, 0x0d, 0x30, 0x09, 0x06, 0x03, 0x55, 0x04, 0x03,
        0x0c, 0x02, 0x61, 0x62, 0x00, 0x00, 0xff]
      = .ok [0x61, 0x62] := by
  have hcountry : ¬Opens [0x30, 0x09, 0x06, 0x03, 0x55, 0x04, 0x06, 0x13,
      0x02, 0x55, 0x53] :=
    opening?_eq_none_iff.1 rfl
  have hholder : Holds [0x30, 0x09, 0x06, 0x03, 0x55, 0x04, 0x03, 0x0c,
      0x02, 0x61, 0x62, 0x00, 0x00] [0x61, 0x62] :=
    holds_iff.2 ⟨_, rfl, rfl⟩
  calc find _
      = find (setBytes ⟨.byte, _, by decide⟩ ++ [0xff]) :=
        find_first_common_name.1 [⟨.byte, _, by decide⟩] _
          (List.forall_mem_singleton.2 hcountry)
    _ = .ok [0x61, 0x62] :=
        find_first_common_name.2.2.1 _ _ [0xff] hholder

end CommonName

end Attestation
