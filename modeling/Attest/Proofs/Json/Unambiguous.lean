import Mathlib
import Attest.Proofs.Json.Objects
import Attest.Proofs.Json.Strings
import Attest.Proofs.Json.Tokens

/-!
# Objects can be read in one way

The grammar of objects leaves the writer a choice of spellings and spaces, but it leaves the reader
none: a text is the object of one list of members at most. A string ends at the first quote that is
not part of a spelling, and a number is as long as it can be, so each entry of a listing determines
where it ends; then there is only space up to the next comma or to the end.

The main statements are `Determined.listing`, `object_compact_iff` and `Object.wellFormed`.
-/

namespace Attest.Json.Grammar

/-- Whether what is written for an entry can be read in one way, in front of anything that may
follow a value. -/
structure Determined {α : Type} (Entry : α → List Char → Prop) : Prop where
  /-- an entry does not begin with space -/
  starts : ∀ ⦃a w⦄, Entry a w → ∃ c v, w = c :: v ∧ isSpace c = false
  /-- where an entry ends, and what it is, is all the same -/
  unique : ∀ ⦃a b w v rest rest'⦄, Entry a w → Entry b v → Ends rest → Ends rest' →
    w ++ rest = v ++ rest' → a = b ∧ rest = rest'

/-! ## Strings and values -/

/-- A string spells one text, and ends at one place. -/
theorem Spells.unique {text other w v rest rest' : List Char} (h : Spells text w)
    (h' : Spells other v) (heq : w ++ '"' :: rest = v ++ '"' :: rest') :
    text = other ∧ rest = rest' := by
  have hread : stringTail [] (w ++ '"' :: rest) = .ok (text, rest) := stringTail_spells h
  rw [heq, stringTail_spells h'] at hread
  obtain ⟨htext, hrest⟩ := Prod.mk.inj (Except.ok.inj hread)
  exact ⟨htext.symm, hrest.symm⟩

/-- A whole number is as long as it can be. -/
theorem Whole.unique {w v rest rest' : List Char} (h : Whole w) (h' : Whole v)
    (hrest : NoDigit rest) (hrest' : NoDigit rest') (heq : w ++ rest = v ++ rest') :
    w = v ∧ rest = rest' := by
  have hread : wholePart .malformed (w ++ rest) = .ok (w, rest) :=
    wholePart_eq_ok_iff.2 ⟨h, hrest, rfl⟩
  have hread' : wholePart .malformed (v ++ rest') = .ok (v, rest') :=
    wholePart_eq_ok_iff.2 ⟨h', hrest', rfl⟩
  rw [heq, hread'] at hread
  obtain ⟨hw, hrest⟩ := Prod.mk.inj (Except.ok.inj hread)
  exact ⟨hw.symm, hrest.symm⟩

/-- A number does not begin with a quote. -/
theorem Whole.append_ne {w rest v : List Char} (h : Whole w) : w ++ rest ≠ '"' :: v := by
  obtain ⟨c, tail, rfl, hc⟩ := h.1.exists_cons
  intro heq
  obtain ⟨rfl, -⟩ := List.cons.inj heq
  cases hc

theorem determined_spelled : Determined Spelled where
  starts := by
    rintro value w (⟨h⟩ | ⟨h⟩)
    · exact ⟨'"', _, rfl, rfl⟩
    · obtain ⟨c, v, rfl, hc⟩ := h.1.exists_cons
      refine ⟨c, v, rfl, ?_⟩
      rw [← Bool.not_eq_true, isSpace_iff]
      intro hspace
      simp only [List.mem_cons, List.not_mem_nil, or_false] at hspace
      rcases hspace with rfl | rfl | rfl | rfl <;> cases hc
  unique := by
    rintro a b w v rest rest' (⟨h⟩ | ⟨h⟩) (⟨h'⟩ | ⟨h'⟩) hrest hrest' heq
    · simp only [List.cons_append, List.append_assoc, List.cons.injEq, true_and,
        List.nil_append] at heq
      obtain ⟨htext, rfl⟩ := h.unique h' heq
      rw [String.toList_inj] at htext
      exact ⟨congrArg Value.text htext, rfl⟩
    · exact absurd heq.symm h'.append_ne
    · exact absurd heq h.append_ne
    · obtain ⟨rfl, rfl⟩ := h.unique h' hrest.delimited.noDigit hrest'.delimited.noDigit heq
      exact ⟨rfl, rfl⟩

/-! ## Members -/

/-- What stands after some space is determined if it is not itself space. -/
theorem Space.append_inj {space space' rest rest' : List Char} {c c' : Char} (h : Space space)
    (h' : Space space') (hc : Json.isSpace c = false) (hc' : Json.isSpace c' = false)
    (heq : space ++ c :: rest = space' ++ c' :: rest') : c :: rest = c' :: rest' := by
  have hskip := congrArg skipSpace heq
  rwa [skipSpace_append_cons h hc, skipSpace_append_cons h' hc'] at hskip

theorem determined_entry : Determined Entry where
  starts := by
    rintro _ _ ⟨hname, hbefore, hafter, hv⟩
    exact ⟨'"', _, rfl, rfl⟩
  unique := by
    rintro _ _ _ _ rest rest' ⟨hname, hbefore, hafter, hv⟩ ⟨hname', hbefore', hafter', hv'⟩
      hrest hrest' heq
    simp only [List.cons_append, List.append_assoc, List.cons.injEq, true_and] at heq
    obtain ⟨htext, hcolon⟩ := hname.unique hname' heq
    rw [String.toList_inj] at htext
    have hvalue := (List.cons.inj (hbefore.append_inj hbefore' rfl rfl hcolon)).2
    obtain ⟨c, tail, rfl, hc⟩ := determined_spelled.starts hv
    obtain ⟨c', tail', rfl, hc'⟩ := determined_spelled.starts hv'
    obtain ⟨rfl, rfl⟩ := determined_spelled.unique hv hv' hrest hrest'
      (hafter.append_inj hafter' hc hc' hvalue)
    exact ⟨congrArg (Prod.mk · _) htext, rfl⟩

/-! ## Listings -/

section Listing

variable {α : Type} {Entry : α → List Char → Prop}

/-- An entry between spaces is determined, and so is the mark after it. -/
theorem Determined.spaced (h : Determined Entry) {a b : α} {c c' : Char}
    {before w after rest before' v after' rest' : List Char}
    (hbefore : Space before) (hw : Entry a w) (hafter : Space after) (hc : isSpace c = false)
    (hrest : Ends (c :: rest)) (hbefore' : Space before') (hv : Entry b v) (hafter' : Space after')
    (hc' : isSpace c' = false) (hrest' : Ends (c' :: rest'))
    (heq : before ++ (w ++ (after ++ c :: rest)) = before' ++ (v ++ (after' ++ c' :: rest'))) :
    a = b ∧ c :: rest = c' :: rest' := by
  obtain ⟨d, tail, rfl, hd⟩ := h.starts hw
  obtain ⟨d', tail', rfl, hd'⟩ := h.starts hv
  have hentry := hbefore.append_inj hbefore' hd hd' heq
  obtain ⟨rfl, hmark⟩ := h.unique hw hv (hafter.ends hrest) (hafter'.ends hrest') hentry
  exact ⟨rfl, hafter.append_inj hafter' hc hc' hmark⟩

/-- **A listing up to the end of its container can be read in one way** if its entries can. -/
theorem Determined.listing (h : Determined Entry) (container : Container) {as bs : List α}
    {w v rest rest' : List Char} (hw : Listing Entry as w) (hv : Listing Entry bs v)
    (heq : w ++ container.closing :: rest = v ++ container.closing :: rest') :
    as = bs ∧ rest = rest' := by
  have hclosing : isSpace container.closing = false ∧ container.closing ≠ ',' := by
    cases container <;> decide
  have hend : ∀ {rest}, Ends (container.closing :: rest) := ends_closing container
  induction hw generalizing bs v with
  | last hbefore hw hafter =>
    cases hv with
    | last hbefore' hv hafter' =>
      simp only [List.append_assoc] at heq
      obtain ⟨rfl, hrest⟩ := h.spaced hbefore hw hafter hclosing.1 hend hbefore' hv hafter'
        hclosing.1 hend heq
      exact ⟨rfl, (List.cons.inj hrest).2⟩
    | more hbefore' hv hafter' hvs =>
      simp only [List.append_assoc, List.cons_append] at heq
      obtain ⟨-, hrest⟩ := h.spaced hbefore hw hafter hclosing.1 hend hbefore' hv hafter' rfl
        ends_comma heq
      exact absurd (List.cons.inj hrest).1 hclosing.2
  | more hbefore hw hafter hws ih =>
    cases hv with
    | last hbefore' hv hafter' =>
      simp only [List.append_assoc, List.cons_append] at heq
      obtain ⟨-, hrest⟩ := h.spaced hbefore hw hafter rfl ends_comma hbefore' hv hafter'
        hclosing.1 hend heq
      exact absurd (List.cons.inj hrest).1.symm hclosing.2
    | more hbefore' hv hafter' hvs =>
      simp only [List.append_assoc, List.cons_append] at heq
      obtain ⟨rfl, hrest⟩ := h.spaced hbefore hw hafter rfl ends_comma hbefore' hv hafter' rfl
        ends_comma heq
      obtain ⟨rfl, hlast⟩ := ih hvs (List.cons.inj hrest).2
      exact ⟨rfl, hlast⟩

end Listing

/-! ## Objects -/

/-- **A text is the object of one list of members at most.** -/
theorem Object.unique {members others : Members} {w : List Char} (h : Object members w)
    (h' : Object others w) : members = others := by
  obtain @⟨v, hv⟩ := h
  generalize hw : '\x7b' :: v ++ ['\x7d'] = w at h'
  obtain @⟨v', hv'⟩ := h'
  exact (determined_entry.listing .object hv hv' (List.cons.inj hw).2).1

/-- **What is written on one line for some members is the object of these alone.** -/
theorem object_compact_iff {members others : Members} (h : members ≠ []) :
    Object others (compact members).toList ↔ others = members := by
  refine ⟨fun hothers => hothers.unique (object_compact h), ?_⟩
  rintro rfl
  exact object_compact h

/-! ## Objects are values -/

theorem Spelling.loose_append {c : Char} {w v : List Char} (h : Spelling c w) (hv : Loose v) :
    Loose (w ++ v) := by
  cases h with
  | plain h => exact .plain h hv
  | short h => exact .short h hv
  | unit h => exact .unit h hv
  | pair _ hlead htrail =>
    rw [List.append_assoc]
    exact .unit hlead (.unit htrail hv)

/-- What spells a text may stand inside a string. -/
theorem Spells.loose {text w : List Char} (h : Spells text w) : Loose w := by
  induction h with
  | nil => exact .nil
  | cons hc _ ih => exact hc.loose_append ih

theorem Spelled.wellFormed {value : Value} {w : List Char} (h : Spelled value w) :
    WellFormed w := by
  cases h with
  | text h => exact .scalar (.string h.loose)
  | number h =>
    have hnumber := Number.intro (.inl rfl) h .none .none
    rw [List.append_nil, List.append_nil, List.nil_append] at hnumber
    exact .scalar (.number hnumber)

theorem Entry.item {entry : String × Value} {before w after : List Char} (h : Entry entry w)
    (hbefore : Space before) (hafter : Space after) : Item .object (before ++ w ++ after) := by
  obtain ⟨hname, hspace, hbetween, hv⟩ := h
  have hitem := Item.intro hbefore (.object hname.loose hspace) hbetween hv.wellFormed hafter
  simpa using hitem

theorem Listing.items {members : Members} {w : List Char} (h : Listing Entry members w) :
    Items .object w := by
  induction h with
  | last hbefore hw hafter => exact .last (hw.item hbefore hafter)
  | more hbefore hw hafter _ ih => exact .more (hw.item hbefore hafter) ih

/-- **An object that states some members is a value.** -/
theorem Object.wellFormed {members : Members} {w : List Char} (h : Object members w) :
    WellFormed w := by
  obtain ⟨hw⟩ := h
  exact .items .object hw.items

end Attest.Json.Grammar
