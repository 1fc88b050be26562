import Mathlib
import Attest.Proofs.Json.Values
import Attest.Proofs.Record.Format

/-!
# Reading records

The reader of records takes exactly the texts that state one, and returns the record that they
state. Objects and arrays are read by their own loops; for each there is one lemma about a step,
and from it one about what a whole run takes, in both directions.

The main statement is `read_spec`.
-/

namespace Attest.Record

open Json Json.Grammar

variable {chars rest : List Char} {record : Record}

theorem unreadable_eq_ok_iff {α : Type} {result : Except Fault α} {a : α} :
    unreadable result = .ok a ↔ result = .ok a := mapError_eq_ok_iff

/-! ## Strings -/

/-- A string is taken exactly if one comes next after some space. -/
theorem stringValue_eq_ok_iff {value : String} :
    stringValue chars = .ok (value, rest) ↔
      ∃ space w, Space space ∧ Quoted value w ∧ chars = space ++ w ++ rest := by
  refine ⟨fun h => ?_, ?_⟩
  · rw [stringValue] at h
    rcases hskip : skipSpace chars with _ | ⟨c, tail⟩
    · rw [hskip] at h
      cases h
    · rw [hskip] at h
      dsimp only at h
      split_ifs at h with hquote
      subst hquote
      obtain ⟨-, space, hspace, rfl⟩ := exists_of_skipSpace hskip
      rw [unreadable_eq_ok_iff, map_eq_ok_iff] at h
      obtain ⟨⟨text, rest'⟩, hstring, heq⟩ := h
      obtain ⟨rfl, rfl⟩ := Prod.mk.inj heq
      obtain ⟨w, hspells, rfl⟩ := stringTail_eq_ok_iff.1 hstring
      refine ⟨space, '"' :: w ++ ['"'], hspace, ⟨?_⟩, by simp⟩
      rw [String.toList_ofList]
      exact hspells
  · rintro ⟨space, _, hspace, ⟨hspells⟩, rfl⟩
    rename_i w
    have hchars : space ++ ('"' :: w ++ ['"']) ++ rest = space ++ '"' :: (w ++ '"' :: rest) := by
      simp
    rw [stringValue, hchars, skipSpace_append_cons hspace rfl]
    dsimp only
    rw [if_pos rfl, stringTail_eq_ok_iff.2 ⟨w, hspells, rfl⟩]
    change Except.ok (String.ofList value.toList, rest) = _
    rw [String.ofList_toList]

/-! ## Members -/

/-- What is taken as a member is one, and its field was not there before. -/
theorem exists_of_member {draft draft' : Draft} (h : member draft chars = .ok (draft', rest)) :
    ∃ entry w, Member entry ('"' :: w) ∧ chars = w ++ rest ∧ draft' = entry.toList ++ draft ∧
      (draft.IsSingle → draft'.IsSingle) := by
  obtain ⟨⟨name, tail⟩, hname, hentry⟩ := bind_eq_ok_iff.1 h
  rw [unreadable_eq_ok_iff, stringTail_eq_ok_iff] at hname
  obtain ⟨v, hspells, rfl⟩ := hname
  dsimp only at hentry
  rcases hfield : Field.ofName? name with _ | field
  · rw [hfield] at hentry
    obtain ⟨next, hcolon, hrest⟩ := bind_eq_ok_iff.1 hentry
    obtain ⟨rest', hskip, heq⟩ := bind_eq_ok_iff.1 hrest
    rw [unreadable_eq_ok_iff, punctuation_eq_ok_iff rfl] at hcolon
    rw [unreadable_eq_ok_iff] at hskip
    obtain ⟨before, hbefore, rfl⟩ := hcolon
    obtain ⟨after, w, hafter, hw, rfl⟩ := skipValue_sound hskip
    obtain ⟨rfl, rfl⟩ := Prod.mk.inj (Except.ok.inj heq)
    exact ⟨none, _, .other hspells (Field.ofName?_eq_none_iff.1 hfield) hbefore hafter hw,
      by simp, rfl, id⟩
  · rw [hfield] at hentry
    dsimp only at hentry
    split_ifs at hentry with hfresh
    obtain ⟨next, hcolon, hrest⟩ := bind_eq_ok_iff.1 hentry
    obtain ⟨⟨value, rest'⟩, hvalue, heq⟩ := bind_eq_ok_iff.1 hrest
    rw [unreadable_eq_ok_iff, punctuation_eq_ok_iff rfl] at hcolon
    obtain ⟨before, hbefore, rfl⟩ := hcolon
    obtain ⟨after, w, hafter, hw, rfl⟩ := stringValue_eq_ok_iff.1 hvalue
    obtain ⟨rfl, rfl⟩ := Prod.mk.inj (Except.ok.inj heq)
    obtain rfl := Field.ofName?_eq_some_iff.1 hfield
    have hsingle : draft.IsSingle → Draft.IsSingle ((field, value) :: draft) := fun hsingle =>
      List.nodup_cons.2 ⟨fun hmem => hfresh (Draft.isSome_lookup_iff.2 hmem), hsingle⟩
    exact ⟨some (field, value), _, .known hspells hbefore hafter hw, by simp, rfl, hsingle⟩

/-- After a name that is one of the record's, the draft decides; then a colon and a string are due. -/
theorem member_name {draft : Draft} {field : Field} {name : List Char}
    (hname : Spells field.name.toList name) :
    member draft (name ++ '"' :: rest) =
      if field ∈ draft.map Prod.fst then .error (.duplicate field)
      else unreadable (punctuation ':' rest) >>= fun rest => stringValue rest >>=
        fun (value, rest) => pure ((field, value) :: draft, rest) := by
  rw [member, stringTail_eq_ok_iff.2 ⟨name, hname, rfl⟩]
  refine (pure_bind _ _).trans ?_
  dsimp only
  rw [Field.ofName?_eq_some_iff.2 rfl]
  exact if_congr Draft.isSome_lookup_iff rfl rfl

/-- A name that is one of the record's and was there before is refused as soon as it is read. -/
theorem member_duplicate {draft : Draft} {field : Field} {name : List Char}
    (hname : Spells field.name.toList name) (h : field ∈ draft.map Prod.fst) :
    member draft (name ++ '"' :: rest) = .error (.duplicate field) := by
  rw [member_name hname, if_pos h]

/-- Any other member is taken. -/
theorem exists_member {entry : Option (Field × String)} {v : List Char} (h : Member entry v) :
    ∃ w, v = '"' :: w ∧ ∀ draft, Draft.IsSingle (entry.toList ++ draft) →
      ∀ rest, Ends rest → member draft (w ++ rest) = .ok (entry.toList ++ draft, rest) := by
  cases h with
  | @known field value name before after w hname hbefore hafter hw =>
    refine ⟨name ++ '"' :: before ++ ':' :: after ++ w, by simp, fun draft hsingle rest _ => ?_⟩
    have hfresh : field ∉ draft.map Prod.fst := (List.nodup_cons.1 hsingle).1
    have hchars : name ++ '"' :: before ++ ':' :: after ++ w ++ rest =
        name ++ '"' :: (before ++ ':' :: (after ++ w ++ rest)) := by simp
    rw [hchars, member_name hname, if_neg hfresh]
    refine bind_eq_ok_iff.2 ⟨after ++ w ++ rest, ?_, bind_eq_ok_iff.2 ⟨(value, rest), ?_, rfl⟩⟩
    · rw [unreadable_eq_ok_iff, punctuation_eq_ok_iff rfl]
      exact ⟨before, hbefore, rfl⟩
    · exact stringValue_eq_ok_iff.2 ⟨after, w, hafter, hw, rfl⟩
  | @other text name before after w hname hother hbefore hafter hw =>
    refine ⟨name ++ '"' :: before ++ ':' :: after ++ w, by simp, fun draft hsingle rest hrest => ?_⟩
    refine bind_eq_ok_iff.2 ⟨(text, before ++ ':' :: after ++ w ++ rest), ?_, ?_⟩
    · rw [unreadable_eq_ok_iff, stringTail_eq_ok_iff]
      exact ⟨name, hname, by simp⟩
    · dsimp only
      rw [Field.ofName?_eq_none_iff.2 hother]
      refine bind_eq_ok_iff.2 ⟨after ++ w ++ rest, ?_, bind_eq_ok_iff.2 ⟨rest, ?_, rfl⟩⟩
      · rw [unreadable_eq_ok_iff, punctuation_eq_ok_iff rfl]
        exact ⟨before, hbefore, by simp⟩
      · rw [unreadable_eq_ok_iff]
        exact skipValue_wellFormed hafter hw hrest

/-! ## Objects -/

theorem reduceOption_cons_reverse (entry : Option (Field × String))
    (members : List (Option (Field × String))) (draft : Draft) :
    (entry :: members).reduceOption.reverse ++ draft =
      members.reduceOption.reverse ++ (entry.toList ++ draft) := by
  cases entry with
  | none => rfl
  | some known =>
    rw [List.reduceOption_cons_of_some, List.reverse_cons, List.append_assoc]
    rfl

/-- What one round of the reader can have done: it has come to the closing brace, or taken one
member from its opening quote on. -/
theorem objectTail_cases {steps : ℕ} {first : Bool} {draft : Draft}
    (h : objectTail (steps + 1) first draft chars = .ok (record, rest)) :
    (∃ space, Space space ∧ chars = space ++ '\x7d' :: rest ∧ draft.finish = .ok record) ∨
    ∃ space tail draft' tail', Space space ∧ Before (space ++ '"' :: tail) first chars ∧
      member draft tail = .ok (draft', tail') ∧
      objectTail steps false draft' tail' = .ok (record, rest) := by
  rw [objectTail] at h
  rcases hskip : skipSpace chars with _ | ⟨c, tail⟩
  · rw [hskip] at h
    cases h
  rw [hskip] at h
  dsimp only at h
  obtain ⟨-, space, hspace, rfl⟩ := exists_of_skipSpace hskip
  by_cases hc : c = '\x7d'
  · rw [if_pos hc] at h
    obtain ⟨record', hfinish, heq⟩ := map_eq_ok_iff.1 h
    obtain ⟨rfl, rfl⟩ := Prod.mk.inj heq
    rw [hc]
    exact .inl ⟨space, hspace, rfl, hfinish⟩
  by_cases hcomma : (!first && decide (c ≠ ',')) = true
  · rw [if_neg hc, if_pos hcomma] at h
    cases h
  rw [if_neg hc, if_neg hcomma] at h
  obtain ⟨next, hquote, hmembers⟩ := bind_eq_ok_iff.1 h
  obtain ⟨⟨draft', tail'⟩, hmember, htail⟩ := bind_eq_ok_iff.1 hmembers
  rw [unreadable_eq_ok_iff, punctuation_eq_ok_iff rfl] at hquote
  obtain ⟨space', hspace', htext⟩ := hquote
  cases first with
  | true =>
    rw [if_pos rfl] at htext
    rw [htext, ← List.append_assoc]
    exact .inr ⟨_, next, draft', tail', hspace.append hspace', .first, hmember, htail⟩
  | false =>
    have hcomma' : c = ',' := by simpa using hcomma
    rw [if_neg Bool.false_ne_true] at htext
    rw [hcomma', htext]
    exact .inr ⟨space', next, draft', tail', hspace', .comma hspace, hmember, htail⟩

/-- What the reader of an object takes up to its closing brace. -/
theorem exists_of_objectTail {steps : ℕ} {first : Bool} {draft : Draft}
    (h : objectTail steps first draft chars = .ok (record, rest)) (hsingle : draft.IsSingle) :
    ∃ members w, Remaining Member first members w ∧ chars = w ++ '\x7d' :: rest ∧
      Fills (members.reduceOption.reverse ++ draft) record := by
  induction steps generalizing first draft chars with
  | zero => cases h
  | succ steps ih =>
    rcases objectTail_cases h with ⟨space, hspace, rfl, hfinish⟩ |
      ⟨space, tail, draft', tail', hspace, hbefore, hmember, htail⟩
    · exact ⟨[], space, .nil hspace, rfl, (Draft.finish_eq_ok_iff hsingle).1 hfinish⟩
    · obtain ⟨entry, w, hw, rfl, rfl, hfresh⟩ := exists_of_member hmember
      obtain ⟨members, w', hrest, rfl, hfills⟩ := ih htail (hfresh hsingle)
      have hlisting := hrest.cons hspace hw
      have hitems : Before (space ++ '"' :: w ++ w' ++ '\x7d' :: rest) first chars := by
        simpa using hbefore
      -- the draft has the member in front, where the list of members has it at the start
      obtain ⟨v, hv, rfl⟩ := hitems.exists_append
      rw [← reduceOption_cons_reverse] at hfills
      exact ⟨entry :: members, v, .listing hlisting hv, rfl, hfills⟩

theorem objectTail_closing {steps : ℕ} {first : Bool} {draft : Draft} {space : List Char}
    (h : Space space) : objectTail (steps + 1) first draft (space ++ '\x7d' :: rest) =
      draft.finish.map fun record => (record, rest) := by
  rw [objectTail, skipSpace_append_cons h rfl]
  exact if_pos rfl

/-- One round of the reader takes one member from its opening quote on. -/
theorem objectTail_quote {steps : ℕ} {first : Bool} {draft : Draft} {before tail : List Char}
    (hbefore : Space before) (h : Before (before ++ '"' :: tail) first chars) :
    objectTail (steps + 1) first draft chars =
      member draft tail >>= fun (draft, rest) => objectTail steps false draft rest := by
  have hround : ∀ text, (∃ space, Space space ∧ text = space ++ '"' :: tail) →
      (do
        let rest ← unreadable (punctuation '"' text)
        let (draft, rest) ← member draft rest
        objectTail steps false draft rest) =
      member draft tail >>= fun (draft, rest) => objectTail steps false draft rest := by
    intro text htext
    rw [(punctuation_eq_ok_iff rfl).2 htext]
    rfl
  cases h with
  | first =>
    rw [objectTail, skipSpace_append_cons hbefore rfl]
    dsimp only
    rw [if_neg (by decide), if_neg (by decide), if_pos rfl]
    exact hround _ ⟨[], .nil, rfl⟩
  | comma hspace =>
    rw [objectTail, skipSpace_append_cons hspace rfl]
    dsimp only
    rw [if_neg (by decide), if_neg (by decide), if_neg Bool.false_ne_true]
    exact hround _ ⟨before, hbefore, rfl⟩

theorem objectTail_member {steps : ℕ} {first : Bool} {draft : Draft}
    {entry : Option (Field × String)} {before w : List Char} (hbefore : Space before)
    (hw : Member entry w) (hsingle : Draft.IsSingle (entry.toList ++ draft)) (hrest : Ends rest)
    (h : Before (before ++ w ++ rest) first chars) :
    objectTail (steps + 1) first draft chars =
      objectTail steps false (entry.toList ++ draft) rest := by
  obtain ⟨v, rfl, hmember⟩ := exists_member hw
  have hquote : Before (before ++ '"' :: (v ++ rest)) first chars := by
    rw [List.append_assoc] at h
    exact h
  rw [objectTail_quote hbefore hquote, hmember draft hsingle rest hrest]
  rfl

theorem objectTail_duplicate {steps : ℕ} {first : Bool} {draft : Draft} {field : Field}
    {before name : List Char} (hbefore : Space before) (hname : Spells field.name.toList name)
    (hfield : field ∈ draft.map Prod.fst)
    (h : Before (before ++ '"' :: (name ++ '"' :: rest)) first chars) :
    objectTail (steps + 1) first draft chars = .error (.duplicate field) := by
  rw [objectTail_quote hbefore h, member_duplicate hname hfield]
  rfl

/-- A member is taken, or it is the second one of its name. -/
theorem objectTail_entry {steps : ℕ} {first : Bool} {draft : Draft}
    {entry : Option (Field × String)} {before w : List Char} (hbefore : Space before)
    (hw : Member entry w) (hdraft : draft.IsSingle) (hrest : Ends rest)
    (h : Before (before ++ w ++ rest) first chars) :
    Draft.IsSingle (entry.toList ++ draft) ∧ objectTail (steps + 1) first draft chars =
        objectTail steps false (entry.toList ++ draft) rest ∨
      ¬Draft.IsSingle (entry.toList ++ draft) ∧
        ∃ field, objectTail (steps + 1) first draft chars = .error (.duplicate field) := by
  by_cases hsingle : Draft.IsSingle (entry.toList ++ draft)
  · exact .inl ⟨hsingle, objectTail_member hbefore hw hsingle hrest h⟩
  · refine .inr ⟨hsingle, ?_⟩
    cases hw with
    | @known field value name space after w hname hspace hafter hw =>
      have hfield : field ∈ draft.map Prod.fst :=
        by_contra fun hfield => hsingle (List.nodup_cons.2 ⟨hfield, hdraft⟩)
      have hquote : Before (before ++ '"' :: (name ++ '"' :: (space ++ ':' :: after ++ w ++ rest)))
          first chars := by simpa using h
      exact ⟨field, objectTail_duplicate hbefore hname hfield hquote⟩
    | other => exact absurd hdraft hsingle

/-- The reader of an object takes all of its members, and succeeds exactly if they state a
record. -/
theorem objectTail_listing {members : List (Option (Field × String))} {w rest' : List Char}
    (hw : Listing Member members w) {steps : ℕ} {first : Bool} {draft : Draft}
    (hsteps : w.length < steps) (hdraft : draft.IsSingle)
    (h : Before (w ++ '\x7d' :: rest) first chars) :
    objectTail steps first draft chars = .ok (record, rest') ↔
      rest = rest' ∧ Fills (members.reduceOption.reverse ++ draft) record := by
  induction hw generalizing steps first draft chars with
  | @last entry before w after hbefore hw hafter =>
    obtain ⟨steps, rfl⟩ : ∃ n, steps = n + 2 := by
      obtain ⟨v, rfl, -⟩ := exists_member hw
      rw [List.length_append, List.length_append, List.length_cons] at hsteps
      exact ⟨steps - 2, by omega⟩
    have hends : Ends (after ++ '\x7d' :: rest) := hafter.ends (ends_closing .object)
    rw [List.append_assoc] at h
    rw [reduceOption_cons_reverse]
    rcases objectTail_entry hbefore hw hdraft hends h with
      ⟨hsingle, hmember⟩ | ⟨hnot, field, herror⟩
    · rw [hmember, objectTail_closing hafter, map_eq_ok_iff]
      refine ⟨?_, ?_⟩
      · rintro ⟨record', hfinish, heq⟩
        obtain ⟨rfl, rfl⟩ := Prod.mk.inj heq
        exact ⟨rfl, (Draft.finish_eq_ok_iff hsingle).1 hfinish⟩
      · rintro ⟨rfl, hfills⟩
        exact ⟨record, (Draft.finish_eq_ok_iff hsingle).2 hfills, rfl⟩
    · -- a field that comes twice is an error, and members with one twice state no record
      rw [herror]
      exact ⟨nofun, fun hfills => absurd (Draft.isSingle_of_fills hfills.2) hnot⟩
  | @more entry members before w after v hbefore hw hafter _ ih =>
    obtain ⟨steps, rfl⟩ : ∃ n, steps = n + 1 := ⟨steps - 1, by omega⟩
    have hends : Ends (after ++ (',' :: v ++ '\x7d' :: rest)) := hafter.ends ends_comma
    rw [List.length_append, List.length_cons] at hsteps
    rw [List.append_assoc, List.append_assoc] at h
    rw [reduceOption_cons_reverse]
    rcases objectTail_entry hbefore hw hdraft hends h with
      ⟨hsingle, hmember⟩ | ⟨hnot, field, herror⟩
    · rw [hmember]
      exact ih (by omega) hsingle (.comma hafter)
    · rw [herror]
      exact ⟨nofun, fun hfills => absurd (Draft.isSingle_of_fills hfills.2).of_append hnot⟩

/-- What is taken as an object states the record. -/
theorem exists_of_object (h : objectTail (chars.length + 1) true [] chars = .ok (record, rest)) :
    ∃ members w, Listing Member members w ∧ chars = w ++ '\x7d' :: rest ∧
      Fills members.reduceOption record := by
  obtain ⟨members, w, hw, rfl, hfills⟩ := exists_of_objectTail h Draft.isSingle_nil
  rw [List.append_nil, fills_congr (List.reverse_perm _)] at hfills
  cases hw with
  | nil =>
    -- no members state nothing
    rcases hfills with hperm | ⟨-, hperm⟩
    · cases hperm.length_eq
    · cases hperm.length_eq
  | listing hw hbefore =>
    cases hbefore with
    | first => exact ⟨members, w, hw, rfl, hfills⟩

/-- An object with given members is taken exactly if they state a record. -/
theorem object_listing {members : List (Option (Field × String))} {w rest' : List Char}
    (hw : Listing Member members w) :
    objectTail ((w ++ '\x7d' :: rest).length + 1) true [] (w ++ '\x7d' :: rest) =
      .ok (record, rest') ↔ rest = rest' ∧ Fills members.reduceOption record := by
  have hlength : w.length < (w ++ '\x7d' :: rest).length + 1 := by
    rw [List.length_append]
    omega
  rw [objectTail_listing hw hlength Draft.isSingle_nil .first, List.append_nil,
    fills_congr (List.reverse_perm _)]

/-! ## Arrays -/

/-- What one round of the reader can have done: it has come to the closing bracket, which it leaves,
or taken one string. -/
theorem elements_cases {expected : ℕ} {done values : List String}
    (h : elements (expected + 1) done chars = .ok (values, rest)) :
    (∃ space tail, Space space ∧ chars = space ++ ']' :: tail ∧ rest = ']' :: tail ∧
      values = done.reverse) ∨
    ∃ space next value tail, Space space ∧ Before (space ++ next) done.isEmpty chars ∧
      stringValue next = .ok (value, tail) ∧
      elements expected (value :: done) tail = .ok (values, rest) := by
  rw [elements] at h
  rcases hskip : skipSpace chars with _ | ⟨c, tail⟩
  · rw [hskip] at h
    cases h
  rw [hskip] at h
  dsimp only at h
  obtain ⟨-, space, hspace, rfl⟩ := exists_of_skipSpace hskip
  by_cases hc : c = ']'
  · rw [if_pos hc] at h
    obtain ⟨rfl, rfl⟩ := Prod.mk.inj (Except.ok.inj h)
    rw [hc]
    exact .inl ⟨space, tail, hspace, rfl, rfl, rfl⟩
  rw [if_neg hc] at h
  by_cases hfirst : done.isEmpty = true
  · rw [if_pos hfirst, pure_bind] at h
    obtain ⟨⟨value, tail'⟩, hvalue, htail⟩ := bind_eq_ok_iff.1 h
    rw [hfirst]
    exact .inr ⟨space, _, value, tail', hspace, .first, hvalue, htail⟩
  rw [if_neg hfirst] at h
  by_cases hcomma : c ≠ ','
  · rw [if_pos hcomma] at h
    cases h
  rw [if_neg hcomma] at h
  rcases hskip' : skipSpace tail with _ | ⟨d, tail'⟩
  · rw [hskip'] at h
    cases h
  rw [hskip'] at h
  dsimp only at h
  obtain ⟨-, space', hspace', rfl⟩ := exists_of_skipSpace hskip'
  by_cases hd : d = ']'
  · rw [if_pos hd] at h
    cases h
  rw [if_neg hd, pure_bind] at h
  obtain ⟨⟨value, rest'⟩, hvalue, htail⟩ := bind_eq_ok_iff.1 h
  rw [Bool.eq_false_iff.2 hfirst, not_not.1 hcomma]
  exact .inr ⟨space', _, value, rest', hspace', .comma hspace, hvalue, htail⟩

/-- What the reader of an array takes up to its closing bracket. -/
theorem exists_of_elements {expected : ℕ} {done values : List String} {last : List Char}
    (h : elements expected done chars = .ok (values, rest))
    (hlast : punctuation ']' rest = .ok last) :
    ∃ new w, values = done.reverse ++ new ∧ Remaining Quoted done.isEmpty new w ∧
      chars = w ++ ']' :: last := by
  induction expected generalizing done chars with
  | zero =>
    obtain ⟨rfl, rfl⟩ := Prod.mk.inj (Except.ok.inj h)
    obtain ⟨space, hspace, rfl⟩ := (punctuation_eq_ok_iff rfl).1 hlast
    exact ⟨[], space, (List.append_nil _).symm, .nil hspace, rfl⟩
  | succ expected ih =>
    rcases elements_cases h with ⟨space, tail, hspace, rfl, rfl, rfl⟩ |
      ⟨space, next, value, tail, hspace, hbefore, hvalue, htail⟩
    · obtain rfl : tail = last := Except.ok.inj hlast
      exact ⟨[], space, (List.append_nil _).symm, .nil hspace, rfl⟩
    · obtain ⟨space', w, hspace', hw, rfl⟩ := stringValue_eq_ok_iff.1 hvalue
      obtain ⟨new, w', rfl, hrest, rfl⟩ := ih htail
      have hlisting := hrest.cons (hspace.append hspace') hw
      have hitems : Before (space ++ space' ++ w ++ w' ++ ']' :: last) done.isEmpty chars := by
        simpa using hbefore
      obtain ⟨v, hv, rfl⟩ := hitems.exists_append
      refine ⟨value :: new, v, ?_, .listing hlisting hv, rfl⟩
      rw [List.reverse_cons, List.append_assoc, List.singleton_append]

/-- The end of an array is reached, whether or not more strings were expected. -/
theorem exists_elements_closing {expected : ℕ} {done : List String} {space last : List Char}
    (h : Space space) :
    ∃ rest, elements expected done (space ++ ']' :: last) = .ok (done.reverse, rest) ∧
      punctuation ']' rest = .ok last := by
  cases expected with
  | zero => exact ⟨_, rfl, (punctuation_eq_ok_iff rfl).2 ⟨space, h, rfl⟩⟩
  | succ expected =>
    refine ⟨']' :: last, ?_, rfl⟩
    rw [elements, skipSpace_append_cons h rfl]
    exact if_pos rfl

/-- One round of the reader takes one string. -/
theorem elements_string {expected : ℕ} {done : List String} {value : String}
    {before w : List Char} (hbefore : Space before) (hw : Quoted value w)
    (h : Before (before ++ w ++ rest) done.isEmpty chars) :
    elements (expected + 1) done chars = elements expected (value :: done) rest := by
  have hvalue : stringValue (w ++ rest) = .ok (value, rest) :=
    stringValue_eq_ok_iff.2 ⟨[], w, .nil, hw, rfl⟩
  obtain ⟨v, hv⟩ : ∃ v, w = '"' :: v := by
    cases hw with
    | intro => exact ⟨_, rfl⟩
  subst hv
  rw [List.append_assoc] at h
  generalize hfirst : done.isEmpty = first at h
  cases h with
  | first =>
    rw [elements, List.cons_append, skipSpace_append_cons hbefore rfl]
    dsimp only
    rw [if_neg (by decide), if_pos hfirst, ← List.cons_append, pure_bind, hvalue]
    rfl
  | comma hspace =>
    rw [elements, skipSpace_append_cons hspace rfl]
    dsimp only
    rw [if_neg (by decide), if_neg (by rw [hfirst]; exact Bool.false_ne_true), if_neg (by decide),
      List.cons_append, skipSpace_append_cons hbefore rfl]
    dsimp only
    rw [if_neg (by decide), ← List.cons_append, pure_bind, hvalue]
    rfl

/-- The reader of an array takes all of its strings. -/
theorem exists_elements {values : List String} {w : List Char} (hw : Listing Quoted values w)
    {expected : ℕ} {done : List String} {last : List Char} (hlength : values.length ≤ expected)
    (h : Before (w ++ ']' :: last) done.isEmpty chars) :
    ∃ rest, elements expected done chars = .ok (done.reverse ++ values, rest) ∧
      punctuation ']' rest = .ok last := by
  induction hw generalizing expected done chars with
  | @last value before w after hbefore hw hafter =>
    obtain ⟨expected, rfl⟩ : ∃ n, expected = n + 1 := ⟨expected - 1, by simp at hlength; omega⟩
    rw [List.append_assoc] at h
    obtain ⟨rest, hrest, hlast⟩ := exists_elements_closing hafter
    refine ⟨rest, ?_, hlast⟩
    rw [elements_string hbefore hw h, hrest, List.reverse_cons]
  | @more value values before w after v hbefore hw hafter _ ih =>
    obtain ⟨expected, rfl⟩ : ∃ n, expected = n + 1 := ⟨expected - 1, by simp at hlength; omega⟩
    rw [List.append_assoc, List.append_assoc] at h
    rw [elements_string hbefore hw h]
    have hcomma : Before (v ++ ']' :: last) (value :: done).isEmpty
        (after ++ (',' :: v ++ ']' :: last)) := .comma hafter
    obtain ⟨rest, hrest, hlast⟩ := ih (Nat.le_of_succ_le_succ hlength) hcomma
    refine ⟨rest, ?_, hlast⟩
    rw [hrest, List.reverse_cons, List.append_assoc, List.singleton_append]

/-- A comma is not the end of an array. -/
theorem punctuation_ne_ok_of_before {items next : List Char} (h : Before items false chars) :
    punctuation ']' chars ≠ .ok next := by
  intro hnext
  cases h with
  | comma hspace =>
    rw [punctuation, skipSpace_append_cons hspace rfl] at hnext
    cases hnext

/-- Where there are more strings than expected, the end of the array is not reached. -/
theorem exists_elements_of_lt {values : List String} {w : List Char}
    (hw : Listing Quoted values w) {expected : ℕ} {done : List String} {last : List Char}
    (hlength : expected < values.length) (hstart : expected = 0 → done.isEmpty = false)
    (h : Before (w ++ ']' :: last) done.isEmpty chars) :
    ∃ values' rest, elements expected done chars = .ok (values', rest) ∧
      ∀ next, punctuation ']' rest ≠ .ok next := by
  induction hw generalizing expected done chars with
  | last =>
    obtain rfl : expected = 0 := Nat.lt_one_iff.1 hlength
    rw [hstart rfl] at h
    exact ⟨done.reverse, chars, rfl, fun next => punctuation_ne_ok_of_before h⟩
  | @more value values before w after v hbefore hw hafter _ ih =>
    rcases expected with _ | expected
    · rw [hstart rfl] at h
      exact ⟨done.reverse, chars, rfl, fun next => punctuation_ne_ok_of_before h⟩
    · rw [List.append_assoc, List.append_assoc] at h
      have hcomma : Before (v ++ ']' :: last) (value :: done).isEmpty
          (after ++ (',' :: v ++ ']' :: last)) := .comma hafter
      rw [elements_string hbefore hw h]
      exact ih (Nat.lt_of_succ_lt_succ hlength) (fun _ => rfl) hcomma

/-- The record that the strings of an array make. -/
def ofStrings : List String → Except ReadError Record
  | [address, message, signature, version] => .ok ⟨address, message, signature, version⟩
  | [address, message, signature] => .ok ⟨address, message, signature, currentVersion⟩
  | short => .error (.tooShort short.length)

theorem ofStrings_eq_ok_iff {values : List String} :
    ofStrings values = .ok record ↔ Lists values record := by
  refine ⟨fun h => ?_, ?_⟩
  · rw [ofStrings.eq_def] at h
    split at h
    · obtain rfl := Except.ok.inj h
      exact .inl rfl
    · obtain rfl := Except.ok.inj h
      exact .inr ⟨rfl, rfl⟩
    · cases h
  · obtain ⟨address, message, signature, version⟩ := record
    rintro (rfl | ⟨hversion, rfl⟩)
    · rfl
    · obtain rfl : version = "2" := hversion
      rfl

/-- The reader of an array in three parts: its strings, the record they make, and its end. -/
theorem arrayTail_eq_bind (chars : List Char) :
    arrayTail chars = elements 4 [] chars >>= fun (values, rest) => ofStrings values >>=
      fun record => unreadable (punctuation ']' rest) >>= fun rest => pure (record, rest) := by
  refine congrArg (elements 4 [] chars >>= ·) (funext fun (values, rest) => ?_)
  match values with
  | [] => rfl
  | [_] => rfl
  | [_, _] => rfl
  | [_, _, _] => rfl
  | [_, _, _, _] => rfl
  | _ :: _ :: _ :: _ :: _ :: _ => rfl

theorem arrayTail_of_elements {values : List String} {tail : List Char}
    (h : elements 4 [] chars = .ok (values, tail)) :
    arrayTail chars = .ok (record, rest) ↔
      punctuation ']' tail = .ok rest ∧ Lists values record := by
  rw [arrayTail_eq_bind, h, ← ofStrings_eq_ok_iff]
  change (ofStrings values >>= fun record => unreadable (punctuation ']' tail) >>=
    fun rest => pure (record, rest)) = .ok (record, rest) ↔ _
  refine ⟨fun htail => ?_, ?_⟩
  · obtain ⟨record', hrecord, hend⟩ := bind_eq_ok_iff.1 htail
    obtain ⟨rest', hlast, heq⟩ := bind_eq_ok_iff.1 hend
    obtain ⟨rfl, rfl⟩ := Prod.mk.inj (Except.ok.inj heq)
    exact ⟨unreadable_eq_ok_iff.1 hlast, hrecord⟩
  · rintro ⟨hlast, hrecord⟩
    exact bind_eq_ok_iff.2 ⟨record, hrecord, bind_eq_ok_iff.2
      ⟨rest, unreadable_eq_ok_iff.2 hlast, rfl⟩⟩

/-- What is taken as an array states the record. -/
theorem exists_of_arrayTail (h : arrayTail chars = .ok (record, rest)) :
    ∃ values w, Listing Quoted values w ∧ chars = w ++ ']' :: rest ∧ Lists values record := by
  obtain ⟨⟨values, tail⟩, hvalues, -⟩ := bind_eq_ok_iff.1 h
  obtain ⟨hlast, hlists⟩ := (arrayTail_of_elements hvalues).1 h
  obtain ⟨_, w, rfl, hw, rfl⟩ := exists_of_elements hvalues hlast
  cases hw with
  | nil => rcases hlists with h | ⟨-, h⟩ <;> cases h
  | listing hw hbefore =>
    cases hbefore with
    | first => exact ⟨_, w, hw, rfl, hlists⟩

/-- An array of given strings is taken exactly if they state a record. -/
theorem arrayTail_listing {values : List String} {w rest' : List Char}
    (hw : Listing Quoted values w) :
    arrayTail (w ++ ']' :: rest) = .ok (record, rest') ↔ rest = rest' ∧ Lists values record := by
  have hfirst : Before (w ++ ']' :: rest) ([] : List String).isEmpty (w ++ ']' :: rest) := .first
  by_cases hlength : values.length ≤ 4
  · obtain ⟨tail, hvalues, hlast⟩ := exists_elements hw hlength hfirst
    rw [arrayTail_of_elements hvalues, hlast, Except.ok.injEq]
    rfl
  · obtain ⟨values', tail, hvalues, hlast⟩ :=
      exists_elements_of_lt hw (not_le.1 hlength) nofun hfirst
    rw [arrayTail_of_elements hvalues]
    refine ⟨fun h => absurd h.1 (hlast _), fun h => absurd ?_ hlength⟩
    rcases h.2 with rfl | ⟨-, rfl⟩
    · exact Nat.le_refl 4
    · exact Nat.le_succ 3

/-! ## Whole texts -/

/-- What is read of a text after its record: nothing but space may follow. -/
def endOfText : Record × List Char → Except ReadError Record
  | (record, rest) =>
    if skipSpace rest = [] then .ok record else .error (.unreadable .malformed)

theorem endOfText_eq_ok (h : Space rest) : endOfText (record, rest) = .ok record :=
  if_pos (skipSpace_eq_nil_iff.2 h)

theorem bind_endOfText_eq_ok_iff {taken : Except ReadError (Record × List Char)} :
    taken >>= endOfText = .ok record ↔ ∃ rest, taken = .ok (record, rest) ∧ Space rest := by
  rw [bind_eq_ok_iff]
  refine ⟨?_, ?_⟩
  · rintro ⟨⟨record', rest⟩, htaken, h⟩
    rw [endOfText] at h
    split_ifs at h with hspace
    obtain rfl := Except.ok.inj h
    exact ⟨rest, htaken, skipSpace_eq_nil_iff.1 hspace⟩
  · rintro ⟨rest, htaken, hspace⟩
    exact ⟨(record, rest), htaken, endOfText_eq_ok hspace⟩

theorem readChars_object {before tail : List Char} (h : Space before) :
    readChars (before ++ '\x7b' :: tail) =
      objectTail (tail.length + 1) true [] tail >>= endOfText := by
  rw [readChars, skipSpace_append_cons h rfl]
  dsimp only
  rw [if_pos rfl]
  rfl

theorem readChars_brace {before tail : List Char} (h : Space before) :
    readChars (before ++ '\x7b' :: tail) = .ok record ↔
      ∃ rest, objectTail (tail.length + 1) true [] tail = .ok (record, rest) ∧ Space rest := by
  rw [readChars_object h]
  exact bind_endOfText_eq_ok_iff

theorem readChars_bracket {before tail : List Char} (h : Space before) :
    readChars (before ++ '[' :: tail) = .ok record ↔
      ∃ rest, arrayTail tail = .ok (record, rest) ∧ Space rest := by
  rw [readChars, skipSpace_append_cons h rfl]
  dsimp only
  rw [if_neg (by decide), if_pos rfl]
  exact bind_endOfText_eq_ok_iff

/-- What is read as a record begins, after space, with a brace or a bracket. -/
theorem exists_of_readChars (h : readChars chars = .ok record) :
    ∃ before tail, Space before ∧
      (chars = before ++ '\x7b' :: tail ∨ chars = before ++ '[' :: tail) := by
  rw [readChars] at h
  rcases hskip : skipSpace chars with _ | ⟨c, tail⟩
  · rw [hskip] at h
    cases h
  rw [hskip] at h
  dsimp only at h
  obtain ⟨-, before, hbefore, rfl⟩ := exists_of_skipSpace hskip
  split_ifs at h with hobject harray
  · exact ⟨before, tail, hbefore, .inl (by rw [hobject])⟩
  · exact ⟨before, tail, hbefore, .inr (by rw [harray])⟩
  · cases h

/-- A text that is read as a record states it. -/
theorem written_of_readChars (h : readChars chars = .ok record) : Written record chars := by
  obtain ⟨before, tail, hbefore, rfl | rfl⟩ := exists_of_readChars h
  · obtain ⟨after, htail, hafter⟩ := (readChars_brace hbefore).1 h
    obtain ⟨members, w, hw, rfl, hfills⟩ := exists_of_object htail
    have htext := ObjectText.intro hbefore hw hafter
    exact .object (by simpa using htext) hfills
  · obtain ⟨after, htail, hafter⟩ := (readChars_bracket hbefore).1 h
    obtain ⟨values, w, hw, rfl, hlists⟩ := exists_of_arrayTail htail
    have htext := ArrayText.intro hbefore hw hafter
    exact .array (by simpa using htext) hlists

/-- An object is read as the record that its members state. -/
theorem readChars_objectText {members : List (Option (Field × String))}
    (h : ObjectText members chars) :
    readChars chars = .ok record ↔ Fills members.reduceOption record := by
  obtain @⟨before, w, after, hbefore, hw, hafter⟩ := h
  have hchars : before ++ ('\x7b' :: w ++ ['\x7d']) ++ after =
      before ++ '\x7b' :: (w ++ '\x7d' :: after) := by simp
  rw [hchars, readChars_brace hbefore]
  refine ⟨?_, fun hfills => ⟨after, (object_listing hw).2 ⟨rfl, hfills⟩, hafter⟩⟩
  rintro ⟨rest, htail, -⟩
  exact ((object_listing hw).1 htail).2

/-- An array is read as the record that its strings state. -/
theorem readChars_arrayText {values : List String} (h : ArrayText values chars) :
    readChars chars = .ok record ↔ Lists values record := by
  obtain @⟨before, w, after, hbefore, hw, hafter⟩ := h
  have hchars : before ++ ('[' :: w ++ [']']) ++ after =
      before ++ '[' :: (w ++ ']' :: after) := by simp
  rw [hchars, readChars_bracket hbefore]
  refine ⟨?_, fun hlists => ⟨after, (arrayTail_listing hw).2 ⟨rfl, hlists⟩, hafter⟩⟩
  rintro ⟨rest, htail, -⟩
  exact ((arrayTail_listing hw).1 htail).2

theorem readChars_eq_ok_iff : readChars chars = .ok record ↔ Written record chars := by
  refine ⟨written_of_readChars, ?_⟩
  rintro (⟨htext, hfills⟩ | ⟨htext, hlists⟩)
  · exact (readChars_objectText htext).2 hfills
  · exact (readChars_arrayText htext).2 hlists

/-- **A text is read as a record exactly if it states the record.** Neither the order of the
members, nor other members, nor the space between tokens, nor the way characters are spelled play a
part. -/
theorem read_spec :
    (∀ text record, read text = .ok record ↔ Written record text.toList) ∧
    (∀ members members' text text', ObjectText members text.toList →
      ObjectText members' text'.toList → members.reduceOption.Perm members'.reduceOption →
        ∀ record, read text = .ok record ↔ read text' = .ok record) ∧
    ∀ values text text', ArrayText values text.toList → ArrayText values text'.toList →
      ∀ record, read text = .ok record ↔ read text' = .ok record := by
  refine ⟨fun text record => readChars_eq_ok_iff, ?_, ?_⟩
  · intro members members' text text' htext htext' hperm record
    rw [read, read, readChars_objectText htext, readChars_objectText htext', fills_congr hperm]
  · intro values text text' htext htext' record
    rw [read, read, readChars_arrayText htext, readChars_arrayText htext']

/-- One array in two spellings. -/
theorem read_spec_spellings :
    ArrayText ["a", "", ""] "[\"a\",\"\",\"\"]".toList ∧
      ArrayText ["a", "", ""] "[ \"\\u0061\",\"\",\"\"]".toList ∧
      (read "[\"a\",\"\",\"\"]" = .ok ⟨"a", "", "", "2"⟩ ↔
        read "[ \"\\u0061\",\"\",\"\"]" = .ok ⟨"a", "", "", "2"⟩) := by
  have hunit : UnitDigits 'a'.toNat ['0', '0', '6', '1'] :=
    @UnitDigits.intro '0' '0' '6' '1' 0 0 6 1 (by decide) (by decide) (by decide) (by decide)
  have hspells : Spells ['a'] ['a'] := .cons (.plain (by decide)) .nil
  have hspells' : Spells ['a'] ['\\', 'u', '0', '0', '6', '1'] := .cons (.unit hunit) .nil
  have hplain : Quoted "a" ['"', 'a', '"'] := @Quoted.intro "a" _ hspells
  have hescape : Quoted "a" ['"', '\\', 'u', '0', '0', '6', '1', '"'] :=
    @Quoted.intro "a" _ hspells'
  have hblank : Quoted "" ['"', '"'] := @Quoted.intro "" [] .nil
  have hspace : Space [' '] := by simp [Space]
  have hblanks : Listing Quoted ["", ""] (['"', '"'] ++ ',' :: ['"', '"']) :=
    @Listing.more _ _ "" [""] [] _ [] _ .nil hblank .nil
      (@Listing.last _ _ "" [] _ [] .nil hblank .nil)
  have htext : ArrayText ["a", "", ""] "[\"a\",\"\",\"\"]".toList :=
    @ArrayText.intro _ [] _ []
      .nil (@Listing.more _ _ "a" _ [] _ [] _ .nil hplain .nil hblanks) .nil
  have htext' : ArrayText ["a", "", ""] "[ \"\\u0061\",\"\",\"\"]".toList :=
    @ArrayText.intro _ [] _ []
      .nil (@Listing.more _ _ "a" _ [' '] _ [] _ hspace hescape .nil hblanks) .nil
  exact ⟨htext, htext', read_spec.2.2 _ _ _ htext htext' _⟩

end Attest.Record
