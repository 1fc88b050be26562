import Mathlib
import Attest.Record.Reading
import Attest.Proofs.Json.Tokens
import Attest.Proofs.Lookup

/-!
# The format of records

Which texts state a record, said by rules: an object with the record's members among others, in any
order, or an array of its strings. Nothing here tells how a text is read.

A draft gathers members; `Draft.finish_eq_ok_iff` says which records come of it, where no member
comes twice.
-/

namespace Attest.Record

open Json.Grammar

/-- A string with its quotes, in any of its spellings. -/
inductive Quoted (value : String) : List Char → Prop where
  | intro {w : List Char} (h : Spells value.toList w) : Quoted value ('"' :: w ++ ['"'])

/-- A member of an object: one of the record's, with its value, or another one. The name of the
other one has to spell a text, and its value can be any. -/
inductive Member : Option (Field × String) → List Char → Prop where
  | known {field : Field} {value : String} {name before after w : List Char}
      (hname : Spells field.name.toList name) (hbefore : Space before) (hafter : Space after)
      (hw : Quoted value w) :
      Member (some (field, value)) ('"' :: name ++ '"' :: before ++ ':' :: after ++ w)
  | other {text name before after w : List Char} (hname : Spells text name)
      (hother : ∀ field : Field, field.name.toList ≠ text) (hbefore : Space before)
      (hafter : Space after) (hw : WellFormed w) :
      Member none ('"' :: name ++ '"' :: before ++ ':' :: after ++ w)

/-- Whether members state a record: each of its own comes once, in any order. The version may be
missing, and is 2 then. -/
def Fills (known : List (Field × String)) (record : Record) : Prop :=
  known.Perm [(.address, record.address), (.message, record.message),
    (.signature, record.signature), (.version, record.version)] ∨
  record.version = "2" ∧ known.Perm [(.address, record.address), (.message, record.message),
    (.signature, record.signature)]

/-- Whether strings state a record. The version may be missing, and is 2 then. -/
def Lists (values : List String) (record : Record) : Prop :=
  values = [record.address, record.message, record.signature, record.version] ∨
  record.version = "2" ∧ values = [record.address, record.message, record.signature]

/-- A text that is an object with the given members, with nothing but space around it. -/
inductive ObjectText (members : List (Option (Field × String))) : List Char → Prop where
  | intro {before w after : List Char} (hbefore : Space before) (hw : Listing Member members w)
      (hafter : Space after) : ObjectText members (before ++ ('\x7b' :: w ++ ['\x7d']) ++ after)

/-- A text that is an array of the given strings, with nothing but space around it. -/
inductive ArrayText (values : List String) : List Char → Prop where
  | intro {before w after : List Char} (hbefore : Space before) (hw : Listing Quoted values w)
      (hafter : Space after) : ArrayText values (before ++ ('[' :: w ++ [']']) ++ after)

/-- A text that states a record. -/
inductive Written (record : Record) (text : List Char) : Prop where
  | object {members : List (Option (Field × String))} (htext : ObjectText members text)
      (h : Fills members.reduceOption record)
  | array {values : List String} (htext : ArrayText values text) (h : Lists values record)

/-! ## Fields -/

theorem Field.ofName?_eq_some_iff {name : List Char} {field : Field} :
    Field.ofName? name = some field ↔ field.name.toList = name := by
  refine ⟨fun h => ?_, ?_⟩
  · rw [ofName?] at h
    have hfound := List.find?_some h
    exact of_decide_eq_true hfound
  · rintro rfl
    cases field <;> decide

theorem Field.ofName?_eq_none_iff {name : List Char} :
    Field.ofName? name = none ↔ ∀ field : Field, field.name.toList ≠ name := by
  rw [Option.eq_none_iff_forall_ne_some]
  exact forall_congr' fun field => not_congr Field.ofName?_eq_some_iff

/-! ## Drafts -/

namespace Draft

variable {draft : Draft} {field : Field} {value : String} {record : Record}

/-- Whether no field comes twice. -/
def IsSingle (draft : Draft) : Prop := (draft.map Prod.fst).Nodup

theorem isSingle_nil : IsSingle [] := List.nodup_nil

theorem isSome_lookup_iff : (draft.lookup field).isSome ↔ field ∈ draft.map Prod.fst :=
  isSome_lookup_iff_mem

theorem IsSingle.of_append {added : List (Field × String)} (h : IsSingle (added ++ draft)) :
    draft.IsSingle := by
  rw [IsSingle, List.map_append] at h
  exact h.of_append_right

/-- Where no field comes twice, looking up is membership. -/
theorem lookup_eq_some_iff (h : draft.IsSingle) :
    draft.lookup field = some value ↔ (field, value) ∈ draft :=
  lookup_eq_some_iff_mem h

theorem required_eq_ok_iff :
    draft.required field = .ok value ↔ draft.lookup field = some value := by
  rw [required]
  cases draft.lookup field with
  | none => exact ⟨nofun, nofun⟩
  | some v =>
    exact ⟨fun h => congrArg _ (Except.ok.inj h), fun h => congrArg _ (Option.some.inj h)⟩

theorem finish_eq_ok_iff_lookup :
    draft.finish = .ok record ↔ draft.lookup .address = some record.address ∧
      draft.lookup .message = some record.message ∧
      draft.lookup .signature = some record.signature ∧
      (draft.lookup .version).getD "2" = record.version := by
  simp only [finish, bind_eq_ok_iff, required_eq_ok_iff]
  refine ⟨?_, ?_⟩
  · rintro ⟨address, haddress, message, hmessage, signature, hsignature, h⟩
    obtain rfl := Except.ok.inj h
    exact ⟨haddress, hmessage, hsignature, rfl⟩
  · rintro ⟨haddress, hmessage, hsignature, hversion⟩
    refine ⟨_, haddress, _, hmessage, _, hsignature, ?_⟩
    obtain ⟨address, message, signature, version⟩ := record
    obtain rfl := hversion
    rfl

/-- **Where no field comes twice, a draft gives the record that its members state.** -/
theorem finish_eq_ok_iff (h : draft.IsSingle) : draft.finish = .ok record ↔ Fills draft record := by
  have hnodup : draft.Nodup := List.Nodup.of_map _ h
  rw [finish_eq_ok_iff_lookup]
  refine ⟨?_, ?_⟩
  · rintro ⟨haddress, hmessage, hsignature, hversion⟩
    -- two lists without repetitions are permutations of each other if they have the same members
    rcases hlookup : draft.lookup .version with _ | version
    · rw [hlookup] at hversion
      refine .inr ⟨hversion.symm, (List.perm_ext_iff_of_nodup hnodup (by simp)).2 ?_⟩
      rintro ⟨_ | _ | _ | _, value⟩
      all_goals
        rw [← lookup_eq_some_iff h]
        simp [haddress, hmessage, hsignature, hlookup, eq_comm]
    · rw [hlookup, Option.getD_some] at hversion
      subst hversion
      refine .inl ((List.perm_ext_iff_of_nodup hnodup (by simp)).2 ?_)
      rintro ⟨_ | _ | _ | _, value⟩
      all_goals
        rw [← lookup_eq_some_iff h]
        simp [haddress, hmessage, hsignature, hlookup, eq_comm]
  · rw [lookup_eq_some_iff h, lookup_eq_some_iff h, lookup_eq_some_iff h]
    rintro (hperm | ⟨hversion, hperm⟩)
    · have hlookup : draft.lookup .version = some record.version := by
        rw [lookup_eq_some_iff h, hperm.mem_iff]
        simp
      simp [hperm.mem_iff, hlookup]
    · have hlookup : draft.lookup .version = none := by
        rw [Option.eq_none_iff_forall_ne_some]
        intro value hvalue
        rw [lookup_eq_some_iff h, hperm.mem_iff] at hvalue
        simp at hvalue
      simp [hperm.mem_iff, hlookup, hversion]

/-- Members that state a record leave no field twice. -/
theorem isSingle_of_fills (h : Fills draft record) : draft.IsSingle := by
  rcases h with hperm | ⟨-, hperm⟩
  · exact (hperm.map Prod.fst).nodup_iff.2 (by simp)
  · exact (hperm.map Prod.fst).nodup_iff.2 (by simp)

end Draft

/-- It does not matter in which order the members stand. -/
theorem fills_congr {known known' : List (Field × String)} {record : Record}
    (h : known.Perm known') : Fills known record ↔ Fills known' record :=
  or_congr (h.congr_left _) (and_congr_right fun _ => h.congr_left _)

end Attest.Record
