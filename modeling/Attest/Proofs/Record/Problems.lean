import Mathlib
import Attest.Proofs.Json.Words
import Attest.Proofs.Json.Writing
import Attest.Proofs.Record.Reading

/-!
# What is wrong with a record

The reader reports the first problem that it comes to. Up to there the text has to be right; what
comes after it plays no part, not even whether it is JSON at all. `Begun` says of an object that it
is right so far; the reader gets through it and then stands in front of what follows. A problem
there is a name that has come before, or else a value of the wrong type, or, at the end of the
object, a member that is missing.

The main statements are `Begun.exists_readChars` and `read_first_problem`.
-/

namespace Attest.Record

open Json Json.Grammar

variable {members : List (Option (Field × String))} {front rest : List Char} {field : Field}

/-! ## Values of the wrong type -/

/-- What shows the type of a value that is no string: a word, an integer of 64 bits up to what
cannot be a part of it any more, or the opening of a container. -/
inductive Shows : Found → (written rest : List Char) → Prop where
  | null {rest : List Char} : Shows .null "null".toList rest
  | boolean (value : Bool) {rest : List Char} :
      Shows (.boolean value) (if value then "true" else "false").toList rest
  | integer {value : ℤ} {rest : List Char} (hlow : -2 ^ 63 ≤ value) (hhigh : value < 2 ^ 64)
      (hrest : Delimited rest) : Shows (.number (.integer value)) (signed value) rest
  | sequence {rest : List Char} : Shows .sequence ['['] rest
  | mapping {rest : List Char} : Shows .mapping ['\x7b'] rest

variable {found : Found} {w chars : List Char} {n : Numeral}

/-- A number is judged by what it stands for. -/
theorem wrongType_number (hw : NumberOf n w) (hrest : Delimited rest) (expected : Expected) :
    wrongType expected (w ++ rest) =
      match n.value? with
      | some value => .wrongType (.number value) expected
      | none => .unreadable .malformed := by
  have hnumeral : numeral .truncated (w ++ rest) = .ok (n, rest) := numeral_append hw hrest
  obtain ⟨c, v, rfl, hc⟩ := hw.exists_cons
  have hne := fun d => ne_of_startsNumeral (d := d) hc
  rw [List.cons_append] at hnumeral ⊢
  rw [Record.wrongType, if_neg (hne 'n' rfl), if_neg (hne 't' rfl), if_neg (hne 'f' rfl),
    if_neg (hne '"' rfl), if_neg (hne '[' rfl), if_neg (hne '\x7b' rfl), if_pos hc, hnumeral]
  dsimp only
  cases n.value? <;> rfl

theorem Shows.wrongType (h : Shows found w rest) (expected : Expected) :
    wrongType expected (w ++ rest) = .wrongType found expected := by
  cases h with
  | null => rfl
  | boolean value => cases value <;> rfl
  | sequence => rfl
  | mapping => rfl
  | integer hlow hhigh hrest =>
    obtain ⟨n, hw, hvalue⟩ := exists_numberOf_integer_iff.2 ⟨rfl, hlow, hhigh⟩
    rw [wrongType_number hw hrest, hvalue]

/-- Whether a text begins with what is neither space nor a quote. -/
def StartsOther (chars : List Char) : Prop :=
  ∃ c v, chars = c :: v ∧ isSpace c = false ∧ c ≠ '"'

theorem startsOther_number (hw : NumberOf n w) : StartsOther (w ++ rest) := by
  obtain ⟨c, v, rfl, hc⟩ := hw.exists_cons
  exact ⟨c, v ++ rest, rfl, isSpace_of_startsNumeral hc, ne_of_startsNumeral hc rfl⟩

theorem Shows.startsOther (h : Shows found w rest) : StartsOther (w ++ rest) := by
  cases h with
  | null => exact ⟨'n', _, rfl, rfl, by decide⟩
  | boolean value =>
    cases value with
    | true => exact ⟨'t', _, rfl, rfl, by decide⟩
    | false => exact ⟨'f', _, rfl, rfl, by decide⟩
  | sequence => exact ⟨'[', _, rfl, rfl, by decide⟩
  | mapping => exact ⟨'\x7b', _, rfl, rfl, by decide⟩
  | integer hlow hhigh =>
    obtain ⟨n, hw, -⟩ := exists_numberOf_integer_iff.2 ⟨rfl, hlow, hhigh⟩
    exact startsOther_number hw

theorem stringValue_other {space : List Char} (hspace : Space space) (h : StartsOther chars) :
    stringValue (space ++ chars) = .error (wrongType .string chars) := by
  obtain ⟨c, v, rfl, hc, hquote⟩ := h
  rw [stringValue, skipSpace_append_cons hspace hc]
  dsimp only
  rw [if_neg hquote]

/-- A value of another type is refused as soon as its type is known. -/
theorem member_wrongType {draft : Draft} {name before after : List Char}
    (hname : Spells field.name.toList name) (hfield : field ∉ draft.map Prod.fst)
    (hbefore : Space before) (hafter : Space after) (h : StartsOther chars) :
    member draft (name ++ '"' :: (before ++ ':' :: (after ++ chars))) =
      .error (wrongType .string chars) := by
  rw [member_name hname, if_neg hfield, (punctuation_eq_ok_iff rfl).2 ⟨before, hbefore, rfl⟩]
  refine (pure_bind _ _).trans ?_
  rw [stringValue_other hafter h]
  rfl

/-! ## Values of the wrong type in words -/

/-- The kind of a value that a message quotes as it is written. -/
def Found.quotedAs? : Found → Option String
  | boolean _ => some "boolean"
  | number (.integer _) => some "integer"
  | _ => none

/-- A boolean and an integer are quoted as they are written. -/
theorem Shows.describe (h : Shows found w rest) {kind : String}
    (hkind : found.quotedAs? = some kind) :
    found.describe = kind ++ " `" ++ String.ofList w ++ "`" := by
  cases h with
  | null => cases hkind
  | sequence => cases hkind
  | mapping => cases hkind
  | boolean value =>
    obtain rfl := Option.some.inj hkind
    cases value <;> decide
  | integer =>
    obtain rfl := Option.some.inj hkind
    exact describe_integer _

theorem message_wrongType {words : String} (h : found.describe = words) :
    (ReadError.wrongType found .string).message =
      "invalid type: " ++ words ++ ", expected a string" := by
  have hexpected : ", expected " ++ Expected.string.describe = ", expected a string" := by decide
  calc (ReadError.wrongType found .string).message
    _ = "invalid type: " ++ found.describe ++ ", expected " ++ Expected.string.describe := rfl
    _ = _ := by rw [String.append_assoc, hexpected, h]

/-! ## Missing members -/

/-- The members that a record cannot do without, in the order in which they are missed. -/
def requiredFields : List Field := [.address, .message, .signature]

namespace Draft

variable {draft : Draft}

theorem exists_required (h : field ∈ draft.map Prod.fst) :
    ∃ value, draft.required field = .ok value := by
  obtain ⟨value, hvalue⟩ := Option.isSome_iff_exists.1 (isSome_lookup_iff.2 h)
  exact ⟨value, required_eq_ok_iff.2 hvalue⟩

theorem required_of_not_mem (h : field ∉ draft.map Prod.fst) :
    draft.required field = .error (.missing field) := by
  rw [← isSome_lookup_iff, Option.not_isSome_iff_eq_none] at h
  rw [required, h]

theorem exists_finish (h : ∀ field ∈ requiredFields, field ∈ draft.map Prod.fst) :
    ∃ record, draft.finish = .ok record := by
  obtain ⟨address, haddress⟩ := exists_required (h .address (by decide))
  obtain ⟨message, hmessage⟩ := exists_required (h .message (by decide))
  obtain ⟨signature, hsignature⟩ := exists_required (h .signature (by decide))
  rw [finish, haddress, hmessage, hsignature]
  exact ⟨_, rfl⟩

/-- Of the members that are missing, the first one is reported. -/
theorem finish_missing (h : requiredFields.find? (· ∉ draft.map Prod.fst) = some field) :
    draft.finish = .error (.missing field) := by
  have hfound := List.find?_some h
  have hnot : field ∉ draft.map Prod.fst := of_decide_eq_true hfound
  cases field with
  | address =>
    rw [finish, required_of_not_mem hnot]
    rfl
  | message =>
    have haddress : .address ∈ draft.map Prod.fst := by
      by_contra hnone
      simp [requiredFields, hnone] at h
    obtain ⟨address, haddress⟩ := exists_required haddress
    rw [finish, haddress, required_of_not_mem hnot]
    rfl
  | signature =>
    have haddress : .address ∈ draft.map Prod.fst := by
      by_contra hnone
      simp [requiredFields, hnone] at h
    have hmessage : .message ∈ draft.map Prod.fst := by
      by_contra hnone
      simp [requiredFields, haddress, hnone] at h
    obtain ⟨address, haddress⟩ := exists_required haddress
    obtain ⟨message, hmessage⟩ := exists_required hmessage
    rw [finish, haddress, hmessage, required_of_not_mem hnot]
    rfl
  | version => exact absurd (List.mem_of_find?_eq_some h) (by decide)

end Draft

/-! ## Objects that are right so far -/

/-- The members of the record that some members state. -/
def stated (members : List (Option (Field × String))) : List Field :=
  members.reduceOption.map Prod.fst

theorem mem_map_fst_reverse : field ∈ members.reduceOption.reverse.map Prod.fst ↔
    field ∈ stated members := by
  rw [List.map_reverse, List.mem_reverse, stated]

/-- What separates the next member from those in front of it. -/
def separator (members : List (Option (Field × String))) : List Char :=
  if members.isEmpty then [] else [',']

/-- An object that is right so far, up to what follows its last member: each member of the record
has a string, and none comes twice. -/
inductive Begun (members : List (Option (Field × String))) : List Char → Prop where
  | intro {before w : List Char} (hbefore : Space before) (hw : Remaining Member true members w)
      (hsingle : (stated members).Nodup) : Begun members (before ++ '\x7b' :: w)

/-- What has been read of an object that is right so far has no member twice. -/
theorem Begun.isSingle (h : Begun members front) :
    Draft.IsSingle members.reduceOption.reverse := by
  obtain ⟨-, -, hsingle⟩ := h
  rw [Draft.IsSingle, List.map_reverse, List.nodup_reverse]
  exact hsingle

/-- The reader takes the members of a listing one by one, if none of the record's comes twice. -/
theorem exists_objectTail_listing (hw : Listing Member members w) {first : Bool} {draft : Draft}
    {chars : List Char} (hsingle : Draft.IsSingle (members.reduceOption.reverse ++ draft))
    (hrest : Ends rest) (h : Before (w ++ rest) first chars) :
    ∃ after, Space after ∧ ∀ steps, objectTail (steps + members.length) first draft chars =
      objectTail steps false (members.reduceOption.reverse ++ draft) (after ++ rest) := by
  induction hw generalizing first draft chars with
  | last hbefore hw hafter =>
    rw [List.append_assoc] at h
    rw [reduceOption_cons_reverse] at hsingle ⊢
    exact ⟨_, hafter, fun steps => objectTail_member hbefore hw hsingle (hafter.ends hrest) h⟩
  | @more entry members before w after v hbefore hw hafter _ ih =>
    rw [List.append_assoc, List.append_assoc] at h
    rw [reduceOption_cons_reverse] at hsingle ⊢
    obtain ⟨last, hlast, htail⟩ := ih hsingle (.comma hafter)
    refine ⟨last, hlast, fun steps => ?_⟩
    have hends : Ends (after ++ (',' :: v ++ rest)) := hafter.ends ends_comma
    rw [List.length_cons, ← Nat.add_assoc, objectTail_member hbefore hw hsingle.of_append hends h]
    exact htail steps

/-- An object that is right so far is read up to there: the reader stands, perhaps after some space,
in front of what follows. -/
theorem Begun.exists_readChars (h : Begun members front) (hrest : members ≠ [] → Ends rest)
    (hne : rest ≠ []) :
    ∃ steps after, Space after ∧ readChars (front ++ rest) =
      objectTail (steps + 1) members.isEmpty members.reduceOption.reverse (after ++ rest) >>=
        endOfText := by
  have hdraft := h.isSingle
  obtain @⟨before, w, hbefore, hw, -⟩ := h
  have hlength : 0 < rest.length := List.length_pos_of_ne_nil hne
  rw [List.append_assoc, List.cons_append, readChars_object hbefore]
  cases hw with
  | nil hspace => exact ⟨(w ++ rest).length, w, hspace, rfl⟩
  | listing hw hfirst =>
    cases hfirst
    have hle := hw.length_le
    obtain ⟨steps, hsteps⟩ : ∃ steps, (w ++ rest).length + 1 = steps + 1 + members.length := by
      rw [List.length_append]
      exact ⟨w.length + rest.length - members.length, by omega⟩
    rw [← List.append_nil members.reduceOption.reverse] at hdraft
    have hmembers : members.isEmpty = false ∧ members ≠ [] := by
      cases hw <;> simp
    obtain ⟨after, hafter, htail⟩ :=
      exists_objectTail_listing hw hdraft (hrest hmembers.2) .first
    rw [List.append_nil] at htail
    refine ⟨steps, after, hafter, ?_⟩
    rw [hsteps, htail, hmembers.1]

/-! ## The first problem -/

theorem objectTail_next {steps : ℕ} {draft : Draft} {after space tail : List Char}
    (hafter : Space after) (hspace : Space space) :
    objectTail (steps + 1) members.isEmpty draft
        (after ++ (separator members ++ (space ++ '"' :: tail))) =
      member draft tail >>= fun (draft, rest) => objectTail steps false draft rest := by
  cases members with
  | nil =>
    refine objectTail_quote (hafter.append hspace) ?_
    rw [List.append_assoc]
    exact .first
  | cons entry members => exact objectTail_quote hspace (.comma hafter)

/-- What is wrong with the next member is what is wrong with the text. -/
theorem Begun.readChars_next (h : Begun members front) {space tail : List Char} {error : ReadError}
    (hspace : Space space) (herror : member members.reduceOption.reverse tail = .error error) :
    readChars (front ++ (separator members ++ (space ++ '"' :: tail))) = .error error := by
  have hends : members ≠ [] → Ends (separator members ++ (space ++ '"' :: tail)) := by
    intro hne
    rw [separator, if_neg (mt List.isEmpty_iff.1 hne)]
    exact ends_comma
  obtain ⟨steps, after, hafter, hread⟩ := h.exists_readChars hends (by simp)
  rw [hread, objectTail_next hafter hspace, herror]
  rfl

/-- Where the object ends, its members decide. -/
theorem Begun.readChars_close (h : Begun members front) {after : List Char} (hafter : Space after) :
    readChars (front ++ '\x7d' :: after) = Draft.finish members.reduceOption.reverse := by
  have hends : members ≠ [] → Ends ('\x7d' :: after) := fun _ => ends_closing .object
  obtain ⟨steps, space, hspace, hread⟩ := h.exists_readChars hends (List.cons_ne_nil _ _)
  rw [hread, objectTail_closing hspace]
  cases Draft.finish members.reduceOption.reverse with
  | error error => rfl
  | ok record => exact endOfText_eq_ok hafter

/-- The text of an object that is right so far and of its next member, up to the value of that. -/
inductive Opened (members : List (Option (Field × String))) (front : List Char) (field : Field) :
    List Char → Prop where
  | intro {space name before after : List Char} (hspace : Space space)
      (hname : Spells field.name.toList name) (hbefore : Space before) (hafter : Space after) :
      Opened members front field
        (front ++ separator members ++ space ++ '"' :: name ++ '"' :: before ++ ':' :: after)

theorem Begun.read_opened (h : Begun members front) {opened : List Char}
    (hopened : Opened members front field opened) (hfield : field ∉ stated members)
    (hchars : StartsOther chars) :
    read (String.ofList (opened ++ chars)) = .error (wrongType .string chars) := by
  obtain ⟨hspace, hname, hbefore, hafter⟩ := hopened
  have hwrong := member_wrongType hname (mt mem_map_fst_reverse.1 hfield) hbefore hafter hchars
  rw [read, String.toList_ofList]
  simpa using h.readChars_next hspace hwrong

/-- **The first problem is reported, whatever follows it.** An object that is right so far goes on
with a name that has come before, and the text is refused for that name. Or it goes on with another
name and a value of the wrong type, and the text is refused for what was found; a boolean or an
integer is named as it is written. A number that is no integer of 64 bits is found if what is
computed for it in doubles is in range, and named by a number that is rounded to that; what is
written up to three units below the greatest double is in range. Or the object ends, and so does the
text: then it is a record, or it is refused for the first member that is missing. -/
theorem read_first_problem (h : Begun members front) :
    (∀ field ∈ stated members, ∀ space name, Space space → Spells field.name.toList name →
      ∀ rest, read (String.ofList
        (front ++ separator members ++ space ++ '"' :: name ++ '"' :: rest)) =
          .error (.duplicate field)) ∧
    (∀ field ∉ stated members, ∀ opened, Opened members front field opened →
      (∀ found w rest, Shows found w rest →
        read (String.ofList (opened ++ (w ++ rest))) = .error (.wrongType found .string) ∧
        ∀ kind, found.quotedAs? = some kind → (ReadError.wrongType found .string).message =
          "invalid type: " ++ (kind ++ " `" ++ String.ofList w ++ "`") ++ ", expected a string") ∧
      ∀ n w rest, Floating n w → Delimited rest →
        ∀ significand exponent, Gathered n significand exponent →
          (computed significand exponent < 2 ^ 1024 →
            ∃ x text, Double.Stands x (computed significand exponent) ∧
              Names n.negative (computed significand exponent) text ∧
              read (String.ofList (opened ++ (w ++ rest))) =
                .error (.wrongType (.number (.floating n.negative x)) .string) ∧
              (ReadError.wrongType (.number (.floating n.negative x)) .string).message =
                "invalid type: " ++ ("floating point `" ++ String.ofList text ++ "`") ++
                  ", expected a string") ∧
          (2 ^ 1024 ≤ computed significand exponent →
            read (String.ofList (opened ++ (w ++ rest))) = .error (.unreadable .malformed))) ∧
    (∀ n w, Floating n w → (∃ significand exponent, Gathered n significand exponent) ∧
      ∀ significand exponent, Gathered n significand exponent →
        n.written ≤ 2 ^ 1024 - 2 ^ 973 → computed significand exponent < 2 ^ 1024) ∧
    ∀ after, Space after →
      ((∀ field ∈ requiredFields, field ∈ stated members) →
        ∃ record, Fills members.reduceOption record ∧
          read (String.ofList (front ++ '\x7d' :: after)) = .ok record) ∧
      ∀ field, requiredFields.find? (· ∉ stated members) = some field →
        read (String.ofList (front ++ '\x7d' :: after)) = .error (.missing field) := by
  refine ⟨?_, ?_, ?_, ?_⟩
  · intro field hfield space name hspace hname rest
    have hduplicate : member members.reduceOption.reverse (name ++ '"' :: rest) =
        .error (.duplicate field) := member_duplicate hname (mem_map_fst_reverse.2 hfield)
    rw [read, String.toList_ofList]
    simpa using h.readChars_next hspace hduplicate
  · intro field hfield opened hopened
    refine ⟨fun found w rest hfound => ⟨?_, fun kind hkind => ?_⟩, ?_⟩
    · rw [h.read_opened hopened hfield hfound.startsOther, hfound.wrongType]
    · exact message_wrongType (hfound.describe hkind)
    · intro n w rest hfloating hrest significand exponent hgathered
      rw [h.read_opened hopened hfield (startsOther_number hfloating.numberOf),
        wrongType_number hfloating.numberOf hrest]
      refine ⟨fun hrange => ?_, fun hrange => ?_⟩
      · obtain ⟨x, hvalue, hstands⟩ :=
          hgathered.value?_eq_floating hfloating.integer?_eq_none hrange
        rw [hvalue]
        exact ⟨x, _, hstands, names_floatDigits hstands n.negative, rfl,
          message_wrongType (describe_floating n.negative x)⟩
      · rw [hgathered.value?_eq_none hfloating.integer?_eq_none hrange]
  · intro n w hfloating
    exact ⟨exists_gathered n, fun significand exponent hgathered hbound =>
      hgathered.computed_lt hfloating.isDigit hbound⟩
  · intro after hafter
    rw [read, String.toList_ofList, h.readChars_close hafter]
    refine ⟨fun hall => ?_, fun field hfirst => Draft.finish_missing ?_⟩
    · obtain ⟨record, hrecord⟩ :=
        Draft.exists_finish fun field hfield => mem_map_fst_reverse.2 (hall field hfield)
      have hfills : Fills members.reduceOption.reverse record :=
        (Draft.finish_eq_ok_iff h.isSingle).1 hrecord
      exact ⟨record, (fills_congr (List.reverse_perm _)).1 hfills, hrecord⟩
    · simpa only [mem_map_fst_reverse] using hfirst

theorem signed_ne_of_mem_point {value : ℤ} (h : '.' ∈ w) : w ≠ signed value := by
  rintro rfl
  rw [signed, List.mem_append] at h
  rcases h with hsign | hdigits
  · split_ifs at hsign <;> simp at hsign
  · exact absurd ((Text.isDecimal_decimal _).isDigit _ hdigits) (by decide)

/-- One beginning that goes on in four ways. -/
theorem read_first_problem_message :
    Begun [some (.message, "hi")] "\x7b\"msg\":\"hi\"".toList ∧
      read "\x7b\"msg\":\"hi\", \"msg\"]" = .error (.duplicate .message) ∧
      (read "\x7b\"msg\":\"hi\",\"sig\":-7x" =
          .error (.wrongType (.number (.integer (-7))) .string) ∧
        (ReadError.wrongType (.number (.integer (-7))) .string).message =
          "invalid type: integer `-7`, expected a string") ∧
      (∃ x text, Double.Stands x (3 / 2) ∧ Names true (3 / 2) text ∧
        read "\x7b\"msg\":\"hi\",\"sig\":-1.5x" =
          .error (.wrongType (.number (.floating true x)) .string) ∧
        (ReadError.wrongType (.number (.floating true x)) .string).message =
          "invalid type: " ++ ("floating point `" ++ String.ofList text ++ "`") ++
            ", expected a string") ∧
      read "\x7b\"msg\":\"hi\"\x7d\n" = .error (.missing .address) := by
  have hmessage : Spells Field.message.name.toList ['m', 's', 'g'] := spells_flatMap_escape _
  have hsignature : Spells Field.signature.name.toList ['s', 'i', 'g'] := spells_flatMap_escape _
  have hvalue : Quoted "hi" ['"', 'h', 'i', '"'] := .intro (spells_flatMap_escape _)
  have hlisting : Listing Member [some (.message, "hi")] "\"msg\":\"hi\"".toList :=
    @Listing.last _ Member _ [] _ [] .nil (.known hmessage .nil .nil hvalue) .nil
  have hbegun : Begun [some (.message, "hi")] "\x7b\"msg\":\"hi\"".toList :=
    @Begun.intro _ [] _ .nil (.listing hlisting .first) (by decide)
  obtain ⟨hduplicate, hwrong, hrange, hclose⟩ := read_first_problem hbegun
  obtain ⟨hshown, hnumber⟩ := hwrong .signature (by decide) _
    (@Opened.intro _ _ _ [] _ [] [] .nil hsignature .nil .nil)
  have hdelimited : Delimited ['x'] := by simp [Delimited]
  have hshows : Shows (.number (.integer (-7))) ['-', '7'] ['x'] :=
    @Shows.integer (-7) _ (by norm_num) (by norm_num) hdelimited
  obtain ⟨hfound, hnamed⟩ := hshown _ _ _ hshows
  have hfloating : Floating ⟨true, ['1'], some ['5'], none⟩ ['-', '1', '.', '5'] :=
    ⟨@NumberOf.intro ⟨true, ['1'], some ['5'], none⟩ _ _ (whole_decimal 1)
      (.some ⟨List.cons_ne_nil '5' [], by simp⟩) .none, fun _ _ _ => signed_ne_of_mem_point (by simp)⟩
  have hgathered : Gathered ⟨true, ['1'], some ['5'], none⟩ 15 (-1) :=
    @Gathered.intro ⟨true, ['1'], some ['5'], none⟩ ['1'] [] ['5'] [] rfl ⟨by decide, by simp⟩ rfl
      ⟨by decide, by simp⟩
  have hcomputed : computed 15 (-1) = 3 / 2 := by
    rw [computed_eq_nearest (by norm_num) (by norm_num) (by norm_num),
      show ((15 : ℕ) * 10 ^ (-1 : ℤ) : ℚ) = 3 / 2 by norm_num]
    exact Double.nearest_eq_self ⟨3, -1, by norm_num, by norm_num, by norm_num⟩
  have hinRange : computed 15 (-1) < 2 ^ 1024 := by
    rw [hcomputed]
    exact (show (3 / 2 : ℚ) < 2 ^ 1 by norm_num).trans (pow_lt_pow_right₀ one_lt_two (by norm_num))
  obtain ⟨x, text, hfloat⟩ := (hnumber _ _ _ hfloating hdelimited _ _ hgathered).1 hinRange
  rw [hcomputed] at hfloat
  exact ⟨hbegun, hduplicate .message (by decide) [' '] _ (by simp [Space]) hmessage [']'],
    ⟨hfound, hnamed _ rfl⟩, ⟨x, text, hfloat⟩,
    (hclose ['\n'] (by simp [Space])).2 .address (by decide)⟩

/-- A number that is written below the greatest double and yet is not found: nineteen digits and the
power of ten behind them are each rounded up, and so is their product. -/
theorem read_number_out_of_range :
    ∃ n, NumberOf n "1.797693134862315678e308".toList ∧ n.written < Double.greatest ∧
      Begun [] ['\x7b'] ∧ Opened [] ['\x7b'] .signature "\x7b\"sig\":".toList ∧
      read "\x7b\"sig\":1.797693134862315678e308\x7d" = .error (.unreadable .malformed) := by
  have hnumber : NumberOf ⟨false, ['1'], some "797693134862315678".toList,
      some (false, "308".toList)⟩ "1.797693134862315678e308".toList :=
    @NumberOf.intro ⟨false, ['1'], some "797693134862315678".toList, some (false, "308".toList)⟩ _ _
      (whole_decimal 1) (.some (by simp [Digits]))
      (@ExponentOf.some false 'e' [] "308".toList (.inl rfl) (by simp [SignOf]) (by simp [Digits]))
  have hnone : Numeral.value? ⟨false, ['1'], some "797693134862315678".toList,
      some (false, "308".toList)⟩ = none :=
    Option.isNone_iff_eq_none.1 (by decide +kernel)
  have hless : 1797693134862315678 * 10 ^ 290 + 2 ^ 971 < 2 ^ 53 * 2 ^ 971 := by decide +kernel
  have hsignature : Spells Field.signature.name.toList ['s', 'i', 'g'] := spells_flatMap_escape _
  have hbegun : Begun [] ['\x7b'] := @Begun.intro _ [] [] .nil (.nil .nil) (by decide)
  have hopened : Opened [] ['\x7b'] .signature "\x7b\"sig\":".toList :=
    @Opened.intro _ _ _ [] _ [] [] .nil hsignature .nil .nil
  refine ⟨_, hnumber, ?_, hbegun, hopened, ?_⟩
  · have hdigits : Nat.ofDigitChars 10 ("1797693134862315678".toList) 0 = 1797693134862315678 := by
      decide
    change ((Nat.ofDigitChars 10 "1797693134862315678".toList 0 : ℕ) : ℚ) * 10 ^ ((290 : ℕ) : ℤ) < _
    rw [hdigits, Double.greatest, zpow_natCast, sub_mul, one_mul, lt_sub_iff_add_lt]
    exact_mod_cast hless
  · have hstarts : StartsOther ("1.797693134862315678e308".toList ++ ['\x7d']) :=
      startsOther_number hnumber
    have hread := hbegun.read_opened hopened (by decide) hstarts
    rw [wrongType_number hnumber (by simp [Delimited]), hnone] at hread
    exact hread

end Attest.Record
