import Mathlib
import Attest.Proofs.Json.Strings
import Attest.Proofs.Json.Tokens

/-!
# Passing over values

The machine that passes over a value keeps the open containers on a stack. What it has still to
read is therefore not one value but what closes all of them, which `Closes` says; each step takes
something off the front of that. In the other direction the steps that a value takes are counted
along its grammar, and there are fewer than twice as many as it has characters.

The main statements are `skipValue_sound` and `skipValue_wellFormed`.
-/

namespace Attest.Json

open Grammar

variable {chars rest : List Char} {container : Container} {outer : List Container}

/-! ## Scalars -/

theorem exists_of_skipScalar (h : skipScalar chars = .ok rest) :
    ∃ w, Scalar w ∧ chars = w ++ rest := by
  rw [skipScalar.eq_def] at h
  rcases chars with _ | ⟨c, chars⟩
  · cases h
  · dsimp only at h
    split_ifs at h with hn ht hf hquote hnumeral
    · subst hn
      rw [word_eq_ok_iff] at h
      exact ⟨_, .word (List.mem_cons_self), congrArg _ h⟩
    · subst ht
      rw [word_eq_ok_iff] at h
      exact ⟨_, .word (List.mem_cons_of_mem _ List.mem_cons_self), congrArg _ h⟩
    · subst hf
      rw [word_eq_ok_iff] at h
      exact ⟨_, .word (List.mem_cons_of_mem _ (List.mem_cons_of_mem _ List.mem_cons_self)),
        congrArg _ h⟩
    · subst hquote
      obtain ⟨w, hw, rfl⟩ := skipStringTail_eq_ok_iff.1 h
      exact ⟨_, .string hw, by simp⟩
    · obtain ⟨⟨n, rest'⟩, hn, rfl⟩ := map_eq_ok_iff.1 h
      obtain ⟨w, hw, hchars⟩ := exists_of_numeral hn
      exact ⟨w, .number hw, hchars⟩

/-- A scalar begins with what is neither space nor part of a container. -/
theorem Grammar.Scalar.exists_cons {w : List Char} (h : Scalar w) :
    ∃ c v, w = c :: v ∧ isSpace c = false ∧ Container.ofOpening? c = none ∧
      ∀ container : Container, c ≠ container.closing := by
  cases h with
  | word h =>
    simp only [words, List.mem_cons, List.not_mem_nil, or_false] at h
    obtain rfl | rfl | rfl := h
    · exact ⟨'n', _, rfl, by decide, by decide, by rintro (_ | _) <;> decide⟩
    · exact ⟨'t', _, rfl, by decide, by decide, by rintro (_ | _) <;> decide⟩
    · exact ⟨'f', _, rfl, by decide, by decide, by rintro (_ | _) <;> decide⟩
  | string => exact ⟨'"', _, rfl, by decide, by decide, by rintro (_ | _) <;> decide⟩
  | number h =>
    obtain ⟨n, hparts⟩ := h.exists_parts
    obtain ⟨c, v, rfl, hc⟩ := hparts.exists_cons
    have hne := fun d => ne_of_startsNumeral (d := d) hc
    refine ⟨c, v, rfl, isSpace_of_startsNumeral hc, ?_, ?_⟩
    · rw [Container.ofOpening?, if_neg (hne '[' rfl), if_neg (hne '\x7b' rfl)]
    · rintro (_ | _)
      · exact hne ']' rfl
      · exact hne '\x7d' rfl

/-- A scalar is passed over as a whole. -/
theorem skipScalar_scalar {w : List Char} (h : Scalar w) (hrest : Ends rest) :
    skipScalar (w ++ rest) = .ok rest := by
  cases h with
  | word h =>
    simp only [words, List.mem_cons, List.not_mem_nil, or_false] at h
    obtain rfl | rfl | rfl := h
    · exact word_eq_ok_iff.2 rfl
    · exact word_eq_ok_iff.2 rfl
    · exact word_eq_ok_iff.2 rfl
  | string h =>
    exact skipStringTail_eq_ok_iff.2 ⟨_, h, List.append_assoc _ _ _⟩
  | number h =>
    obtain ⟨n, hparts⟩ := h.exists_parts
    have hn : numeral .malformed (w ++ rest) = .ok (n, rest) :=
      numeral_append hparts hrest.delimited
    obtain ⟨c, v, rfl, hc⟩ := hparts.exists_cons
    have hne := fun d => ne_of_startsNumeral (d := d) hc
    rw [List.cons_append, skipScalar, if_neg (hne 'n' rfl), if_neg (hne 't' rfl),
      if_neg (hne 'f' rfl), if_neg (hne '"' rfl), if_pos hc, ← List.cons_append, hn]
    rfl

/-! ## Labels -/

theorem exists_of_skipLabel (h : skipLabel container chars = .ok rest) :
    ∃ space label, Space space ∧ Label container label ∧ chars = space ++ label ++ rest := by
  cases container with
  | array =>
    obtain rfl := Except.ok.inj h
    exact ⟨[], [], .nil, .array, rfl⟩
  | object =>
    obtain ⟨name, hname, h⟩ := bind_eq_ok_iff.1 h
    obtain ⟨rest', hrest', hcolon⟩ := bind_eq_ok_iff.1 h
    obtain ⟨space, hspace, rfl⟩ := (punctuation_eq_ok_iff rfl).1 hname
    obtain ⟨w, hw, rfl⟩ := skipStringTail_eq_ok_iff.1 hrest'
    obtain ⟨space', hspace', rfl⟩ := (punctuation_eq_ok_iff rfl).1 hcolon
    exact ⟨space, _, hspace, .object hw hspace', by simp⟩

/-- A label is passed over, and all of the space in front of it that nothing else passes over. -/
theorem exists_skipLabel {space label : List Char} (hspace : Space space)
    (hlabel : Label container label) :
    ∃ space', Space space' ∧ ∀ rest, skipLabel container (space ++ label ++ rest) =
      .ok (space' ++ rest) := by
  cases hlabel with
  | array => exact ⟨space, hspace, fun rest => by rw [List.append_nil]; rfl⟩
  | @object name space' hname hspace' =>
    refine ⟨[], .nil, fun rest => bind_eq_ok_iff.2 ⟨name ++ '"' :: space' ++ ':' :: rest,
      (punctuation_eq_ok_iff rfl).2 ⟨space, hspace, by simp⟩, bind_eq_ok_iff.2
      ⟨space' ++ ':' :: rest, skipStringTail_eq_ok_iff.2 ⟨name, hname, by simp⟩,
        (punctuation_eq_ok_iff rfl).2 ⟨space', hspace', rfl⟩⟩⟩⟩

/-! ## What the machine accepts -/

/-- What may stand after the value of an item, up to the end of its container. -/
inductive After (container : Container) : List Char → Prop where
  | none {w : List Char} (h : Space w) : After container w
  | more {space w : List Char} (hspace : Space space) (h : Items container w) :
      After container (space ++ ',' :: w)

/-- What closes a stack of containers, each after the value of an item, with the given rest. -/
def Closes : List Container → List Char → List Char → Prop
  | [], chars, rest => chars = rest
  | container :: outer, chars, rest =>
    ∃ w next, After container w ∧ chars = w ++ container.closing :: next ∧ Closes outer next rest

/-- What the machine has read when it is done, by the place where it started. -/
def Reads : Place → List Container → List Char → List Char → Prop
  | .ended, stack, chars, rest => Closes stack chars rest
  | .value, stack, chars, rest =>
    ∃ space w next, Space space ∧ WellFormed w ∧ chars = space ++ w ++ next ∧ Closes stack next rest
  | .opened, [], _, _ => False
  | .opened, container :: outer, chars, rest =>
    ∃ w next, (Space w ∨ Items container w) ∧ chars = w ++ container.closing :: next ∧
      Closes outer next rest

/-- An item and what stands after it. -/
theorem items_of_after {before label between w v : List Char} (hbefore : Space before)
    (hlabel : Label container label) (hbetween : Space between) (hw : WellFormed w)
    (h : After container v) : Items container (before ++ label ++ between ++ w ++ v) := by
  cases h with
  | none h => exact .last (.intro hbefore hlabel hbetween hw h)
  | more hafter h =>
    rw [← List.append_assoc]
    exact .more (.intro hbefore hlabel hbetween hw hafter) h

/-- The items of the container on top of the stack, from the space in front of a label on. -/
theorem exists_items_of_reads {space next : List Char} (hspace : Space space)
    (hlabel : skipLabel container chars = .ok next)
    (h : Reads .value (container :: outer) next rest) :
    ∃ w next, Items container w ∧ space ++ chars = w ++ container.closing :: next ∧
      Closes outer next rest := by
  obtain ⟨before, label, hbefore, hlabel', rfl⟩ := exists_of_skipLabel hlabel
  obtain ⟨between, w, _, hbetween, hw, rfl, v, next, hv, rfl, hcloses⟩ := h
  exact ⟨_, next, items_of_after (hspace.append hbefore) hlabel' hbetween hw hv, by simp, hcloses⟩

theorem opening_of_ofOpening? {c : Char} (h : Container.ofOpening? c = some container) :
    c = container.opening := by
  rw [Container.ofOpening?] at h
  split_ifs at h with harray hobject
  · obtain rfl := Option.some.inj h
    exact harray
  · obtain rfl := Option.some.inj h
    exact hobject

/-- Everything that the machine accepts is read by the rules of the grammar. -/
theorem reads_of_skipFrom {steps : ℕ} {place : Place} {stack : List Container}
    (h : skipFrom steps place stack chars = .ok rest) : Reads place stack chars rest := by
  fun_induction skipFrom steps place stack chars with
  | case2 steps chars =>
    exact Except.ok.inj h
  | case5 steps container outer chars tail next hlabel hskip ih =>
    obtain ⟨-, space, hspace, rfl⟩ := exists_of_skipSpace hskip
    obtain ⟨w, last, hw, htail, hcloses⟩ := exists_items_of_reads .nil hlabel (ih h)
    rw [List.nil_append] at htail
    exact ⟨_, last, .more hspace hw, by simp [htail], hcloses⟩
  | case6 steps container outer chars tail hskip _ ih =>
    obtain ⟨-, space, hspace, rfl⟩ := exists_of_skipSpace hskip
    exact ⟨space, tail, .none hspace, rfl, ih h⟩
  | case10 steps container outer chars tail hskip ih =>
    obtain ⟨-, space, hspace, rfl⟩ := exists_of_skipSpace hskip
    exact ⟨space, tail, .inl hspace, rfl, ih h⟩
  | case12 steps container outer chars c tail hskip hc next hlabel ih =>
    obtain ⟨-, space, hspace, rfl⟩ := exists_of_skipSpace hskip
    obtain ⟨w, last, hw, htail, hcloses⟩ := exists_items_of_reads hspace hlabel (ih h)
    exact ⟨w, last, .inr hw, htail, hcloses⟩
  | case14 steps stack chars c tail hskip container hcontainer ih =>
    obtain ⟨-, space, hspace, rfl⟩ := exists_of_skipSpace hskip
    obtain rfl := opening_of_ofOpening? hcontainer
    obtain ⟨w, next, hw, rfl, hcloses⟩ := ih h
    have hvalue : WellFormed (container.opening :: w ++ [container.closing]) :=
      hw.elim (.empty container) (.items container)
    exact ⟨space, _, next, hspace, hvalue, by simp, hcloses⟩
  | case16 steps stack chars c tail hskip hcontainer next hscalar ih =>
    obtain ⟨-, space, hspace, rfl⟩ := exists_of_skipSpace hskip
    obtain ⟨w, hw, htail⟩ := exists_of_skipScalar hscalar
    refine ⟨space, w, next, hspace, .scalar hw, ?_, ih h⟩
    rw [htail, List.append_assoc]
  | _ => cases h

/-! ## How far the machine gets -/

/-- A value begins with what is neither space nor the end of a container. -/
theorem Grammar.WellFormed.exists_cons {w : List Char} (h : WellFormed w) :
    ∃ c v, w = c :: v ∧ isSpace c = false ∧ ∀ container : Container, c ≠ container.closing := by
  have hopening : ∀ container : Container, isSpace container.opening = false ∧
      ∀ container' : Container, container.opening ≠ container'.closing := by
    rintro (_ | _)
    · exact ⟨rfl, by rintro (_ | _) <;> decide⟩
    · exact ⟨rfl, by rintro (_ | _) <;> decide⟩
  cases h with
  | scalar h =>
    obtain ⟨c, v, rfl, hspace, -, hclosing⟩ := h.exists_cons
    exact ⟨c, v, rfl, hspace, hclosing⟩
  | empty container => exact ⟨_, _, rfl, hopening container⟩
  | items container => exact ⟨_, _, rfl, hopening container⟩

theorem ofOpening?_opening (container : Container) :
    Container.ofOpening? container.opening = some container := by
  cases container with
  | array => rfl
  | object => rfl

/-! ### The steps of the machine -/

section steps

variable {steps : ℕ} {space : List Char}

theorem skipFrom_scalar {w : List Char} (hspace : Space space) (h : Scalar w) (hrest : Ends rest) :
    skipFrom (steps + 1) .value outer (space ++ w ++ rest) = skipFrom steps .ended outer rest := by
  have hscalar := skipScalar_scalar h hrest
  obtain ⟨c, v, rfl, hc, hopening, -⟩ := h.exists_cons
  rw [List.append_assoc, List.cons_append, skipFrom, skipSpace_append_cons hspace hc]
  dsimp only
  rw [hopening]
  dsimp only
  rw [← List.cons_append, hscalar]

theorem skipFrom_opening (hspace : Space space) :
    skipFrom (steps + 1) .value outer (space ++ container.opening :: rest) =
      skipFrom steps .opened (container :: outer) rest := by
  have hc : isSpace container.opening = false := by cases container <;> rfl
  rw [skipFrom, skipSpace_append_cons hspace hc]
  dsimp only
  rw [ofOpening?_opening]

theorem skipFrom_closing (hspace : Space space) :
    skipFrom (steps + 1) .ended (container :: outer) (space ++ container.closing :: rest) =
      skipFrom steps .ended outer rest := by
  have hc : isSpace container.closing = false := by cases container <;> rfl
  have hcomma : container.closing ≠ ',' := by cases container <;> decide
  rw [skipFrom, skipSpace_append_cons hspace hc]
  dsimp only
  rw [if_neg hcomma, if_pos rfl]

theorem skipFrom_empty (hspace : Space space) :
    skipFrom (steps + 1) .opened (container :: outer) (space ++ container.closing :: rest) =
      skipFrom steps .ended outer rest := by
  have hc : isSpace container.closing = false := by cases container <;> rfl
  rw [skipFrom, skipSpace_append_cons hspace hc]
  dsimp only
  rw [if_pos rfl]

/-- The place where the machine stands in front of an item. -/
def placeBefore (first : Bool) : Place := if first then .opened else .ended

/-- In front of an item the machine gets to its value. -/
theorem exists_skipFrom_label {before label between w chars : List Char} {first : Bool}
    (hbefore : Space before) (hlabel : Label container label) (hbetween : Space between)
    (hw : WellFormed w) (h : Before (before ++ label ++ between ++ w ++ rest) first chars) :
    ∃ space, Space space ∧ skipFrom (steps + 1) (placeBefore first) (container :: outer) chars =
      skipFrom steps .value (container :: outer) (space ++ w ++ rest) := by
  cases h with
  | first =>
    rw [placeBefore, if_pos rfl]
    -- the space in front is gone here, since the reader has looked for the end of the container
    cases hlabel with
    | array =>
      obtain ⟨c, v, rfl, hc, hclosing⟩ := hw.exists_cons
      refine ⟨[], .nil, ?_⟩
      rw [List.append_nil, List.append_assoc, List.cons_append, skipFrom,
        skipSpace_append_cons (hbefore.append hbetween) hc]
      dsimp only
      rw [if_neg (hclosing .array)]
      rfl
    | @object name space hname hspace =>
      obtain ⟨space', hspace', hskip⟩ := exists_skipLabel .nil (.object hname hspace)
      refine ⟨space' ++ between, hspace'.append hbetween, ?_⟩
      have hchars : before ++ ('"' :: name ++ '"' :: space ++ [':']) ++ between ++ w ++ rest =
          before ++ '"' :: (name ++ '"' :: space ++ [':'] ++ (between ++ w ++ rest)) := by simp
      have hnext : skipLabel .object ('"' :: (name ++ '"' :: space ++ [':'] ++
          (between ++ w ++ rest))) = .ok (space' ++ (between ++ w ++ rest)) := hskip _
      rw [hchars, skipFrom, skipSpace_append_cons hbefore rfl]
      dsimp only
      rw [if_neg (by decide), hnext]
      simp
  | comma hspace =>
    rw [placeBefore, if_neg Bool.false_ne_true]
    obtain ⟨space', hspace', hskip⟩ := exists_skipLabel hbefore hlabel
    refine ⟨space' ++ between, hspace'.append hbetween, ?_⟩
    have hnext := hskip (between ++ w ++ rest)
    rw [← List.append_assoc, ← List.append_assoc] at hnext
    rw [skipFrom, skipSpace_append_cons hspace rfl]
    dsimp only
    rw [if_pos rfl, hnext]
    simp

end steps

/-! ### Whole values

The steps that a value takes are bounded by its length. The bounds for items leave room for the
step that takes the end of the container.
-/

/-- The machine takes a value, in fewer than twice as many steps as it has characters. -/
def TakesValue (w : List Char) : Prop :=
  ∃ k, k + 1 ≤ 2 * w.length ∧ ∀ steps stack space rest, Space space → Ends rest →
    skipFrom (steps + k) .value stack (space ++ w ++ rest) = skipFrom steps .ended stack rest

/-- The machine takes an item, up to the space after it. -/
def TakesItem (container : Container) (w : List Char) : Prop :=
  ∃ k, k ≤ 2 * w.length ∧ ∀ steps outer rest first chars,
    (∀ after, Space after → Ends (after ++ rest)) → Before (w ++ rest) first chars →
      ∃ after, Space after ∧ skipFrom (steps + k) (placeBefore first) (container :: outer) chars =
        skipFrom steps .ended (container :: outer) (after ++ rest)

/-- The machine takes the items of a container and its end. -/
def TakesItems (container : Container) (w : List Char) : Prop :=
  ∃ k, k ≤ 2 * w.length + 1 ∧ ∀ steps outer rest first chars,
    Before (w ++ container.closing :: rest) first chars →
      skipFrom (steps + k) (placeBefore first) (container :: outer) chars =
        skipFrom steps .ended outer rest

theorem takesValue_scalar {w : List Char} (h : Scalar w) : TakesValue w := by
  refine ⟨1, ?_, fun steps stack space rest hspace hrest => skipFrom_scalar hspace h hrest⟩
  obtain ⟨c, v, rfl, -⟩ := h.exists_cons
  rw [List.length_cons]
  omega

theorem takesValue_empty {w : List Char} (h : Space w) :
    TakesValue (container.opening :: w ++ [container.closing]) := by
  refine ⟨2, ?_, fun steps stack space rest hspace _ => ?_⟩
  · rw [List.cons_append, List.length_cons, List.length_append, List.length_singleton]
    omega
  · have hchars : space ++ (container.opening :: w ++ [container.closing]) ++ rest =
        space ++ container.opening :: (w ++ container.closing :: rest) := by simp
    rw [hchars, skipFrom_opening hspace, skipFrom_empty h]

theorem takesValue_items {w : List Char} (h : TakesItems container w) :
    TakesValue (container.opening :: w ++ [container.closing]) := by
  obtain ⟨k, hk, htakes⟩ := h
  refine ⟨k + 1, ?_, fun steps stack space rest hspace _ => ?_⟩
  · rw [List.cons_append, List.length_cons, List.length_append, List.length_singleton]
    omega
  · have hchars : space ++ (container.opening :: w ++ [container.closing]) ++ rest =
        space ++ container.opening :: (w ++ container.closing :: rest) := by simp
    rw [hchars, ← Nat.add_assoc, skipFrom_opening hspace]
    exact htakes steps stack rest true _ .first

theorem takesItem {before label between w after : List Char} (hbefore : Space before)
    (hlabel : Label container label) (hbetween : Space between) (hw : WellFormed w)
    (hafter : Space after) (h : TakesValue w) :
    TakesItem container (before ++ label ++ between ++ w ++ after) := by
  obtain ⟨k, hk, htakes⟩ := h
  refine ⟨k + 1, ?_, fun steps outer rest first chars hrest hchars => ⟨after, hafter, ?_⟩⟩
  · rw [List.length_append, List.length_append]
    omega
  · rw [List.append_assoc] at hchars
    obtain ⟨space, hspace, hskip⟩ := exists_skipFrom_label hbefore hlabel hbetween hw hchars
    rw [← Nat.add_assoc, hskip, htakes steps _ space _ hspace (hrest after hafter)]

theorem takesItems_last {w : List Char} (h : TakesItem container w) : TakesItems container w := by
  obtain ⟨k, hk, htakes⟩ := h
  refine ⟨k + 1, by omega, fun steps outer rest first chars hchars => ?_⟩
  obtain ⟨after, hafter, hskip⟩ := htakes (steps + 1) outer _ first chars
    (fun after hafter => hafter.ends (ends_closing container)) hchars
  rw [← Nat.add_assoc, Nat.add_right_comm, hskip, skipFrom_closing hafter]

theorem takesItems_more {w v : List Char} (hw : TakesItem container w)
    (hv : TakesItems container v) : TakesItems container (w ++ ',' :: v) := by
  obtain ⟨k, hk, htakes⟩ := hw
  obtain ⟨l, hl, htakes'⟩ := hv
  refine ⟨l + k, ?_, fun steps outer rest first chars hchars => ?_⟩
  · rw [List.length_append, List.length_cons]
    omega
  · rw [List.append_assoc] at hchars
    obtain ⟨after, hafter, hskip⟩ := htakes (steps + l) outer _ first chars
      (fun after hafter => hafter.ends ends_comma) hchars
    rw [← Nat.add_assoc, hskip]
    exact htakes' steps outer rest false _ (.comma hafter)

/-- Every value is taken, by induction on the rules that it is a value by. -/
theorem takesValue {w : List Char} (h : WellFormed w) : TakesValue w :=
  @WellFormed.rec (fun w _ => TakesValue w) (fun container w _ => TakesItem container w)
    (fun container w _ => TakesItems container w)
    (fun h => takesValue_scalar h)
    (fun _ _ h => takesValue_empty h)
    (fun _ _ _ ih => takesValue_items ih)
    (fun hbefore hlabel hbetween hw hafter ih =>
      takesItem hbefore hlabel hbetween hw hafter ih)
    (fun _ ih => takesItems_last ih)
    (fun _ _ ihw ihv => takesItems_more ihw ihv) w h

/-- **A value is passed over exactly if it is one.** -/
theorem skipValue_sound (h : skipValue chars = .ok rest) :
    ∃ space w, Space space ∧ WellFormed w ∧ chars = space ++ w ++ rest := by
  obtain ⟨space, w, next, hspace, hw, hchars, rfl⟩ := reads_of_skipFrom h
  exact ⟨space, w, hspace, hw, hchars⟩

theorem skipValue_wellFormed {space w : List Char} (hspace : Space space) (hw : WellFormed w)
    (hrest : Ends rest) : skipValue (space ++ w ++ rest) = .ok rest := by
  obtain ⟨k, hk, htakes⟩ := takesValue hw
  obtain ⟨steps, hsteps⟩ : ∃ steps, 2 * (space ++ w ++ rest).length + 2 = steps + 1 + k := by
    refine ⟨2 * (space ++ w ++ rest).length + 1 - k, ?_⟩
    rw [List.length_append, List.length_append]
    omega
  rw [skipValue, hsteps, htakes (steps + 1) [] space rest hspace hrest, skipFrom]

end Attest.Json
