import Mathlib
import Attest.Batch.Report
import Attest.Proofs.Json.Unambiguous
import Attest.Proofs.Json.Writing
import Attest.Proofs.Lookup

/-!
# Outcomes and their lines

The line of an outcome is one object, with its own members and those of its verdict side by side.
Since no two of them share a name, whoever reads the line can ask for each of them by name and
learns the outcome, whatever the address that a record claims may look like.

The main statement is `Outcome.determined_by_line`.
-/

namespace Attest

/-! ## Members by name -/

namespace Json

variable {members : Members} {name text : String} {number : ℕ}

/-- The text that some members state under a name. -/
def textAt? (members : Members) (name : String) : Option String :=
  match members.lookup name with
  | some (.text text) => some text
  | _ => none

/-- The number that some members state under a name. -/
def numberAt? (members : Members) (name : String) : Option ℕ :=
  match members.lookup name with
  | some (.number number) => some number
  | _ => none

theorem textAt?_of_mem (hnames : (members.map Prod.fst).Nodup) (h : (name, .text text) ∈ members) :
    textAt? members name = some text := by
  rw [textAt?, (lookup_eq_some_iff_mem hnames).2 h]

theorem numberAt?_of_mem (hnames : (members.map Prod.fst).Nodup)
    (h : (name, .number number) ∈ members) : numberAt? members name = some number := by
  rw [numberAt?, (lookup_eq_some_iff_mem hnames).2 h]

end Json

/-! ## Verdicts -/

namespace Verdict

/-- The names of the members that tell what a verdict of a kind has shown. -/
def Kind.fields : Kind → List String
  | .confirmed => ["address"]
  | .mismatch => ["claimed", "recovered"]
  | .unrecoverable => ["reason"]

/-- The verdict that some members state: first of all its kind, then what it has shown. -/
def ofMembers? (members : Json.Members) : Option Verdict := do
  match ← Json.textAt? members "verdict" with
  | "confirmed" =>
    let address ← Json.textAt? members "address"
    pure (.confirmed address)
  | "mismatch" =>
    let claimed ← Json.textAt? members "claimed"
    let recovered ← Json.textAt? members "recovered"
    pure (.mismatch claimed recovered)
  | "unrecoverable" =>
    let reason ← Json.textAt? members "reason"
    pure (.unrecoverable reason)
  | _ => none

theorem map_fst_members (verdict : Verdict) :
    verdict.members.map Prod.fst = "verdict" :: verdict.kind.fields := by
  cases verdict <;> rfl

/-- A verdict can be read off any members that have its own among them, if no two share a name. -/
theorem ofMembers?_of_subset {verdict : Verdict} {members : Json.Members}
    (hnames : (members.map Prod.fst).Nodup) (h : verdict.members ⊆ members) :
    ofMembers? members = some verdict := by
  have hread : ∀ {name text}, (name, Json.Value.text text) ∈ verdict.members →
      Json.textAt? members name = some text :=
    fun hmem => Json.textAt?_of_mem hnames (h hmem)
  cases verdict with
  | confirmed address =>
    have hkind := hread (.head _)
    have haddress := hread (.tail _ (.head _))
    simp [ofMembers?, hkind, haddress]
  | mismatch claimed recovered =>
    have hkind := hread (.head _)
    have hclaimed := hread (.tail _ (.head _))
    have hrecovered := hread (.tail _ (.tail _ (.head _)))
    simp [ofMembers?, hkind, hclaimed, hrecovered]
  | unrecoverable reason =>
    have hkind := hread (.head _)
    have hreason := hread (.tail _ (.head _))
    simp [ofMembers?, hkind, hreason]

end Verdict

/-! ## Outcomes -/

namespace Batch.Outcome

open Json.Grammar

variable (outcome : Outcome)

/-- The outcome that some members state. -/
def ofMembers? (members : Json.Members) : Option Outcome := do
  let index ← Json.numberAt? members "index"
  let claimed ← Json.textAt? members "claimed_address"
  let verdict ← Verdict.ofMembers? members
  pure ⟨index, claimed, verdict⟩

theorem map_fst_members : outcome.members.map Prod.fst =
    "index" :: "claimed_address" :: "verdict" :: outcome.verdict.kind.fields := by
  rw [members, List.map_cons, List.map_cons, Verdict.map_fst_members]

/-- The members of an outcome do not share a name with those of its verdict. -/
theorem nodup_map_fst_members : (outcome.members.map Prod.fst).Nodup := by
  rw [map_fst_members]
  cases outcome.verdict.kind <;> decide

/-- An outcome can be read off its members, in whatever order they are given. -/
theorem ofMembers?_of_perm {outcome : Outcome} {members : Json.Members}
    (h : members.Perm outcome.members) : ofMembers? members = some outcome := by
  have hnames : (members.map Prod.fst).Nodup :=
    (h.map Prod.fst).nodup_iff.2 outcome.nodup_map_fst_members
  have hindex := Json.numberAt?_of_mem hnames (h.mem_iff.2 (.head _))
  have hclaimed := Json.textAt?_of_mem hnames (h.mem_iff.2 (.tail _ (.head _)))
  have hverdict : Verdict.ofMembers? members = some outcome.verdict :=
    Verdict.ofMembers?_of_subset hnames
      fun _ hmem => h.mem_iff.2 (List.mem_cons_of_mem _ (List.mem_cons_of_mem _ hmem))
  simp [ofMembers?, hindex, hclaimed, hverdict]

theorem members_injective : Function.Injective members := by
  intro outcome other h
  have hread := ofMembers?_of_perm (.refl outcome.members)
  rw [h, ofMembers?_of_perm (.refl other.members)] at hread
  exact (Option.some.inj hread).symm

theorem members_ne_nil : outcome.members ≠ [] := List.cons_ne_nil _ _

/-- No two outcomes have the same line. -/
theorem line_injective :
    Function.Injective fun outcome : Outcome => Json.compact outcome.members := by
  intro outcome other hline
  dsimp only at hline
  have hobject := object_compact outcome.members_ne_nil
  have hother := object_compact other.members_ne_nil
  rw [← hline] at hother
  exact members_injective (hobject.unique hother)

/-- **An outcome is determined by its line.** What is written for an outcome is one value without
any control character in it, and it is the object of the members of this outcome alone. Their names
are distinct: first those of the outcome, then those of its verdict. Asking for them by name gives
the outcome back, in whatever order they are kept, so that no other outcome has the same line. -/
theorem determined_by_line :
    WellFormed (Json.compact outcome.members).toList ∧
    (∀ c ∈ (Json.compact outcome.members).toList, ' ' ≤ c) ∧
    (∀ members, Object members (Json.compact outcome.members).toList ↔
      members = outcome.members) ∧
    outcome.members.map Prod.fst =
      "index" :: "claimed_address" :: "verdict" :: outcome.verdict.kind.fields ∧
    (outcome.members.map Prod.fst).Nodup ∧
    (∀ members, members.Perm outcome.members → ofMembers? members = some outcome) ∧
    ∀ other : Outcome, Json.compact other.members = Json.compact outcome.members →
      other = outcome := by
  have hne := outcome.members_ne_nil
  exact ⟨(object_compact hne).wellFormed, Json.space_le_of_mem_compact,
    fun _ => object_compact_iff hne, outcome.map_fst_members, outcome.nodup_map_fst_members,
    fun _ => ofMembers?_of_perm, fun _ hline => line_injective hline⟩

end Batch.Outcome

end Attest
