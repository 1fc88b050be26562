import Mathlib

/-!
# Looking up by a key

Where no two entries have the same key, a key finds the entry that has it, in whatever order the
entries stand.

The main statements are `lookup_eq_some_iff_mem` and `lookup_eq_of_perm`.
-/

namespace Attest

variable {κ α : Type*} [BEq κ] [LawfulBEq κ] {entries others : List (κ × α)}
  {key : κ} {value : α}

theorem isSome_lookup_iff_mem :
    (entries.lookup key).isSome ↔ key ∈ entries.map Prod.fst := by
  rw [List.lookup_isSome_iff]
  simp

/-- Where no key comes twice, looking up is membership. -/
theorem lookup_eq_some_iff_mem (h : (entries.map Prod.fst).Nodup) :
    entries.lookup key = some value ↔ (key, value) ∈ entries := by
  rw [List.lookup_eq_some_iff]
  constructor
  · rintro ⟨front, back, rfl, -⟩
    exact List.mem_append_right _ List.mem_cons_self
  · intro hmem
    obtain ⟨front, back, rfl⟩ := List.append_of_mem hmem
    refine ⟨front, back, rfl, fun entry hentry => bne_iff_ne.2 ?_⟩
    rintro rfl
    -- the key would come once in front of the entry and once with it
    rw [List.map_append, List.map_cons] at h
    exact List.disjoint_of_nodup_append h (List.mem_map_of_mem hentry) List.mem_cons_self

/-- **The order of the entries does not matter.** -/
theorem lookup_eq_of_perm (h : (entries.map Prod.fst).Nodup) (hperm : entries.Perm others) :
    entries.lookup key = others.lookup key := by
  have hothers : (others.map Prod.fst).Nodup := (hperm.map Prod.fst).nodup_iff.1 h
  refine Option.ext fun value => ?_
  rw [lookup_eq_some_iff_mem h, lookup_eq_some_iff_mem hothers, hperm.mem_iff]

end Attest
