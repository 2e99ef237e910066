import Mathlib.Data.List.Sort
import RespLoad.Settings.Entries

/-!
# What a map of entries holds

A map is determined by the values that its keys have (`Entries.ext_get?`), and adding an entry changes
the value of its key and of no other.
-/
namespace RespLoad

theorem lookup_cons_eq (key value other : Bytes) (rest : List (Bytes × Bytes)) :
    ((key, value) :: rest).lookup other = if other = key then some value else rest.lookup other := by
  rw [List.lookup_cons]
  by_cases h : other = key
  · rw [if_pos h, beq_iff_eq.mpr h]
  · rw [if_neg h, beq_eq_false_iff_ne.mpr h]

theorem lookup_insertEntry (key value other : Bytes) (entries : List (Bytes × Bytes)) :
    (insertEntry key value entries).lookup other =
      if other = key then some value else entries.lookup other := by
  fun_induction insertEntry key value entries with
  | case1 => exact lookup_cons_eq key value other []
  | case2 v rest =>
    rw [lookup_cons_eq, lookup_cons_eq]
    split <;> rfl
  | case3 k v rest hne hlt => exact lookup_cons_eq key value other _
  | case4 k v rest hne hlt ih =>
    rw [lookup_cons_eq, lookup_cons_eq, ih]
    by_cases h : other = k
    · rw [if_pos h, if_pos h, if_neg fun heq => hne (heq.symm.trans h)]
    · rw [if_neg h, if_neg h]

/-- Keys that ascend are found wherever they stand. -/
theorem lookup_eq_some_iff_mem {entries : List (Bytes × Bytes)} (h : KeysAscend entries)
    {key value : Bytes} : entries.lookup key = some value ↔ (key, value) ∈ entries := by
  rw [List.lookup_eq_some_iff]
  constructor
  · rintro ⟨before, after, rfl, _⟩
    exact List.mem_append_right _ List.mem_cons_self
  · intro hm
    obtain ⟨before, after, rfl⟩ := List.append_of_mem hm
    refine ⟨before, after, rfl, fun entry he => ?_⟩
    have hlt : entry.1 < key := (List.pairwise_append.mp h).2.2 entry he _ List.mem_cons_self
    exact bne_iff_ne.mpr fun heq => List.lt_irrefl key (heq ▸ hlt)

/-- Keys are ordered strictly, so no two entries are in order both ways. -/
instance : Std.Irrefl fun a b : Bytes × Bytes => a.1 < b.1 := ⟨fun a => List.lt_irrefl a.1⟩

instance : Std.Antisymm fun a b : Bytes × Bytes => a.1 < b.1 :=
  ⟨fun a _ hab hba => absurd (List.lt_trans hab hba) (List.lt_irrefl a.1)⟩

namespace Entries

theorem get?_empty (key : Bytes) : empty.get? key = none := rfl

theorem get?_insert (entries : Entries) (key value other : Bytes) :
    (entries.insert key value).get? other =
      if other = key then some value else entries.get? other :=
  lookup_insertEntry key value other entries.toList

theorem ext_get? {a b : Entries} (h : ∀ key, a.get? key = b.get? key) : a = b := by
  have hmem : ∀ entry, entry ∈ a.toList ↔ entry ∈ b.toList := by
    rintro ⟨key, value⟩
    rw [← lookup_eq_some_iff_mem a.ascending, ← lookup_eq_some_iff_mem b.ascending]
    exact iff_of_eq (congrArg (· = some value) (h key))
  obtain ⟨listA, hA⟩ := a
  obtain ⟨listB, hB⟩ := b
  obtain rfl : listA = listB := List.Pairwise.eq_of_mem_iff hA hB hmem
  rfl

/-- An entry that is there already changes nothing when it is added. -/
theorem insert_eq_self {entries : Entries} {key value : Bytes}
    (h : entries.get? key = some value) : entries.insert key value = entries := by
  refine ext_get? fun other => ?_
  rw [get?_insert]
  split
  · rename_i he
    rw [he, h]
  · rfl

end Entries

end RespLoad
