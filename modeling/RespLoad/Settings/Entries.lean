import RespLoad.Bytes

/-!
# Entries

A map from byte strings to byte strings, kept as the list of its entries in ascending order of the
keys. Each map has one such list, so maps with the same entries are equal, in whatever order the
entries were put in.
-/
namespace RespLoad

/-- Whether the keys ascend strictly. -/
def KeysAscend (entries : List (Bytes × Bytes)) : Prop := entries.Pairwise fun a b => a.1 < b.1

/-- Puts an entry in its place, or overwrites the value of a key that is there. -/
def insertEntry (key value : Bytes) : List (Bytes × Bytes) → List (Bytes × Bytes)
  | [] => [(key, value)]
  | (k, v) :: rest =>
    if key = k then (key, value) :: rest
    else if key < k then (key, value) :: (k, v) :: rest
    else (k, v) :: insertEntry key value rest

theorem key_of_mem_insertEntry {key value : Bytes} {entries : List (Bytes × Bytes)}
    {entry : Bytes × Bytes} (h : entry ∈ insertEntry key value entries) :
    entry.1 = key ∨ entry ∈ entries := by
  fun_induction insertEntry key value entries with
  | case1 => simp_all
  | case2 v rest => simp_all; grind
  | case3 k v rest hne hlt => simp_all; grind
  | case4 k v rest hne hlt ih => simp_all; grind

theorem keysAscend_insertEntry {key value : Bytes} {entries : List (Bytes × Bytes)}
    (h : KeysAscend entries) : KeysAscend (insertEntry key value entries) := by
  unfold KeysAscend at *
  fun_induction insertEntry key value entries with
  | case1 => simp
  | case2 v rest => simpa using h
  | case3 k v rest hne hlt =>
    refine List.pairwise_cons.mpr ⟨fun entry hentry => ?_, h⟩
    rcases List.mem_cons.mp hentry with rfl | hrest
    · exact hlt
    · exact List.lt_trans hlt ((List.pairwise_cons.mp h).1 entry hrest)
  | case4 k v rest hne hlt ih =>
    refine List.pairwise_cons.mpr ⟨fun entry hentry => ?_, ih (List.pairwise_cons.mp h).2⟩
    rcases key_of_mem_insertEntry hentry with heq | hrest
    · rw [heq]
      exact Std.lt_of_le_of_ne (List.not_lt.mp hlt) (Ne.symm hne)
    · exact (List.pairwise_cons.mp h).1 entry hrest

/-- A map of byte strings, listed in ascending order of the keys. -/
structure Entries where
  toList : List (Bytes × Bytes)
  ascending : KeysAscend toList
  deriving DecidableEq

namespace Entries

/-- The map without entries. -/
def empty : Entries := ⟨[], List.Pairwise.nil⟩

/-- Adds an entry; a former value of the key is overwritten. -/
def insert (entries : Entries) (key value : Bytes) : Entries :=
  ⟨insertEntry key value entries.toList, keysAscend_insertEntry entries.ascending⟩

/-- The value of a key. -/
def get? (entries : Entries) (key : Bytes) : Option Bytes := entries.toList.lookup key

end Entries

end RespLoad
