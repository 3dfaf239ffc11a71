/-
# Maps made of lists

A map that is made of a list of entries has their keys, and under each key one of the entries. So a
list of the entries of a map makes that map again, whatever their order. In a list with different
keys, a key finds the one entry that has it.

Key theorems: `find?_key_eq_some_iff`, `SortedMap.mem_of_get?_ofList`,
`SortedMap.isSome_get?_ofList`, `SortedMap.ofList_eq_of_perm`.
-/
import AbiGate.SortedMap
import Mathlib.Data.List.Nodup

namespace AbiGate

theorem find?_key_eq_some_iff {κ α : Type} [DecidableEq κ] {entries : List (κ × α)}
    (h : (entries.map (·.1)).Nodup) {k : κ} {v : α} :
    entries.find? (·.1 = k) = some (k, v) ↔ (k, v) ∈ entries := by
  refine ⟨List.mem_of_find?_eq_some, fun hmem => ?_⟩
  have hsome : (entries.find? (·.1 = k)).isSome = true :=
    List.find?_isSome.2 ⟨(k, v), hmem, by simp⟩
  obtain ⟨e, he⟩ := Option.isSome_iff_exists.1 hsome
  have hkey : e.1 = k := by simpa using List.find?_some he
  rw [he, List.inj_on_of_nodup_map h (List.mem_of_find?_eq_some he) hmem hkey]

end AbiGate

namespace AbiGate.SortedMap

variable {κ α : Type} [LT κ] [DecidableLT κ] [DecidableEq κ] [StrictTotal κ]
  {entries : List (κ × α)} {m : SortedMap κ α} {k : κ} {v : α}

theorem mem_or_of_get?_foldl_insert
    (h : (entries.foldl (fun m e => m.insert e.1 e.2) m).get? k = some v) :
    (k, v) ∈ entries ∨ m.get? k = some v := by
  induction entries generalizing m with
  | nil => exact .inr h
  | cons e rest ih =>
    rcases ih h with hrest | hfirst
    · exact .inl (List.mem_cons_of_mem e hrest)
    · rw [SortedMap.get?_insert] at hfirst
      by_cases hk : k = e.1
      · rw [if_pos hk] at hfirst
        rw [hk, ← Option.some.inj hfirst]
        exact .inl List.mem_cons_self
      · rw [if_neg hk] at hfirst
        exact .inr hfirst

theorem isSome_get?_foldl_insert (h : k ∈ entries.map (·.1) ∨ (m.get? k).isSome = true) :
    ((entries.foldl (fun m e => m.insert e.1 e.2) m).get? k).isSome = true := by
  induction entries generalizing m with
  | nil => exact h.resolve_left List.not_mem_nil
  | cons e rest ih =>
    refine ih ?_
    rw [SortedMap.get?_insert]
    by_cases hk : k = e.1
    · rw [if_pos hk]
      exact .inr rfl
    · rw [if_neg hk]
      exact h.imp_left fun hmem => (List.mem_cons.1 hmem).resolve_left hk

theorem mem_of_get?_ofList (h : (ofList entries).get? k = some v) : (k, v) ∈ entries :=
  (mem_or_of_get?_foldl_insert h).resolve_right (by simp)

theorem isSome_get?_ofList (h : k ∈ entries.map (·.1)) : ((ofList entries).get? k).isSome = true :=
  isSome_get?_foldl_insert (.inl h)

/-- **A map is made of its entries in any order.** -/
theorem ofList_eq_of_perm (h : entries.Perm m.toList) : ofList entries = m := by
  have hheld {k : κ} {v : α} (hget : (ofList entries).get? k = some v) : m.get? k = some v :=
    get?_eq_some_iff.2 (h.mem_iff.1 (mem_of_get?_ofList hget))
  refine ext_get? fun k => Option.ext fun v => ⟨hheld, fun hget => ?_⟩
  have hkey : k ∈ entries.map (·.1) :=
    List.mem_map_of_mem (h.mem_iff.2 (get?_eq_some_iff.1 hget))
  obtain ⟨w, hw⟩ := Option.isSome_iff_exists.1 (isSome_get?_ofList hkey)
  rw [hw, ← hget, hheld hw]

end AbiGate.SortedMap
