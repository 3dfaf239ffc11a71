/-
# Maps kept in key order

A map is the list of its entries with strictly increasing keys, so that it has one
representation: two maps that hold the same entries are equal, whatever the order in which the
entries came in. Keys can be of any type with a strict total order. Strings are ordered by their
code points, lists of strings item by item.

Key definitions: `SortedMap`, `get?`, `insert`, `ofList`.
Key theorems: `get?_insert`, `SortedMap.ext_get?`.
-/

namespace AbiGate

/-- The order of a type is strict, and of any two different values one comes before the other. -/
class StrictTotal (κ : Type) [LT κ] : Prop where
  irrefl (a : κ) : ¬a < a
  trans {a b c : κ} : a < b → b < c → a < c
  eq_of_not_lt {a b : κ} : ¬a < b → ¬b < a → a = b

theorem StrictTotal.asymm {κ : Type} [LT κ] [StrictTotal κ] {a b : κ} (h : a < b) : ¬b < a :=
  fun h' => irrefl a (trans h h')

instance : StrictTotal String where
  irrefl := String.lt_irrefl
  trans := String.lt_trans
  eq_of_not_lt h h' := String.le_antisymm h' h

instance {κ : Type} [LT κ] [DecidableLT κ] [StrictTotal κ] : StrictTotal (List κ) :=
  have : Std.Irrefl (α := κ) (· < ·) := ⟨StrictTotal.irrefl⟩
  have : Std.Trichotomous (α := κ) (· < ·) := ⟨fun _ _ => StrictTotal.eq_of_not_lt⟩
  have : Trans (α := κ) (· < ·) (· < ·) (· < ·) := ⟨StrictTotal.trans⟩
  have : Std.Asymm (α := κ) (· < ·) := ⟨fun _ _ => StrictTotal.asymm⟩
  { irrefl := List.lt_irrefl
    trans := List.lt_trans
    eq_of_not_lt := fun h h' => List.le_antisymm (List.not_lt.1 h') (List.not_lt.1 h) }

/-- A list of entries with strictly increasing keys. -/
structure SortedMap (κ α : Type) [LT κ] where
  /-- The entries, in key order. -/
  toList : List (κ × α)
  sorted : toList.Pairwise fun a b => a.1 < b.1

namespace SortedMap

variable {κ α : Type} [LT κ]

@[ext] theorem ext {m n : SortedMap κ α} (h : m.toList = n.toList) : m = n := by
  cases m; cases n; cases h; rfl

instance [DecidableEq κ] [DecidableEq α] : DecidableEq (SortedMap κ α) := fun m n =>
  decidable_of_iff (m.toList = n.toList) ⟨ext, fun h => h ▸ rfl⟩

instance [Repr κ] [Repr α] : Repr (SortedMap κ α) := ⟨fun m p => reprPrec m.toList p⟩

/-- The map without entries. -/
def empty : SortedMap κ α := ⟨[], .nil⟩

instance : EmptyCollection (SortedMap κ α) := ⟨empty⟩
instance : Inhabited (SortedMap κ α) := ⟨empty⟩

/-- The keys, in order. -/
def keys (m : SortedMap κ α) : List κ :=
  m.toList.map (·.1)

/-- The values, in the order of their keys. -/
def values (m : SortedMap κ α) : List α :=
  m.toList.map (·.2)

/-- The number of entries. -/
def size (m : SortedMap κ α) : Nat :=
  m.toList.length

/-- The entries whose keys pass a test. -/
def filterKeys (m : SortedMap κ α) (p : κ → Bool) : SortedMap κ α :=
  ⟨m.toList.filter fun e => p e.1, m.sorted.filter _⟩

section Order

set_option linter.unusedSectionVars false

variable [DecidableLT κ] [DecidableEq κ] [StrictTotal κ]

/-- The value under a key in a list of entries, the first one if there are more. -/
def lookup (k : κ) : List (κ × α) → Option α
  | [] => none
  | (k', v) :: rest => if k = k' then some v else lookup k rest

/-- Puts an entry at its place in a list in key order, over the one with that key. -/
def insertEntry (k : κ) (v : α) : List (κ × α) → List (κ × α)
  | [] => [(k, v)]
  | (k', v') :: rest =>
    if k < k' then (k, v) :: (k', v') :: rest
    else if k = k' then (k, v) :: rest
    else (k', v') :: insertEntry k v rest

theorem mem_keys_insertEntry {k : κ} {v : α} {e : κ × α} :
    ∀ {l : List (κ × α)}, e ∈ insertEntry k v l → e.1 = k ∨ e ∈ l
  | [], h => by simp [insertEntry] at h; simp [h]
  | (k', v') :: rest, h => by
    unfold insertEntry at h
    split at h
    · rcases List.mem_cons.1 h with rfl | h
      · exact .inl rfl
      · exact .inr h
    · split at h
      · rcases List.mem_cons.1 h with rfl | h
        · exact .inl rfl
        · exact .inr (List.mem_cons_of_mem _ h)
      · rcases List.mem_cons.1 h with rfl | h
        · exact .inr List.mem_cons_self
        · exact (mem_keys_insertEntry h).imp id (List.mem_cons_of_mem _)

theorem lt_of_not_lt_of_ne {a b : κ} (h : ¬a < b) (hne : a ≠ b) : b < a :=
  Decidable.byContradiction fun hba => hne (StrictTotal.eq_of_not_lt h hba)

theorem sorted_insertEntry (k : κ) (v : α) : ∀ {l : List (κ × α)},
    (l.Pairwise fun a b => a.1 < b.1) → (insertEntry k v l).Pairwise fun a b => a.1 < b.1
  | [], _ => by simp [insertEntry]
  | (k', v') :: rest, h => by
    obtain ⟨hk', hrest⟩ := List.pairwise_cons.1 h
    unfold insertEntry
    split
    · next hlt =>
      refine List.pairwise_cons.2 ⟨fun e he => ?_, h⟩
      rcases List.mem_cons.1 he with rfl | he
      · exact hlt
      · exact StrictTotal.trans hlt (hk' e he)
    · next hnlt =>
      split
      · next heq =>
        subst heq
        exact List.pairwise_cons.2 ⟨hk', hrest⟩
      · next hne =>
        refine List.pairwise_cons.2 ⟨fun e he => ?_, sorted_insertEntry k v hrest⟩
        rcases mem_keys_insertEntry he with h1 | h2
        · exact h1 ▸ lt_of_not_lt_of_ne hnlt hne
        · exact hk' e h2

/-- The value under a key. -/
def get? (m : SortedMap κ α) (k : κ) : Option α :=
  lookup k m.toList

/-- Whether the map has the key. -/
def contains (m : SortedMap κ α) (k : κ) : Bool :=
  (m.get? k).isSome

/-- The map with this entry; an entry with the same key is replaced. -/
def insert (m : SortedMap κ α) (k : κ) (v : α) : SortedMap κ α :=
  ⟨insertEntry k v m.toList, sorted_insertEntry k v m.sorted⟩

/-- The map of a list of entries; of entries with the same key the last one stays. -/
def ofList (l : List (κ × α)) : SortedMap κ α :=
  l.foldl (fun m e => m.insert e.1 e.2) empty

/-! ### What a map answers -/

theorem lookup_insertEntry (k k' : κ) (v : α) : ∀ l : List (κ × α),
    (l.Pairwise fun a b => a.1 < b.1) →
      lookup k' (insertEntry k v l) = if k' = k then some v else lookup k' l
  | [], _ => rfl
  | (k₁, v₁) :: rest, h => by
    obtain ⟨hk₁, hrest⟩ := List.pairwise_cons.1 h
    unfold insertEntry
    split
    · rfl
    · split
      · next heq =>
        subst heq
        simp only [lookup]
        split <;> rfl
      · next hne =>
        simp only [lookup, lookup_insertEntry k k' v rest hrest]
        by_cases h1 : k' = k₁
        · subst h1
          simp [show k' ≠ k from fun e => hne e.symm]
        · simp [h1]

@[simp] theorem get?_empty (k : κ) : (empty : SortedMap κ α).get? k = none := rfl

/-- **The last entry under a key is the one that is found.** -/
theorem get?_insert (m : SortedMap κ α) (k k' : κ) (v : α) :
    (m.insert k v).get? k' = if k' = k then some v else m.get? k' :=
  lookup_insertEntry k k' v m.toList m.sorted

theorem lookup_of_mem {k : κ} {v : α} : ∀ {l : List (κ × α)},
    (l.Pairwise fun a b => a.1 < b.1) → (k, v) ∈ l → lookup k l = some v
  | (k', v') :: rest, h, hm => by
    obtain ⟨hk', hrest⟩ := List.pairwise_cons.1 h
    rcases List.mem_cons.1 hm with he | hm
    · cases he
      simp [lookup]
    · have hlt : k' < k := hk' _ hm
      have hne : k ≠ k' := fun e => StrictTotal.irrefl _ (e ▸ hlt)
      simpa [lookup, hne] using lookup_of_mem hrest hm

theorem mem_of_lookup {k : κ} {v : α} : ∀ {l : List (κ × α)},
    lookup k l = some v → (k, v) ∈ l
  | (k', v') :: rest, h => by
    unfold lookup at h
    split at h
    · next he =>
      subst he
      cases h
      exact List.mem_cons_self
    · exact List.mem_cons_of_mem _ (mem_of_lookup h)

/-- A map finds exactly its entries. -/
theorem get?_eq_some_iff {m : SortedMap κ α} {k : κ} {v : α} :
    m.get? k = some v ↔ (k, v) ∈ m.toList :=
  ⟨mem_of_lookup, lookup_of_mem m.sorted⟩

theorem not_contains_iff {m : SortedMap κ α} {k : κ} :
    m.contains k = false ↔ m.get? k = none :=
  Option.isSome_eq_false_iff.trans Option.isNone_iff_eq_none

/-- The keys are those under which something is found. -/
theorem mem_keys {m : SortedMap κ α} {k : κ} : k ∈ m.keys ↔ m.contains k = true := by
  unfold keys contains
  rw [List.mem_map, Option.isSome_iff_exists]
  constructor
  · rintro ⟨e, he, rfl⟩
    exact ⟨e.2, get?_eq_some_iff.2 he⟩
  · rintro ⟨v, hv⟩
    exact ⟨(k, v), get?_eq_some_iff.1 hv, rfl⟩

theorem pairwise_keys (m : SortedMap κ α) : m.keys.Pairwise (· < ·) :=
  List.pairwise_map.2 m.sorted

theorem nodup_keys (m : SortedMap κ α) : m.keys.Nodup := by
  refine m.pairwise_keys.imp fun {a b} hlt heq => ?_
  rw [heq] at hlt
  exact StrictTotal.irrefl _ hlt

/-- **The first entry that passes a test is the one with the least key.** -/
theorem find?_eq_some_iff {m : SortedMap κ α} {p : κ × α → Bool} {e : κ × α} :
    m.toList.find? p = some e ↔
      e ∈ m.toList ∧ p e = true ∧ ∀ e' ∈ m.toList, p e' = true → ¬e'.1 < e.1 := by
  rw [List.find?_eq_some_iff_append]
  constructor
  · rintro ⟨hp, before, behind, hl, hbefore⟩
    have hs := m.sorted
    rw [hl] at hs ⊢
    refine ⟨by simp, hp, fun e' he' hp' => ?_⟩
    rcases List.mem_append.1 he' with h | h
    · have hnot := hbefore e' h
      simp [hp'] at hnot
    rcases List.mem_cons.1 h with rfl | h
    · exact StrictTotal.irrefl _
    · have hlt := (List.pairwise_cons.1 (List.pairwise_append.1 hs).2.1).1 e' h
      exact fun hlt' => StrictTotal.irrefl _ (StrictTotal.trans hlt hlt')
  · rintro ⟨he, hp, hleast⟩
    obtain ⟨before, behind, hl⟩ := List.append_of_mem he
    refine ⟨hp, before, behind, hl, fun e' he' => ?_⟩
    have hlt := (List.pairwise_append.1 (hl ▸ m.sorted)).2.2 e' he' e List.mem_cons_self
    have hmem : e' ∈ m.toList := hl ▸ List.mem_append_left _ he'
    cases hp' : p e' with
    | false => rfl
    | true => exact absurd hlt (hleast e' hmem hp')

theorem eq_of_mem_iff : ∀ {l l' : List (κ × α)},
    (l.Pairwise fun a b => a.1 < b.1) → (l'.Pairwise fun a b => a.1 < b.1) →
      (∀ e, e ∈ l ↔ e ∈ l') → l = l'
  | [], [], _, _, _ => rfl
  | [], e :: _, _, _, h => absurd ((h e).2 List.mem_cons_self) (by simp)
  | e :: _, [], _, _, h => absurd ((h e).1 List.mem_cons_self) (by simp)
  | e :: l, e' :: l', hs, hs', h => by
    obtain ⟨he, hl⟩ := List.pairwise_cons.1 hs
    obtain ⟨he', hl'⟩ := List.pairwise_cons.1 hs'
    have hee : e = e' := by
      rcases List.mem_cons.1 ((h e).1 List.mem_cons_self) with h1 | h1
      · exact h1
      rcases List.mem_cons.1 ((h e').2 List.mem_cons_self) with h2 | h2
      · exact h2.symm
      exact absurd (StrictTotal.trans (he _ h2) (he' _ h1)) (StrictTotal.irrefl _)
    subst hee
    have fresh : ∀ {r : List (κ × α)}, (∀ a ∈ r, e.1 < a.1) → ∀ a ∈ r, a ≠ e :=
      fun hr a ha hae => StrictTotal.irrefl _ (hae ▸ hr a ha)
    congr 1
    refine eq_of_mem_iff hl hl' fun a => ⟨fun ha => ?_, fun ha => ?_⟩
    · exact (List.mem_cons.1 ((h a).1 (List.mem_cons_of_mem _ ha))).resolve_left (fresh he a ha)
    · exact (List.mem_cons.1 ((h a).2 (List.mem_cons_of_mem _ ha))).resolve_left (fresh he' a ha)

/-- Something holds of all that a map finds exactly if it holds of its entries. -/
theorem forall_get?_iff {m : SortedMap κ α} {p : κ × α → Prop} :
    (∀ k v, m.get? k = some v → p (k, v)) ↔ ∀ e ∈ m.toList, p e :=
  ⟨fun h e he => h e.1 e.2 (get?_eq_some_iff.2 he),
    fun h k v hv => h (k, v) (get?_eq_some_iff.1 hv)⟩

/-- **A map is what it answers.** Two maps that find the same under every key are equal. -/
theorem ext_get? {m n : SortedMap κ α} (h : ∀ k, m.get? k = n.get? k) : m = n :=
  ext <| eq_of_mem_iff m.sorted n.sorted fun e => by
    rw [← get?_eq_some_iff (k := e.1) (v := e.2), ← get?_eq_some_iff (k := e.1) (v := e.2), h]

end Order

end SortedMap

end AbiGate
