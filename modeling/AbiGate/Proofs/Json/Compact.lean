/-
# Values without blanks, read back

The text of a value without blanks is cut into the same tokens as the indented one, so it is read as
the value as well.

Key definitions: `Json.CutsCompact`.
Key theorems: `Json.Readable.cutsCompact`, `Json.read?_compact`.
-/
import AbiGate.Proofs.Json.ReadBack

namespace AbiGate.Json

/-- The text of a value without blanks is cut into its tokens, wherever it stands. -/
def CutsCompact (j : Json) : Prop :=
  ∀ rest, Stops rest → tokens? (writeCompact j ++ rest) = (tokens? rest).map (toTokens j ++ ·)

theorem stops_writeCompactItems (items : List Json) (rest : List Char) :
    Stops (writeCompactItems items ++ rest) := by
  cases items with
  | nil => exact stops_cons (by decide) _
  | cons item more => exact stops_cons (by decide) _

theorem stops_writeCompactMembers (members : List (String × Json)) (rest : List Char) :
    Stops (writeCompactMembers members ++ rest) := by
  cases members with
  | nil => exact stops_cons (by decide) _
  | cons m more => exact stops_cons (by decide) _

theorem tokens?_writeCompactItems {items : List Json} (h : ∀ item ∈ items, CutsCompact item)
    (rest : List Char) : tokens? (writeCompactItems items ++ rest) =
      (tokens? rest).map (itemTokens items ++ ·) := by
  induction items with
  | nil => exact tokens?_mark rfl rest
  | cons item more ih =>
    obtain ⟨hitem, hmore⟩ := List.forall_mem_cons.1 h
    have htext : writeCompactItems (item :: more) ++ rest =
        ',' :: (writeCompact item ++ (writeCompactItems more ++ rest)) := by
      simp [writeCompactItems]
    rw [htext, tokens?_mark rfl, hitem _ (stops_writeCompactItems _ _), ih hmore]
    simp [Function.comp_def, itemTokens]

theorem tokens?_compactMember {value : Json} (h : CutsCompact value) (name : String)
    {rest : List Char} (hrest : Stops rest) :
    tokens? (writeString name ++ ':' :: writeCompact value ++ rest) =
      (tokens? rest).map fun ts => .text name :: .colon :: toTokens value ++ ts := by
  rw [List.append_assoc, tokens?_writeString, List.cons_append, tokens?_mark rfl, h rest hrest]
  simp [Function.comp_def]

theorem tokens?_writeCompactMembers {members : List (String × Json)}
    (h : ∀ m ∈ members, CutsCompact m.2) (rest : List Char) :
    tokens? (writeCompactMembers members ++ rest) =
      (tokens? rest).map (memberTokens members ++ ·) := by
  induction members with
  | nil => exact tokens?_mark rfl rest
  | cons m more ih =>
    obtain ⟨name, value⟩ := m
    obtain ⟨hvalue, hmore⟩ := List.forall_mem_cons.1 h
    have htext : writeCompactMembers ((name, value) :: more) ++ rest =
        ',' :: (writeString name ++ ':' :: writeCompact value ++
          (writeCompactMembers more ++ rest)) := by
      simp [writeCompactMembers]
    rw [htext, tokens?_mark rfl, tokens?_compactMember hvalue name (stops_writeCompactMembers _ _),
      ih hmore]
    simp [Function.comp_def, memberTokens]

theorem Readable.cutsCompact {height : Nat} {j : Json} (h : Readable height j) :
    CutsCompact j := by
  -- What is inside is cut by induction, and what stands behind the first item by the lists above.
  induction h with
  | null => exact fun _ hrest => tokens?_word "null".toList (by decide) (by decide) rfl hrest
  | bool b =>
    cases b with
    | false => exact fun _ hrest => tokens?_word "false".toList (by decide) (by decide) rfl hrest
    | true => exact fun _ hrest => tokens?_word "true".toList (by decide) (by decide) rfl hrest
  | integer h => exact fun _ hrest => tokens?_toDigits h hrest
  | string s => exact fun rest _ => tokens?_writeString s rest
  | @array height items _ ih =>
    intro rest _
    cases items with
    | nil =>
      show tokens? ('[' :: ']' :: rest) = _
      rw [tokens?_mark rfl, tokens?_mark rfl]
      simp [Function.comp_def, toTokens]
    | cons item more =>
      obtain ⟨hitem, hmore⟩ := List.forall_mem_cons.1 ih
      have htext : writeCompact (.array (item :: more)) ++ rest =
          '[' :: (writeCompact item ++ (writeCompactItems more ++ rest)) := by
        simp [writeCompact]
      rw [htext, tokens?_mark rfl, hitem _ (stops_writeCompactItems _ _),
        tokens?_writeCompactItems hmore]
      simp [Function.comp_def, toTokens]
  | @object height members _ ih =>
    intro rest _
    cases members with
    | nil =>
      show tokens? ('\x7b' :: '\x7d' :: rest) = _
      rw [tokens?_mark rfl, tokens?_mark rfl]
      simp [Function.comp_def, toTokens]
    | cons m more =>
      obtain ⟨name, value⟩ := m
      obtain ⟨hvalue, hmore⟩ := List.forall_mem_cons.1 ih
      have htext : writeCompact (.object ((name, value) :: more)) ++ rest =
          '\x7b' :: (writeString name ++ ':' :: writeCompact value ++
            (writeCompactMembers more ++ rest)) := by
        simp [writeCompact]
      rw [htext, tokens?_mark rfl, tokens?_compactMember hvalue name
        (stops_writeCompactMembers _ _), tokens?_writeCompactMembers hmore]
      simp [Function.comp_def, toTokens]

/-- **The text of a value without blanks is read as the value.** -/
theorem read?_compact {j : Json} (h : Readable maxDepth j) : read? j.compact = some j := by
  refine read?_of_tokens? h ?_
  have hcuts := h.cutsCompact [] stops_nil
  rw [List.append_nil] at hcuts
  rw [compact, String.toList_ofList, hcuts, tokens?]
  simp

end AbiGate.Json
