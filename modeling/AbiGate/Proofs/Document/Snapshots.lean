/-
# Snapshots in documents, read back

More than one document spells a snapshot: names and keys may come in any order, and so may the
fields of a record, with further fields among them. All of these are read as the snapshot. The one
that is written for it is among them, so it is read back, and no other snapshot has the same.

Key definitions: `Json.Gives`, `Identifier.SpelledBy`, `SortedMap.SpelledBy`, `Contract.SpelledBy`,
`Snapshot.SpelledBy`, `Snapshot.documents`, `Snapshot.ofText?`.
Key theorems: `Snapshot.ofJson?_of_spelledBy`, `Snapshot.spelledBy_toJson`,
`Snapshot.readable_toJson`, `snapshot_readBack`.
-/
import AbiGate.Document.Snapshot
import AbiGate.Proofs.Json.Compact
import AbiGate.Proofs.SortedMap
import Mathlib.Data.List.Forall2

namespace AbiGate

/-! ### Documents that spell a value -/

/-- Among members there is one with this name, and it has this value. -/
def Json.Gives (members : List (String × Json)) (name : String) (value : Json) : Prop :=
  members.filter (·.1 = name) = [(name, value)]

/-- An object has the fields of a member, each once, whatever else it has. -/
def Identifier.SpelledBy (i : Identifier) (j : Json) : Prop :=
  ∃ members, j = .object members ∧
    Json.Gives members "kind" (.string i.kind.word) ∧
    Json.Gives members "name" (.string i.name) ∧
    Json.Gives members "declaration" (.string i.declaration) ∧
    Json.Gives members "signature" (.string i.signature)

/-- An object has the entries of a map, each once and in any order. -/
def SortedMap.SpelledBy {α : Type} (spelled : α → Json → Prop) (m : SortedMap String α)
    (j : Json) : Prop :=
  ∃ entries members, entries.Perm m.toList ∧ j = .object members ∧
    List.Forall₂ (fun e member => member.1 = e.1 ∧ spelled e.2 member.2) entries members

/-- An object has the fields of a contract, each once, whatever else it has. -/
def Contract.SpelledBy (c : Contract) (j : Json) : Prop :=
  ∃ members identifiers, j = .object members ∧
    Json.Gives members "path" (.string c.path.text) ∧
    Json.Gives members "abi_version" (.ofUInt64 c.version) ∧
    Json.Gives members "identifiers" identifiers ∧
    c.identifiers.SpelledBy Identifier.SpelledBy identifiers

/-- An object has the contracts of a snapshot, in any order. -/
def Snapshot.SpelledBy (s : Snapshot) (j : Json) : Prop :=
  s.contracts.SpelledBy Contract.SpelledBy j

/-! ### What spells a value is read as it -/

theorem Json.memberIn?_eq (name : String) (members : List (String × Json)) :
    memberIn? name members = (members.filter (·.1 = name)).getLast?.map (·.2) := by
  induction members with
  | nil => rfl
  | cons member rest ih =>
    obtain ⟨k, v⟩ := member
    rw [memberIn?, ih]
    by_cases hk : k = name
    · rw [List.filter_cons_of_pos (by simpa using hk), List.getLast?_cons, if_pos hk]
      cases (rest.filter (·.1 = name)).getLast? <;> rfl
    · rw [List.filter_cons_of_neg (by simpa using hk), if_neg hk, Option.or_none]

/-- The fields of a record that are given once each are what they are given as. -/
theorem Json.record?_of_gives {members : List (String × Json)} {names : List String}
    {values : List Json} (h : List.Forall₂ (Gives members) names values) :
    documents.record? names (.object members) = some (values.map some) := by
  have hfields : givesOnce names members = true ∧
      names.map (memberIn? · members) = values.map some := by
    induction h with
    | nil => exact ⟨rfl, rfl⟩
    | @cons name value names values hgives _ ih =>
      obtain ⟨honce, hvalues⟩ := ih
      have hcount : members.countP (·.1 = name) = 1 := by
        rw [List.countP_eq_length_filter, hgives]
        rfl
      refine ⟨?_, ?_⟩
      · rw [givesOnce, List.all_cons, Bool.and_eq_true, decide_eq_true_eq]
        exact ⟨hcount.le, honce⟩
      · rw [List.map_cons, List.map_cons, hvalues, memberIn?_eq, hgives]
        rfl
  exact (if_pos hfields.1).trans (congrArg some hfields.2)

theorem Json.choice?_string {α : Type} (ofWord? : String → Option α) (word : String) :
    documents.choice? ofWord? (.string word) = ofWord? word := rfl

theorem Identifier.ofJson?_of_spelledBy {i : Identifier} {j : Json} (h : i.SpelledBy j) :
    ofJson? j = some i := by
  obtain ⟨members, rfl, hkind, hname, hdeclaration, hsignature⟩ := h
  have hword : EntryKind.ofWord? i.kind.word = some i.kind :=
    EntryKind.ofWord?_eq_some_iff.2 rfl
  have hrecord := Json.record?_of_gives (.cons hkind (.cons hname (.cons hdeclaration
    (.cons hsignature .nil))))
  simp [ofJson?, hrecord, Json.choice?_string, Json.asString?, hword]

section

variable {α : Type} {spelled : α → Json → Prop} {read : Json → Option α} {m : SortedMap String α}
  {j : Json}

/-- Members that spell entries are read as the entries, put in one after the other. -/
theorem SortedMap.ofMembers?_of_forall₂ (hread : ∀ a j, spelled a j → read j = some a)
    {entries : List (String × α)} {members : List (String × Json)}
    (h : List.Forall₂ (fun e member => member.1 = e.1 ∧ spelled e.2 member.2) entries members)
    (m : SortedMap String α) :
    ofMembers? read m members = some (entries.foldl (fun m e => m.insert e.1 e.2) m) := by
  induction h generalizing m with
  | nil => rfl
  | @cons e member entries members hfirst _ ih =>
    obtain ⟨hname, hspelled⟩ := hfirst
    rw [ofMembers?, hread _ _ hspelled, hname]
    exact ih _

theorem SortedMap.ofJson?_of_spelledBy (hread : ∀ a j, spelled a j → read j = some a)
    (h : m.SpelledBy spelled j) : ofJson? read j = some m := by
  obtain ⟨entries, members, hperm, rfl, hmembers⟩ := h
  rw [ofJson?, ofMembers?_of_forall₂ hread hmembers]
  exact congrArg some (ofList_eq_of_perm hperm)

end

theorem Contract.ofJson?_of_spelledBy {c : Contract} {j : Json} (h : c.SpelledBy j) :
    ofJson? j = some c := by
  obtain ⟨members, identifiers, rfl, hpath, hversion, hfield, hidentifiers⟩ := h
  have hmap : SortedMap.ofJson? Identifier.ofJson? identifiers = some c.identifiers :=
    SortedMap.ofJson?_of_spelledBy (fun _ _ => Identifier.ofJson?_of_spelledBy) hidentifiers
  have hrecord := Json.record?_of_gives (.cons hpath (.cons hversion (.cons hfield .nil)))
  simp [ofJson?, hrecord, Json.asString?, hmap]

/-- **What spells a snapshot is read as it,** in whatever order it does, and whatever else it
says. -/
theorem Snapshot.ofJson?_of_spelledBy {s : Snapshot} {j : Json} (h : s.SpelledBy j) :
    ofJson? j = some s := by
  have hmap : SortedMap.ofJson? Contract.ofJson? j = some s.contracts :=
    SortedMap.ofJson?_of_spelledBy (fun _ _ => Contract.ofJson?_of_spelledBy) h
  rw [ofJson?, hmap]
  rfl

/-! ### What is written spells the value -/

theorem Identifier.spelledBy_toJson (i : Identifier) : i.SpelledBy i.toJson := by
  refine ⟨_, rfl, ?_⟩
  simp [Json.Gives]

theorem SortedMap.spelledBy_toJson {α : Type} {spelled : α → Json → Prop} {write : α → Json}
    (h : ∀ a, spelled a (write a)) (m : SortedMap String α) :
    m.SpelledBy spelled (m.toJson write) := by
  refine ⟨m.toList, _, .refl _, rfl, ?_⟩
  rw [List.forall₂_map_right_iff, List.forall₂_same]
  exact fun e _ => ⟨rfl, h e.2⟩

theorem Contract.spelledBy_toJson (c : Contract) : c.SpelledBy c.toJson := by
  refine ⟨_, c.identifiers.toJson Identifier.toJson, rfl, ?_, ?_, ?_,
    SortedMap.spelledBy_toJson Identifier.spelledBy_toJson _⟩
  all_goals simp [Json.Gives]

theorem Snapshot.spelledBy_toJson (s : Snapshot) : s.SpelledBy s.toJson :=
  SortedMap.spelledBy_toJson Contract.spelledBy_toJson s.contracts

theorem Identifier.ofJson?_toJson (i : Identifier) : ofJson? i.toJson = some i :=
  ofJson?_of_spelledBy i.spelledBy_toJson

/-! ### What is written can be read -/

section

variable {height : Nat}

open Json (Readable)

theorem Json.readable_ofUInt64 (n : UInt64) : Readable height (.ofUInt64 n) :=
  .integer n.toNat_lt

theorem Identifier.readable_toJson (i : Identifier) : Readable (height + 1) i.toJson :=
  .object <| by simp [Readable.string]

theorem SortedMap.readable_toJson {α : Type} {write : α → Json}
    (h : ∀ a, Readable height (write a)) (m : SortedMap String α) :
    Readable (height + 1) (m.toJson write) := by
  refine .object fun member hmember => ?_
  obtain ⟨e, -, rfl⟩ := List.mem_map.1 hmember
  exact h e.2

theorem Contract.readable_toJson (c : Contract) : Readable (height + 3) c.toJson := by
  have hidentifiers : Readable (height + 2) (c.identifiers.toJson Identifier.toJson) :=
    SortedMap.readable_toJson Identifier.readable_toJson _
  exact .object <| by simp [Readable.string, Json.readable_ofUInt64, hidentifiers]

theorem Snapshot.readable_toJson (s : Snapshot) : Readable (height + 4) s.toJson :=
  SortedMap.readable_toJson Contract.readable_toJson _

end

/-! ### The whole document -/

namespace Snapshot

/-- The documents that are written for a snapshot, without blanks and indented. -/
def documents (s : Snapshot) : List String :=
  [s.toJson.compact, s.toJson.indented]

/-- The snapshot that is read from a document. -/
def ofText? (document : String) : Option Snapshot :=
  (Json.read? document).bind ofJson?

theorem ofText?_of_mem_documents {s : Snapshot} {document : String}
    (h : document ∈ s.documents) : ofText? document = some s := by
  have hreadable : Json.Readable Json.maxDepth s.toJson := s.readable_toJson
  have hread : Json.read? document = some s.toJson := by
    rcases List.mem_cons.1 h with rfl | h
    · exact Json.read?_compact hreadable
    · rw [List.mem_singleton.1 h]
      simpa using Json.read?_indented_append hreadable "" (by decide)
  rw [ofText?, hread]
  exact ofJson?_of_spelledBy s.spelledBy_toJson

end Snapshot

/-- **Snapshots are read back from their documents.** Whatever a snapshot holds, the document that
is written for it is read as it, and no other snapshot has the same document. Any other document
that spells the snapshot is read as it as well. A document that is read as the snapshot, whatever
else it says, can be replaced by the one that is written for it. -/
theorem snapshot_readBack (s : Snapshot) :
    (∀ document ∈ s.documents, Snapshot.ofText? document = some s) ∧
    (∀ s', ∀ document ∈ s.documents, document ∈ s'.documents → s' = s) ∧
    (∀ document j, Json.read? document = some j → s.SpelledBy j →
      Snapshot.ofText? document = some s) ∧
    (∀ document, Snapshot.ofText? document = some s →
      ∀ again ∈ s.documents, Snapshot.ofText? again = Snapshot.ofText? document) := by
  refine ⟨fun document => Snapshot.ofText?_of_mem_documents, fun s' document h h' => ?_,
    fun document j hread hspelled => ?_, fun document hread again hagain => ?_⟩
  · exact Option.some.inj
      ((Snapshot.ofText?_of_mem_documents h').symm.trans (Snapshot.ofText?_of_mem_documents h))
  · rw [Snapshot.ofText?, hread]
    exact Snapshot.ofJson?_of_spelledBy hspelled
  · rw [hread, Snapshot.ofText?_of_mem_documents hagain]

/-- A member of each kind under any version, with texts that have to be escaped. -/
def kiosks : Snapshot where
  contracts := .ofList [
    ("Kiosk", { path := ⟨"contracts\\Kiosk.sol"⟩, version := 18446744073709551615,
                identifiers := .ofList [
                  ("paid", .declared .event "paid(\n)" "\x7f"),
                  ("pay", .declared .function "pay(😀)" "\"")] }),
    ("ÿ", .new ⟨""⟩ 0)]

/-- A document for them with everything out of order and more in it than is asked for. -/
def scrambledKiosks : Json :=
  .object [
    ("ÿ", .object [("identifiers", .object []), ("note", .null), ("abi_version", .integer 0),
      ("path", .string "")]),
    ("Kiosk", .object [
      ("identifiers", .object [
        ("pay", .object [("signature", .string "\""), ("declaration", .string "pay(😀)"),
          ("name", .string "pay"), ("kind", .string "function"), ("line", .integer 3)]),
        ("paid", .object [("declaration", .string "paid(\n)"), ("kind", .string "event"),
          ("tags", .array [.bool true, .null]), ("signature", .string "\x7f"),
          ("name", .string "paid")])]),
      ("path", .string "contracts\\Kiosk.sol"), ("abi_version", .integer 18446744073709551615)])]

theorem readable_scrambledKiosks : Json.Readable Json.maxDepth scrambledKiosks := by
  simp only [scrambledKiosks, Json.maxDepth, Json.Readable.object_iff, Json.Readable.array_iff,
    List.forall_mem_cons, Json.Readable.string, Json.Readable.null, Json.Readable.bool]
  have hversion : Json.Readable 125 (.integer 18446744073709551615) :=
    .integer (n := 18446744073709551615) (by decide)
  have hline : Json.Readable 123 (.integer 3) := .integer (n := 3) (by decide)
  simpa using ⟨.integer (n := 0) (by decide), hline, hversion⟩

theorem spelledBy_scrambledKiosks : kiosks.SpelledBy scrambledKiosks := by
  refine ⟨kiosks.contracts.toList.reverse, _, List.reverse_perm _, rfl, ?_⟩
  refine .cons ⟨rfl, _, _, rfl, rfl, rfl, rfl, [], [], .refl _, rfl, .nil⟩
    (.cons ⟨rfl, _, _, rfl, rfl, rfl, rfl, _, _, List.reverse_perm _, rfl, ?_⟩ .nil)
  exact .cons ⟨rfl, _, rfl, rfl, rfl, rfl, rfl⟩ (.cons ⟨rfl, _, rfl, rfl, rfl, rfl, rfl⟩ .nil)

/-- The scrambled document is read as the snapshot, and replaced by the one written for it. -/
theorem snapshot_readBack_kiosks :
    Json.read? scrambledKiosks.compact = some scrambledKiosks ∧
    kiosks.SpelledBy scrambledKiosks ∧
    Snapshot.ofText? scrambledKiosks.compact = some kiosks ∧
    kiosks.toJson.indented ∈ kiosks.documents ∧
    Snapshot.ofText? kiosks.toJson.indented = Snapshot.ofText? scrambledKiosks.compact := by
  have hread : Json.read? scrambledKiosks.compact = some scrambledKiosks :=
    Json.read?_compact readable_scrambledKiosks
  have hmem : kiosks.toJson.indented ∈ kiosks.documents := by simp [Snapshot.documents]
  have hscrambled : Snapshot.ofText? scrambledKiosks.compact = some kiosks :=
    (snapshot_readBack kiosks).2.2.1 _ _ hread spelledBy_scrambledKiosks
  exact ⟨hread, spelledBy_scrambledKiosks, hscrambled, hmem,
    (snapshot_readBack kiosks).2.2.2 _ hscrambled _ hmem⟩

end AbiGate
