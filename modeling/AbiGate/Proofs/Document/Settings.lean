/-
# Settings in a file, one by one

A document of settings is a record of four records. Each of these can be left out, and so can each
of their fields. A setting is told from its own field alone: what is given has to be of the
setting's type, and what is not given has its default.

What is of which type is said here by what spells it, apart from the reader: a text is a string, a
word is a string or a table that has the word and nothing else, and a record is a table, or an
array of its fields in their order. A moment is carried through as a table whose only field no
record knows, so it can stand for a record without fields.

Key definitions: `Setting`, `Setting.Value`, `Setting.of`, `Setting.Spells`, `Setting.GivenIn`,
`Toml.IsRecord`, `Toml.fieldIn?`, `Toml.Malformed`.
Key theorems: `Toml.record?_eq_some_iff`, `Settings.ofDocument?_eq_some_iff`,
`Settings.ofDocument?_eq_none_iff`.
-/
import AbiGate.Document.Settings
import AbiGate.Document.Toml
import Mathlib.Tactic.ByContra
import Mathlib.Tactic.Choose
import Mathlib.Tactic.Simproc.ExistsAndEq

namespace AbiGate

/-! ### The settings -/

/-- A record of settings in a document. -/
inductive Group where
  | extraction
  | policy
  | baseline
  | tools
  deriving DecidableEq, Repr

/-- A setting. -/
inductive Setting where
  | contractsDir
  | sourceExtension
  | marker
  | keying
  | removals
  | remote
  | reference
  | strategy
  | git
  | forge
  deriving DecidableEq, Repr

namespace Group

/-- The name of the record. -/
def name : Group → String
  | extraction => "extract"
  | policy => "diff"
  | baseline => "baseline"
  | tools => "toolchain"

/-- The names of the records, in their order. -/
def names : List String :=
  [extraction, policy, baseline, tools].map name

end Group

namespace Setting

/-- The record that a setting is in. -/
def group : Setting → Group
  | contractsDir | sourceExtension | marker | keying => .extraction
  | removals => .policy
  | remote | reference | strategy => .baseline
  | git | forge => .tools

/-- The name of the setting's field. -/
def name : Setting → String
  | contractsDir => "contracts_dir"
  | sourceExtension => "source_extension"
  | marker => "version_prefix"
  | keying => "keying"
  | removals => "removal"
  | remote => "remote"
  | reference => "reference"
  | strategy => "strategy"
  | git => "git"
  | forge => "forge"

end Setting

/-- The settings in a record, in their order. -/
def Group.settings : Group → List Setting
  | extraction => [.contractsDir, .sourceExtension, .marker, .keying]
  | policy => [.removals]
  | baseline => [.remote, .reference, .strategy]
  | tools => [.git, .forge]

namespace Setting

theorem mem_settings_iff {x : Setting} {g : Group} : x ∈ g.settings ↔ x.group = g := by
  cases x <;> cases g <;> decide

/-- What a setting can be. -/
abbrev Value : Setting → Type
  | contractsDir => Path
  | keying => Keying
  | removals => Removals
  | strategy => Strategy
  | sourceExtension | marker | remote | reference | git | forge => String

/-- What a setting is. -/
def of : (x : Setting) → Settings → x.Value
  | contractsDir, s => s.extraction.contractsDir
  | sourceExtension, s => s.extraction.sourceExtension
  | marker, s => s.extraction.marker
  | keying, s => s.extraction.keying
  | removals, s => s.policy.removals
  | remote, s => s.baseline.remote
  | reference, s => s.baseline.reference
  | strategy, s => s.baseline.strategy
  | git, s => s.tools.git
  | forge, s => s.tools.forge

/-- What a setting is that nobody gives. -/
def default (x : Setting) : x.Value :=
  x.of {}

/-- The settings with these values. -/
def all (value : (x : Setting) → x.Value) : Settings where
  extraction := {
    contractsDir := value contractsDir
    sourceExtension := value sourceExtension
    marker := value marker
    keying := value keying }
  policy := { removals := value removals }
  baseline := {
    remote := value remote
    reference := value reference
    strategy := value strategy }
  tools := {
    git := value git
    forge := value forge }

theorem of_all (value : (x : Setting) → x.Value) (x : Setting) : x.of (all value) = value x := by
  cases x <;> rfl

end Setting

/-! ### Fields of a document -/

namespace Toml

/-- What can stand for a record. -/
inductive IsRecord : Toml → Prop
  | table (members : List (String × Toml)) : IsRecord (.table members)
  | array (items : List Toml) : IsRecord (.array items)
  | moment (spelling : String) : IsRecord (.moment spelling)

/-- What a record gives for a field: a table by its name, an array by its place among the fields. -/
def fieldIn? (names : List String) (name : String) : Toml → Option Toml
  | .table members => memberIn? name members
  | .array items => items[names.idxOf name]?
  | _ => none

theorem inOrder_eq_map : ∀ {names : List String}, names.Nodup → ∀ items : List Toml,
    Notation.inOrder names items = names.map fun name => items[names.idxOf name]?
  | [], _, items => by cases items <;> rfl
  | name :: names, hnodup, [] => by
    have hrest := inOrder_eq_map (List.nodup_cons.1 hnodup).2 []
    simp_all [Notation.inOrder]
  | name :: names, hnodup, item :: items => by
    obtain ⟨hname, hnames⟩ := List.nodup_cons.1 hnodup
    have hbehind : ∀ other ∈ names, (item :: items)[(name :: names).idxOf other]? =
        items[names.idxOf other]? := by
      intro other hother
      have hne : name ≠ other := fun heq => hname (heq ▸ hother)
      rw [List.idxOf_cons, beq_false_of_ne hne]
      rfl
    rw [Notation.inOrder, inOrder_eq_map hnames items, List.map_cons, List.idxOf_cons_self,
      List.getElem?_cons_zero, List.map_congr_left hbehind]

/-- The fields of a record are told by their names. -/
theorem record?_eq_some_iff {names : List String} (h : names.Nodup) {d : Toml}
    {fields : List (Option Toml)} :
    documents.record? names d = some fields ↔
      d.IsRecord ∧ fields = names.map fun name => d.fieldIn? names name := by
  cases d with
  | table members =>
    simp only [documents, Option.some_inj, IsRecord.table, true_and]
    exact eq_comm
  | array items =>
    simp only [documents, Option.some_inj, IsRecord.array, true_and, inOrder_eq_map h]
    exact eq_comm
  | moment spelling =>
    simp only [documents, Option.some_inj, IsRecord.moment, true_and, inOrder_eq_map h]
    simp [fieldIn?, eq_comm]
  | string | bare =>
    simp only [documents, reduceCtorEq, false_iff]
    rintro ⟨⟨⟩, -⟩

/-- What is read from the fields of a record is read from what it gives for each name. -/
theorem record?_bind_eq_some_iff {α : Type} {names : List String} (h : names.Nodup) {d : Toml}
    {f : List (Option Toml) → Option α} {a : α} :
    (documents.record? names d).bind f = some a ↔
      d.IsRecord ∧ f (names.map fun name => d.fieldIn? names name) = some a := by
  rw [Option.bind_eq_some_iff]
  simp only [record?_eq_some_iff h, and_assoc, exists_and_left, exists_eq_left]

/-- What spells a word: the word itself, or a table that has it alone, with nothing in it. -/
inductive SpellsWord : Toml → String → Prop
  | text (word : String) : SpellsWord (.string word) word
  | array (word : String) : SpellsWord (.table [(word, .array [])]) word
  | table (word : String) : SpellsWord (.table [(word, .table [])]) word

theorem word?_eq_some_iff {d : Toml} {word : String} :
    documents.word? d = some word ↔ d.SpellsWord word := by
  constructor
  · intro h
    simp only [documents] at h
    split at h
    · cases h
      exact .text word
    · next value =>
      split at h
      · next hvoid =>
        cases h
        unfold isVoid at hvoid
        split at hvoid
        · exact .array word
        · exact .table word
        · cases hvoid
      · cases h
    · cases h
  · rintro ⟨⟩ <;> rfl

theorem choice?_eq_some_iff {α : Type} {ofWord? : String → Option α} {word : α → String}
    (h : ∀ {s : String} {a : α}, ofWord? s = some a ↔ s = word a) {d : Toml} {a : α} :
    documents.choice? ofWord? d = some a ↔ d.SpellsWord (word a) := by
  simp [Notation.choice?, Option.bind_eq_some_iff, word?_eq_some_iff, h]

theorem text?_eq_some_iff {d : Toml} {text : String} :
    documents.text? d = some text ↔ d = .string text := by
  cases d <;> simp [documents]

end Toml

namespace Setting

/-- What spells a value of a setting. -/
def Spells : (x : Setting) → Toml → x.Value → Prop
  | contractsDir, d, path => d = .string path.text
  | keying, d, choice => d.SpellsWord choice.word
  | removals, d, choice => d.SpellsWord choice.word
  | strategy, d, choice => d.SpellsWord choice.word
  | sourceExtension, d, text | marker, d, text | remote, d, text | reference, d, text
  | git, d, text | forge, d, text => d = .string text

/-- The value of a setting that is read from what spells it. -/
def read? : (x : Setting) → Toml → Option x.Value
  | contractsDir => fun d => (Toml.documents.text? d).map .mk
  | keying => Toml.documents.choice? Keying.ofWord?
  | removals => Toml.documents.choice? Removals.ofWord?
  | strategy => Toml.documents.choice? Strategy.ofWord?
  | sourceExtension | marker | remote | reference | git | forge => Toml.documents.text?

theorem read?_eq_some_iff {x : Setting} {d : Toml} {value : x.Value} :
    x.read? d = some value ↔ x.Spells d value := by
  cases x with
  | contractsDir =>
    obtain ⟨text⟩ := value
    simp [read?, Spells, Toml.text?_eq_some_iff]
  | keying => exact Toml.choice?_eq_some_iff Keying.ofWord?_eq_some_iff
  | removals => exact Toml.choice?_eq_some_iff Removals.ofWord?_eq_some_iff
  | strategy => exact Toml.choice?_eq_some_iff Strategy.ofWord?_eq_some_iff
  | sourceExtension | marker | remote | reference | git | forge =>
    simp only [read?, Spells, Toml.text?_eq_some_iff]

/-- The setting is what a field gives for it, or else its default. -/
def ReadFrom (x : Setting) (field : Option Toml) (value : x.Value) : Prop :=
  Notation.field x.default x.read? field = some value

end Setting

/-! ### Records of settings -/

namespace Group

variable {α : Type} {g : Group} {s : Settings} {d : Toml} {given : Option Toml}

theorem forall_iff {p : Group → Prop} :
    (∀ g, p g) ↔ p extraction ∧ p policy ∧ p baseline ∧ p tools :=
  ⟨fun h => ⟨h _, h _, h _, h _⟩, fun ⟨he, hp, hb, ht⟩ g => by cases g <;> assumption⟩

/-- The names of the fields, in their order. -/
def fields (g : Group) : List String :=
  g.settings.map Setting.name

/-- A record that can be left out has the settings as they are. -/
def ReadFrom (g : Group) (given : Option Toml) (s : Settings) : Prop :=
  (∀ d ∈ given, d.IsRecord) ∧
    ∀ x ∈ g.settings, x.ReadFrom (given.bind (Toml.fieldIn? g.fields x.name)) (x.of s)

theorem record?_bind_eq_some_iff {f : List (Option Toml) → Option α} {a : α} :
    (Toml.documents.record? g.fields d).bind f = some a ↔
      d.IsRecord ∧ f (g.settings.map fun x => d.fieldIn? g.fields x.name) = some a := by
  have hnames : g.fields.Nodup := by cases g <;> decide +kernel
  rw [Toml.record?_bind_eq_some_iff hnames, fields, List.map_map]
  rfl

/-- A record that is left out has all the defaults. -/
theorem field_eq_some_iff {read : Toml → Option α} {default a : α}
    (hdefault : default = a ↔ ∀ x ∈ g.settings, x.default = x.of s)
    (hread : ∀ d, read d = some a ↔ g.ReadFrom (some d) s) :
    Notation.field default read given = some a ↔ g.ReadFrom given s := by
  cases given with
  | none => simp [Notation.field, hdefault, ReadFrom, Setting.ReadFrom]
  | some d => exact hread d

end Group

section

variable {d : Toml} {given : Option Toml} {s : Settings}

open Notation (field)

theorem ExtractionSettings.field_eq_some_iff :
    field {} (ofDocument? Toml.documents) given = some s.extraction ↔
      Group.extraction.ReadFrom given s := by
  obtain ⟨⟨dir, extension, marker, keying⟩, policy, baseline, tools⟩ := s
  refine Group.field_eq_some_iff ?_ fun d =>
    (Group.record?_bind_eq_some_iff (g := .extraction)).trans ?_
  all_goals simp [Group.ReadFrom, Group.settings, Setting.ReadFrom, Setting.name, Setting.of,
    Setting.default, Setting.read?, Option.bind_eq_some_iff]

theorem Policy.field_eq_some_iff :
    field {} (ofDocument? Toml.documents) given = some s.policy ↔
      Group.policy.ReadFrom given s := by
  obtain ⟨extraction, ⟨removals⟩, baseline, tools⟩ := s
  refine Group.field_eq_some_iff ?_ fun d =>
    (Group.record?_bind_eq_some_iff (g := .policy)).trans ?_
  all_goals simp [Group.ReadFrom, Group.settings, Setting.ReadFrom, Setting.name, Setting.of,
    Setting.default, Setting.read?, Option.bind_eq_some_iff]

theorem BaselineSettings.field_eq_some_iff :
    field {} (ofDocument? Toml.documents) given = some s.baseline ↔
      Group.baseline.ReadFrom given s := by
  obtain ⟨extraction, policy, ⟨remote, reference, strategy⟩, tools⟩ := s
  refine Group.field_eq_some_iff ?_ fun d =>
    (Group.record?_bind_eq_some_iff (g := .baseline)).trans ?_
  all_goals simp [Group.ReadFrom, Group.settings, Setting.ReadFrom, Setting.name, Setting.of,
    Setting.default, Setting.read?, Option.bind_eq_some_iff]

theorem ToolSettings.field_eq_some_iff :
    field {} (ofDocument? Toml.documents) given = some s.tools ↔ Group.tools.ReadFrom given s := by
  obtain ⟨extraction, policy, baseline, ⟨git, forge⟩⟩ := s
  refine Group.field_eq_some_iff ?_ fun d =>
    (Group.record?_bind_eq_some_iff (g := .tools)).trans ?_
  all_goals simp [Group.ReadFrom, Group.settings, Setting.ReadFrom, Setting.name, Setting.of,
    Setting.default, Setting.read?, Option.bind_eq_some_iff]

theorem Settings.ofDocument?_eq_some_iff_readFrom :
    ofDocument? Toml.documents d = some s ↔
      d.IsRecord ∧ ∀ g : Group, g.ReadFrom (d.fieldIn? Group.names g.name) s := by
  have hnames : Group.names.Nodup := by decide +kernel
  refine (Toml.record?_bind_eq_some_iff hnames).trans (and_congr_right fun _ => ?_)
  rw [Group.forall_iff, ← ExtractionSettings.field_eq_some_iff, ← Policy.field_eq_some_iff,
    ← BaselineSettings.field_eq_some_iff, ← ToolSettings.field_eq_some_iff]
  obtain ⟨extraction, policy, baseline, tools⟩ := s
  simp [Group.names, Group.name, Option.bind_eq_some_iff]

/-- What a document gives for a setting: a field of a field of the document. -/
def Setting.given? (x : Setting) (d : Toml) : Option Toml :=
  (d.fieldIn? Group.names x.group.name).bind (Toml.fieldIn? x.group.fields x.name)

/-- A document gives a setting a value. -/
def Setting.GivenIn (x : Setting) (d : Toml) (value : x.Value) : Prop :=
  ∃ t, x.given? d = some t ∧ x.Spells t value

/-- A document gives something that is not of its type: what should be a record is none, or what is
given for a setting spells none of its values. -/
inductive Toml.Malformed (d : Toml) : Prop
  | record (g : Group) (t : Toml) (hgiven : d.fieldIn? Group.names g.name = some t)
      (h : ¬t.IsRecord)
  | setting (x : Setting) (t : Toml) (hgiven : x.given? d = some t) (h : ∀ value, ¬x.Spells t value)

theorem Setting.readFrom_given?_iff {x : Setting} {value : x.Value} :
    x.ReadFrom (x.given? d) value ↔
      x.GivenIn d value ∨ x.given? d = none ∧ value = x.default := by
  rw [ReadFrom, GivenIn]
  cases x.given? d <;> simp [field, read?_eq_some_iff, eq_comm]

/-- **Each setting is read from its own field.** -/
theorem Settings.ofDocument?_eq_some_iff :
    ofDocument? Toml.documents d = some s ↔
      d.IsRecord ∧ (∀ g t, d.fieldIn? Group.names (Group.name g) = some t → t.IsRecord) ∧
        ∀ x : Setting, x.GivenIn d (x.of s) ∨ x.given? d = none ∧ x.of s = x.default := by
  rw [ofDocument?_eq_some_iff_readFrom]
  simp only [Group.ReadFrom, forall_and, Setting.mem_settings_iff, ← Setting.readFrom_given?_iff]
  refine and_congr_right fun _ => and_congr_right fun _ => ⟨fun h x => h _ x rfl, ?_⟩
  rintro h _ x rfl
  exact h x

/-- **A document is refused exactly if something in it is not of its type.** -/
theorem Settings.ofDocument?_eq_none_iff (hrecord : d.IsRecord) :
    ofDocument? Toml.documents d = none ↔ d.Malformed := by
  constructor
  · intro hnone
    -- if nothing is out of place, every setting has a value, and these are what would be read
    by_contra hwell
    have hvalue (x : Setting) :
        ∃ value, x.GivenIn d value ∨ x.given? d = none ∧ value = x.default := by
      cases hgiven : x.given? d with
      | none => exact ⟨x.default, .inr ⟨rfl, rfl⟩⟩
      | some t =>
        by_contra hno
        exact hwell (.setting x t hgiven fun value hspells =>
          hno ⟨value, .inl ⟨t, hgiven, hspells⟩⟩)
    choose value hvalue using hvalue
    have hread : ofDocument? Toml.documents d = some (Setting.all value) := by
      refine ofDocument?_eq_some_iff.2 ⟨hrecord, fun g t hgiven => ?_, fun x => ?_⟩
      · by_contra ht
        exact hwell (.record g t hgiven ht)
      · rw [Setting.of_all]
        exact hvalue x
    rw [hnone] at hread
    cases hread
  · intro hmalformed
    cases hread : ofDocument? Toml.documents d with
    | none => rfl
    | some s =>
      obtain ⟨-, hrecords, hsettings⟩ := ofDocument?_eq_some_iff.1 hread
      cases hmalformed with
      | record g t hgiven h => exact absurd (hrecords g t hgiven) h
      | setting x t hgiven h =>
        rcases hsettings x with ⟨t', hgiven', hspells⟩ | ⟨hnot, -⟩
        · obtain rfl := Option.some.inj (hgiven.symm.trans hgiven')
          exact absurd hspells (h _)
        · rw [hgiven] at hnot
          cases hnot

end

end AbiGate
