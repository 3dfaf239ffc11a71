/-
# What a command line says

A command line that can be taken is a row of items. Each is given once: an option with its value,
behind an equals sign or as the next argument, a flag without one. What is asked for is told from
these items alone, whatever their order, and which items there are is told from the arguments that
name them.

Key definitions: `Arguments.Spelled`, `Arguments.ofGiven`, `Arguments.Gives`,
`Arguments.SaidBy`.
Key theorems: `Form.text_of`, `Taken.leads_of_takeAll`, `Taken.ofGiven_of_foldlM`,
`Spelled.gives_iff`, `Arguments.saidBy_of_read`.
-/
import AbiGate.Command.Arguments
import AbiGate.Proofs.SortedMap
import AbiGate.Proofs.Text.Cuts
import Mathlib.Data.List.Infix

namespace AbiGate.Arguments

/-- The long name of an item. -/
def Item.name : Item → String
  | repo => "repo"
  | config => "config"
  | baseline => "baseline"
  | remote => "remote"
  | strategy => "strategy"
  | format => "format"
  | allowRemovals => "allow-removals"
  | verbose => "verbose"
  | help => "help"
  | version => "version"

theorem Item.ofName?_eq_some_iff {name : String} {item : Item} :
    ofName? name = some item ↔ name = item.name := by
  constructor
  · intro h
    unfold ofName? at h
    split at h <;> cases h <;> rfl
  · rintro rfl
    cases item <;> rfl

theorem Item.name_inj {item other : Item} : item.name = other.name ↔ item = other := by
  refine ⟨fun h => ?_, congrArg name⟩
  have hfound := ofName?_eq_some_iff.2 h
  exact Option.some.inj (hfound.symm.trans (ofName?_eq_some_iff.2 rfl)) |>.symm

theorem Item.ofLetter?_ne_allowRemovals (letter : Char) :
    ofLetter? letter ≠ some allowRemovals := by
  intro h
  unfold ofLetter? at h
  split at h <;> cases h

/-- An item that is given, with its value if it is an option. -/
abbrev Given := Item × Option String

/-! ### Arguments by their forms -/

namespace Form

/-- The argument that has a form. -/
def text : Form → String
  | divider => "--"
  | long name none => "--" ++ name
  | long name (some value) => "--" ++ name ++ "=" ++ value
  | letters cs => String.ofList ('-' :: cs)
  | plain text => text

/-- An argument is told from its form. -/
theorem text_of (argument : String) : (of argument).text = argument := by
  apply String.toList_inj.1
  unfold of
  split
  · next h => exact h.symm
  · next cs _ h =>
    have hcut := List.takeWhile_append_dropWhile (p := (· ≠ '=')) (l := cs)
    have hfirst : ∀ c ∈ (cs.dropWhile (· ≠ '=')).head?, c = '=' := Text.head?_dropWhile_ne
    split
    · next c value hvalue =>
      rw [hvalue] at hcut hfirst
      rw [hfirst c rfl] at hcut
      rw [h]
      simpa [text] using hcut
    · next hnone =>
      rw [hnone, List.append_nil] at hcut
      rw [hcut, h]
      simp [text]
  · rfl
  · next h => simp [text, h]
  · rfl

theorem of_text_long (item : Item) (value : Option String) :
    of (long item.name value).text = long item.name value := by
  cases value with
  | none => cases item <;> rfl
  | some value =>
    have hname : '=' ∉ item.name.toList := by cases item <;> decide
    have htake : (item.name.toList ++ '=' :: value.toList).takeWhile (· ≠ '=') =
        item.name.toList := Text.takeWhile_ne_append hname (by simp)
    have hcut := List.takeWhile_append_dropWhile (p := (· ≠ '='))
      (l := item.name.toList ++ '=' :: value.toList)
    rw [htake, List.append_cancel_left_eq] at hcut
    simp only [ne_eq, decide_not] at htake hcut
    simp [text, of, htake, hcut]

theorem of_ne_letters_nil (argument : String) : of argument ≠ letters [] := by
  intro h
  have htext := text_of argument
  rw [h] at htext
  rw [← htext] at h
  exact absurd h (by decide)

end Form

/-! ### The items of a command line -/

/-- Arguments of these forms give these items, in this order. -/
inductive Spelled : List Form → List Given → Prop where
  | done : Spelled [] []
  | divider : Spelled [.divider] []
  | joined {item : Item} {value : String} {forms : List Form} {given : List Given}
      (h : item.takesValue = true) (hrest : Spelled forms given) :
      Spelled (.long item.name (some value) :: forms) ((item, some value) :: given)
  | apart {item : Item} {value : String} {forms : List Form} {given : List Given}
      (h : item.takesValue = true) (hrest : Spelled forms given) :
      Spelled (.long item.name none :: .plain value :: forms) ((item, some value) :: given)
  | flag {item : Item} {forms : List Form} {given : List Given} (h : item.takesValue = false)
      (hrest : Spelled forms given) :
      Spelled (.long item.name none :: forms) ((item, none) :: given)
  | letters {cs : List Char} {items : List Item} {forms : List Form} {given : List Given}
      (h : cs.map Item.ofLetter? = items.map some) (hrest : Spelled forms given) :
      Spelled (.letters cs :: forms) (items.map (·, none) ++ given)

/-- Two steps succeed one after the other. -/
theorem exists_of_bind_eq_ok {ε α β : Type} {x : Except ε α} {f : α → Except ε β} {b : β}
    (h : x >>= f = .ok b) : ∃ a, x = .ok a ∧ f a = .ok b := by
  cases x with
  | error e => cases h
  | ok a => exact ⟨a, rfl, h⟩

namespace Taken

variable {t t' : Taken} {item : Item} {change : Arguments → Except UsageError Arguments}

theorem of_take_eq_ok (h : t.take item change = .ok t') :
    item ∉ t.items ∧ ∃ a, change t.arguments = .ok a ∧
      t' = { arguments := a, items := item :: t.items } := by
  unfold take at h
  split at h
  · cases h
  · next hnew =>
    obtain ⟨a, hchange, hrest⟩ := exists_of_bind_eq_ok h
    cases hrest
    exact ⟨by simpa using hnew, a, hchange, rfl⟩

/-- What an item that is given does to the arguments. -/
def effect : Given → Arguments → Except UsageError Arguments
  | (item, some value), a => a.assign item value
  | (item, none), a => a.raise item

/-- Takes an item that is given. -/
def takeGiven (t : Taken) (g : Given) : Except UsageError Taken :=
  t.take g.1 (effect g)

theorem pending_of_takeGiven {g : Given} (h : t.takeGiven g = .ok t') : t'.pending = none := by
  obtain ⟨-, a, -, rfl⟩ := of_take_eq_ok h
  rfl

/-- The forms of the arguments that an option which is pending has had. -/
def pendingForms (t : Taken) : List Form :=
  match t.pending with
  | none => []
  | some (item, none) => [.long item.name none]
  | some (item, some value) => [.long item.name none, .plain value]

/-- Only an option waits to be taken. -/
def Waits (t : Taken) : Prop :=
  ∀ item value, t.pending = some (item, value) → item.takesValue = true

theorem waits_of_pending_eq_none (h : t.pending = none) : t.Waits := by
  intro item value hpending
  rw [h] at hpending
  cases hpending

/-- Arguments of these forms lead from what has been taken to something else, by the items that
they give. -/
def Leads (t : Taken) (forms : List Form) (t' : Taken) : Prop :=
  ∃ given, Spelled (t.pendingForms ++ forms) given ∧
    given.foldlM takeGiven { t with pending := none } = .ok t'

theorem leads_iff_of_pending_eq_none {forms : List Form} (h : t.pending = none) :
    t.Leads forms t' ↔ ∃ given, Spelled forms given ∧ given.foldlM takeGiven t = .ok t' := by
  obtain ⟨arguments, items, pending⟩ := t
  obtain rfl : pending = none := h
  rfl

theorem settle_of_pending_eq_none (h : t.pending = none) : t.settle = .ok t := by
  rw [settle, h]

/-- An option that is pending is taken before what follows. -/
theorem of_settle_eq_ok {s : Taken} (hwaits : t.Waits) (h : t.settle = .ok s) :
    s.pending = none ∧ ∀ forms t', s.Leads forms t' → t.Leads forms t' := by
  obtain ⟨arguments, items, pending⟩ := t
  rcases pending with _ | ⟨item, _ | value⟩
  · cases h
    exact ⟨rfl, fun _ _ => id⟩
  · cases h
  · have htake : takeGiven { arguments, items } (item, some value) = .ok s := h
    have hpending := pending_of_takeGiven htake
    refine ⟨hpending, fun forms t' hleads => ?_⟩
    obtain ⟨given, hspelled, hfold⟩ := (leads_iff_of_pending_eq_none hpending).1 hleads
    refine ⟨(item, some value) :: given, .apart (hwaits item _ rfl) hspelled, ?_⟩
    rw [List.foldlM_cons, htake]
    exact hfold

/-- After an argument of this form has been taken, what follows leads on. -/
def Steps (t : Taken) (form : Form) (s : Taken) : Prop :=
  s.Waits ∧ ∀ forms t', s.Leads forms t' → t.Leads (form :: forms) t'

/-- An argument gives an item, behind an option that is pending. -/
theorem steps_of_takeGiven {between s : Taken} {form : Form} {g : Given} (hwaits : t.Waits)
    (hsettle : t.settle = .ok between) (htake : between.takeGiven g = .ok s)
    (hspelled : ∀ {forms given}, Spelled forms given → Spelled (form :: forms) (g :: given)) :
    t.Steps form s := by
  obtain ⟨hpending, hleads⟩ := of_settle_eq_ok hwaits hsettle
  have hpending' := pending_of_takeGiven htake
  refine ⟨waits_of_pending_eq_none hpending', fun forms t' hrest => hleads _ _ ?_⟩
  obtain ⟨given, hgiven, hfold⟩ := (leads_iff_of_pending_eq_none hpending').1 hrest
  refine (leads_iff_of_pending_eq_none hpending).2 ⟨g :: given, hspelled hgiven, ?_⟩
  rw [List.foldlM_cons, htake]
  exact hfold

theorem steps_of_takeLong {s : Taken} {name : String} {value : Option String} (hwaits : t.Waits)
    (h : t.takeLong name value = .ok s) : t.Steps (.long name value) s := by
  unfold takeLong at h
  cases hname : Item.ofName? name with
  | none => simp [hname] at h
  | some item =>
    obtain rfl := Item.ofName?_eq_some_iff.1 hname
    simp only [hname] at h
    cases htakes : item.takesValue <;> cases value <;> simp only [htakes] at h
    case false.none =>
      obtain ⟨between, hsettle, htake⟩ := exists_of_bind_eq_ok h
      exact steps_of_takeGiven (g := (item, none)) hwaits hsettle htake (.flag htakes)
    case false.some => cases h
    case true.none =>
      -- the option waits for its value, and its name is the last argument that it has had
      obtain ⟨⟨arguments, items, pending⟩, hsettle, hset⟩ := exists_of_bind_eq_ok h
      obtain ⟨hpending, hleads⟩ := of_settle_eq_ok hwaits hsettle
      obtain rfl : pending = none := hpending
      cases hset
      refine ⟨fun item value heq => ?_, fun forms t' hrest => hleads _ _ hrest⟩
      cases heq
      exact htakes
    case true.some value =>
      obtain ⟨between, hsettle, htake⟩ := exists_of_bind_eq_ok h
      exact steps_of_takeGiven (g := (item, some value)) hwaits hsettle htake (.joined htakes)

/-- Letters are taken as the flags that they are. -/
theorem of_takeLetters_eq_ok : ∀ {letters : List Char} {t s : Taken}, t.pending = none →
    t.takeLetters letters = .ok s → s.pending = none ∧ ∃ items : List Item,
      letters.map Item.ofLetter? = items.map some ∧
      (items.map (·, none)).foldlM Taken.takeGiven t = .ok s
  | [], t, s, hpending, h => by
    cases h
    exact ⟨hpending, [], rfl, rfl⟩
  | letter :: letters, t, s, hpending, h => by
    rw [takeLetters] at h
    cases hletter : Item.ofLetter? letter with
    | none => simp [hletter] at h
    | some item =>
      simp only [hletter] at h
      obtain ⟨between, hflag, hrest⟩ := exists_of_bind_eq_ok h
      rw [takeFlag, settle_of_pending_eq_none hpending] at hflag
      have htaken : t.takeGiven (item, none) = .ok between := hflag
      obtain ⟨hpending', items, hitems, hfold⟩ :=
        of_takeLetters_eq_ok (pending_of_takeGiven htaken) hrest
      refine ⟨hpending', item :: items, by simp [hletter, hitems], ?_⟩
      rw [List.map_cons, List.foldlM_cons, htaken]
      exact hfold

/-- What is pending is taken with the first letter, and then it is as if it had been before. -/
theorem exists_settle_of_takeLetters {s : Taken} {letters : List Char} (hwaits : t.Waits)
    (hne : letters ≠ []) (h : t.takeLetters letters = .ok s) :
    ∃ between, t.settle = .ok between ∧ between.takeLetters letters = .ok s := by
  obtain ⟨letter, rest, rfl⟩ := List.exists_cons_of_ne_nil hne
  rw [takeLetters] at h
  cases hletter : Item.ofLetter? letter with
  | none => simp [hletter] at h
  | some item =>
    simp only [hletter] at h
    obtain ⟨after, hflag, hrest⟩ := exists_of_bind_eq_ok h
    obtain ⟨between, hsettle, htake⟩ := exists_of_bind_eq_ok hflag
    have hagain : between.takeFlag item = .ok after := by
      rw [takeFlag, settle_of_pending_eq_none (of_settle_eq_ok hwaits hsettle).1]
      exact htake
    refine ⟨between, hsettle, ?_⟩
    rw [takeLetters, hletter]
    simp only [hagain]
    exact hrest

theorem steps_of_takeLetters {s : Taken} {letters : List Char} (hwaits : t.Waits)
    (hne : letters ≠ []) (h : t.takeLetters letters = .ok s) : t.Steps (.letters letters) s := by
  obtain ⟨between, hsettle, hletters⟩ := exists_settle_of_takeLetters hwaits hne h
  obtain ⟨hpending, hleads⟩ := of_settle_eq_ok hwaits hsettle
  obtain ⟨hpending', items, hitems, hfold⟩ := of_takeLetters_eq_ok hpending hletters
  refine ⟨waits_of_pending_eq_none hpending', fun forms t' hrest => hleads _ _ ?_⟩
  obtain ⟨given, hspelled, hgiven⟩ := (leads_iff_of_pending_eq_none hpending').1 hrest
  refine (leads_iff_of_pending_eq_none hpending).2
    ⟨items.map (·, none) ++ given, .letters hitems hspelled, ?_⟩
  rw [List.foldlM_append, hfold]
  exact hgiven

theorem steps_of_takePlain {s : Taken} {text : String} (hwaits : t.Waits)
    (h : t.takePlain text = .ok s) : t.Steps (.plain text) s := by
  obtain ⟨arguments, items, pending⟩ := t
  rcases pending with _ | ⟨item, _ | value⟩
  · cases h
  · cases h
    refine ⟨fun item value heq => ?_, fun forms t' hrest => hrest⟩
    cases heq
    exact hwaits item none rfl
  · cases h

/-- **Arguments that can be taken give items,** and what comes of them is what comes of taking the
items one after the other. -/
theorem leads_of_takeAll : ∀ {arguments : List String} {t : Taken}, t.Waits →
    t.takeAll arguments = .ok t' → t.Leads (arguments.map Form.of) t'
  | [], t, hwaits, h => by
    obtain ⟨hpending, hleads⟩ := of_settle_eq_ok hwaits h
    exact hleads _ _ ((leads_iff_of_pending_eq_none hpending).2 ⟨[], .done, rfl⟩)
  | argument :: rest, t, hwaits, h => by
    rw [takeAll] at h
    rw [List.map_cons]
    cases hform : Form.of argument with
    | divider =>
      simp only [hform] at h
      split at h
      · next hrest =>
        obtain rfl := List.isEmpty_iff.1 hrest
        obtain ⟨hpending, hleads⟩ := of_settle_eq_ok hwaits h
        exact hleads _ _ ((leads_iff_of_pending_eq_none hpending).2 ⟨[], .divider, rfl⟩)
      · cases h
    | long name value =>
      simp only [hform] at h
      obtain ⟨s, hlong, hrest⟩ := exists_of_bind_eq_ok h
      obtain ⟨hwaits', hleads⟩ := steps_of_takeLong hwaits hlong
      exact hleads _ _ (leads_of_takeAll hwaits' hrest)
    | letters letters =>
      simp only [hform] at h
      obtain ⟨s, hletters, hrest⟩ := exists_of_bind_eq_ok h
      have hne : letters ≠ [] := by
        rintro rfl
        exact Form.of_ne_letters_nil argument hform
      obtain ⟨hwaits', hleads⟩ := steps_of_takeLetters hwaits hne hletters
      exact hleads _ _ (leads_of_takeAll hwaits' hrest)
    | plain text =>
      simp only [hform] at h
      obtain ⟨s, hplain, hrest⟩ := exists_of_bind_eq_ok h
      obtain ⟨hwaits', hleads⟩ := steps_of_takePlain hwaits hplain
      exact hleads _ _ (leads_of_takeAll hwaits' hrest)

end Taken

/-! ### What the items ask for -/

/-- The value of the first of these items that is a given one. -/
def value? (given : List Given) (item : Item) : Option String :=
  (given.find? (·.1 = item)).bind (·.2)

theorem value?_concat_of_ne {given : List Given} {item other : Item} {value : Option String}
    (h : other ≠ item) : value? (given ++ [(item, value)]) other = value? given other := by
  simp [value?, List.find?_append, h.symm]

theorem value?_concat_self {given : List Given} {item : Item} {value : Option String}
    (h : item ∉ given.map (·.1)) : value? (given ++ [(item, value)]) item = value := by
  have hnone : given.find? (·.1 = item) = none := by
    refine List.find?_eq_none.2 fun g hg heq => h ?_
    exact List.mem_map.2 ⟨g, hg, by simpa using heq⟩
  simp [value?, List.find?_append, hnone]

theorem value?_eq_some_iff {given : List Given} (h : (given.map (·.1)).Nodup) {item : Item}
    {value : String} : value? given item = some value ↔ (item, some value) ∈ given := by
  rw [value?, Option.bind_eq_some_iff]
  constructor
  · rintro ⟨⟨_, _⟩, hfind, rfl⟩
    obtain rfl : _ = item := by simpa using List.find?_some hfind
    exact List.mem_of_find?_eq_some hfind
  · exact fun hmem => ⟨(item, some value), (find?_key_eq_some_iff h).2 hmem, rfl⟩

/-- The arguments that these items ask for. -/
def ofGiven (given : List Given) : Arguments where
  repository := ((value? given .repo).map Path.mk).getD ⟨"."⟩
  config := (value? given .config).map .mk
  baseline := value? given .baseline
  remote := value? given .remote
  strategy := (value? given .strategy).bind Strategy.ofWord?
  allowRemovals := decide (.allowRemovals ∈ given.map (·.1))
  format := ((value? given .format).bind Format.ofWord?).getD .text
  verbose := decide (.verbose ∈ given.map (·.1))

/-- An item changes what it asks for and nothing else. -/
theorem effect_ofGiven {given : List Given} {g : Given} {a : Arguments}
    (hnew : g.1 ∉ given.map (·.1)) (h : Taken.effect g (ofGiven given) = .ok a) :
    a = ofGiven (given ++ [g]) := by
  obtain ⟨item, _ | value⟩ := g
  · cases item <;> cases h <;> simp [ofGiven, value?_concat_of_ne]
  · have hself : value? (given ++ [(item, some value)]) item = some value :=
      value?_concat_self hnew
    cases item with
    | baseline | remote =>
      cases h
      simp [ofGiven, value?_concat_of_ne, hself]
    | allowRemovals | verbose | help | version => cases h
    | repo | config =>
      simp only [Taken.effect, assign] at h
      split at h
      · cases h
      · cases h
        simp [ofGiven, value?_concat_of_ne, hself]
    | strategy | format =>
      simp only [Taken.effect, assign] at h
      split at h
      · next hword =>
        cases h
        simp [ofGiven, value?_concat_of_ne, hself, hword]
      · cases h

namespace Taken

/-- **What is asked for is told from the items.** They are all different. -/
theorem ofGiven_of_foldlM : ∀ {given : List Given} (done : List Given) {t t' : Taken},
    t.arguments = ofGiven done → t.items = (done.map (·.1)).reverse → (done.map (·.1)).Nodup →
    given.foldlM takeGiven t = .ok t' →
    t'.arguments = ofGiven (done ++ given) ∧ ((done ++ given).map (·.1)).Nodup
  | [], done, t, t', harguments, _, hnodup, h => by
    cases h
    rw [List.append_nil]
    exact ⟨harguments, hnodup⟩
  | g :: given, done, t, t', harguments, hitems, hnodup, h => by
    obtain ⟨between, htake, hrest⟩ := exists_of_bind_eq_ok h
    obtain ⟨hnew, a, heffect, rfl⟩ := of_take_eq_ok htake
    rw [harguments] at heffect
    rw [hitems, List.mem_reverse] at hnew
    rw [List.append_cons]
    refine ofGiven_of_foldlM (done ++ [g]) (effect_ofGiven hnew heffect) ?_ ?_ hrest
    · simp [hitems]
    · rw [List.map_append, List.map_singleton, ← List.concat_eq_append]
      exact hnodup.concat hnew

end Taken

/-! ### The arguments that name an item -/

/-- Arguments give an option a value, behind an equals sign or as the next argument. -/
def Gives (arguments : List String) (item : Item) (value : String) : Prop :=
  "--" ++ item.name ++ "=" ++ value ∈ arguments ∨ ["--" ++ item.name, value] <:+: arguments

namespace Spelled

variable {forms : List Form} {given : List Given} {item : Item}

/-- No value stands in front. -/
theorem not_plain_in_front (h : Spelled forms given) (s : String) : ¬[.plain s] <+: forms := by
  cases h <;> simp

theorem mem_iff (h : Spelled forms given) {value : String} :
    (item, some value) ∈ given ↔
      .long item.name (some value) ∈ forms ∨ [.long item.name none, .plain value] <:+: forms := by
  induction h with
  | done => simp
  | divider => simp [List.infix_cons_iff]
  | joined _ _ ih => simp [ih, List.infix_cons_iff, Item.name_inj, or_assoc]
  | apart _ _ ih => simp [ih, List.infix_cons_iff, Item.name_inj, or_left_comm]
  | flag _ hrest ih => simp [ih, List.infix_cons_iff, hrest.not_plain_in_front]
  | letters _ _ ih => simp [ih, List.infix_cons_iff]

/-- What stands behind the name of an option is its value. -/
theorem exists_eq_plain (h : Spelled forms given) (htakes : item.takesValue = true) {form : Form}
    (hbehind : [.long item.name none, form] <:+: forms) : ∃ text, form = .plain text := by
  induction h with
  | done => simp at hbehind
  | divider => simp [List.infix_cons_iff] at hbehind
  | joined _ _ ih => exact ih (by simpa [List.infix_cons_iff] using hbehind)
  | @apart _ value _ _ _ _ ih =>
    rcases List.infix_cons_iff.1 hbehind with hfront | hrest
    · exact ⟨value, by simpa using (List.cons_prefix_cons.1 hfront).2⟩
    · exact ih (by simpa [List.infix_cons_iff] using hrest)
  | @flag other _ _ hflag _ ih =>
    rcases List.infix_cons_iff.1 hbehind with hfront | hrest
    · obtain rfl : item = other := by simpa [Item.name_inj] using (List.cons_prefix_cons.1 hfront).1
      rw [htakes] at hflag
      cases hflag
    · exact ih hrest
  | letters _ _ ih => exact ih (by simpa [List.infix_cons_iff] using hbehind)

/-- A flag that has no letter is named in full. -/
theorem mem_map_iff (h : Spelled forms given) (htakes : item.takesValue = false)
    (hletter : ∀ letter, Item.ofLetter? letter ≠ some item) :
    item ∈ given.map (·.1) ↔ .long item.name none ∈ forms := by
  have hother {other : Item} (h : other.takesValue = true) : item ≠ other := by
    rintro rfl
    rw [htakes] at h
    cases h
  induction h with
  | done => simp
  | divider => simp
  | joined hoption _ ih => simpa [hother hoption] using ih
  | apart hoption _ ih => simpa [hother hoption, Item.name_inj] using ih
  | flag _ _ ih => simp [ih, Item.name_inj]
  | letters hitems _ ih =>
    have hnot : item ∉ _ := fun hmem => by
      have hsome := List.mem_map_of_mem (f := some) hmem
      rw [← hitems] at hsome
      obtain ⟨letter, -, hfound⟩ := List.mem_map.1 hsome
      exact hletter letter hfound
    simpa [hnot] using ih

end Spelled

/-! ### The whole command line -/

/-- What arguments say about the settings is what is asked for. -/
structure SaidBy (arguments : List String) (a : Arguments) : Prop where
  repository : ∀ value, Gives arguments .repo value → a.repository = ⟨value⟩
  usualRepository : (∀ value, ¬Gives arguments .repo value) → a.repository = ⟨"."⟩
  config : ∀ file, a.config = some file ↔ Gives arguments .config file.text
  baseline : ∀ value, a.baseline = some value ↔ Gives arguments .baseline value
  remote : ∀ value, a.remote = some value ↔ Gives arguments .remote value
  strategy : ∀ strategy, a.strategy = some strategy ↔ Gives arguments .strategy strategy.word
  allowRemovals : a.allowRemovals = true ↔ "--allow-removals" ∈ arguments

section

variable {arguments : List String} {given : List Given} {item : Item}

theorem mem_map_of_iff {value : Option String} :
    .long item.name value ∈ arguments.map Form.of ↔
      (Form.long item.name value).text ∈ arguments := by
  constructor
  · intro hform
    obtain ⟨argument, hargument, hof⟩ := List.mem_map.1 hform
    rwa [← hof, Form.text_of]
  · intro hargument
    have hform := List.mem_map_of_mem (f := Form.of) hargument
    rwa [Form.of_text_long] at hform

theorem Spelled.gives_iff (h : Spelled (arguments.map Form.of) given)
    (htakes : item.takesValue = true) {value : String} :
    (item, some value) ∈ given ↔ Gives arguments item value := by
  rw [h.mem_iff, mem_map_of_iff, Gives]
  refine or_congr_right ⟨fun hpair => ?_, fun hpair => ?_⟩
  · have hback : (arguments.map Form.of).map Form.text = arguments := by
      simp [Function.comp_def, Form.text_of]
    have htexts := hpair.map Form.text
    rwa [hback] at htexts
  · have hforms := hpair.map Form.of
    have hname : Form.of ("--" ++ item.name) = .long item.name none := Form.of_text_long item none
    rw [List.map_cons, hname] at hforms
    obtain ⟨text, hvalue⟩ := h.exists_eq_plain htakes hforms
    have htext := Form.text_of value
    rw [hvalue] at htext
    rw [List.map_singleton, hvalue] at hforms
    rwa [← htext]

end

/-- **A command line that can be taken asks for what its arguments say.** -/
theorem saidBy_of_read {arguments : List String} {a : Arguments} (h : read arguments = .ok a) :
    SaidBy arguments a := by
  obtain ⟨t, htake, rfl⟩ : ∃ t, Taken.takeAll {} arguments = .ok t ∧ t.arguments = a := by
    unfold read at h
    cases htake : Taken.takeAll {} arguments <;> rw [htake] at h <;> cases h
    exact ⟨_, rfl, rfl⟩
  obtain ⟨given, hspelled, hfold⟩ :=
    Taken.leads_of_takeAll (Taken.waits_of_pending_eq_none rfl) htake
  obtain ⟨harguments, hnodup⟩ := Taken.ofGiven_of_foldlM [] rfl rfl .nil hfold
  have hvalue {item : Item} (htakes : item.takesValue = true) {value : String} :
      value? given item = some value ↔ Gives arguments item value :=
    (value?_eq_some_iff hnodup).trans (hspelled.gives_iff htakes)
  have hflag : .allowRemovals ∈ given.map (·.1) ↔ "--allow-removals" ∈ arguments :=
    (hspelled.mem_map_iff rfl Item.ofLetter?_ne_allowRemovals).trans mem_map_of_iff
  rw [harguments]
  refine ⟨fun value hgives => ?_, fun hnone => ?_, fun file => ?_, fun value => hvalue rfl,
    fun value => hvalue rfl, fun strategy => ?_, ?_⟩
  · simp [ofGiven, (hvalue rfl).2 hgives]
  · have hvalue : value? given .repo = none :=
      Option.eq_none_iff_forall_ne_some.2 fun value => mt (hvalue rfl).1 (hnone value)
    simp [ofGiven, hvalue]
  · obtain ⟨text⟩ := file
    rw [← hvalue rfl]
    cases hfile : value? given .config <;> simp [ofGiven, hfile]
  · rw [← hvalue rfl]
    cases hword : value? given .strategy <;> simp [ofGiven, hword, Strategy.ofWord?_eq_some_iff]
  · simpa [ofGiven] using hflag

end AbiGate.Arguments
