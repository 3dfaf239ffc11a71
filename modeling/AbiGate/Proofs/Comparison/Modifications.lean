/-
# What modified members have become

A violation that names a member as modified names the member that it has become, too. If contracts
hold declared members under their keys in one keying, the two differ and have the same name,
whichever way the new one was found: under the key of the old one, or as its successor.

A successor is of the same kind. But a key tells nothing of the kind, so what is found under the
key of a function can be an event, and then the function is reported as modified into the event
and not as removed. That is the only way in which a modification can lead from one kind to the
other.

Key definitions: `SwitchesKind`.
Key theorems: `Became.name_eq`, `Became.ne`, `Became.kind_eq_iff`, `modified_kind_eq_iff`.
-/
import AbiGate.Proofs.Abi.Outline
import AbiGate.Proofs.Comparison.Findings

namespace AbiGate

/-- Under a key a contract holds a member of another kind than before. -/
def SwitchesKind (now before : Contract) (key : String) : Prop :=
  ∃ old new, before.identifiers.get? key = some old ∧ now.identifiers.get? key = some new ∧
    old.kind ≠ new.kind

namespace Became

section

variable {now before : Contract} {policy : Policy} {key : String} {old new : Identifier}

/-- A member is modified into one of another kind exactly if that holds its key. -/
theorem kind_eq_iff (held : before.identifiers.get? key = some old)
    (h : Became now before policy key old (.modified old new)) :
    old.kind = new.kind ↔ ¬SwitchesKind now before key := by
  cases h with
  | replaced there hne =>
    constructor
    · rintro hkind ⟨old', new', held', there', hne'⟩
      obtain rfl := Option.some.inj (held.symm.trans held')
      obtain rfl := Option.some.inj (there.symm.trans there')
      exact hne' hkind
    · intro hsame
      by_contra hkind
      exact hsame ⟨old, new, held, there, hkind⟩
  | succeeded gone next =>
    obtain ⟨key', hc, -⟩ := next
    refine iff_of_true hc.kind_eq.symm ?_
    rintro ⟨old', new', -, there', -⟩
    rw [gone] at there'
    cases there'

end

section

variable {now before : Outline} {keying : Keying} {policy : Policy} {key : String}
  {old new : Identifier}

/-- A modified member keeps its name. -/
theorem name_eq (held : (before.contract keying).identifiers.get? key = some old)
    (h : Became (now.contract keying) (before.contract keying) policy key old
      (.modified old new)) : old.name = new.name := by
  cases h with
  | replaced there hne =>
    obtain ⟨hold, hkey⟩ := Outline.mem_of_get?_contract held
    obtain ⟨hnew, hkey'⟩ := Outline.mem_of_get?_contract there
    exact Outline.name_eq_of_key_eq hold hnew (hkey.trans hkey'.symm)
  | succeeded gone next =>
    obtain ⟨key', hc, -⟩ := next
    exact hc.name_eq.symm

/-- A modified member is not what it was. -/
theorem ne (held : (before.contract keying).identifiers.get? key = some old)
    (h : Became (now.contract keying) (before.contract keying) policy key old
      (.modified old new)) : old ≠ new := by
  cases h with
  | replaced there hne => exact hne.symm
  | succeeded gone next =>
    -- a successor is held under its own key, and the key of the old member is gone
    rintro rfl
    obtain ⟨key', hc, -⟩ := next
    obtain ⟨-, hkey⟩ := Outline.mem_of_get?_contract held
    obtain ⟨-, hkey'⟩ := Outline.mem_of_get?_contract hc.held
    have hthere := hc.held
    rw [← hkey', hkey, gone] at hthere
    cases hthere

end

end Became

variable {current baseline : Outlines} {keying : Keying} {policy : Policy}

/-- What is reported as modified has become so in a contract that has no greater version. -/
theorem exists_became_of_modified {v : Violation} {old new : Identifier}
    (hv : v ∈ (compare (current.snapshot keying) (baseline.snapshot keying) policy).violations)
    (hchange : v.change = .modified old new) :
    ∃ now before, current.get? v.contract = some now ∧ baseline.get? v.contract = some before ∧
      now.version ≤ before.version ∧
      (before.contract keying).identifiers.get? (old.key keying) = some old ∧
      Became (now.contract keying) (before.contract keying) policy (old.key keying) old
        (.modified old new) := by
  obtain ⟨place, hfinding⟩ := mem_violations_iff_finding.1 hv
  cases hfinding with
  | gone was gone counts => cases hchange
  | @changed name key b n old' change was is version held became =>
    rw [Outlines.get?_snapshot] at was is
    obtain ⟨before, hbefore, rfl⟩ := Option.map_eq_some_iff.1 was
    obtain ⟨now, hnow, rfl⟩ := Option.map_eq_some_iff.1 is
    obtain rfl : change = .modified old new := hchange
    obtain rfl : old' = old := by cases became <;> rfl
    obtain ⟨-, rfl⟩ := Outline.mem_of_get?_contract held
    exact ⟨now, before, hnow, hbefore, by simpa using version, held, became⟩

/-- What a contract without a greater version holds under the key of another member is what that
member is reported to be modified into. -/
theorem exists_modified_of_held (policy : Policy) {name key : String} {now before : Outline}
    {old new : Identifier}
    (is : current.get? name = some now) (was : baseline.get? name = some before)
    (version : now.version ≤ before.version)
    (held : (before.contract keying).identifiers.get? key = some old)
    (there : (now.contract keying).identifiers.get? key = some new) (hne : new ≠ old) :
    ∃ v ∈ (compare (current.snapshot keying) (baseline.snapshot keying) policy).violations,
      v.change = .modified old new := by
  have hwas : (baseline.snapshot keying).get? name = some (before.contract keying) := by
    rw [Outlines.get?_snapshot, was]; rfl
  have his : (current.snapshot keying).get? name = some (now.contract keying) := by
    rw [Outlines.get?_snapshot, is]; rfl
  have hversion : (now.contract keying).version ≤ (before.contract keying).version := by
    simpa using version
  exact ⟨_, mem_violations_iff_finding.2
    ⟨_, .changed hwas his hversion held (.replaced there hne)⟩, rfl⟩

/-- **A modification stays within one name, and it stays within one kind exactly if the old key is
not held by a member of another kind.** So all modifications of a comparison do exactly if no
contract without a greater version has a key that switches its kind. -/
theorem modified_kind_eq_iff (current baseline : Outlines) (keying : Keying) (policy : Policy) :
    let found :=
      (compare (current.snapshot keying) (baseline.snapshot keying) policy).violations
    (∀ v ∈ found, ∀ old new, v.change = .modified old new →
      old.name = new.name ∧ old ≠ new ∧
      ∃ now before, current.get? v.contract = some now ∧
        baseline.get? v.contract = some before ∧
        (old.kind = new.kind ↔
          ¬SwitchesKind (now.contract keying) (before.contract keying) (old.key keying))) ∧
    ((∀ v ∈ found, ∀ old new, v.change = .modified old new → old.kind = new.kind) ↔
      ∀ name now before, current.get? name = some now → baseline.get? name = some before →
        now.version ≤ before.version →
        ∀ key, ¬SwitchesKind (now.contract keying) (before.contract keying) key) := by
  intro found
  refine ⟨fun v hv old new hchange => ?_, fun h => ?_, fun h v hv old new hchange => ?_⟩
  · obtain ⟨now, before, is, was, -, held, became⟩ := exists_became_of_modified hv hchange
    exact ⟨became.name_eq held, became.ne held, now, before, is, was, became.kind_eq_iff held⟩
  · rintro name now before is was version key ⟨old, new, held, there, hkind⟩
    have hne : new ≠ old := fun heq => hkind (heq ▸ rfl)
    obtain ⟨v, hv, hchange⟩ := exists_modified_of_held policy is was version held there hne
    exact hkind (h v hv old new hchange)
  · obtain ⟨now, before, is, was, version, held, became⟩ := exists_became_of_modified hv hchange
    exact (became.kind_eq_iff held).2 (h v.contract now before is was version _)

/-- A contract that shows one member. -/
def noticeOutlines (kind : EntryKind) (signature : String) : Outlines :=
  .ofList [("Notice", .ofRows ⟨"contracts/Notice.sol"⟩ 1 [(kind, "paid(uint256)", signature)])]

/-- A function whose declaration is that of an event now is reported as modified into the event. -/
theorem modified_function_into_event :
    ∃ v ∈ (compare ((noticeOutlines .event "0x2").snapshot .signature)
        ((noticeOutlines .function "0x1").snapshot .signature) {}).violations,
      v.change = .modified (.declared .function "paid(uint256)" "0x1")
        (.declared .event "paid(uint256)" "0x2") := by
  decide +kernel

end AbiGate
