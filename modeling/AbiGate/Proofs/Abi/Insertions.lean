/-
# Contracts put into a snapshot

Contracts are put into a snapshot one after the other. One whose name is taken is refused, with the
path of the contract that has the name, and the snapshot stays as it is. So of the contracts with a
name the first one is held, whatever comes later, and if all names are different it does not matter
which contract comes first.

Key definitions: `Snapshot.put`, `Snapshot.putAll`, `Snapshot.TakenBefore`.
Key theorems: `Snapshot.get?_putAll`, `Snapshot.getElem?_answers`, `Snapshot.takenBefore_iff`,
`Snapshot.putAll_keeps_first`.
-/
import AbiGate.Abi.Snapshot
import AbiGate.Proofs.SortedMap
import Mathlib.Data.List.Dedup

namespace AbiGate.Snapshot

/-- What is answered when a contract is to be put in under a name, and the snapshot afterwards. -/
def put (s : Snapshot) (e : String × Contract) : Except DuplicateContract Unit × Snapshot :=
  match s.insert e.1 e.2 with
  | .ok more => (.ok (), more)
  | .error refusal => (.error refusal, s)

/-- The answers when contracts are put in one after the other, and the snapshot at the end. -/
def putAll (s : Snapshot) :
    List (String × Contract) → List (Except DuplicateContract Unit) × Snapshot
  | [] => ([], s)
  | e :: rest =>
    let (answer, s) := s.put e
    let (answers, s) := s.putAll rest
    (answer :: answers, s)

variable {s : Snapshot} {e : String × Contract} {entries : List (String × Contract)}

/-! ### One contract -/

/-- **A contract is refused exactly if its name is taken,** with the paths of both contracts. -/
theorem answer_put (s : Snapshot) (e : String × Contract) :
    (s.put e).1 = match s.get? e.1 with
      | some first => .error { name := e.1, first := first.path, second := e.2.path }
      | none => .ok () := by
  unfold put insert
  cases s.get? e.1 <;> rfl

/-- What was held before stays. -/
theorem get?_put (s : Snapshot) (e : String × Contract) (name : String) :
    (s.put e).2.get? name = (s.get? name).or (if name = e.1 then some e.2 else none) := by
  unfold put insert
  cases htaken : s.get? e.1 with
  | some first =>
    by_cases hname : name = e.1
    · rw [hname, htaken, Option.some_or]
    · rw [if_neg hname, Option.or_none]
  | none =>
    show (s.contracts.insert e.1 e.2).get? name = _
    rw [SortedMap.get?_insert]
    by_cases hname : name = e.1
    · rw [if_pos hname, if_pos hname, hname, htaken, Option.none_or]
    · rw [if_neg hname, if_neg hname, Option.or_none]
      rfl

/-- A refusal leaves the snapshot as it is. -/
theorem put_of_contains (h : s.contains e.1 = true) : (s.put e).2 = s := by
  obtain ⟨first, hfirst⟩ := Option.isSome_iff_exists.1 h
  have htaken : s.get? e.1 = some first := hfirst
  unfold put insert
  rw [htaken]

/-! ### One after the other -/

theorem putAll_cons (s : Snapshot) (e : String × Contract) (rest : List (String × Contract)) :
    s.putAll (e :: rest) =
      ((s.put e).1 :: ((s.put e).2.putAll rest).1, ((s.put e).2.putAll rest).2) := rfl

theorem putAll_append (s : Snapshot) (earlier later : List (String × Contract)) :
    s.putAll (earlier ++ later) =
      ((s.putAll earlier).1 ++ ((s.putAll earlier).2.putAll later).1,
        ((s.putAll earlier).2.putAll later).2) := by
  induction earlier generalizing s with
  | nil => rfl
  | cons e rest ih =>
    rw [List.cons_append, putAll_cons, ih, putAll_cons]
    rfl

/-- **The first contract with a name is the one that is held.** -/
theorem get?_putAll (s : Snapshot) (entries : List (String × Contract)) (name : String) :
    (s.putAll entries).2.get? name =
      (s.get? name).or ((entries.find? (·.1 = name)).map (·.2)) := by
  induction entries generalizing s with
  | nil => exact (Option.or_none).symm
  | cons e rest ih =>
    rw [putAll_cons, ih, get?_put, Option.or_assoc]
    congr 1
    by_cases hname : name = e.1
    · simp [hname]
    · simp [hname, Ne.symm hname]

/-- Each contract is answered by what was put in before it. -/
theorem getElem?_answers (s : Snapshot) (entries : List (String × Contract)) (i : Nat) :
    (s.putAll entries).1[i]? =
      entries[i]?.map fun e => ((s.putAll (entries.take i)).2.put e).1 := by
  induction entries generalizing s i with
  | nil => rfl
  | cons e rest ih =>
    cases i with
    | zero => rfl
    | succ i =>
      rw [putAll_cons, List.getElem?_cons_succ, ih, List.getElem?_cons_succ, List.take_succ_cons,
        putAll_cons]

/-! ### From the empty snapshot -/

/-- A contract in front of a place was put in under the name. -/
def TakenBefore (entries : List (String × Contract))
    (answers : List (Except DuplicateContract Unit)) (i : Nat) (name : String) : Prop :=
  ∃ j < i, ∃ e, entries[j]? = some e ∧ answers[j]? = some (.ok ()) ∧ e.1 = name

theorem get?_putAll_empty (entries : List (String × Contract)) (name : String) :
    (empty.putAll entries).2.get? name = (entries.find? (·.1 = name)).map (·.2) :=
  get?_putAll empty entries name

/-- The first contract with a name is put in, so a name is taken as soon as a contract has it. -/
theorem takenBefore_iff {i : Nat} {name : String} :
    TakenBefore entries (empty.putAll entries).1 i name ↔
      ∃ first, (entries.take i).find? (·.1 = name) = some first := by
  rw [← Option.isSome_iff_exists, List.find?_isSome]
  constructor
  · rintro ⟨j, hj, e, he, -, hname⟩
    exact ⟨e, List.mem_of_getElem? ((List.getElem?_take_of_lt hj).trans he), by simpa using hname⟩
  · intro h
    obtain ⟨first, hfirst⟩ := Option.isSome_iff_exists.1 (List.find?_isSome.2 h)
    obtain ⟨hname, before, behind, htake, hbefore⟩ := List.find?_eq_some_iff_append.1 hfirst
    have hname : first.1 = name := by simpa using hname
    obtain ⟨later, hentries⟩ : ∃ later, entries = before ++ first :: later := by
      refine ⟨behind ++ entries.drop i, ?_⟩
      conv_lhs => rw [← List.take_append_drop i entries, htake]
      rw [List.append_assoc, List.cons_append]
    have hlt : before.length < i := by
      have hlength := congrArg List.length htake
      simp only [List.length_take, List.length_append, List.length_cons] at hlength
      omega
    have hfree : (empty.putAll before).2.get? first.1 = none := by
      rw [get?_putAll_empty, Option.map_eq_none_iff, List.find?_eq_none]
      intro e he
      rw [hname]
      simpa using hbefore e he
    refine ⟨before.length, hlt, first, by simp [hentries], ?_, hname⟩
    rw [getElem?_answers, hentries]
    simp [answer_put, hfree]

/-- A snapshot has a contract for each different name. -/
theorem size_putAll_empty (entries : List (String × Contract)) :
    (empty.putAll entries).2.size = (entries.map (·.1)).dedup.length := by
  have hperm : (empty.putAll entries).2.names.Perm (entries.map (·.1)).dedup := by
    rw [List.perm_ext_iff_of_nodup (nodup_names _) (List.nodup_dedup _)]
    intro name
    rw [mem_names, List.mem_dedup, List.mem_map]
    show ((empty.putAll entries).2.get? name).isSome = true ↔ _
    rw [get?_putAll_empty, Option.isSome_map, List.find?_isSome]
    simp
  rw [← hperm.length_eq, names, SortedMap.keys, List.length_map]
  rfl

/-- If all names are different, each contract is held under its name. -/
theorem get?_putAll_empty_eq_some_iff (h : (entries.map (·.1)).Nodup) {name : String}
    {c : Contract} : (empty.putAll entries).2.get? name = some c ↔ (name, c) ∈ entries := by
  rw [get?_putAll_empty, Option.map_eq_some_iff]
  constructor
  · rintro ⟨e, he, rfl⟩
    obtain rfl : e.1 = name := by simpa using List.find?_some he
    exact List.mem_of_find?_eq_some he
  · exact fun hmem => ⟨(name, c), (find?_key_eq_some_iff h).2 hmem, rfl⟩

/-- If all names are different, the order of the contracts does not matter. -/
theorem putAll_empty_eq_of_perm {entries' : List (String × Contract)}
    (h : (entries.map (·.1)).Nodup) (hperm : entries'.Perm entries) :
    (empty.putAll entries').2 = (empty.putAll entries).2 := by
  have h' : (entries'.map (·.1)).Nodup := (hperm.map _).nodup_iff.2 h
  have hcontracts : (empty.putAll entries').2.contracts = (empty.putAll entries).2.contracts := by
    refine SortedMap.ext_get? fun name => Option.ext fun c => ?_
    show (empty.putAll entries').2.get? name = some c ↔ (empty.putAll entries).2.get? name = some c
    rw [get?_putAll_empty_eq_some_iff h', get?_putAll_empty_eq_some_iff h, hperm.mem_iff]
  exact congrArg Snapshot.mk hcontracts

/-- **A snapshot never overwrites.** A contract is put in exactly if none was put in under its name
before. Any other one is refused with the path of the first contract of that name, and leaves the
snapshot as it was. In the end each name has its first contract, and the names are in order. -/
theorem putAll_keeps_first (entries : List (String × Contract)) :
    let (answers, last) := empty.putAll entries
    (∀ i e, entries[i]? = some e →
      (answers[i]? = some (.ok ()) ↔ ¬TakenBefore entries answers i e.1) ∧
      (TakenBefore entries answers i e.1 → ∃ first, entries.find? (·.1 = e.1) = some first ∧
        answers[i]? = some (.error { name := e.1, first := first.2.path, second := e.2.path }) ∧
        (empty.putAll (entries.take (i + 1))).2 = (empty.putAll (entries.take i)).2)) ∧
    (∀ name, last.get? name = (entries.find? (·.1 = name)).map (·.2)) ∧
    last.size = (entries.map (·.1)).dedup.length ∧
    (last.toList.map (·.1)).Pairwise (· < ·) ∧
    ((entries.map (·.1)).Nodup →
      ∀ entries', entries'.Perm entries → (empty.putAll entries').2 = last) := by
  refine ⟨fun i e he => ?_, get?_putAll_empty entries, size_putAll_empty entries,
    pairwise_names _, fun h entries' hperm => putAll_empty_eq_of_perm h hperm⟩
  have hanswer : (empty.putAll entries).1[i]? =
      some ((empty.putAll (entries.take i)).2.put e).1 := by
    rw [getElem?_answers, he, Option.map_some]
  rw [hanswer, takenBefore_iff, answer_put, get?_putAll_empty]
  cases hfirst : (entries.take i).find? (·.1 = e.1) with
  | none => simp
  | some first =>
    refine ⟨by simp, fun _ => ⟨first, ?_, rfl, ?_⟩⟩
    · rw [← List.take_append_drop i entries, List.find?_append, hfirst, Option.some_or]
    · have htaken : (empty.putAll (entries.take i)).2.contains e.1 = true := by
        show ((empty.putAll (entries.take i)).2.get? e.1).isSome = true
        rw [get?_putAll_empty, hfirst]
        rfl
      rw [List.take_add_one, he, putAll_append]
      exact put_of_contains htaken

/-- The second of two tills is refused, and what does not clash can come in any order. -/
theorem putAll_keeps_first_tills :
    let till : Contract := .new ⟨"contracts/a/Till.sol"⟩ 1
    let other : Contract := .new ⟨"contracts/b/Till.sol"⟩ 2
    let kiosk : Contract := .new ⟨"contracts/Kiosk.sol"⟩ 1
    let clashing := [("Till", till), ("Kiosk", kiosk), ("Till", other)]
    let distinct := [("Till", till), ("Kiosk", kiosk)]
    TakenBefore clashing (empty.putAll clashing).1 2 "Till" ∧
    (empty.putAll clashing).1[2]? =
      some (.error { name := "Till", first := till.path, second := other.path }) ∧
    (empty.putAll clashing).2 = (empty.putAll distinct).2 ∧
    (distinct.map (·.1)).Nodup ∧
    (empty.putAll distinct.reverse).2 = (empty.putAll distinct).2 := by
  intro till other kiosk clashing distinct
  have htaken : TakenBefore clashing (empty.putAll clashing).1 2 "Till" :=
    ⟨0, by decide, ("Till", till), rfl, by decide +kernel, rfl⟩
  have hnodup : (distinct.map (·.1)).Nodup := by decide +kernel
  obtain ⟨first, hfirst, hrefused, hkept⟩ :=
    ((putAll_keeps_first clashing).1 2 ("Till", other) rfl).2 htaken
  have htill : first = ("Till", till) :=
    Option.some.inj (hfirst.symm.trans (by decide +kernel))
  rw [htill] at hrefused
  exact ⟨htaken, hrefused, hkept, hnodup,
    (putAll_keeps_first distinct).2.2.2.2 hnodup _ distinct.reverse_perm⟩

end AbiGate.Snapshot
