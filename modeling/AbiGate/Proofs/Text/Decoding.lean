/-
# What is decoded was encoded

The reader takes octets one at a time, and after the first octet of a character it expects so many
more, within bounds (`Utf8.Completes`). The characters that it can come to this way are all the
characters, each by the octets that encode it and no others. So a text is read from octets exactly
if they are its encoding.

Key definitions: `Utf8.Completes`.
Key theorems: `Utf8.encodeChar_of_completes`, `Utf8.exists_lead_encodeChar`,
`Utf8.readAfter_none_eq_cons_iff`, `Utf8.decode?_eq_some_iff`.
-/
import AbiGate.Proofs.Text.OctetOrder

namespace AbiGate.Text.Utf8

theorem ofNat_eq {n : Nat} {b : UInt8} (h : n = b.toNat) : UInt8.ofNat n = b := by
  rw [h, UInt8.ofNat_toNat]

/-! ### The first octet -/

theorem lead_of_one {b : UInt8} (h : b.toNat < 0x80) : lead b = .whole (Char.ofNat b.toNat) := by
  unfold lead
  rw [if_pos h]

theorem lead_of_two {b : UInt8} (h : 0xC2 ≤ b.toNat) (h' : b.toNat < 0xE0) :
    lead b = .begun { value := b.toNat - 0xC0, missing := 1 } := by
  unfold lead
  rw [if_neg (by omega), if_neg (by omega), if_pos h']

theorem lead_of_three {b : UInt8} (h : 0xE0 ≤ b.toNat) (h' : b.toNat < 0xF0) :
    lead b = .begun
      { value := b.toNat - 0xE0, missing := 2, least := if b.toNat = 0xE0 then 0xA0 else 0x80,
        greatest := if b.toNat = 0xED then 0x9F else 0xBF } := by
  unfold lead
  rw [if_neg (by omega), if_neg (by omega), if_neg (by omega)]
  by_cases hfirst : b.toNat = 0xE0
  · simp [hfirst]
  by_cases hsurrogates : b.toNat = 0xED
  · simp [hsurrogates]
  · simp [hfirst, hsurrogates, h']

theorem lead_of_four {b : UInt8} (h : 0xF0 ≤ b.toNat) (h' : b.toNat < 0xF5) :
    lead b = .begun
      { value := b.toNat - 0xF0, missing := 3, least := if b.toNat = 0xF0 then 0x90 else 0x80,
        greatest := if b.toNat = 0xF4 then 0x8F else 0xBF } := by
  unfold lead
  rw [if_neg (by omega), if_neg (by omega), if_neg (by omega), if_neg (by omega),
    if_neg (by omega), if_neg (by omega)]
  by_cases hfirst : b.toNat = 0xF0
  · simp [hfirst]
  by_cases hlast : b.toNat = 0xF4
  · simp [hlast]
  · have hlt : b.toNat < 0xF4 := by omega
    simp [hfirst, hlast, hlt]

theorem lead_of_stray {b : UInt8} (h : 0x80 ≤ b.toNat) (h' : b.toNat < 0xC2 ∨ 0xF5 ≤ b.toNat) :
    lead b = .stray := by
  unfold lead
  rcases h' with h' | h'
  · rw [if_neg (by omega), if_pos h']
  · rw [if_neg (by omega), if_neg (by omega), if_neg (by omega), if_neg (by omega),
      if_neg (by omega), if_neg (by omega), if_neg (by omega), if_neg (by omega),
      if_neg (by omega)]

/-- What an octet is at the start of a character, by its range. -/
theorem lead_cases (b : UInt8) :
    b.toNat < 0x80 ∨ (0xC2 ≤ b.toNat ∧ b.toNat < 0xE0) ∨ (0xE0 ≤ b.toNat ∧ b.toNat < 0xF0) ∨
      (0xF0 ≤ b.toNat ∧ b.toNat < 0xF5) ∨ lead b = .stray := by
  by_cases h : 0x80 ≤ b.toNat ∧ (b.toNat < 0xC2 ∨ 0xF5 ≤ b.toNat)
  · exact .inr (.inr (.inr (.inr (lead_of_stray h.1 h.2))))
  · omega

/-! ### The octets behind it -/

/-- The octets complete a character begun, which has this number. -/
inductive Completes : Begun → Octets → Nat → Prop
  | last {s : Begun} {b : UInt8} {n : Nat} (hmissing : s.missing ≤ 1)
      (hb : s.least ≤ b ∧ b ≤ s.greatest) (hn : n = s.value * 64 + (b.toNat - 0x80)) :
      Completes s [b] n
  | more {s : Begun} {b : UInt8} {tail : Octets} {n value : Nat} (hmissing : ¬s.missing ≤ 1)
      (hb : s.least ≤ b ∧ b ≤ s.greatest) (hvalue : value = s.value * 64 + (b.toNat - 0x80))
      (h : Completes { value, missing := s.missing - 1 } tail n) : Completes s (b :: tail) n

theorem Completes.eq_last {s : Begun} {tail : Octets} {n : Nat} (h : Completes s tail n)
    (hmissing : s.missing ≤ 1) :
    ∃ b : UInt8, tail = [b] ∧ (s.least ≤ b ∧ b ≤ s.greatest) ∧
      n = s.value * 64 + (b.toNat - 0x80) := by
  cases h with
  | last _ hb hn => exact ⟨_, rfl, hb, hn⟩
  | more hmore => exact absurd hmissing hmore

theorem Completes.eq_more {s : Begun} {tail : Octets} {n : Nat} (h : Completes s tail n)
    (hmissing : ¬s.missing ≤ 1) :
    ∃ (b : UInt8) (rest : Octets) (value : Nat), tail = b :: rest ∧
      (s.least ≤ b ∧ b ≤ s.greatest) ∧ value = s.value * 64 + (b.toNat - 0x80) ∧
      Completes { value, missing := s.missing - 1 } rest n := by
  cases h with
  | last hlast => exact absurd hlast hmissing
  | more _ hb hvalue h => exact ⟨_, _, _, rfl, hb, hvalue, h⟩

theorem Completes.readAfter_eq {s : Begun} {tail : Octets} {n : Nat} (h : Completes s tail n)
    (rest : Octets) :
    readAfter (some s) (tail ++ rest) = some (Char.ofNat n) :: readAfter none rest := by
  induction h with
  | last hmissing hb hn => rw [List.singleton_append, readAfter, if_pos hb, if_pos hmissing, hn]
  | more hmissing hb hvalue h ih =>
    rw [List.cons_append, readAfter, if_pos hb, if_neg hmissing, ← hvalue, ih]

theorem exists_completes {s : Begun} {octets : Octets} {c : Char} {items : List (Option Char)}
    (h : readAfter (some s) octets = some c :: items) :
    ∃ tail rest n, octets = tail ++ rest ∧ Completes s tail n ∧ c = Char.ofNat n ∧
      items = readAfter none rest := by
  induction octets generalizing s with
  | nil => simp [readAfter] at h
  | cons b octets ih =>
    rw [readAfter] at h
    split at h
    · next hb =>
      dsimp only at h
      split at h
      · next hmissing =>
        obtain ⟨hc, rfl⟩ := List.cons.inj h
        exact ⟨[b], octets, _, rfl, .last hmissing hb rfl, (Option.some.inj hc).symm, rfl⟩
      · next hmissing =>
        obtain ⟨tail, rest, n, rfl, hcompletes, hrest⟩ := ih h
        exact ⟨b :: tail, rest, n, rfl, .more hmissing hb rfl hcompletes, hrest⟩
    · split at h <;> cases h

/-! ### One character -/

theorem toNat_ofNat_of_isValidChar {n : Nat} (h : n.isValidChar) :
    (Char.ofNat n).val.toNat = n := by
  rw [Char.ofNat, dif_pos h]
  rfl

/-- The octet behind the first one is a continuation, and confined behind two first ones. -/
theorem confined_iff {p q : Prop} [Decidable p] [Decidable q] {low high b : UInt8}
    (hlow : 0x80 ≤ low.toNat) (hhigh : high.toNat ≤ 0xBF) :
    ((if p then low else 0x80) ≤ b ∧ b ≤ if q then high else 0xBF) ↔
      (0x80 ≤ b.toNat ∧ b.toNat ≤ 0xBF) ∧ (p → low.toNat ≤ b.toNat) ∧
        (q → b.toNat ≤ high.toNat) := by
  simp only [UInt8.le_iff_toNat_le, apply_ite UInt8.toNat, UInt8.reduceToNat]
  by_cases hp : p <;> by_cases hq : q <;> simp only [hp, hq, if_true, if_false, true_imp_iff,
    false_imp_iff, and_true, true_and] <;> omega

theorem encodeChar_of_whole {b : UInt8} {c : Char} (hlead : lead b = .whole c) :
    String.utf8EncodeChar c = [b] := by
  rcases lead_cases b with hone | ⟨hmin, hmax⟩ | ⟨hmin, hmax⟩ | ⟨hmin, hmax⟩ | hstray
  · obtain rfl := Lead.whole.inj ((lead_of_one hone).symm.trans hlead)
    have hvalid : b.toNat.isValidChar := .inl (by omega)
    simp only [String.utf8EncodeChar, toNat_ofNat_of_isValidChar hvalid]
    rw [if_pos (by omega), UInt8.ofNat_toNat]
  · cases (lead_of_two hmin hmax).symm.trans hlead
  · cases (lead_of_three hmin hmax).symm.trans hlead
  · cases (lead_of_four hmin hmax).symm.trans hlead
  · cases hstray.symm.trans hlead

theorem encodeChar_ofNat_of_two {b b₁ : UInt8} {n : Nat} (hb : 0xC2 ≤ b.toNat)
    (hb' : b.toNat < 0xE0) (hb₁ : 0x80 ≤ b₁.toNat ∧ b₁.toNat ≤ 0xBF)
    (hn : n = (b.toNat - 0xC0) * 64 + (b₁.toNat - 0x80)) :
    String.utf8EncodeChar (Char.ofNat n) = [b, b₁] := by
  have hvalid : n.isValidChar := .inl (by omega)
  have hfirst : n / 64 % 32 + 192 = b.toNat := by omega
  have hlast : n % 64 + 128 = b₁.toNat := by omega
  simp only [String.utf8EncodeChar, toNat_ofNat_of_isValidChar hvalid]
  rw [if_neg (by omega), if_pos (by omega), ofNat_eq hfirst, ofNat_eq hlast]

theorem encodeChar_ofNat_of_three {b b₁ b₂ : UInt8} {n value : Nat} (hb : 0xE0 ≤ b.toNat)
    (hb' : b.toNat < 0xF0) (hb₁ : 0x80 ≤ b₁.toNat ∧ b₁.toNat ≤ 0xBF)
    (hleast : b.toNat = 0xE0 → 0xA0 ≤ b₁.toNat) (hgreatest : b.toNat = 0xED → b₁.toNat ≤ 0x9F)
    (hb₂ : 0x80 ≤ b₂.toNat ∧ b₂.toNat ≤ 0xBF)
    (hvalue : value = (b.toNat - 0xE0) * 64 + (b₁.toNat - 0x80))
    (hn : n = value * 64 + (b₂.toNat - 0x80)) :
    String.utf8EncodeChar (Char.ofNat n) = [b, b₁, b₂] := by
  have hvalid : n.isValidChar := by
    unfold Nat.isValidChar
    omega
  have hfirst : n / 4096 % 16 + 224 = b.toNat := by omega
  have hsecond : n / 64 % 64 + 128 = b₁.toNat := by omega
  have hlast : n % 64 + 128 = b₂.toNat := by omega
  simp only [String.utf8EncodeChar, toNat_ofNat_of_isValidChar hvalid]
  rw [if_neg (by omega), if_neg (by omega), if_pos (by omega), ofNat_eq hfirst,
    ofNat_eq hsecond, ofNat_eq hlast]

theorem encodeChar_ofNat_of_four {b b₁ b₂ b₃ : UInt8} {n value value' : Nat}
    (hb : 0xF0 ≤ b.toNat) (hb' : b.toNat < 0xF5) (hb₁ : 0x80 ≤ b₁.toNat ∧ b₁.toNat ≤ 0xBF)
    (hleast : b.toNat = 0xF0 → 0x90 ≤ b₁.toNat) (hgreatest : b.toNat = 0xF4 → b₁.toNat ≤ 0x8F)
    (hb₂ : 0x80 ≤ b₂.toNat ∧ b₂.toNat ≤ 0xBF) (hb₃ : 0x80 ≤ b₃.toNat ∧ b₃.toNat ≤ 0xBF)
    (hvalue : value = (b.toNat - 0xF0) * 64 + (b₁.toNat - 0x80))
    (hvalue' : value' = value * 64 + (b₂.toNat - 0x80))
    (hn : n = value' * 64 + (b₃.toNat - 0x80)) :
    String.utf8EncodeChar (Char.ofNat n) = [b, b₁, b₂, b₃] := by
  have hvalid : n.isValidChar := by
    unfold Nat.isValidChar
    omega
  have hfirst : n / 262144 % 8 + 240 = b.toNat := by omega
  have hsecond : n / 4096 % 64 + 128 = b₁.toNat := by omega
  have hthird : n / 64 % 64 + 128 = b₂.toNat := by omega
  have hlast : n % 64 + 128 = b₃.toNat := by omega
  simp only [String.utf8EncodeChar, toNat_ofNat_of_isValidChar hvalid]
  rw [if_neg (by omega), if_neg (by omega), if_neg (by omega), ofNat_eq hfirst,
    ofNat_eq hsecond, ofNat_eq hthird, ofNat_eq hlast]

/-- Octets that lead to a number encode the character with this number. -/
theorem encodeChar_of_completes {b : UInt8} {s : Begun} {tail : Octets} {n : Nat}
    (hlead : lead b = .begun s) (h : Completes s tail n) :
    String.utf8EncodeChar (Char.ofNat n) = b :: tail := by
  rcases lead_cases b with hone | ⟨hmin, hmax⟩ | ⟨hmin, hmax⟩ | ⟨hmin, hmax⟩ | hstray
  · cases (lead_of_one hone).symm.trans hlead
  · have hs := Lead.begun.inj ((lead_of_two hmin hmax).symm.trans hlead)
    obtain ⟨b₁, rfl, hb₁, hn⟩ := h.eq_last (by simp [← hs])
    rw [← hs] at hb₁ hn
    exact encodeChar_ofNat_of_two hmin hmax hb₁ hn
  · have hs := Lead.begun.inj ((lead_of_three hmin hmax).symm.trans hlead)
    obtain ⟨b₁, _, value, rfl, hb₁, hvalue, h⟩ := h.eq_more (by simp [← hs])
    obtain ⟨b₂, rfl, hb₂, hn⟩ := h.eq_last (by simp [← hs])
    rw [← hs] at hb₁ hvalue
    obtain ⟨hb₁, hleast, hgreatest⟩ := (confined_iff (by decide) (by decide)).1 hb₁
    exact encodeChar_ofNat_of_three hmin hmax hb₁ hleast hgreatest hb₂ hvalue hn
  · have hs := Lead.begun.inj ((lead_of_four hmin hmax).symm.trans hlead)
    obtain ⟨b₁, _, value, rfl, hb₁, hvalue, h⟩ := h.eq_more (by simp [← hs])
    obtain ⟨b₂, _, value', rfl, hb₂, hvalue', h⟩ := h.eq_more (by simp [← hs])
    obtain ⟨b₃, rfl, hb₃, hn⟩ := h.eq_last (by simp [← hs])
    rw [← hs] at hb₁ hvalue
    obtain ⟨hb₁, hleast, hgreatest⟩ := (confined_iff (by decide) (by decide)).1 hb₁
    exact encodeChar_ofNat_of_four hmin hmax hb₁ hleast hgreatest hb₂ hb₃ hvalue hvalue' hn
  · cases hstray.symm.trans hlead

/-- The octets of a character lead to its number. -/
theorem exists_lead_encodeChar (c : Char) :
    ∃ b tail, String.utf8EncodeChar c = b :: tail ∧
      ((lead b = .whole c ∧ tail = []) ∨
        ∃ s, lead b = .begun s ∧ Completes s tail c.val.toNat) := by
  have hvalid : c.val.toNat.isValidChar := c.valid
  have hchar : Char.ofNat c.val.toNat = c := Char.ofNat_toNat c
  unfold String.utf8EncodeChar
  generalize c.val.toNat = n at hvalid hchar
  unfold Nat.isValidChar at hvalid
  -- what the octets behind the first one have in common
  have hlast : (UInt8.ofNat (n % 64 + 128)).toNat = n % 64 + 128 := toNat_ofNat (by omega)
  have hsecond : (UInt8.ofNat (n / 64 % 64 + 128)).toNat = n / 64 % 64 + 128 :=
    toNat_ofNat (by omega)
  have hthird : (UInt8.ofNat (n / 4096 % 64 + 128)).toNat = n / 4096 % 64 + 128 :=
    toNat_ofNat (by omega)
  have hrange : ∀ m : Nat, (0x80 : UInt8) ≤ UInt8.ofNat (m % 64 + 128) ∧
      UInt8.ofNat (m % 64 + 128) ≤ 0xBF := by
    intro m
    rw [UInt8.le_iff_toNat_le, UInt8.le_iff_toNat_le, toNat_ofNat (by omega)]
    simp only [UInt8.reduceToNat]
    omega
  dsimp only
  split_ifs with hone htwo hthree
  · have hfirst : (UInt8.ofNat n).toNat = n := toNat_ofNat (by omega)
    refine ⟨_, _, rfl, .inl ⟨?_, rfl⟩⟩
    rw [lead_of_one (by omega), hfirst, hchar]
  · have hfirst : (UInt8.ofNat (n / 64 % 32 + 192)).toNat = n / 64 % 32 + 192 :=
      toNat_ofNat (by omega)
    refine ⟨_, _, rfl, .inr ⟨_, lead_of_two (by omega) (by omega),
      .last (Nat.le_refl 1) (hrange n) ?_⟩⟩
    rw [hlast, hfirst]
    dsimp only
    omega
  · have hfirst : (UInt8.ofNat (n / 4096 % 16 + 224)).toNat = n / 4096 % 16 + 224 :=
      toNat_ofNat (by omega)
    refine ⟨_, _, rfl, .inr ⟨_, lead_of_three (by omega) (by omega),
      .more (by simp) ?_ rfl (.last (Nat.le_refl 1) (hrange n) ?_)⟩⟩
    · rw [confined_iff (by decide) (by decide), hfirst, hsecond]
      simp only [UInt8.reduceToNat]
      omega
    · rw [hlast, hsecond, hfirst]
      dsimp only
      omega
  · have hfirst : (UInt8.ofNat (n / 262144 % 8 + 240)).toNat = n / 262144 % 8 + 240 :=
      toNat_ofNat (by omega)
    refine ⟨_, _, rfl, .inr ⟨_, lead_of_four (by omega) (by omega),
      .more (by simp) ?_ rfl (.more (by simp) (hrange (n / 64)) rfl
        (.last (Nat.le_refl 1) (hrange n) ?_))⟩⟩
    · rw [confined_iff (by decide) (by decide), hfirst, hthird]
      simp only [UInt8.reduceToNat]
      omega
    · rw [hlast, hsecond, hthird, hfirst]
      dsimp only
      omega

/-- **A character is read exactly from its octets.** -/
theorem readAfter_none_eq_cons_iff {octets : Octets} {c : Char} {items : List (Option Char)} :
    readAfter none octets = some c :: items ↔
      ∃ rest, octets = String.utf8EncodeChar c ++ rest ∧ items = readAfter none rest := by
  constructor
  · intro h
    cases octets with
    | nil => simp [readAfter] at h
    | cons b octets =>
      rw [readAfter] at h
      cases hlead : lead b with
      | whole found =>
        simp only [hlead] at h
        obtain ⟨hc, rfl⟩ := List.cons.inj h
        obtain rfl := Option.some.inj hc
        exact ⟨octets, by rw [encodeChar_of_whole hlead]; rfl, rfl⟩
      | begun s =>
        simp only [hlead] at h
        obtain ⟨tail, rest, n, rfl, hcompletes, rfl, rfl⟩ := exists_completes h
        exact ⟨rest, by rw [encodeChar_of_completes hlead hcompletes]; rfl, rfl⟩
      | stray =>
        simp only [hlead] at h
        cases h
  · rintro ⟨rest, rfl, rfl⟩
    obtain ⟨b, tail, hoctets, ⟨hlead, rfl⟩ | ⟨s, hlead, hcompletes⟩⟩ := exists_lead_encodeChar c
    · rw [hoctets, List.singleton_append, readAfter]
      simp only [hlead]
    · rw [hoctets, List.cons_append, readAfter]
      simp only [hlead]
      have hchar : Char.ofNat c.val.toNat = c := Char.ofNat_toNat c
      rw [hcompletes.readAfter_eq, hchar]

/-! ### A text -/

theorem mapM_id_eq_some_cons_iff {α : Type} {items : List (Option α)} {a : α} {more : List α} :
    items.mapM id = some (a :: more) ↔
      ∃ rest, items = some a :: rest ∧ rest.mapM id = some more := by
  cases items with
  | nil => simp
  | cons first rest =>
    rcases first with _ | b
    · simp
    · cases hrest : rest.mapM id <;> simp [hrest, eq_comm]

theorem readAfter_some_ne_nil {s : Begun} {octets : Octets} : readAfter (some s) octets ≠ [] := by
  induction octets generalizing s with
  | nil => simp [readAfter]
  | cons b octets ih =>
    rw [readAfter]
    split
    · dsimp only
      split
      · simp
      · exact ih
    · split <;> simp

theorem readAfter_none_ne_nil {b : UInt8} {octets : Octets} :
    readAfter none (b :: octets) ≠ [] := by
  rw [readAfter]
  split
  · simp
  · exact readAfter_some_ne_nil
  · simp

/-- **Characters are read exactly from their octets.** -/
theorem mapM_read_eq_some_iff {octets : Octets} {cs : List Char} :
    (read octets).mapM id = some cs ↔ octets = cs.flatMap String.utf8EncodeChar := by
  unfold read
  induction cs generalizing octets with
  | nil =>
    cases octets with
    | nil => simp [readAfter]
    | cons b octets =>
      have hne : readAfter none (b :: octets) ≠ [] := readAfter_none_ne_nil
      cases hitems : readAfter none (b :: octets) with
      | nil => exact absurd hitems hne
      | cons item items => rcases item with _ | c <;> cases hrest : items.mapM id <;> simp [hrest]
  | cons c cs ih =>
    rw [mapM_id_eq_some_cons_iff, List.flatMap_cons]
    constructor
    · rintro ⟨rest, hread, hrest⟩
      obtain ⟨behind, rfl, rfl⟩ := readAfter_none_eq_cons_iff.1 hread
      rw [ih.1 hrest]
    · rintro rfl
      exact ⟨_, readAfter_none_eq_cons_iff.2 ⟨_, rfl, rfl⟩, ih.2 rfl⟩

/-- **A text is decoded from octets exactly if they are its encoding.** -/
theorem decode?_eq_some_iff {octets : Octets} {text : String} :
    decode? octets = some text ↔ octets = encode text := by
  rw [decode?, Option.map_eq_some_iff, encode_eq_flatMap]
  simp only [mapM_read_eq_some_iff]
  constructor
  · rintro ⟨cs, rfl, rfl⟩
    rw [String.toList_ofList]
  · rintro rfl
    exact ⟨text.toList, rfl, String.ofList_toList⟩

theorem encode_injective {a b : String} (h : encode a = encode b) : a = b :=
  Option.some.inj ((decode?_eq_some_iff.2 rfl).symm.trans (decode?_eq_some_iff.2 h))

end AbiGate.Text.Utf8
