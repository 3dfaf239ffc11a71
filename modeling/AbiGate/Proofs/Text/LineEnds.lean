/-
# Ends of lines

Some programs end a line with a line feed, others with a carriage return and a line feed. Here every
line feed of a text is replaced by both. The lines stay the same but for their ends: a line that had
a carriage return in front of its line feed has lost it before and keeps it now, and any other line
stays as it is. So all that a line can gain is blanks behind it (`Padded`).

Octets are decoded after the replacement as before it, also where they are ill-formed: neither a
line feed nor a carriage return is ever owed to a character begun, so both end it alike.

Key definitions: `Text.crlf`, `Text.Padded`, `Text.Utf8.crlf`.
Key theorems: `Text.forall₂_padded_cutLines_crlf`, `Text.Utf8.decodeLenient_crlf`.
-/
import AbiGate.Proofs.Text.Cuts
import AbiGate.Proofs.Text.Decoding

namespace AbiGate.Text

/-- The text with a carriage return and a line feed in place of each line feed. -/
def crlf (cs : List Char) : List Char :=
  cs.flatMap fun c => if c = '\n' then ['\r', '\n'] else [c]

/-- `crlf` on strings. -/
def withCrlf (s : String) : String :=
  String.ofList (crlf s.toList)

/-- The second text is the first one with blanks behind it. -/
def Padded (cs cs' : List Char) : Prop :=
  ∃ behind, Blank behind ∧ cs' = cs ++ behind

theorem Padded.refl (cs : List Char) : Padded cs cs :=
  ⟨[], by simp [Blank], (List.append_nil cs).symm⟩

theorem blank_return : Blank ['\r'] :=
  List.forall_mem_singleton.2 (by decide)

/-! ### Blanks behind a text -/

theorem Padded.trim_eq {cs cs' : List Char} (h : Padded cs cs') : trim cs' = trim cs := by
  obtain ⟨behind, hbehind, rfl⟩ := h
  have hnone : Blank [] := by simp [Blank]
  exact trim_padded hnone hbehind cs

theorem Padded.firstWord?_eq {cs cs' : List Char} (h : Padded cs cs') :
    firstWord? cs' = firstWord? cs := by
  obtain ⟨behind, hbehind, rfl⟩ := h
  unfold firstWord?
  by_cases hblank : Blank cs
  · rw [trimStart_blank_append hblank, trimStart_eq_nil_iff.2 hblank,
      trimStart_eq_nil_iff.2 hbehind]
  · -- The word ends where the first blank stands, be it an old or a new one.
    have hword : (trimStart cs ++ behind).takeWhile (fun c => !isBlank c) =
        (trimStart cs).takeWhile fun c => !isBlank c := by
      rw [List.takeWhile_append]
      split
      · next hall =>
        have hnone : behind.takeWhile (fun c => !isBlank c) = [] := by
          cases behind with
          | nil => rfl
          | cons c behind =>
            rw [List.takeWhile_cons_of_neg (by simp [hbehind c List.mem_cons_self])]
        rw [hnone, List.append_nil, (List.takeWhile_prefix _).eq_of_length hall]
      · rfl
    rw [trimStart_append, if_neg hblank, hword]

/-! ### Lines -/

theorem crlf_append (cs cs' : List Char) : crlf (cs ++ cs') = crlf cs ++ crlf cs' :=
  List.flatMap_append

theorem crlf_of_not_mem {line : List Char} (h : '\n' ∉ line) : crlf line = line := by
  have hkeep : ∀ c ∈ line, (if c = '\n' then ['\r', '\n'] else [c]) = [c] := fun c hc =>
    if_neg fun (heq : c = '\n') => h (heq ▸ hc)
  unfold crlf
  rw [List.flatMap_congr hkeep, List.flatMap_singleton']

theorem crlf_append_feed {line : List Char} (h : '\n' ∉ line) (rest : List Char) :
    crlf (line ++ '\n' :: rest) = line ++ '\r' :: '\n' :: crlf rest := by
  rw [crlf_append, crlf_of_not_mem h]
  rfl

/-- The lines of a text are its old lines, with blanks behind some. -/
theorem Lines.exists_crlf {cs : List Char} {lines : List (List Char)} (h : Lines cs lines) :
    ∃ lines', Lines (crlf cs) lines' ∧ List.Forall₂ Padded lines lines' := by
  induction h with
  | nil => exact ⟨[], .nil, .nil⟩
  | @last line hne hline =>
    rw [crlf_of_not_mem hline]
    exact ⟨[line], .last hne hline, .cons (.refl line) .nil⟩
  | @feed line rest lines hline _ _ ih =>
    obtain ⟨lines', hlines, hpadded⟩ := ih
    rw [crlf_append_feed hline]
    exact ⟨line :: lines', .returnFeed hline hlines, .cons (.refl line) hpadded⟩
  | @returnFeed line rest lines hline _ ih =>
    obtain ⟨lines', hlines, hpadded⟩ := ih
    have hreturn : '\n' ∉ line ++ ['\r'] := by simp [hline]
    have htext : crlf (line ++ '\r' :: '\n' :: rest) =
        (line ++ ['\r']) ++ '\r' :: '\n' :: crlf rest := by
      rw [← crlf_append_feed hreturn, List.append_assoc]
      rfl
    rw [htext]
    exact ⟨(line ++ ['\r']) :: lines', .returnFeed hreturn hlines,
      .cons ⟨['\r'], blank_return, rfl⟩ hpadded⟩

/-- **Lines that end with a carriage return and a line feed are the lines that end with a line
feed,** with blanks behind some. -/
theorem forall₂_padded_cutLines_crlf (cs : List Char) :
    List.Forall₂ Padded (cutLines cs) (cutLines (crlf cs)) := by
  obtain ⟨lines', hlines, hpadded⟩ := (cutLines_eq_iff.1 (rfl : cutLines cs = _)).exists_crlf
  rwa [hlines.cutLines_eq]

/-! ### Octets -/

namespace Utf8

/-- The octets with those of a carriage return and a line feed in place of each line feed. -/
def crlf (octets : Octets) : Octets :=
  octets.flatMap fun b => if b = 0x0A then [0x0D, 0x0A] else [b]

/-- What is read from octets, with a carriage return and a line feed in place of each line feed. -/
def crlfItems (items : List (Option Char)) : List (Option Char) :=
  items.flatMap fun item => if item = some '\n' then [some '\r', some '\n'] else [item]

/-- A character begun owes octets that are no ASCII, and its number will be greater than that of
any control character for the ends of lines. -/
structure Begun.Proper (s : Begun) : Prop where
  least_ge : 0x80 ≤ s.least.toNat
  value_ge : 0x10 ≤ s.value * 64 + (s.least.toNat - 0x80)

theorem proper_of_lead {b : UInt8} {s : Begun} (h : lead b = .begun s) : s.Proper := by
  rcases lead_cases b with hb | ⟨hb, hb'⟩ | ⟨hb, hb'⟩ | ⟨hb, hb'⟩ | hstray
  · rw [lead_of_one hb] at h
    exact nomatch h
  · rw [lead_of_two hb hb'] at h
    obtain rfl := Lead.begun.inj h
    exact { least_ge := Nat.le_refl 0x80, value_ge := by dsimp only; omega }
  · rw [lead_of_three hb hb'] at h
    obtain rfl := Lead.begun.inj h
    by_cases hfirst : b.toNat = 0xE0
    · refine ⟨?_, ?_⟩ <;> simp [hfirst]
    · refine ⟨?_, ?_⟩ <;> simp [hfirst]
      omega
  · rw [lead_of_four hb hb'] at h
    obtain rfl := Lead.begun.inj h
    by_cases hfirst : b.toNat = 0xF0
    · refine ⟨?_, ?_⟩ <;> simp [hfirst]
    · refine ⟨?_, ?_⟩ <;> simp [hfirst]
      omega
  · rw [hstray] at h
    exact nomatch h

/-- Behind one more octet a character begun is still proper, and the number is no small one. -/
theorem Begun.Proper.next {s : Begun} (h : s.Proper) {b : UInt8} (hb : s.least ≤ b)
    (missing : Nat) :
    0x10 ≤ s.value * 64 + (b.toNat - 0x80) ∧
      ({ value := s.value * 64 + (b.toNat - 0x80), missing } : Begun).Proper := by
  have hle : s.least.toNat ≤ b.toNat := UInt8.le_iff_toNat_le.1 hb
  have hvalue := h.value_ge
  refine ⟨by omega, ?_, ?_⟩
  · exact Nat.le_refl 0x80
  · dsimp only
    omega

theorem ofNat_ne_feed {n : Nat} (h : 0x10 ≤ n) : Char.ofNat n ≠ '\n' := by
  intro heq
  by_cases hvalid : n.isValidChar
  · have hn := toNat_ofNat_of_isValidChar hvalid
    rw [heq] at hn
    change 10 = n at hn
    omega
  · rw [Char.ofNat, dif_neg hvalid] at heq
    exact absurd heq (by decide)

theorem ne_feed_of_lead {b : UInt8} {c : Char} (hb : b ≠ 0x0A) (h : lead b = .whole c) :
    c ≠ '\n' := by
  rintro rfl
  have hoctet := encodeChar_of_whole h
  have hfeed : String.utf8EncodeChar '\n' = [0x0A] := by decide
  rw [hfeed] at hoctet
  exact hb (List.singleton_inj.1 hoctet).symm

theorem readAfter_none_of_whole {b : UInt8} {c : Char} (h : lead b = .whole c) (rest : Octets) :
    readAfter none (b :: rest) = some c :: readAfter none rest := by
  simp only [readAfter, h]

/-- An octet that is not owed ends the character begun, and is read as if there were none. -/
theorem readAfter_some_of_not_owed {s : Begun} {b : UInt8}
    (h : ¬(s.least ≤ b ∧ b ≤ s.greatest)) (rest : Octets) :
    readAfter (some s) (b :: rest) = none :: readAfter none (b :: rest) := by
  rw [readAfter.eq_4, if_neg h, readAfter.eq_3]
  cases lead b <;> rfl

theorem crlf_cons (b : UInt8) (rest : Octets) :
    crlf (b :: rest) = (if b = 0x0A then [0x0D, 0x0A] else [b]) ++ crlf rest :=
  List.flatMap_cons

theorem crlf_cons_of_ne {b : UInt8} (h : b ≠ 0x0A) (rest : Octets) :
    crlf (b :: rest) = b :: crlf rest := by
  rw [crlf_cons, if_neg h]
  rfl

theorem crlfItems_cons_of_ne {item : Option Char} (h : item ≠ some '\n')
    (items : List (Option Char)) : crlfItems (item :: items) = item :: crlfItems items := by
  unfold crlfItems
  rw [List.flatMap_cons, if_neg h]
  rfl

/-- No character begun owes the octet that the ends of lines start with. -/
theorem Begun.Proper.not_owed {s : Begun} (h : s.Proper) {b : UInt8} (hb : b.toNat < 0x80) :
    ¬(s.least ≤ b ∧ b ≤ s.greatest) := by
  rintro ⟨hle, -⟩
  have hleast : s.least.toNat ≤ b.toNat := UInt8.le_iff_toNat_le.1 hle
  have hge := h.least_ge
  omega

section

variable {b : UInt8} {rest : Octets}
  (ih : ∀ state : Option Begun, (∀ s ∈ state, s.Proper) →
    readAfter state (crlf rest) = crlfItems (readAfter state rest))

include ih

theorem readAfter_none_crlf_cons :
    readAfter none (crlf (b :: rest)) = crlfItems (readAfter none (b :: rest)) := by
  by_cases hb : b = 0x0A
  · subst hb
    rw [crlf_cons, if_pos rfl, List.cons_append, readAfter_none_of_whole rfl, List.cons_append,
      readAfter_none_of_whole rfl, List.nil_append, ih none (by simp),
      readAfter_none_of_whole rfl]
    rfl
  · rw [crlf_cons_of_ne hb, readAfter, readAfter]
    cases hlead : lead b with
    | whole c =>
      have hc : some c ≠ some '\n' := fun heq => ne_feed_of_lead hb hlead (Option.some.inj heq)
      dsimp only
      rw [ih none (by simp), crlfItems_cons_of_ne hc]
    | begun s => exact ih (some s) (by simpa using proper_of_lead hlead)
    | stray =>
      dsimp only
      rw [ih none (by simp), crlfItems_cons_of_ne (by simp)]

theorem readAfter_some_crlf_cons {s : Begun} (h : s.Proper) :
    readAfter (some s) (crlf (b :: rest)) = crlfItems (readAfter (some s) (b :: rest)) := by
  by_cases howed : s.least ≤ b ∧ b ≤ s.greatest
  · have hb : b ≠ 0x0A := by
      rintro rfl
      exact h.not_owed (by decide) howed
    obtain ⟨hvalue, hnext⟩ := h.next howed.1 (s.missing - 1)
    rw [crlf_cons_of_ne hb, readAfter, readAfter, if_pos howed, if_pos howed]
    dsimp only
    split
    · have hc : some (Char.ofNat (s.value * 64 + (b.toNat - 0x80))) ≠ some '\n' :=
        fun heq => ofNat_ne_feed hvalue (Option.some.inj heq)
      rw [ih none (by simp), crlfItems_cons_of_ne hc]
    · exact ih (some _) (by simpa using hnext)
  · have hfirst : ∃ first more, crlf (b :: rest) = first :: more ∧
        ¬(s.least ≤ first ∧ first ≤ s.greatest) := by
      by_cases hb : b = 0x0A
      · subst hb
        exact ⟨0x0D, 0x0A :: crlf rest, rfl, h.not_owed (by decide)⟩
      · exact ⟨b, crlf rest, crlf_cons_of_ne hb rest, howed⟩
    obtain ⟨first, more, hcrlf, hnot⟩ := hfirst
    rw [hcrlf, readAfter_some_of_not_owed hnot, ← hcrlf, readAfter_none_crlf_cons ih,
      readAfter_some_of_not_owed howed, crlfItems_cons_of_ne (by simp)]

end

/-- The ends of lines are read as they are replaced, behind every proper character begun. -/
theorem readAfter_crlf (octets : Octets) : ∀ state : Option Begun, (∀ s ∈ state, s.Proper) →
    readAfter state (crlf octets) = crlfItems (readAfter state octets) := by
  induction octets with
  | nil => rintro (_ | s) - <;> rfl
  | cons b rest ih =>
    rintro (_ | s) h
    · exact readAfter_none_crlf_cons ih
    · exact readAfter_some_crlf_cons ih (h s rfl)

/-- **The ends of lines can be replaced before a text is decoded, or behind.** -/
theorem decodeLenient_crlf (octets : Octets) :
    decodeLenient (crlf octets) = withCrlf (decodeLenient octets) := by
  have hitem : ∀ item : Option Char,
      ((if item = some '\n' then [some '\r', some '\n'] else [item]).map fun c =>
        c.getD '\uFFFD') = if item.getD '\uFFFD' = '\n' then ['\r', '\n'] else [item.getD '\uFFFD']
    | none => rfl
    | some c => by by_cases hc : c = '\n' <;> simp [hc]
  have hread : read (crlf octets) = crlfItems (read octets) := readAfter_crlf octets none (by simp)
  unfold decodeLenient withCrlf Text.crlf
  rw [hread, crlfItems, List.map_flatMap, String.toList_ofList, List.flatMap_map]
  simp only [hitem]

end Utf8

end AbiGate.Text
