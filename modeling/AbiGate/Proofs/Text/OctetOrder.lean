/-
# The order of texts is the order of their octets

Maps keep texts in the order of their code points. File systems compare names octet by octet. In
UTF-8 the two orders are the same: of two characters the lesser one has the lesser octet at the
first place where they differ, and neither's octets are the beginning of the other's. So the order
carries over from characters to texts, and from names to the rows of names that lead to files.

Key theorems: `StrictTotal.lt_iff_of_forall_lt`, `Text.Utf8.encodeChar_append_lt`,
`Text.Utf8.encode_lt_encode_iff`, `Text.Utf8.map_encode_lt_iff`.
-/
import AbiGate.SortedMap
import AbiGate.Text.Utf8
import Mathlib.Data.List.Basic

namespace AbiGate

instance : StrictTotal UInt8 where
  irrefl := UInt8.lt_irrefl
  trans := UInt8.lt_trans
  eq_of_not_lt h h' := UInt8.le_antisymm (UInt8.not_lt.1 h') (UInt8.not_lt.1 h)

/-- Between strict total orders, a map that keeps the order also tells it. -/
theorem StrictTotal.lt_iff_of_forall_lt {κ μ : Type} [LT κ] [StrictTotal κ] [LT μ]
    [StrictTotal μ] {f : κ → μ} (hf : ∀ a b, a < b → f a < f b) {a b : κ} : f a < f b ↔ a < b := by
  refine ⟨fun h => ?_, hf a b⟩
  by_contra hnot
  by_cases hlt : b < a
  · exact StrictTotal.asymm h (hf b a hlt)
  · obtain rfl := StrictTotal.eq_of_not_lt hnot hlt
    exact StrictTotal.irrefl _ h

namespace Text.Utf8

/-! ### One character -/

theorem toNat_ofNat {n : Nat} (h : n < 256) : (UInt8.ofNat n).toNat = n := by
  rw [UInt8.toNat_ofNat', Nat.mod_eq_of_lt h]

theorem ofNat_lt_ofNat {m n : Nat} (hm : m < 256) (hn : n < 256) :
    UInt8.ofNat m < UInt8.ofNat n ↔ m < n := by
  rw [UInt8.lt_iff_toNat_lt, toNat_ofNat hm, toNat_ofNat hn]

theorem ofNat_eq_ofNat {m n : Nat} (hm : m < 256) (hn : n < 256) :
    UInt8.ofNat m = UInt8.ofNat n ↔ m = n := by
  rw [← UInt8.toNat_inj, toNat_ofNat hm, toNat_ofNat hn]

theorem toNat_val_lt (c : Char) : c.val.toNat < 0x110000 := by
  have hvalid := c.valid
  simp only [UInt32.isValidChar, Nat.isValidChar] at hvalid
  omega

/-- **The octets of a lesser character come first, whatever follows.** -/
theorem encodeChar_append_lt {c d : Char} (h : c < d) (more more' : Octets) :
    String.utf8EncodeChar c ++ more < String.utf8EncodeChar d ++ more' := by
  have hlt : c.val.toNat < d.val.toNat := h
  have hmax := toNat_val_lt d
  have hsix : ∀ k : Nat, k / 4096 = k / 64 / 64 ∧ k / 262144 = k / 64 / 64 / 64 := by omega
  unfold String.utf8EncodeChar
  generalize c.val.toNat = m, d.val.toNat = n at hlt hmax
  simp only [hsix]
  -- One case for each two lengths. What follows the characters is never looked at.
  split_ifs
  all_goals
    simp (disch := omega) only [List.cons_append, List.nil_append, List.cons_lt_cons_iff,
      ofNat_lt_ofNat, ofNat_eq_ofNat]
    first
      | exact .inl (by omega)
      | generalize (more < more') = tail
        by_cases htail : tail <;> simp only [htail, and_true, and_false, or_false] <;> omega

/-! ### Texts and rows of texts -/

theorem toList_eq_data (octets : ByteArray) : octets.toList = octets.data.toList := by
  have hloop : ∀ i read, ByteArray.toList.loop octets i read =
      read.reverse ++ octets.data.toList.drop i := by
    intro i read
    fun_induction ByteArray.toList.loop octets i read with
    | case1 i read h ih =>
      have hi : i < octets.data.toList.length := by simpa using h
      rw [ih, List.drop_eq_getElem_cons hi]
      simp [ByteArray.get!, h]
    | case2 i read h =>
      rw [List.drop_eq_nil_of_le (by simpa using Nat.le_of_not_lt h), List.append_nil]
  exact hloop 0 []

theorem encode_eq_flatMap (s : String) : encode s = s.toList.flatMap String.utf8EncodeChar := by
  have hbytes : s.toUTF8 = (s.toList.flatMap String.utf8EncodeChar).toByteArray := by
    rw [String.toUTF8_eq_toByteArray, ← String.utf8Encode_toList]
    rfl
  rw [encode, hbytes, toList_eq_data, List.toList_data_toByteArray]

theorem flatMap_encodeChar_lt : ∀ {cs ds : List Char}, cs < ds →
    cs.flatMap String.utf8EncodeChar < ds.flatMap String.utf8EncodeChar
  | [], [], h => absurd h (List.not_lt_nil [])
  | _ :: _, [], h => absurd h (List.not_lt_nil _)
  | [], d :: ds, _ => by
    obtain ⟨first, more, hoctets⟩ :=
      List.exists_cons_of_ne_nil (@String.utf8EncodeChar_ne_nil d)
    rw [List.flatMap_cons, hoctets]
    exact List.nil_lt_cons first _
  | c :: cs, d :: ds, h => by
    rw [List.flatMap_cons, List.flatMap_cons]
    rcases List.cons_lt_cons_iff.1 h with hlt | ⟨rfl, hrest⟩
    · exact encodeChar_append_lt hlt _ _
    · exact List.append_left_lt (flatMap_encodeChar_lt hrest)

theorem encode_lt_encode {a b : String} (h : a < b) : encode a < encode b := by
  rw [encode_eq_flatMap, encode_eq_flatMap]
  exact flatMap_encodeChar_lt h

/-- **Texts are in the order of their octets.** -/
theorem encode_lt_encode_iff {a b : String} : encode a < encode b ↔ a < b :=
  StrictTotal.lt_iff_of_forall_lt fun _ _ => encode_lt_encode

/-- **Rows of names are in the order of their octets, name by name.** -/
theorem map_encode_lt_iff {l l' : List String} : l.map encode < l'.map encode ↔ l < l' :=
  StrictTotal.lt_iff_of_forall_lt fun _ _ => List.map_lt fun _ _ => encode_lt_encode

end Text.Utf8

end AbiGate
