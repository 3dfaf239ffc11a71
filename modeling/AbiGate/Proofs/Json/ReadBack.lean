/-
# Values, read back

The indented text of a value is cut into the tokens that the value is spelled with (`toTokens`), and
the reader takes these tokens as one value, whatever is open and whatever comes behind. So the text
is read as the value, with blanks behind it or not. What is asked of the value (`Readable`) is that
its numbers are plain integers of 64 bits and that not too much of it is inside one another.

Key definitions: `Json.toTokens`, `Json.Readable`, `Json.Cuts`, `Json.Runs`.
Key theorems: `Json.Readable.cuts`, `Json.Readable.runs`, `Json.read?_indented_append`.
-/
import AbiGate.Json.Reader
import AbiGate.Proofs.Json.Atoms

namespace AbiGate.Json

mutual

/-- The tokens that a value is spelled with. -/
def toTokens : Json → List Token
  | .array [] => [.openArray, .closeArray]
  | .array (item :: more) => .openArray :: toTokens item ++ itemTokens more
  | .object [] => [.openObject, .closeObject]
  | .object ((name, value) :: more) =>
    .openObject :: .text name :: .colon :: toTokens value ++ memberTokens more
  | .string s => [.text s]
  | atom => [.atom atom]

/-- The tokens of the items behind the first, and the end of the array. -/
def itemTokens : List Json → List Token
  | [] => [.closeArray]
  | item :: more => .comma :: toTokens item ++ itemTokens more

/-- The tokens of the members behind the first, and the end of the object. -/
def memberTokens : List (String × Json) → List Token
  | [] => [.closeObject]
  | (name, value) :: more =>
    .comma :: .text name :: .colon :: toTokens value ++ memberTokens more

end

/-- A value that is read as it is written: its numbers are plain integers of at most 64 binary
digits, and no more arrays and objects than this are inside one another. -/
inductive Readable : (height : Nat) → Json → Prop
  | null {height : Nat} : Readable height .null
  | bool {height : Nat} (b : Bool) : Readable height (.bool b)
  | integer {height n : Nat} (h : n < UInt64.size) : Readable height (.integer n)
  | string {height : Nat} (s : String) : Readable height (.string s)
  | array {height : Nat} {items : List Json} (h : ∀ item ∈ items, Readable height item) :
      Readable (height + 1) (.array items)
  | object {height : Nat} {members : List (String × Json)}
      (h : ∀ m ∈ members, Readable height m.2) : Readable (height + 1) (.object members)

theorem Readable.array_iff {height : Nat} {items : List Json} :
    Readable (height + 1) (.array items) ↔ ∀ item ∈ items, Readable height item :=
  ⟨fun | .array h => h, .array⟩

theorem Readable.object_iff {height : Nat} {members : List (String × Json)} :
    Readable (height + 1) (.object members) ↔ ∀ m ∈ members, Readable height m.2 :=
  ⟨fun | .object h => h, .object⟩

/-! ### From the text to the tokens -/

theorem tokens?_gap {c : Char} (h : isGap c = true) (rest : List Char) :
    tokens? (c :: rest) = tokens? rest := by
  rw [tokens?, if_pos h]

theorem tokens?_mark {c : Char} {mark : Token} (h : markOf? c = some mark) (rest : List Char) :
    tokens? (c :: rest) = (tokens? rest).map (mark :: ·) := by
  have hgap : isGap c = false := by
    unfold markOf? at h
    split at h <;> first | rfl | cases h
  have hquote : c ≠ '"' := by
    rintro rfl
    cases h
  rw [tokens?, if_neg (by simp [hgap]), if_neg hquote, h]

theorem tokens?_newLine (depth : Nat) (rest : List Char) :
    tokens? (newLine depth ++ rest) = tokens? rest := by
  have hblanks (n : Nat) : tokens? (List.replicate n ' ' ++ rest) = tokens? rest := by
    induction n with
    | zero => rfl
    | succ n ih =>
      rw [List.replicate_succ, List.cons_append, tokens?_gap rfl, ih]
  rw [newLine, List.cons_append, tokens?_gap rfl, hblanks]

theorem tokens?_writeString (s : String) (rest : List Char) :
    tokens? (writeString s ++ rest) = (tokens? rest).map (.text s :: ·) := by
  have htext : writeString s ++ rest = '"' :: (s.toList.flatMap escape ++ '"' :: rest) := by
    simp [writeString]
  rw [htext, tokens?, if_neg (by decide), if_pos rfl]
  split
  · next read behind hread =>
    rw [cutString?_escape] at hread
    cases hread
    rfl
  · next hread =>
    rw [cutString?_escape] at hread
    cases hread

/-- No atom goes on in the text. -/
def Stops (rest : List Char) : Prop :=
  ∀ c ∈ rest.head?, inAtom c = false

theorem stops_nil : Stops [] := fun _ h => nomatch h

theorem stops_cons {c : Char} (h : inAtom c = false) (rest : List Char) : Stops (c :: rest) := by
  rintro d hd
  obtain rfl := Option.some.inj hd
  exact h

theorem Stops.takeWhile_eq_nil {rest : List Char} (h : Stops rest) :
    rest.takeWhile inAtom = [] := by
  cases rest with
  | nil => rfl
  | cons c rest => rw [List.takeWhile_cons_of_neg (by simp [h c rfl])]

theorem Stops.dropWhile_eq {rest : List Char} (h : Stops rest) : rest.dropWhile inAtom = rest := by
  cases rest with
  | nil => rfl
  | cons c rest => rw [List.dropWhile_cons_of_neg (by simp [h c rfl])]

theorem tokens?_word (word : List Char) {rest : List Char} {value : Json} (hne : word ≠ [])
    (hword : word.all inAtom = true) (hread : readAtom? word = some value)
    (hrest : Stops rest) : tokens? (word ++ rest) = (tokens? rest).map (.atom value :: ·) := by
  obtain ⟨c, more, rfl⟩ := List.exists_cons_of_ne_nil hne
  obtain ⟨hc, hmore⟩ := List.forall_mem_cons.1 (List.all_eq_true.1 hword)
  obtain ⟨⟨hgap, hmark⟩, hquote⟩ : (isGap c = false ∧ markOf? c = none) ∧ c ≠ '"' := by
    simpa [inAtom] using hc
  have htake : (more ++ rest).takeWhile inAtom = more := by
    rw [List.takeWhile_append_of_pos hmore, hrest.takeWhile_eq_nil, List.append_nil]
  have hdrop : (more ++ rest).dropWhile inAtom = rest := by
    rw [List.dropWhile_append_of_pos hmore, hrest.dropWhile_eq]
  rw [List.cons_append, tokens?, if_neg (by simp [hgap]), if_neg hquote, hmark]
  simp only [htake, hdrop, hread]

/-- The text of a value is cut into its tokens, wherever it stands. -/
def Cuts (j : Json) : Prop :=
  ∀ depth rest, Stops rest →
    tokens? (writeIndented depth j ++ rest) = (tokens? rest).map (toTokens j ++ ·)

theorem stops_writeIndentedItems (depth : Nat) (items : List Json) (rest : List Char) :
    Stops (writeIndentedItems depth items ++ rest) := by
  cases items with
  | nil => exact stops_cons (by decide) _
  | cons item more => exact stops_cons (by decide) _

theorem stops_writeIndentedMembers (depth : Nat) (members : List (String × Json))
    (rest : List Char) : Stops (writeIndentedMembers depth members ++ rest) := by
  cases members with
  | nil => exact stops_cons (by decide) _
  | cons m more => exact stops_cons (by decide) _

theorem tokens?_writeIndentedItems {items : List Json} (h : ∀ item ∈ items, Cuts item)
    (depth : Nat) (rest : List Char) : tokens? (writeIndentedItems depth items ++ rest) =
      (tokens? rest).map (itemTokens items ++ ·) := by
  induction items with
  | nil =>
    rw [writeIndentedItems, List.append_assoc, tokens?_newLine]
    exact tokens?_mark rfl rest
  | cons item more ih =>
    obtain ⟨hitem, hmore⟩ := List.forall_mem_cons.1 h
    have htext : writeIndentedItems depth (item :: more) ++ rest = ',' :: (newLine (depth + 1) ++
        (writeIndented (depth + 1) item ++ (writeIndentedItems depth more ++ rest))) := by
      simp [writeIndentedItems]
    rw [htext, tokens?_mark rfl, tokens?_newLine, hitem _ _ (stops_writeIndentedItems _ _ _),
      ih hmore]
    simp [Function.comp_def, itemTokens]

theorem tokens?_member {value : Json} (h : Cuts value) (name : String) (depth : Nat)
    {rest : List Char} (hrest : Stops rest) :
    tokens? (writeString name ++ ':' :: ' ' :: writeIndented depth value ++ rest) =
      (tokens? rest).map fun ts => .text name :: .colon :: toTokens value ++ ts := by
  rw [List.append_assoc, tokens?_writeString, List.cons_append, tokens?_mark rfl, List.cons_append,
    tokens?_gap rfl, h depth rest hrest]
  simp [Function.comp_def]

theorem tokens?_writeIndentedMembers {members : List (String × Json)}
    (h : ∀ m ∈ members, Cuts m.2) (depth : Nat) (rest : List Char) :
    tokens? (writeIndentedMembers depth members ++ rest) =
      (tokens? rest).map (memberTokens members ++ ·) := by
  induction members with
  | nil =>
    rw [writeIndentedMembers, List.append_assoc, tokens?_newLine]
    exact tokens?_mark rfl rest
  | cons m more ih =>
    obtain ⟨name, value⟩ := m
    obtain ⟨hvalue, hmore⟩ := List.forall_mem_cons.1 h
    have htext : writeIndentedMembers depth ((name, value) :: more) ++ rest =
        ',' :: (newLine (depth + 1) ++ (writeString name ++ ':' :: ' ' ::
          writeIndented (depth + 1) value ++ (writeIndentedMembers depth more ++ rest))) := by
      simp [writeIndentedMembers]
    rw [htext, tokens?_mark rfl, tokens?_newLine,
      tokens?_member hvalue name _ (stops_writeIndentedMembers _ _ _), ih hmore]
    simp [Function.comp_def, memberTokens]

theorem inAtom_of_isDigit {c : Char} (h : isDigit c = true) : inAtom c = true := by
  have hne {d : Char} (hd : isDigit d = false) : c ≠ d := ne_of_isDigit h hd
  have hmark : markOf? c = none := by
    unfold markOf?
    split <;> first | rfl | exact absurd rfl (hne rfl)
  have hgap : isGap c = false := by
    simp [isGap, hne (d := ' ') rfl, hne (d := '\t') rfl, hne (d := '\n') rfl, hne (d := '\r') rfl]
  simp [inAtom, hgap, hmark, hne (d := '"') rfl]

theorem tokens?_toDigits {n : Nat} (h : n < UInt64.size) {rest : List Char} (hrest : Stops rest) :
    tokens? (Nat.toDigits 10 n ++ rest) = (tokens? rest).map (.atom (.integer n) :: ·) :=
  tokens?_word _ Nat.toDigits_ne_nil
    (List.all_eq_true.2 fun _ hc => inAtom_of_isDigit (isDigit_of_mem_toDigits hc))
    (readAtom?_toDigits h) hrest

/-- **The text of a value is cut into its tokens.** -/
theorem Readable.cuts {height : Nat} {j : Json} (h : Readable height j) : Cuts j := by
  -- What is inside is cut by induction, and what stands behind the first item by the lists above.
  induction h with
  | null => exact fun _ _ hrest => tokens?_word "null".toList (by decide) (by decide) rfl hrest
  | bool b =>
    cases b with
    | false => exact fun _ _ hrest => tokens?_word "false".toList (by decide) (by decide) rfl hrest
    | true => exact fun _ _ hrest => tokens?_word "true".toList (by decide) (by decide) rfl hrest
  | integer h => exact fun _ _ hrest => tokens?_toDigits h hrest
  | string s => exact fun _ rest _ => tokens?_writeString s rest
  | @array height items _ ih =>
    intro depth rest _
    cases items with
    | nil =>
      show tokens? ('[' :: ']' :: rest) = _
      rw [tokens?_mark rfl, tokens?_mark rfl]
      simp [Function.comp_def, toTokens]
    | cons item more =>
      obtain ⟨hitem, hmore⟩ := List.forall_mem_cons.1 ih
      have htext : writeIndented depth (.array (item :: more)) ++ rest =
          '[' :: (newLine (depth + 1) ++ (writeIndented (depth + 1) item ++
            (writeIndentedItems depth more ++ rest))) := by
        simp [writeIndented]
      rw [htext, tokens?_mark rfl, tokens?_newLine, hitem _ _ (stops_writeIndentedItems _ _ _),
        tokens?_writeIndentedItems hmore]
      simp [Function.comp_def, toTokens]
  | @object height members _ ih =>
    intro depth rest _
    cases members with
    | nil =>
      show tokens? ('\x7b' :: '\x7d' :: rest) = _
      rw [tokens?_mark rfl, tokens?_mark rfl]
      simp [Function.comp_def, toTokens]
    | cons m more =>
      obtain ⟨name, value⟩ := m
      obtain ⟨hvalue, hmore⟩ := List.forall_mem_cons.1 ih
      have htext : writeIndented depth (.object ((name, value) :: more)) ++ rest =
          '\x7b' :: (newLine (depth + 1) ++ (writeString name ++ ':' :: ' ' ::
            writeIndented (depth + 1) value ++ (writeIndentedMembers depth more ++ rest))) := by
        simp [writeIndented]
      rw [htext, tokens?_mark rfl, tokens?_newLine,
        tokens?_member hvalue name _ (stops_writeIndentedMembers _ _ _),
        tokens?_writeIndentedMembers hmore]
      simp [Function.comp_def, toTokens]

/-! ### From the tokens to the value -/

/-- The tokens of a value are taken as the value, whatever is open. Where an array may still end
instead, they are taken alike, for no value starts with the end of an array. -/
def Runs (j : Json) : Prop :=
  ∀ stack orClose ts, run? stack (.value orClose) (toTokens j ++ ts) = run? stack (.behind j) ts

theorem run?_cons {stack stack' : List Open} {next next' : Next} {token : Token}
    (h : step? stack next token = some (stack', next')) (ts : List Token) :
    run? stack next (token :: ts) = run? stack' next' ts := by
  rw [run?, h]

theorem run?_itemTokens {items : List Json} (h : ∀ item ∈ items, Runs item) (stack : List Open)
    (taken : List Json) (last : Json) (ts : List Token) :
    run? (.array taken :: stack) (.behind last) (itemTokens items ++ ts) =
      run? stack (.behind (.array ((last :: taken).reverse ++ items))) ts := by
  induction items generalizing taken last with
  | nil =>
    rw [itemTokens, List.append_nil]
    exact run?_cons rfl ts
  | cons item more ih =>
    obtain ⟨hitem, hmore⟩ := List.forall_mem_cons.1 h
    simp only [itemTokens, List.cons_append, List.append_assoc]
    rw [run?_cons rfl, hitem, ih hmore]
    simp

theorem run?_memberTokens {members : List (String × Json)} (h : ∀ m ∈ members, Runs m.2)
    (stack : List Open) (taken : List (String × Json)) (name : String) (last : Json)
    (ts : List Token) :
    run? (.member taken name :: stack) (.behind last) (memberTokens members ++ ts) =
      run? stack (.behind (.object (((name, last) :: taken).reverse ++ members))) ts := by
  induction members generalizing taken name last with
  | nil =>
    rw [memberTokens, List.append_nil]
    exact run?_cons rfl ts
  | cons m more ih =>
    obtain ⟨hvalue, hmore⟩ := List.forall_mem_cons.1 h
    simp only [memberTokens, List.cons_append, List.append_assoc]
    rw [run?_cons rfl, run?_cons rfl, run?_cons rfl, hvalue, ih hmore]
    simp

/-- **The tokens of a value are taken as the value.** -/
theorem Readable.runs {height : Nat} {j : Json} (h : Readable height j) : Runs j := by
  induction h with
  | null | bool | integer | string => exact fun stack _ ts => run?_cons rfl ts
  | @array height items _ ih =>
    intro stack orClose ts
    cases items with
    | nil =>
      rw [toTokens, List.cons_append, run?_cons rfl]
      exact run?_cons rfl ts
    | cons item more =>
      obtain ⟨hitem, hmore⟩ := List.forall_mem_cons.1 ih
      simp only [toTokens, List.cons_append, List.append_assoc]
      rw [run?_cons rfl, hitem, run?_itemTokens hmore]
      rfl
  | @object height members _ ih =>
    intro stack orClose ts
    cases members with
    | nil =>
      rw [toTokens, List.cons_append, run?_cons rfl]
      exact run?_cons rfl ts
    | cons m more =>
      obtain ⟨hvalue, hmore⟩ := List.forall_mem_cons.1 ih
      simp only [toTokens, List.cons_append, List.append_assoc]
      rw [run?_cons rfl, run?_cons rfl, run?_cons rfl, hvalue, run?_memberTokens hmore]
      rfl

/-! ### How much is open at once -/

theorem isShallow_itemTokens {depth : Nat} {items : List Json}
    (h : ∀ item ∈ items, ∀ ts,
      isShallow (depth + 1) (toTokens item ++ ts) = isShallow (depth + 1) ts)
    (ts : List Token) : isShallow (depth + 1) (itemTokens items ++ ts) = isShallow depth ts := by
  induction items with
  | nil => rfl
  | cons item more ih =>
    obtain ⟨hitem, hmore⟩ := List.forall_mem_cons.1 h
    simp only [itemTokens, List.cons_append, List.append_assoc, isShallow, hitem, ih hmore]

theorem isShallow_memberTokens {depth : Nat} {members : List (String × Json)}
    (h : ∀ m ∈ members, ∀ ts,
      isShallow (depth + 1) (toTokens m.2 ++ ts) = isShallow (depth + 1) ts)
    (ts : List Token) :
    isShallow (depth + 1) (memberTokens members ++ ts) = isShallow depth ts := by
  induction members with
  | nil => rfl
  | cons m more ih =>
    obtain ⟨hvalue, hmore⟩ := List.forall_mem_cons.1 h
    simp only [memberTokens, List.cons_append, List.append_assoc, isShallow, hvalue, ih hmore]

/-- What a value opens it closes, and what is open in between it bounds by its height. -/
theorem Readable.isShallow_append {height : Nat} {j : Json} (h : Readable height j) :
    ∀ depth, depth + height ≤ maxDepth → ∀ ts,
      isShallow depth (toTokens j ++ ts) = isShallow depth ts := by
  induction h with
  | null | bool | integer | string => exact fun _ _ _ => rfl
  | @array height items _ ih =>
    intro depth hdepth ts
    have hopen : decide (depth < maxDepth) = true := decide_eq_true (by omega)
    have hitems : ∀ item ∈ items, ∀ ts,
        isShallow (depth + 1) (toTokens item ++ ts) = isShallow (depth + 1) ts :=
      fun item hitem => ih item hitem (depth + 1) (by omega)
    cases items with
    | nil => simp [toTokens, isShallow, hopen]
    | cons item more =>
      obtain ⟨hitem, hmore⟩ := List.forall_mem_cons.1 hitems
      simp [toTokens, isShallow, hopen, hitem, isShallow_itemTokens hmore]
  | @object height members _ ih =>
    intro depth hdepth ts
    have hopen : decide (depth < maxDepth) = true := decide_eq_true (by omega)
    have hmembers : ∀ m ∈ members, ∀ ts,
        isShallow (depth + 1) (toTokens m.2 ++ ts) = isShallow (depth + 1) ts :=
      fun m hm => ih m hm (depth + 1) (by omega)
    cases members with
    | nil => simp [toTokens, isShallow, hopen]
    | cons m more =>
      obtain ⟨hvalue, hmore⟩ := List.forall_mem_cons.1 hmembers
      simp [toTokens, isShallow, hopen, hvalue, isShallow_memberTokens hmore]

/-! ### The whole text -/

/-- A text that is cut into the tokens of a value is read as the value. -/
theorem read?_of_tokens? {j : Json} (h : Readable maxDepth j) {text : String}
    (htokens : tokens? text.toList = some (toTokens j)) : read? text = some j := by
  have hshallow : isShallow 0 (toTokens j) = true := by
    simpa [isShallow] using h.isShallow_append 0 (by omega) []
  have hrun : run? [] (.value false) (toTokens j) = some j := by
    simpa [run?] using h.runs [] false []
  rw [read?, htokens]
  simp only [hshallow, if_true, hrun]

/-- **The indented text of a value is read as the value,** with blanks behind it or not. -/
theorem read?_indented_append {j : Json} (h : Readable maxDepth j) (blanks : String)
    (hblanks : blanks.toList.all isGap = true) : read? (j.indented ++ blanks) = some j := by
  have hgap : ∀ cs : List Char, (∀ c ∈ cs, isGap c = true) → Stops cs ∧ tokens? cs = some [] := by
    intro cs hcs
    induction cs with
    | nil => exact ⟨stops_nil, by rw [tokens?]⟩
    | cons c cs ih =>
      obtain ⟨hc, hcs⟩ := List.forall_mem_cons.1 hcs
      exact ⟨stops_cons (by simp [inAtom, hc]) cs, by rw [tokens?_gap hc, (ih hcs).2]⟩
  obtain ⟨hstops, hnone⟩ := hgap _ (List.all_eq_true.1 hblanks)
  have htokens : tokens? (j.indented ++ blanks).toList = some (toTokens j) := by
    rw [String.toList_append, indented, String.toList_ofList, h.cuts 0 _ hstops, hnone]
    simp
  exact read?_of_tokens? h htokens

theorem exists_writeIndentedMembers (depth : Nat) (members : List (String × Json)) :
    ∃ body, writeIndentedMembers depth members = body ++ ['\x7d'] := by
  induction members with
  | nil => exact ⟨newLine depth, rfl⟩
  | cons m more ih =>
    obtain ⟨body, hbody⟩ := ih
    rw [writeIndentedMembers, hbody, ← List.append_assoc]
    exact ⟨_, rfl⟩

/-- The text of an object stands between its braces. -/
theorem exists_indented_object (members : List (String × Json)) :
    ∃ body, (object members).indented.toList = '\x7b' :: body ++ ['\x7d'] := by
  rw [indented, String.toList_ofList]
  cases members with
  | nil => exact ⟨[], rfl⟩
  | cons m more =>
    obtain ⟨body, hbody⟩ := exists_writeIndentedMembers 0 more
    rw [writeIndented, hbody, ← List.append_assoc]
    exact ⟨_, rfl⟩

end AbiGate.Json
