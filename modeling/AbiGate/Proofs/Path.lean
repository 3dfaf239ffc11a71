/-
# Paths below a directory

A path that is joined to a directory's path spells the directory's pieces first and then its own,
and nothing about its own pieces depends on the directory. So as seen from that directory it is the
same path again, less what names nothing at its two ends; and so is its extension.

Key definitions: `Path.IsPiece`, `Path.front`, `Path.trimmed`.
Key theorems: `Path.pieces_join`, `Path.join_assoc`, `Path.join_foldl_child`,
`Path.components_join`, `Path.relativeTo_join`, `Path.extension?_join`.
-/
import AbiGate.Path
import Mathlib.Data.List.Basic

namespace AbiGate

namespace Path

/-! ### Pieces -/

theorem cutAtSlashes_ne_nil (text : List Char) : cutAtSlashes text ≠ [] := by
  fun_cases cutAtSlashes text <;> simp

/-- A character that is no slash belongs to the first piece behind it. -/
theorem cutAtSlashes_cons {c : Char} (hc : c ≠ '/') (rest : List Char) :
    ∃ piece more, cutAtSlashes rest = piece :: more ∧
      cutAtSlashes (c :: rest) = (c :: piece) :: more := by
  obtain ⟨piece, more, hmore⟩ := List.exists_cons_of_ne_nil (cutAtSlashes_ne_nil rest)
  refine ⟨piece, more, hmore, ?_⟩
  rw [cutAtSlashes.eq_3 _ _ hc, hmore]

theorem cutAtSlashes_eq_splitOn : ∀ text : List Char, cutAtSlashes text = text.splitOn '/'
  | [] => rfl
  | c :: rest => by
    have ih := cutAtSlashes_eq_splitOn rest
    rw [List.splitOn, List.splitOnP_cons_eq_if_modifyHead, ← List.splitOn, ← ih]
    by_cases hc : c = '/'
    · rw [if_pos (by simpa using hc), hc, cutAtSlashes]
    · obtain ⟨piece, more, hrest, hall⟩ := cutAtSlashes_cons hc rest
      rw [if_neg (by simpa using hc), hall, hrest, List.modifyHead_cons]

theorem cutAtSlashes_append (text behind : List Char) :
    cutAtSlashes (text ++ '/' :: behind) = cutAtSlashes text ++ cutAtSlashes behind := by
  simp only [cutAtSlashes_eq_splitOn, List.splitOn]
  exact List.splitOnP_append_cons text behind (by simp)

theorem not_mem_of_mem_cutAtSlashes : ∀ {text piece : List Char},
    piece ∈ cutAtSlashes text → '/' ∉ piece
  | [], piece, h => by
    obtain rfl := List.mem_singleton.1 h
    exact List.not_mem_nil
  | c :: rest, piece, h => by
    by_cases hc : c = '/'
    · rw [hc, cutAtSlashes] at h
      rcases List.mem_cons.1 h with rfl | h
      · exact List.not_mem_nil
      · exact not_mem_of_mem_cutAtSlashes h
    · obtain ⟨first, more, hrest, hall⟩ := cutAtSlashes_cons hc rest
      rw [hall] at h
      have hin : ∀ piece ∈ first :: more, '/' ∉ piece := fun piece hpiece =>
        not_mem_of_mem_cutAtSlashes (hrest ▸ hpiece)
      rcases List.mem_cons.1 h with rfl | h
      · rw [List.mem_cons, not_or]
        exact ⟨Ne.symm hc, hin first List.mem_cons_self⟩
      · exact hin piece (List.mem_cons_of_mem _ h)

/-- A piece between two slashes. -/
def IsPiece (piece : String) : Prop :=
  '/' ∉ piece.toList

theorem isPiece_of_mem_pieces {p : Path} {piece : String} (h : piece ∈ p.pieces) :
    IsPiece piece := by
  obtain ⟨letters, hletters, rfl⟩ := List.mem_map.1 h
  rw [IsPiece, String.toList_ofList]
  exact not_mem_of_mem_cutAtSlashes hletters

theorem pieces_ne_nil (p : Path) : p.pieces ≠ [] :=
  fun hnil => cutAtSlashes_ne_nil _ (List.map_eq_nil_iff.1 hnil)

/-- Pieces that are put together with slashes are found again. -/
theorem pieces_intercalate {pieces : List String} (hne : pieces ≠ [])
    (h : ∀ piece ∈ pieces, IsPiece piece) : Path.pieces ⟨"/".intercalate pieces⟩ = pieces := by
  have hcut : ∀ letters ∈ pieces.map String.toList, '/' ∉ letters := by
    intro letters hletters
    obtain ⟨piece, hpiece, rfl⟩ := List.mem_map.1 hletters
    exact h piece hpiece
  have hslash : "/".toList = ['/'] := rfl
  rw [Path.pieces, String.toList_intercalate, hslash, cutAtSlashes_eq_splitOn,
    List.splitOn_intercalate '/' hcut (by simpa using hne), List.map_map]
  exact List.map_id'' (fun _ => String.ofList_toList) pieces

theorem pieces_of_isPiece {name : String} (h : IsPiece name) : Path.pieces ⟨name⟩ = [name] :=
  pieces_intercalate (List.cons_ne_nil name []) (List.forall_mem_singleton.2 h)

/-! ### Joining -/

/-- A text with a slash at its end, unless it is empty. -/
def slashed (text : List Char) : List Char :=
  if text = [] ∨ text.getLast? = some '/' then text else text ++ ['/']

theorem slashed_eq_concat {text : List Char} (h : text ≠ []) :
    ∃ before, slashed text = before ++ ['/'] := by
  unfold slashed
  split
  · next hend =>
    exact List.getLast?_eq_some_iff.1 (hend.resolve_left h)
  · exact ⟨text, rfl⟩

theorem slashed_append (text : List Char) {behind : List Char} (h : behind ≠ []) :
    slashed (text ++ behind) = text ++ slashed behind := by
  have hend : (text ++ behind).getLast? = behind.getLast? :=
    List.getLast?_append_of_ne_nil text h
  unfold slashed
  simp only [hend, List.append_eq_nil_iff, h, and_false, false_or]
  split
  · rfl
  · exact List.append_assoc ..

theorem slashed_slashed (text : List Char) : slashed (slashed text) = slashed text := by
  by_cases h : text = []
  · rw [h]
    rfl
  · obtain ⟨before, hbefore⟩ := slashed_eq_concat h
    rw [hbefore, slashed, if_pos (.inr (List.getLast?_concat ..))]

theorem toList_text_join (p : Path) {q : Path} (hq : q.isAbsolute = false) :
    (p.join q).text.toList = slashed p.text.toList ++ q.text.toList := by
  have hq' : ¬q.isAbsolute = true := by simp [hq]
  have hempty : p.text.isEmpty = true ↔ p.text.toList = [] := by
    rw [String.isEmpty_iff, String.toList_eq_nil_iff]
  unfold join slashed
  rw [if_neg hq']
  simp only [hempty]
  split
  · exact String.toList_append
  · simp [String.toList_append]

theorem slashed_join (p : Path) {q : Path} (hq : q.isAbsolute = false) :
    slashed (p.join q).text.toList = slashed p.text.toList ++ slashed q.text.toList := by
  rw [toList_text_join p hq]
  by_cases h : q.text.toList = []
  · rw [h, List.append_nil, slashed_slashed]
    exact (List.append_nil _).symm
  · exact slashed_append _ h

theorem isAbsolute_join (p : Path) {q : Path} (hq : q.isAbsolute = false) :
    (p.join q).isAbsolute = p.isAbsolute := by
  have htext := toList_text_join p hq
  unfold isAbsolute at hq ⊢
  rw [htext, slashed]
  cases p.text.toList with
  | nil => rw [if_pos (.inl rfl), List.nil_append, hq]; rfl
  | cons c rest => split <;> rfl

theorem join_assoc (p : Path) {q r : Path} (hq : q.isAbsolute = false)
    (hr : r.isAbsolute = false) : (p.join q).join r = p.join (q.join r) := by
  have htext : ((p.join q).join r).text.toList = (p.join (q.join r)).text.toList := by
    have hqr : (q.join r).isAbsolute = false := (isAbsolute_join q hr).trans hq
    rw [toList_text_join _ hr, slashed_join p hq, toList_text_join p hqr, toList_text_join q hr,
      List.append_assoc]
  exact congrArg Path.mk (String.toList_inj.1 htext)

/-! ### Pieces of a joined path -/

/-- The pieces that a path has before those of one that is joined to it. -/
def front (p : Path) : List String :=
  (cutAtSlashes (slashed p.text.toList)).dropLast.map String.ofList

theorem cutAtSlashes_concat (text : List Char) :
    cutAtSlashes (text ++ ['/']) = cutAtSlashes text ++ [[]] :=
  cutAtSlashes_append text []

theorem cutAtSlashes_slashed_append (text behind : List Char) :
    cutAtSlashes (slashed text ++ behind) =
      (cutAtSlashes (slashed text)).dropLast ++ cutAtSlashes behind := by
  by_cases h : text = []
  · rw [h]
    rfl
  · obtain ⟨before, hbefore⟩ := slashed_eq_concat h
    rw [hbefore, cutAtSlashes_concat, List.dropLast_concat, List.append_assoc,
      List.singleton_append, cutAtSlashes_append]

theorem pieces_join (p : Path) {q : Path} (hq : q.isAbsolute = false) :
    (p.join q).pieces = p.front ++ q.pieces := by
  rw [pieces, toList_text_join p hq, cutAtSlashes_slashed_append, List.map_append]
  rfl

theorem front_join (p : Path) {q : Path} (hq : q.isAbsolute = false) :
    (p.join q).front = p.front ++ q.front := by
  rw [front, slashed_join p hq, cutAtSlashes_slashed_append,
    List.dropLast_append_of_ne_nil (cutAtSlashes_ne_nil _), List.map_append]
  rfl

/-- A path has one more piece than its front only if that is empty. -/
theorem pieces_eq_front (p : Path) : p.pieces = p.front ∨ p.pieces = p.front ++ [""] := by
  unfold pieces front slashed
  split
  · next hend =>
    right
    rcases hend with hnil | hlast
    · rw [hnil]
      rfl
    · obtain ⟨before, hbefore⟩ := List.getLast?_eq_some_iff.1 hlast
      rw [hbefore, cutAtSlashes_concat, List.dropLast_concat, List.map_append]
      rfl
  · left
    rw [cutAtSlashes_concat, List.dropLast_concat]

theorem front_ne_nil {p : Path} (h : p.text ≠ "") : p.front ≠ [] := by
  have htext : p.text.toList ≠ [] := fun hnil => h (String.toList_eq_nil_iff.1 hnil)
  obtain ⟨before, hbefore⟩ := slashed_eq_concat htext
  rw [front, hbefore, cutAtSlashes_concat, List.dropLast_concat]
  exact fun hnil => cutAtSlashes_ne_nil _ (List.map_eq_nil_iff.1 hnil)

/-! ### Names below a path -/

theorem isAbsolute_of_isPiece {name : String} (h : IsPiece name) :
    isAbsolute ⟨name⟩ = false := by
  unfold isAbsolute
  rw [decide_eq_false_iff_not]
  intro hslash
  exact h (List.mem_of_mem_head? hslash)

theorem front_of_isPiece {name : String} (h : IsPiece name) (hne : name ≠ "") :
    front ⟨name⟩ = [name] := by
  rcases pieces_eq_front ⟨name⟩ with hfront | hfront
  · rw [← hfront, pieces_of_isPiece h]
  · rw [pieces_of_isPiece h] at hfront
    have hnil : front ⟨name⟩ = [] := by
      have hlength := congrArg List.length hfront
      simpa using hlength.symm
    exact absurd hnil (front_ne_nil hne)

theorem isAbsolute_child (p : Path) {name : String} (h : IsPiece name) :
    (p.child name).isAbsolute = p.isAbsolute :=
  isAbsolute_join p (isAbsolute_of_isPiece h)

theorem isAbsolute_foldl_child (p : Path) {names : List String}
    (h : ∀ name ∈ names, IsPiece name) : (names.foldl child p).isAbsolute = p.isAbsolute := by
  induction names generalizing p with
  | nil => rfl
  | cons name rest ih =>
    obtain ⟨hname, hrest⟩ := List.forall_mem_cons.1 h
    exact (ih (p.child name) hrest).trans (isAbsolute_child p hname)

/-- Names below a joined path are names below the path that was joined. -/
theorem join_foldl_child (p : Path) {names : List String} {q : Path} (hq : q.isAbsolute = false)
    (h : ∀ name ∈ names, IsPiece name) :
    names.foldl child (p.join q) = p.join (names.foldl child q) := by
  induction names generalizing q with
  | nil => rfl
  | cons name rest ih =>
    obtain ⟨hname, hrest⟩ := List.forall_mem_cons.1 h
    have hstep : (p.join q).child name = p.join (q.child name) :=
      join_assoc p hq (isAbsolute_of_isPiece hname)
    rw [List.foldl_cons, List.foldl_cons, hstep]
    exact ih ((isAbsolute_child q hname).trans hq) hrest

theorem pieces_foldl_child {names : List String} {p : Path} (hne : names ≠ [])
    (h : ∀ name ∈ names, IsPiece name ∧ name ≠ "") :
    (names.foldl child p).pieces = p.front ++ names := by
  induction names generalizing p with
  | nil => exact absurd rfl hne
  | cons name rest ih =>
    obtain ⟨⟨hname, hnamed⟩, hrest⟩ := List.forall_mem_cons.1 h
    have hrelative := isAbsolute_of_isPiece hname
    rw [List.foldl_cons]
    by_cases hlast : rest = []
    · rw [hlast, List.foldl_nil, child, pieces_join p hrelative, pieces_of_isPiece hname]
    · rw [ih hlast hrest, child, front_join p hrelative, front_of_isPiece hname hnamed,
        List.append_assoc, List.singleton_append]

/-- The names below a path do not change what it starts with. -/
theorem head?_pieces_foldl_child {names : List String} {p : Path} (hp : p.text ≠ "")
    (h : ∀ name ∈ names, IsPiece name ∧ name ≠ "") :
    (names.foldl child p).pieces.head? = p.pieces.head? := by
  by_cases hnil : names = []
  · rw [hnil, List.foldl_nil]
  · obtain ⟨first, rest, hfront⟩ := List.exists_cons_of_ne_nil (front_ne_nil hp)
    rw [pieces_foldl_child hnil h]
    rcases pieces_eq_front p with hpieces | hpieces <;> rw [hpieces, hfront] <;> rfl

/-! ### Length -/

theorem utf8ByteSize_lt_child (p : Path) {name : String} (h : IsPiece name) (hne : name ≠ "") :
    p.text.utf8ByteSize < (p.child name).text.utf8ByteSize := by
  have hsize : 0 < name.utf8ByteSize := by
    rw [Nat.pos_iff_ne_zero, Ne, String.utf8ByteSize_eq_zero_iff]
    exact hne
  unfold child join
  rw [if_neg (by simp [isAbsolute_of_isPiece h])]
  split <;> simp only [String.utf8ByteSize_append] <;> omega

/-- A path is at least as long as there are names in it. -/
theorem add_length_le_utf8ByteSize (p : Path) {names : List String}
    (h : ∀ name ∈ names, IsPiece name ∧ name ≠ "") :
    p.text.utf8ByteSize + names.length ≤ (names.foldl child p).text.utf8ByteSize := by
  induction names generalizing p with
  | nil => exact Nat.le_refl _
  | cons name rest ih =>
    obtain ⟨⟨hpiece, hne⟩, hrest⟩ := List.forall_mem_cons.1 h
    have hfirst := utf8ByteSize_lt_child p hpiece hne
    have hmore := ih (p.child name) hrest
    rw [List.foldl_cons, List.length_cons]
    omega

/-! ### Seen from a directory -/

/-- Whether a piece behind the start of a path names a component. -/
def isNamed (piece : String) : Bool :=
  (componentOf? piece).isSome

/-- A path without what names nothing at its ends. -/
def trimmed (p : Path) : Path :=
  ⟨"/".intercalate ((p.pieces.dropWhile (!isNamed ·)).reverse.dropWhile (!isNamed ·)).reverse⟩

theorem innerComponents_append (pieces more : List String) :
    innerComponents (pieces ++ more) = innerComponents pieces ++ innerComponents more :=
  List.filterMap_append

theorem innerComponents_cons (piece : String) (rest : List String) :
    innerComponents (piece :: rest) = innerComponents [piece] ++ innerComponents rest :=
  innerComponents_append [piece] rest

theorem innerComponents_of_isNamed {piece : String} (h : isNamed piece = true) :
    ∃ component, componentOf? piece = some component ∧ innerComponents [piece] = [component] := by
  obtain ⟨component, hcomponent⟩ := Option.isSome_iff_exists.1 h
  exact ⟨component, hcomponent, by simp [innerComponents, hcomponent]⟩

theorem innerComponents_of_not_isNamed {piece : String} (h : ¬isNamed piece = true) :
    innerComponents [piece] = [] := by
  have hnone : componentOf? piece = none := by
    simpa [isNamed] using h
  simp [innerComponents, hnone]

/-- The component at the start of a path whose first piece this is. -/
def start (first : String) : Component :=
  if first = "" then .top else if first = "." then .here else (componentOf? first).getD .here

theorem components_of_pieces {p : Path} {first : String} {rest : List String}
    (h : p.pieces = first :: rest) (hne : p.pieces ≠ [""]) :
    p.components = start first :: innerComponents rest := by
  unfold components
  split
  · next hpieces => exact absurd hpieces hne
  · next hpieces =>
    cases hpieces.symm.trans h
    rfl
  · next hpieces =>
    cases hpieces.symm.trans h
    rfl
  · next htop hhere =>
    have hfirst : first ≠ "" ∧ first ≠ "." :=
      ⟨fun hempty => htop rest (hempty ▸ h), fun hdot => hhere rest (hdot ▸ h)⟩
    have hnamed : isNamed first = true := by
      unfold isNamed componentOf?
      rw [if_neg (by simp [hfirst])]
      split <;> rfl
    obtain ⟨component, hcomponent, hinner⟩ := innerComponents_of_isNamed hnamed
    rw [h, innerComponents_cons, hinner, start, if_neg hfirst.1, if_neg hfirst.2, hcomponent]
    rfl

theorem pieces_ne_of_text_ne {p : Path} (h : p.text ≠ "") : p.pieces ≠ [""] := by
  have htext : p.text.toList ≠ [] := fun hnil => h (String.toList_eq_nil_iff.1 hnil)
  obtain ⟨c, rest, hcons⟩ := List.exists_cons_of_ne_nil htext
  intro hpieces
  rw [pieces, hcons] at hpieces
  by_cases hc : c = '/'
  · rw [hc, cutAtSlashes, List.map_cons] at hpieces
    exact cutAtSlashes_ne_nil rest (List.map_eq_nil_iff.1 (List.cons.inj hpieces).2)
  · obtain ⟨piece, more, -, hall⟩ := cutAtSlashes_cons hc rest
    rw [hall, List.map_cons] at hpieces
    have hempty := congrArg String.toList (List.cons.inj hpieces).1
    simp at hempty

/-- A path has the components of its front. -/
theorem exists_front {p : Path} (hp : p.text ≠ "") : ∃ first rest, p.front = first :: rest ∧
    p.components = start first :: innerComponents rest := by
  obtain ⟨first, rest, hfront⟩ := List.exists_cons_of_ne_nil (front_ne_nil hp)
  refine ⟨first, rest, hfront, ?_⟩
  rcases pieces_eq_front p with hpieces | hpieces
  · exact components_of_pieces (hpieces.trans hfront) (pieces_ne_of_text_ne hp)
  · have hmore : p.pieces = first :: (rest ++ [""]) := by
      rw [hpieces, hfront]
      rfl
    rw [components_of_pieces hmore (pieces_ne_of_text_ne hp), innerComponents_append]
    exact congrArg (start first :: ·) (List.append_nil _)

theorem components_join {p q : Path} (hp : p.text ≠ "") (hq : q.isAbsolute = false) :
    (p.join q).components = p.components ++ innerComponents q.pieces := by
  obtain ⟨first, rest, hfront, hcomponents⟩ := exists_front hp
  have hpieces : (p.join q).pieces = first :: (rest ++ q.pieces) := by
    rw [pieces_join p hq, hfront]
    rfl
  have hne : (p.join q).pieces ≠ [""] := by
    rw [hpieces]
    intro hone
    exact pieces_ne_nil q (List.append_eq_nil_iff.1 (List.cons.inj hone).2).2
  rw [components_of_pieces hpieces hne, innerComponents_append, hcomponents]
  rfl

theorem dropWhile_dropComponents : ∀ pieces more : List String,
    (dropComponents (innerComponents pieces).length (pieces ++ more)).dropWhile (!isNamed ·) =
      more.dropWhile (!isNamed ·)
  | [], more => by
    rw [innerComponents, List.filterMap_nil, List.length_nil, dropComponents, List.nil_append]
  | piece :: rest, more => by
    have ih := dropWhile_dropComponents rest more
    rw [innerComponents_cons]
    by_cases hpiece : isNamed piece = true
    · obtain ⟨component, -, hinner⟩ := innerComponents_of_isNamed hpiece
      rw [hinner, List.singleton_append, List.length_cons, List.cons_append, dropComponents,
        if_pos (show (componentOf? piece).isSome = true from hpiece), ih]
    · rw [innerComponents_of_not_isNamed hpiece, List.nil_append, List.cons_append]
      cases hn : (innerComponents rest).length with
      | zero =>
        rw [hn, dropComponents] at ih
        rw [dropComponents, List.dropWhile_cons_of_pos (by simpa using hpiece), ih]
      | succ n =>
        rw [hn] at ih
        rw [dropComponents, if_neg (show ¬(componentOf? piece).isSome = true from hpiece), ih]

/-- The pieces that are left behind a number of components, the first of which is that of the start
of the path. -/
def behind (n : Nat) (components : List Component) (pieces : List String) : List String :=
  match components with
  | .top :: _ => dropComponents (n - 1) (pieces.drop 1)
  | .here :: _ => dropComponents (n - 1) (pieces.drop 1)
  | _ => dropComponents n pieces

theorem behind_start (first : String) (n : Nat) (components : List Component)
    (pieces : List String) :
    behind (n + 1) (start first :: components) (first :: pieces) = dropComponents n pieces := by
  by_cases htop : first = ""
  · rw [htop]
    rfl
  by_cases hhere : first = "."
  · rw [hhere]
    rfl
  have hnot : ¬(first = "" ∨ first = ".") := not_or.2 ⟨htop, hhere⟩
  rw [start, if_neg htop, if_neg hhere, componentOf?, if_neg hnot]
  by_cases habove : first = ".."
  · rw [if_pos habove, habove]
    rfl
  · have hnamed : (componentOf? first).isSome = true := by
      rw [componentOf?, if_neg hnot, if_neg habove]
      rfl
    rw [if_neg habove]
    change dropComponents (n + 1) (first :: pieces) = _
    rw [dropComponents, if_pos hnamed]

theorem relativeTo_eq_of_take {p base : Path}
    (h : p.components.take base.components.length = base.components) (hne : base.components ≠ []) :
    p.relativeTo base = ⟨"/".intercalate
      (((behind base.components.length p.components p.pieces).dropWhile
        (!isNamed ·)).reverse.dropWhile (!isNamed ·)).reverse⟩ := by
  unfold relativeTo relativeTo?
  simp only [h, if_true]
  rw [if_neg (by simpa using hne)]
  rfl

/-- **Seen from a directory, a path that was joined to it is itself again,** trimmed. -/
theorem relativeTo_join {p q : Path} (hp : p.text ≠ "") (hq : q.isAbsolute = false) :
    (p.join q).relativeTo p = q.trimmed := by
  obtain ⟨first, rest, hfront, hcomponents⟩ := exists_front hp
  have hpieces : (p.join q).pieces = first :: (rest ++ q.pieces) := by
    rw [pieces_join p hq, hfront]
    rfl
  have hjoined := components_join hp hq
  -- The directory's components come first, so what is behind them is what is left of `q`; pieces
  -- of the directory that name nothing may stand before it, and are dropped.
  have htake : (p.join q).components.take p.components.length = p.components := by
    rw [hjoined, List.take_left]
  have hne : p.components ≠ [] := by
    rw [hcomponents]
    exact List.cons_ne_nil _ _
  rw [relativeTo_eq_of_take htake hne, hjoined, hpieces, hcomponents, List.length_cons,
    List.cons_append, behind_start, dropWhile_dropComponents]
  rfl

theorem extension?_join {p p' q : Path} (hp : p.text ≠ "") (hp' : p'.text ≠ "")
    (hq : q.isAbsolute = false) (hne : innerComponents q.pieces ≠ []) :
    (p.join q).extension? = (p'.join q).extension? := by
  unfold extension? fileName?
  rw [components_join hp hq, components_join hp' hq, List.getLast?_append_of_ne_nil _ hne,
    List.getLast?_append_of_ne_nil _ hne]

section

variable {p : Path} {before : List String} {name : String}

theorem dropWhile_concat (hname : isNamed name = true) :
    (before ++ [name]).dropWhile (!isNamed ·) = before.dropWhile (!isNamed ·) ++ [name] := by
  have hstop : [name].dropWhile (!isNamed ·) = [name] :=
    List.dropWhile_cons_of_neg (by simp [hname])
  rw [List.dropWhile_append, hstop]
  split
  · next hempty =>
    rw [List.isEmpty_iff.1 hempty]
    rfl
  · rfl

/-- A path that ends in a name loses only what stands before its first one. -/
theorem pieces_trimmed (h : p.pieces = before ++ [name]) (hname : isNamed name = true) :
    p.trimmed.pieces = p.pieces.dropWhile (!isNamed ·) := by
  have htrim : ((p.pieces.dropWhile (!isNamed ·)).reverse.dropWhile (!isNamed ·)).reverse =
      p.pieces.dropWhile (!isNamed ·) := by
    rw [h, dropWhile_concat hname, List.reverse_concat,
      List.dropWhile_cons_of_neg (by simp [hname]), ← List.reverse_concat, List.reverse_reverse]
  have hne : p.pieces.dropWhile (!isNamed ·) ≠ [] := by
    rw [h, dropWhile_concat hname]
    exact List.concat_ne_nil _ _
  rw [trimmed, htrim]
  refine pieces_intercalate hne fun piece hpiece => isPiece_of_mem_pieces (p := p) ?_
  exact (List.dropWhile_suffix _).subset hpiece

theorem isAbsolute_trimmed (h : p.pieces = before ++ [name]) (hname : isNamed name = true) :
    p.trimmed.isAbsolute = false := by
  unfold isAbsolute
  rw [decide_eq_false_iff_not]
  intro hslash
  obtain ⟨rest, hrest⟩ := List.head?_eq_some_iff.1 hslash
  have hpieces := pieces_trimmed h hname
  rw [pieces, hrest, cutAtSlashes, List.map_cons] at hpieces
  have hhead := List.head?_dropWhile_not (!isNamed ·) p.pieces
  rw [← hpieces] at hhead
  simp [isNamed, componentOf?] at hhead

end

end Path

end AbiGate
