import InfixArith.Proofs.Scanning.WellFormed

/-!
# The pieces of a text

`Piece text r` lists the texts that are pieces, each with its reading `r`: one character of white
space, the text of a token, one character that no token contains (`Unreadable`), and a run of
letters that names no function (`UnknownName`).  Every run is one of these (`piece_ofPiece`), and
alone it is scanned as its reading tells (`Piece.scan_eq`).  A text is one piece after the other, so
what holds of the empty text and passes from a text to the same text with one more piece before it
holds of every text (`piece_induction`).
-/

namespace InfixArith

/-- The character is in no token, and it is not white space. -/
structure Unreadable (c : Char) : Prop where
  /-- It is not white space. -/
  not_blank : isWhiteSpace c = false
  /-- It is no digit. -/
  not_digit : c.isDigit = false
  /-- It is no lower-case letter. -/
  not_lower : c.isLower = false
  /-- It is neither a parenthesis nor the symbol of a binary operator. -/
  not_operator : c ∉ Token.operatorSymbols
  /-- It is not the factorial sign. -/
  not_factorial : c ≠ factorialSymbol

/-- The text is made of lower-case letters, and no function is called so. -/
structure UnknownName (name : String) : Prop where
  /-- There is a letter. -/
  ne_empty : name ≠ ""
  /-- There is nothing but letters. -/
  isLower : ∀ c ∈ name.toList, c.isLower = true
  /-- It is the name of no function. -/
  ne_name : ∀ f : Func, name ≠ f.name

/-- The text is a piece, and it is read so. -/
inductive Piece : String → Reading → Prop
  /-- One character of white space. -/
  | blank {c : Char} (hc : isWhiteSpace c = true) : Piece (.singleton c) .blank
  /-- The text of a token. -/
  | token {t : Token} (ht : t.WellFormed) : Piece t.text (.token t)
  /-- One character that no token contains. -/
  | character {c : Char} (hc : Unreadable c) :
      Piece (.singleton c) (.failure (.unexpectedCharacter c))
  /-- A run of letters that is not the name of a function. -/
  | identifier {name : String} (hname : UnknownName name) :
      Piece name (.failure (.unexpectedIdentifier name))

/-- The scan of a text with one more piece before it, which is read so. -/
def Scan.prepend (r : Reading) (s : Scan) : Scan :=
  match r with
  | .blank => s
  | .token t => ⟨t :: s.tokens, s.error?⟩
  | .failure e => ⟨[], some e⟩

/-! ### What the pieces are -/

/-- A run of letters is a piece, either the name of a function or an unknown name. -/
theorem piece_ofName {name : String} (hne : name ≠ "")
    (hlower : ∀ c ∈ name.toList, c.isLower = true) : Piece name (Reading.ofName name) := by
  unfold Reading.ofName
  split
  · next f hf =>
    obtain rfl := Func.ofName?_eq_some_iff.1 hf
    exact .token (.function f)
  · next hf =>
    refine .identifier ⟨hne, hlower, ?_⟩
    rintro f rfl
    rw [Func.ofName?_name] at hf
    cases hf

/-- A character that is neither white space nor a digit nor a letter is a piece of its own. -/
theorem piece_ofSymbol {c : Char} (hblank : isWhiteSpace c = false) (hdigit : c.isDigit = false)
    (hlower : c.isLower = false) : Piece (.singleton c) (Reading.ofSymbol c) := by
  unfold Reading.ofSymbol
  by_cases hc : c ∈ Token.operatorSymbols
  · rw [if_pos hc]
    exact .token (wellFormed_operator hc)
  · rw [if_neg hc]
    by_cases hfactorial : c = factorialSymbol
    · rw [if_pos hfactorial, hfactorial]
      exact .token .factorial
    · rw [if_neg hfactorial]
      exact .character ⟨hblank, hdigit, hlower, hc, hfactorial⟩

/-- Every run is a piece and is read as such. -/
theorem piece_ofPiece {cs : List Char} (hne : cs ≠ [])
    (hcs : cs.IsChain fun c d => sameRun c d) : Piece (.ofList cs) (Reading.ofPiece cs) := by
  obtain ⟨c, cs, rfl⟩ := List.exists_cons_of_ne_nil hne
  rw [Reading.ofPiece]
  by_cases hblank : isWhiteSpace c = true
  · obtain ⟨hdigit, hlower⟩ := not_digit_not_lower_of_isWhiteSpace hblank
    rw [if_pos hblank, eq_nil_of_isChain hcs hdigit hlower, ← String.singleton_eq_ofList]
    exact .blank hblank
  rw [if_neg hblank]
  by_cases hdigit : c.isDigit = true
  · have hdigits : ∀ d ∈ c :: cs, d.isDigit = true := isDigit_of_isChain hcs hdigit
    have hwell : (Token.number (.ofList (c :: cs))).WellFormed :=
      .number (by simp) (by rwa [String.toList_ofList])
    rw [if_pos hdigit]
    exact .token hwell
  rw [if_neg hdigit]
  by_cases hlower : c.isLower = true
  · have hletters : ∀ d ∈ c :: cs, d.isLower = true := isLower_of_isChain hcs hlower
    rw [if_pos hlower]
    exact piece_ofName (by simp) (by rwa [String.toList_ofList])
  rw [if_neg hlower]
  rw [Bool.not_eq_true] at hblank hdigit hlower
  rw [eq_nil_of_isChain hcs hdigit hlower, ← String.singleton_eq_ofList]
  exact piece_ofSymbol hblank hdigit hlower

/-! ### How a piece is scanned -/

/-- An unknown name has letters. -/
theorem UnknownName.toList_ne_nil {name : String} (h : UnknownName name) : name.toList ≠ [] :=
  fun hnil => h.ne_empty (String.toList_eq_nil_iff.1 hnil)

/-- An unknown name is read as the error that tells it. -/
theorem UnknownName.ofPiece_eq {name : String} (h : UnknownName name) :
    Reading.ofPiece name.toList = .failure (.unexpectedIdentifier name) := by
  obtain ⟨c, cs, hcs⟩ := List.exists_cons_of_ne_nil h.toList_ne_nil
  have hlower : c.isLower = true := h.isLower c (by rw [hcs]; exact List.mem_cons_self)
  have hdigit : ¬ c.isDigit = true := by
    intro hdigit
    rw [isLower_eq_false_of_isDigit hdigit] at hlower
    cases hlower
  have hnone : Func.ofName? name = none := by
    rw [Option.eq_none_iff_forall_ne_some]
    intro f hf
    exact h.ne_name f (Func.ofName?_eq_some_iff.1 hf)
  rw [hcs, Reading.ofPiece, isWhiteSpace_eq_false_of_isLower hlower, if_neg Bool.false_ne_true,
    if_neg hdigit, if_pos hlower, ← hcs, String.ofList_toList, Reading.ofName, hnone]

/-- A character that no token contains is read as the error that tells it. -/
theorem Unreadable.ofPiece_eq {c : Char} (h : Unreadable c) :
    Reading.ofPiece [c] = .failure (.unexpectedCharacter c) := by
  rw [Reading.ofPiece, h.not_blank, h.not_digit, h.not_lower, if_neg Bool.false_ne_true,
    if_neg Bool.false_ne_true, if_neg Bool.false_ne_true, Reading.ofSymbol,
    if_neg h.not_operator, if_neg h.not_factorial]

namespace Piece

variable {text rest : String} {r : Reading}

/-- A piece has characters. -/
theorem toList_ne_nil (h : Piece text r) : text.toList ≠ [] := by
  cases h with
  | blank hc => simp
  | token ht => exact ht.toList_text_ne_nil
  | character hc => simp
  | identifier hname => exact hname.toList_ne_nil

/-- A piece is one run. -/
theorem isChain (h : Piece text r) : text.toList.IsChain fun c d => sameRun c d := by
  cases h with
  | @blank c hc =>
    rw [String.toList_singleton]
    exact .singleton c
  | token ht => exact ht.isChain_text
  | @character c hc =>
    rw [String.toList_singleton]
    exact .singleton c
  | identifier hname => exact isChain_of_forall_isLower hname.isLower

/-- A piece is read as it says. -/
theorem ofPiece_eq (h : Piece text r) : Reading.ofPiece text.toList = r := by
  cases h with
  | blank hc => rw [String.toList_singleton, Reading.ofPiece, if_pos hc]
  | token ht => exact ht.ofPiece_text
  | character hc => rw [String.toList_singleton, hc.ofPiece_eq]
  | identifier hname => exact hname.ofPiece_eq

/-- A piece alone is the only one of its text. -/
theorem pieces_eq (h : Piece text r) : pieces text.toList = [text.toList] :=
  List.splitBy_of_isChain h.toList_ne_nil h.isChain

/-- A piece is scanned as it is read. -/
theorem scan_eq (h : Piece text r) : scan text = .ofReadings [r] := by
  rw [scan, h.pieces_eq, List.map_singleton, h.ofPiece_eq]

/-- A piece before a text is read first. -/
theorem scan_append (h : Piece text r) (hrest : Apart text.toList rest.toList) :
    scan (text ++ rest) = (scan rest).prepend r := by
  rw [InfixArith.scan_append hrest, h.scan_eq]
  cases r <;> rfl

end Piece

/-- The text of a token is read as this token alone. -/
theorem Token.WellFormed.scan_text {t : Token} (h : t.WellFormed) : scan t.text = ⟨[t], none⟩ :=
  (Piece.token h).scan_eq

/-! ### One piece after the other -/

/-- A run that is apart from the first one of several runs is apart from all of them together. -/
theorem apart_flatten {p : List Char} {ps : List (List Char)}
    (h : ∀ q ∈ ps.head?, ∃ hp hq, sameRun (p.getLast hp) (q.head hq) = false) :
    Apart p ps.flatten := by
  cases ps with
  | nil => exact apart_nil_right
  | cons q ps =>
    obtain ⟨hp, hq, hrun⟩ := h q rfl
    rw [List.flatten_cons, apart_append_iff hq]
    exact (apart_iff_getLast_head hp hq).2 hrun

/-- What holds of the empty text and passes to every text with one more piece before it holds of
all texts. -/
theorem piece_induction {P : String → Prop} (empty : P "")
    (append : ∀ piece r rest, Piece piece r → Apart piece.toList rest.toList → P rest →
      P (piece ++ rest)) (text : String) : P text := by
  -- The pieces of a text are runs that are apart; the induction is on the list of them.
  have hlist : ∀ ps : List (List Char), [] ∉ ps →
      (∀ p ∈ ps, p.IsChain fun c d => sameRun c d) →
      (ps.IsChain fun p q => ∃ hp hq, sameRun (p.getLast hp) (q.head hq) = false) →
      P (.ofList ps.flatten) := by
    intro ps hnil hruns hchain
    induction ps with
    | nil => exact empty
    | cons p ps ih =>
      obtain ⟨hp, hps⟩ := not_or.1 (mt List.mem_cons.2 hnil)
      obtain ⟨hrun, hrest⟩ := List.forall_mem_cons.1 hruns
      obtain ⟨hfirst, htail⟩ := List.isChain_cons.1 hchain
      rw [List.flatten_cons, String.ofList_append]
      refine append _ _ _ (piece_ofPiece (Ne.symm hp) hrun) ?_ (ih hps hrest htail)
      rw [String.toList_ofList, String.toList_ofList]
      exact apart_flatten hfirst
  have htext := hlist (pieces text.toList) (List.nil_notMem_splitBy _ _)
    (fun _ => List.isChain_of_mem_splitBy) (List.isChain_getLast_head_splitBy _ _)
  rwa [pieces, List.flatten_splitBy, String.ofList_toList] at htext

/-- A text is scanned from its first run on. -/
theorem scan_ofList_cons (c : Char) (cs : List Char) :
    scan (.ofList (c :: cs)) =
      (scan (.ofList (cs.dropWhile (sameRun c)))).prepend
        (Reading.ofPiece (c :: cs.takeWhile (sameRun c))) := by
  have hpiece : Piece (.ofList (c :: cs.takeWhile (sameRun c)))
      (Reading.ofPiece (c :: cs.takeWhile (sameRun c))) :=
    piece_ofPiece (List.cons_ne_nil _ _) (isChain_cons_takeWhile c cs)
  have hsplit : c :: cs = (c :: cs.takeWhile (sameRun c)) ++ cs.dropWhile (sameRun c) := by
    rw [List.cons_append, List.takeWhile_append_dropWhile]
  have happart := apart_cons_takeWhile c cs
  rw [hsplit, String.ofList_append]
  refine hpiece.scan_append ?_
  rw [String.toList_ofList, String.toList_ofList]
  exact happart

/-- Texts have well-formed tokens only. -/
theorem wellFormed_of_mem_scan {text : String} {t : Token} (h : t ∈ (scan text).tokens) :
    t.WellFormed := by
  induction text using piece_induction with
  | empty => cases h
  | append piece r rest hpiece hapart ih =>
    rw [hpiece.scan_append hapart] at h
    cases hpiece with
    | blank hc => exact ih h
    | token ht =>
      rcases List.mem_cons.1 h with rfl | hrest
      · exact ht
      · exact ih hrest
    | character hc => cases h
    | identifier hname => cases h

/-- A token can be read from a text when it is read from its own one. -/
theorem Token.wellFormed_iff_scan_text {t : Token} : t.WellFormed ↔ scan t.text = ⟨[t], none⟩ := by
  constructor
  · exact WellFormed.scan_text
  · intro h
    have hmem : t ∈ (scan t.text).tokens := by
      rw [h]
      exact List.mem_singleton_self t
    exact wellFormed_of_mem_scan hmem

/-- A text has tokens when its scan finds them and no error. -/
theorem tokenize_eq_ok_iff {text : String} {ts : List Token} :
    tokenize text = .ok ts ↔ scan text = ⟨ts, none⟩ := by
  cases hscan : scan text with
  | mk us error? =>
    rw [tokenize, hscan]
    cases error? <;> simp [Scan.result]

end InfixArith
