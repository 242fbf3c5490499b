import InfixArith.Proofs.Scanning.Pieces

/-!
# The first error of a text

`StopsBetween p r text e` says that the text is `p`, which has tokens, then the character or the
name that the error `e` tells, and then `r`.  These are the texts that `tokenize` rejects, with the
error that it gives, and there is one way only to divide such a text
(`tokenize_eq_error_iff_stopsBetween`).  Both kinds of errors are alike in that a piece which no
token has comes after a text that is read (`FirstFailure`), and the pieces of a text show where this
is (`FirstFailure.toList_eq`).
-/

namespace InfixArith

/-- The text has tokens up to the error: `p` is before what the error tells, and `r` is after it. -/
inductive StopsBetween (p r : String) : String → LexError → Prop
  /-- A character that is in no token comes next. -/
  | character {c : Char} (hp : ∃ ts, tokenize p = .ok ts) (hc : Unreadable c) :
      StopsBetween p r (p ++ .singleton c ++ r) (.unexpectedCharacter c)
  /-- A whole run of letters comes next, and no function is called so. -/
  | identifier {name : String} (hp : ∃ ts, tokenize p = .ok ts)
      (hend : ∀ c ∈ p.toList.getLast?, c.isLower = false) (hname : UnknownName name)
      (hbegin : ∀ c ∈ r.toList.head?, c.isLower = false) :
      StopsBetween p r (p ++ name ++ r) (.unexpectedIdentifier name)

/-- The text `p` is read, the piece `q` after it is not, and neither run goes on. -/
structure FirstFailure (p q r : String) (e : LexError) : Prop where
  /-- The first part is read to its end. -/
  read : (scan p).error? = none
  /-- The second part is a piece that gives the error. -/
  piece : Piece q (.failure e)
  /-- No run goes on from the first part to the second one. -/
  before : Apart p.toList q.toList
  /-- No run goes on from the second part to the third one. -/
  after : Apart q.toList r.toList

variable {text p p' q q' r r' : String} {e e' : LexError}

/-! ### The two kinds of results -/

/-- A text has tokens when its scan finds no error. -/
theorem exists_tokenize_eq_ok_iff : (∃ ts, tokenize text = .ok ts) ↔ (scan text).error? = none := by
  simp only [tokenize_eq_ok_iff]
  constructor
  · rintro ⟨ts, hts⟩
    rw [hts]
  · intro h
    exact ⟨(scan text).tokens, by rw [← h]⟩

/-- The error of a text is the one that its scan finds. -/
theorem tokenize_eq_error_iff_scan : tokenize text = .error e ↔ (scan text).error? = some e := by
  cases hscan : scan text with
  | mk ts error? =>
    rw [tokenize, hscan]
    cases error? <;> simp [Scan.result]

/-! ### Both kinds of errors are pieces -/

/-- The error tells the piece. -/
theorem Piece.eq_of_failure (h : Piece q (.failure e)) (h' : Piece q' (.failure e)) : q = q' := by
  cases h with
  | character hc =>
    cases h'
    rfl
  | identifier hname =>
    cases h'
    rfl

/-- A text stops at an error when a piece that is not read comes after a text that is, and neither
run goes on. -/
theorem stopsBetween_iff :
    StopsBetween p r text e ↔ ∃ q, text = p ++ q ++ r ∧ FirstFailure p q r e := by
  constructor
  · intro h
    cases h with
    | @character c hp hc =>
      have halone : ∀ d ∈ (String.singleton c).toList, d.isDigit = false ∧ d.isLower = false := by
        rw [String.toList_singleton]
        exact List.forall_mem_singleton.2 ⟨hc.not_digit, hc.not_lower⟩
      exact ⟨.singleton c, rfl, exists_tokenize_eq_ok_iff.1 hp, .character hc,
        apart_of_alone_right halone, apart_of_alone_left halone⟩
    | @identifier name hp hend hname hbegin =>
      refine ⟨name, rfl, exists_tokenize_eq_ok_iff.1 hp, .identifier hname, ?_, ?_⟩
      · exact (apart_letters_right_iff hname.toList_ne_nil hname.isLower).2 hend
      · exact (apart_letters_left_iff hname.toList_ne_nil hname.isLower).2 hbegin
  · rintro ⟨q, rfl, hread, hpiece, hbefore, hafter⟩
    have hp : ∃ ts, tokenize p = .ok ts := exists_tokenize_eq_ok_iff.2 hread
    cases hpiece with
    | character hc => exact .character hp hc
    | identifier hname =>
      have hend := (apart_letters_right_iff hname.toList_ne_nil hname.isLower).1 hbefore
      have hbegin := (apart_letters_left_iff hname.toList_ne_nil hname.isLower).1 hafter
      exact .identifier hp hend hname hbegin

/-! ### The scan stops at the first piece that is not read -/

/-- The scan finds the tokens before the first failure and its error. -/
theorem FirstFailure.scan_eq (h : FirstFailure p q r e) :
    scan (p ++ q ++ r) = ⟨(scan p).tokens, some e⟩ := by
  have hbefore : Apart p.toList (q ++ r).toList := by
    rw [String.toList_append]
    exact (apart_append_iff h.piece.toList_ne_nil).2 h.before
  have hrest : scan (q ++ r) = ⟨[], some e⟩ := h.piece.scan_append h.after
  rw [String.append_assoc, scan_append hbefore, hrest, Scan.append, h.read]
  simp

/-- The scan stops with the error of the first failure. -/
theorem FirstFailure.error?_scan (h : FirstFailure p q r e) :
    (scan (p ++ q ++ r)).error? = some e := by
  rw [h.scan_eq]

/-- A piece that is read leaves the error of the scan as it is. -/
theorem error?_prepend {rd : Reading} (hrd : rd.error? = none) (s : Scan) :
    (s.prepend rd).error? = s.error? := by
  cases rd with
  | blank => rfl
  | token t => rfl
  | failure e => cases hrd

/-- A piece that is read may come before all of it. -/
theorem FirstFailure.prepend {piece : String} {rd : Reading} (hpiece : Piece piece rd)
    (hrd : rd.error? = none) (hapart : Apart piece.toList (p ++ q ++ r).toList)
    (h : FirstFailure p q r e) : FirstFailure (piece ++ p) q r e := by
  rw [String.toList_append, String.toList_append] at hapart
  have hpq : Apart piece.toList (p.toList ++ q.toList) := hapart.of_append_right
  refine ⟨?_, h.piece, ?_, h.after⟩
  · rw [hpiece.scan_append hpq.of_append_right, error?_prepend hrd, h.read]
  · rw [String.toList_append]
    exact hpq.append_left h.before

/-- A text whose scan finds an error has a first failure with it. -/
theorem exists_firstFailure (h : (scan text).error? = some e) :
    ∃ p q r, text = p ++ q ++ r ∧ FirstFailure p q r e := by
  induction text using piece_induction with
  | empty => cases h
  | append piece rd rest hpiece hapart ih =>
    rw [hpiece.scan_append hapart] at h
    cases hrd : rd.error? with
    | some e' =>
      obtain rfl : rd = .failure e' := by
        cases rd <;> simp_all [Reading.error?]
      obtain rfl : e' = e := Option.some.inj h
      exact ⟨"", piece, rest, by rw [String.empty_append], rfl, hpiece, apart_nil_left, hapart⟩
    | none =>
      rw [error?_prepend hrd] at h
      obtain ⟨p, q, r, rfl, hfailure⟩ := ih h
      refine ⟨piece ++ p, q, r, ?_, hfailure.prepend hpiece hrd hapart⟩
      simp only [String.append_assoc]

/-! ### The division is unique -/

/-- The piece is white space or a token. -/
def isReadable (cs : List Char) : Bool :=
  (Reading.ofPiece cs).error?.isNone

/-- When the scan finds no error, every piece is read. -/
theorem isReadable_of_mem_pieces (h : (scan text).error? = none) :
    ∀ cs ∈ pieces text.toList, isReadable cs = true := by
  intro cs hcs
  have hnone : ∀ rd ∈ (pieces text.toList).map Reading.ofPiece, rd.error? = none :=
    List.findSome?_eq_none_iff.1 h
  rw [isReadable, hnone _ (List.mem_map_of_mem hcs)]
  rfl

/-- The pieces of a text with a failure are those before it, the failure and those after it. -/
theorem FirstFailure.pieces_eq (h : FirstFailure p q r e) :
    pieces (p ++ q ++ r).toList = pieces p.toList ++ q.toList :: pieces r.toList := by
  have hbefore : Apart p.toList (q.toList ++ r.toList) :=
    (apart_append_iff h.piece.toList_ne_nil).2 h.before
  have hafter : pieces (q.toList ++ r.toList) = q.toList :: pieces r.toList := by
    rw [pieces, List.splitBy_append h.after]
    exact congrArg (· ++ pieces r.toList) h.piece.pieces_eq
  rw [String.append_assoc, String.toList_append, String.toList_append, ← hafter]
  exact List.splitBy_append hbefore

/-- The text before the error is made of the pieces up to the first one that is not read. -/
theorem FirstFailure.toList_eq (h : FirstFailure p q r e) :
    p.toList = ((pieces (p ++ q ++ r).toList).takeWhile isReadable).flatten := by
  have hstop : ¬ isReadable q.toList = true := by
    rw [isReadable, h.piece.ofPiece_eq]
    exact Bool.false_ne_true
  rw [h.pieces_eq, List.takeWhile_append_of_pos (isReadable_of_mem_pieces h.read),
    List.takeWhile_cons_of_neg hstop, List.append_nil, pieces, List.flatten_splitBy]

/-- A text has its first failure at one place only. -/
theorem FirstFailure.unique (h : FirstFailure p q r e) (h' : FirstFailure p' q' r' e')
    (htext : p ++ q ++ r = p' ++ q' ++ r') : p = p' ∧ r = r' ∧ e = e' := by
  have herror : some e = some e' := by
    rw [← h.error?_scan, htext, h'.error?_scan]
  obtain rfl := Option.some.inj herror
  obtain rfl : q = q' := h.piece.eq_of_failure h'.piece
  obtain rfl : p = p' := by
    rw [← String.toList_inj, h.toList_eq, htext, ← h'.toList_eq]
  exact ⟨rfl, (String.append_right_inj _).1 htext, rfl⟩

/-! ### The first error -/

/-- A text is rejected with an error when it is read up to a character in no token, or up to a run
of letters that is no function, and the error tells which; the text before the error and the one
after it are determined. -/
theorem tokenize_eq_error_iff_stopsBetween :
    (∀ (text : String) (e : LexError),
      tokenize text = .error e ↔ ∃ p r, StopsBetween p r text e) ∧
    ∀ (text p r p' r' : String) (e e' : LexError), StopsBetween p r text e →
      StopsBetween p' r' text e' → p = p' ∧ r = r' ∧ e = e' := by
  constructor
  · intro text e
    rw [tokenize_eq_error_iff_scan]
    constructor
    · intro h
      obtain ⟨p, q, r, htext, hfailure⟩ := exists_firstFailure h
      exact ⟨p, r, stopsBetween_iff.2 ⟨q, htext, hfailure⟩⟩
    · rintro ⟨p, r, h⟩
      obtain ⟨q, rfl, hfailure⟩ := stopsBetween_iff.1 h
      exact hfailure.error?_scan
  · intro text p r p' r' e e' h h'
    obtain ⟨q, rfl, hfailure⟩ := stopsBetween_iff.1 h
    obtain ⟨q', htext, hfailure'⟩ := stopsBetween_iff.1 h'
    exact hfailure.unique hfailure' htext

/-- `sine` is one name although it begins with that of a function, and nothing after it counts. -/
theorem stopsBetween_sine :
    StopsBetween "2+" "(@)" "2+sine(@)" (.unexpectedIdentifier "sine") ∧
      tokenize "2+sine(@)" = .error (.unexpectedIdentifier "sine") ∧
      ∀ p r e, StopsBetween p r "2+sine(@)" e →
        p = "2+" ∧ r = "(@)" ∧ e = .unexpectedIdentifier "sine" := by
  have htext : "2+sine(@)" = "2+" ++ "sine" ++ "(@)" := by decide
  have hletters : ("sine".toList.all fun c => c.isLower) = true := by rfl
  have hname : UnknownName "sine" :=
    ⟨by decide, List.all_eq_true.1 hletters, fun f => by cases f <;> decide⟩
  have hstops : StopsBetween "2+" "(@)" "2+sine(@)" (.unexpectedIdentifier "sine") := by
    rw [htext]
    refine .identifier ⟨[.number "2", .operator '+'], by rfl⟩ ?_ hname ?_
    · intro c hc
      obtain rfl : '+' = c := Option.some.inj hc
      rfl
    · intro c hc
      obtain rfl : '(' = c := Option.some.inj hc
      rfl
  refine ⟨hstops, (tokenize_eq_error_iff_stopsBetween.1 _ _).2 ⟨_, _, hstops⟩, fun p r e h => ?_⟩
  exact tokenize_eq_error_iff_stopsBetween.2 _ _ _ _ _ _ _ h hstops

end InfixArith
