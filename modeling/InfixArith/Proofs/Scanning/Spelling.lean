import InfixArith.Proofs.Scanning.Pieces

/-!
# The texts that have tokens

`spell first ps` writes tokens one after the other, with white space `first` before them and with a
gap after each.  When the gaps are white space and none is missing between two tokens that may not
stand side by side (`IsSpacing`), the tokens are read back (`scan_spell`), and a text that is read
to its end is written in this way (`exists_spell_of_scan`).  So `tokenize` accepts exactly these
texts, and gives the tokens that they are written from (`tokenize_eq_ok_iff_spell`).
-/

namespace InfixArith

/-- There is nothing but white space in the text. -/
def IsBlank (text : String) : Prop :=
  ∀ c ∈ text.toList, isWhiteSpace c = true

/-- The texts of the tokens one after the other, with `first` before them and the paired text after
each of them. -/
def spell (first : String) : List (Token × String) → String
  | [] => first
  | (t, gap) :: ps => first ++ t.text ++ spell gap ps

/-- Only white space is written around the tokens, and some is written between two tokens that may
not stand side by side. -/
structure IsSpacing (first : String) (ps : List (Token × String)) : Prop where
  /-- The text before the tokens is white space. -/
  isBlank_first : IsBlank first
  /-- The text after each token is white space. -/
  isBlank_gap : ∀ p ∈ ps, IsBlank p.2
  /-- Tokens with nothing between them may stand side by side. -/
  separate : ps.IsChain fun p q => p.2 = "" → p.1.Separate q.1

variable {text first gap : String} {t : Token} {ts : List Token} {ps : List (Token × String)}

/-! ### White space -/

/-- The empty text is white space. -/
theorem isBlank_empty : IsBlank "" := by
  intro c hc
  cases hc

/-- One character of white space is a text of white space. -/
theorem isBlank_singleton {c : Char} (hc : isWhiteSpace c = true) : IsBlank (.singleton c) := by
  intro d hd
  rw [String.toList_singleton, List.mem_singleton] at hd
  rwa [hd]

/-- Two texts of white space are one. -/
theorem isBlank_append {text' : String} (h : IsBlank text) (h' : IsBlank text') :
    IsBlank (text ++ text') := by
  intro c hc
  rw [String.toList_append, List.mem_append] at hc
  rcases hc with hc | hc
  · exact h c hc
  · exact h' c hc

/-- No run goes on from white space, and none to it. -/
theorem IsBlank.apart (h : IsBlank text) (cs : List Char) :
    Apart text.toList cs ∧ Apart cs text.toList := by
  have halone : ∀ c ∈ text.toList, c.isDigit = false ∧ c.isLower = false :=
    fun c hc => not_digit_not_lower_of_isWhiteSpace (h c hc)
  exact ⟨apart_of_alone_left halone, apart_of_alone_right halone⟩

/-- White space has no tokens. -/
theorem scan_of_isBlank (h : IsBlank text) : scan text = ⟨[], none⟩ := by
  have hlist : ∀ cs : List Char, (∀ c ∈ cs, isWhiteSpace c = true) →
      scan (.ofList cs) = ⟨[], none⟩ := by
    intro cs hcs
    induction cs with
    | nil => rfl
    | cons c cs ih =>
      obtain ⟨hc, hrest⟩ := List.forall_mem_cons.1 hcs
      have hapart : Apart (String.singleton c).toList (String.ofList cs).toList :=
        ((isBlank_singleton hc).apart _).1
      rw [String.ofList_cons, (Piece.blank hc).scan_append hapart, ih hrest]
      rfl
  have hscan : scan (.ofList text.toList) = ⟨[], none⟩ := hlist text.toList h
  rwa [String.ofList_toList] at hscan

/-! ### Tokens and gaps -/

/-- Without tokens only white space is written. -/
theorem isSpacing_nil : IsSpacing first [] ↔ IsBlank first :=
  ⟨fun h => h.isBlank_first, fun h => ⟨h, nofun, .nil⟩⟩

/-- Before the others a token is written after white space, and with some behind it unless the next
token may stand beside it. -/
theorem isSpacing_cons :
    IsSpacing first ((t, gap) :: ps) ↔
      IsBlank first ∧ (∀ p ∈ ps.head?, gap = "" → t.Separate p.1) ∧ IsSpacing gap ps := by
  constructor
  · rintro ⟨hfirst, hgaps, hseparate⟩
    obtain ⟨hgap, hrest⟩ := List.forall_mem_cons.1 hgaps
    obtain ⟨hhead, htail⟩ := List.isChain_cons.1 hseparate
    exact ⟨hfirst, hhead, hgap, hrest, htail⟩
  · rintro ⟨hfirst, hhead, hgap, hrest, htail⟩
    exact ⟨hfirst, List.forall_mem_cons.2 ⟨hgap, hrest⟩, List.isChain_cons.2 ⟨hhead, htail⟩⟩

/-- White space before the text before all tokens makes this text longer. -/
theorem spell_append (blank first : String) (ps : List (Token × String)) :
    spell (blank ++ first) ps = blank ++ spell first ps := by
  cases ps with
  | nil => rfl
  | cons p ps =>
    obtain ⟨t, gap⟩ := p
    simp only [spell, String.append_assoc]

/-- White space may be written before all of it. -/
theorem IsSpacing.append {blank : String} (hblank : IsBlank blank) (h : IsSpacing first ps) :
    IsSpacing (blank ++ first) ps :=
  ⟨isBlank_append hblank h.isBlank_first, h.isBlank_gap, h.separate⟩

/-- The text of a token is apart from what is written after it as long as a gap is not missing. -/
theorem apart_spell_iff (ht : t.WellFormed) (hps : ∀ p ∈ ps, p.1.WellFormed)
    (hgap : IsBlank gap) :
    Apart t.text.toList (spell gap ps).toList ↔
      ∀ p ∈ ps.head?, gap = "" → t.Separate p.1 := by
  rcases eq_or_ne gap "" with rfl | hne
  · cases ps with
    | nil => exact iff_of_true apart_nil_right nofun
    | cons p ps =>
      obtain ⟨u, gap'⟩ := p
      have hu : u.WellFormed := hps _ List.mem_cons_self
      rw [spell, String.empty_append, String.toList_append,
        apart_append_iff hu.toList_text_ne_nil, apart_text_iff ht hu]
      simp
  · have hlist : gap.toList ≠ [] := fun hnil => hne (String.toList_eq_nil_iff.1 hnil)
    have hspell : spell gap ps = gap ++ spell "" ps := by
      rw [← spell_append, String.append_empty]
    rw [hspell, String.toList_append, apart_append_iff hlist]
    exact iff_of_true (hgap.apart _).2 fun _ _ hempty => absurd hempty hne

/-! ### Reading what is written -/

/-- The tokens that are written are read. -/
theorem scan_spell (hps : ∀ p ∈ ps, p.1.WellFormed) (h : IsSpacing first ps) :
    scan (spell first ps) = ⟨ps.map Prod.fst, none⟩ := by
  induction ps generalizing first with
  | nil => exact scan_of_isBlank (isSpacing_nil.1 h)
  | cons p ps ih =>
    obtain ⟨t, gap⟩ := p
    obtain ⟨ht, hrest⟩ := List.forall_mem_cons.1 hps
    obtain ⟨hfirst, hhead, htail⟩ := isSpacing_cons.1 h
    have hapart : Apart t.text.toList (spell gap ps).toList :=
      (apart_spell_iff ht hrest htail.isBlank_first).2 hhead
    have hread : scan (t.text ++ spell gap ps) = ⟨t :: ps.map Prod.fst, none⟩ :=
      scan_append_of_tokens hapart ht.scan_text (ih hrest htail)
    rw [spell, String.append_assoc]
    exact scan_append_of_tokens (hfirst.apart _).1 (scan_of_isBlank hfirst) hread

/-- What is read to its end is written from its tokens. -/
theorem exists_spell_of_scan (h : scan text = ⟨ts, none⟩) :
    ∃ first ps, ps.map Prod.fst = ts ∧ IsSpacing first ps ∧ text = spell first ps := by
  induction text using piece_induction generalizing ts with
  | empty =>
    obtain rfl : [] = ts := congrArg Scan.tokens h
    exact ⟨"", [], rfl, isSpacing_nil.2 isBlank_empty, rfl⟩
  | append piece r rest hpiece hapart ih =>
    rw [hpiece.scan_append hapart] at h
    -- White space makes the text before the tokens longer, and a token makes that text the gap
    -- after it; the other pieces are errors.
    cases hpiece with
    | @blank c hc =>
      obtain ⟨first, ps, hts, hspacing, rfl⟩ := ih h
      have hblank : IsBlank (.singleton c) := isBlank_singleton hc
      rw [← spell_append]
      exact ⟨_, ps, hts, hspacing.append hblank, rfl⟩
    | @token t ht =>
      obtain ⟨rfl, herror⟩ := Scan.mk.inj h
      have hrest : scan rest = ⟨(scan rest).tokens, none⟩ := by rw [← herror]
      obtain ⟨gap, ps, hts, hspacing, hspell⟩ := ih hrest
      have hwell : ∀ p ∈ ps, p.1.WellFormed := by
        intro p hp
        have hmem : p.1 ∈ (scan rest).tokens := hts ▸ List.mem_map_of_mem hp
        exact wellFormed_of_mem_scan hmem
      have hhead : ∀ p ∈ ps.head?, gap = "" → t.Separate p.1 := by
        rw [hspell] at hapart
        exact (apart_spell_iff ht hwell hspacing.isBlank_first).1 hapart
      refine ⟨"", (t, gap) :: ps, ?_, isSpacing_cons.2 ⟨isBlank_empty, hhead, hspacing⟩, ?_⟩
      · rw [List.map_cons, hts]
      · rw [spell, String.empty_append, ← hspell]
    | character hc => cases h
    | identifier hname => cases h

/-- The texts that are read to their end are those of well-formed tokens with white space before,
between and after them, where two numbers and two functions do not follow each other without any;
and such a text is read as these tokens. -/
theorem tokenize_eq_ok_iff_spell (text : String) (ts : List Token) :
    tokenize text = .ok ts ↔
      (∀ t ∈ ts, t.WellFormed) ∧
        ∃ (first : String) (ps : List (Token × String)),
          ps.map Prod.fst = ts ∧ IsSpacing first ps ∧ text = spell first ps := by
  rw [tokenize_eq_ok_iff]
  constructor
  · intro h
    refine ⟨fun t ht => ?_, exists_spell_of_scan h⟩
    have hmem : t ∈ (scan text).tokens := by rwa [h]
    exact wellFormed_of_mem_scan hmem
  · rintro ⟨hts, first, ps, rfl, hspacing, rfl⟩
    exact scan_spell (List.forall_mem_map.1 hts) hspacing

/-- Two numbers need white space between them, a number and a function do not. -/
example :
    tokenize "1 2sin" = .ok [.number "1", .number "2", .function "sin"] ∧
      tokenize "12sin" = .ok [.number "12", .function "sin"] := by
  constructor <;> rfl

end InfixArith
