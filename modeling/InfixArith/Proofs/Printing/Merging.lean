import InfixArith.Proofs.Printing.Reprint
import InfixArith.Proofs.Scanning.FirstError
import Mathlib.Data.List.TakeWhile

/-!
# What printing loses

A printed text shows no bounds between numbers that stand side by side, nor between functions.  When
the text is scanned, neighbouring numbers are read as one (`mergeNumbers`), and neighbouring
functions are read as one name that no function has, which is the error (`FirstNames`).  Everything
else is recovered (`tokenize_printAll`).
-/

namespace InfixArith

/-! ### Numbers side by side -/

/-- The token before the others, as one number with the first of them if both are numbers. -/
def Token.mergeOnto (t : Token) : List Token → List Token
  | [] => [t]
  | u :: us =>
    if t.kind = .number ∧ u.kind = .number then .number (t.text ++ u.text) :: us else t :: u :: us

/-- The tokens with all numbers that stand side by side as one number. -/
def mergeNumbers (ts : List Token) : List Token :=
  ts.foldr Token.mergeOnto []

/-- The tokens are not both functions. -/
def Token.NotBothFunctions (t u : Token) : Prop :=
  ¬ (t.kind = .function ∧ u.kind = .function)

instance (t u : Token) : Decidable (t.NotBothFunctions u) :=
  inferInstanceAs (Decidable (¬ (t.kind = .function ∧ u.kind = .function)))

/-- The tokens `run` between `p` and `q` are all functions that stand side by side there, and no
functions stand side by side before them. -/
structure FirstNames (p run q : List Token) : Prop where
  /-- Nothing before them is such a run. -/
  before : p.IsChain Token.NotBothFunctions
  /-- There are two of them at least. -/
  two_le : 2 ≤ run.length
  /-- They are functions. -/
  names : ∀ t ∈ run, t.kind = .function
  /-- The run does not begin earlier. -/
  starts : ∀ t ∈ p.getLast?, t.kind ≠ .function
  /-- The run does not go on. -/
  stops : ∀ t ∈ q.head?, t.kind ≠ .function

variable {t u : Token} {ts us p run q : List Token}

/-- The first token is merged with what the others become. -/
theorem mergeNumbers_cons (t : Token) (ts : List Token) :
    mergeNumbers (t :: ts) = t.mergeOnto (mergeNumbers ts) :=
  rfl

/-- A token that is no operator is printed without spaces. -/
theorem Token.isSpaced_eq_false (h : t.kind ≠ .operator) : t.isSpaced = false := by
  obtain ⟨kind, text⟩ := t
  cases kind with
  | number => rfl
  | operator => exact absurd rfl h
  | function =>
    unfold isSpaced terminal
    cases Func.ofName? text <;> rfl
  | factorial => rfl

/-- Only operators are printed with spaces. -/
theorem Token.print_eq_text (h : t.kind ≠ .operator) : t.print = t.text := by
  rw [print, isSpaced_eq_false h, if_neg Bool.false_ne_true]

/-- A token is printed as before when it is merged with the next one. -/
theorem printAll_mergeOnto (t : Token) (us : List Token) :
    Token.printAll (t.mergeOnto us) = t.print ++ Token.printAll us := by
  cases us with
  | nil => exact printAll_cons t []
  | cons u us =>
    rw [Token.mergeOnto]
    split
    · next h =>
      have ht : t.print = t.text := Token.print_eq_text (by simp [h.1])
      have hu : u.print = u.text := Token.print_eq_text (by simp [h.2])
      have hmerged : (Token.number (t.text ++ u.text)).print = t.text ++ u.text := rfl
      rw [printAll_cons, printAll_cons, hmerged, ht, hu, String.append_assoc]
    · rw [printAll_cons]

/-- Merged numbers are printed as the single ones are. -/
theorem printAll_mergeNumbers (ts : List Token) :
    Token.printAll (mergeNumbers ts) = Token.printAll ts := by
  induction ts with
  | nil => rfl
  | cons t ts ih => rw [mergeNumbers_cons, printAll_mergeOnto, ih, printAll_cons]

/-- Two numbers that a scan can give make one. -/
theorem Token.WellFormed.number_append (ht : t.WellFormed) (hu : u.WellFormed)
    (h : t.kind = .number ∧ u.kind = .number) : (Token.number (t.text ++ u.text)).WellFormed := by
  have hdigits : ∀ c ∈ (t.text ++ u.text).toList, c.isDigit = true := by
    intro c hc
    rw [String.toList_append, List.mem_append] at hc
    rcases hc with hc | hc
    · rw [(ht.class_of_mem_text hc).1, h.1]
      rfl
    · rw [(hu.class_of_mem_text hc).1, h.2]
      rfl
  refine .number (fun hempty => ht.toList_text_ne_nil ?_) hdigits
  have hnil : (t.text ++ u.text).toList = [] := String.toList_eq_nil_iff.2 hempty
  rw [String.toList_append] at hnil
  exact (List.append_eq_nil_iff.1 hnil).1

/-- Merging a token with the next one leaves tokens that a scan can give. -/
theorem wellFormed_mergeOnto (ht : t.WellFormed) (hus : ∀ u ∈ us, u.WellFormed) :
    ∀ u ∈ t.mergeOnto us, u.WellFormed := by
  cases us with
  | nil => exact List.forall_mem_singleton.2 ht
  | cons u us =>
    obtain ⟨hu, hrest⟩ := List.forall_mem_cons.1 hus
    rw [Token.mergeOnto]
    split
    · next h => exact List.forall_mem_cons.2 ⟨ht.number_append hu h, hrest⟩
    · exact List.forall_mem_cons.2 ⟨ht, hus⟩

/-- Merged numbers are tokens that a scan can give. -/
theorem wellFormed_mergeNumbers (hts : ∀ t ∈ ts, t.WellFormed) :
    ∀ t ∈ mergeNumbers ts, t.WellFormed := by
  induction ts with
  | nil => exact nofun
  | cons t ts ih =>
    obtain ⟨ht, hrest⟩ := List.forall_mem_cons.1 hts
    exact wellFormed_mergeOnto ht (ih hrest)

/-- Merging keeps the kind of the first token. -/
theorem head?_mergeNumbers (ts : List Token) :
    (mergeNumbers ts).head?.map Token.kind = ts.head?.map Token.kind := by
  cases ts with
  | nil => rfl
  | cons t ts =>
    rw [mergeNumbers_cons]
    cases mergeNumbers ts with
    | nil => rfl
    | cons u us =>
      rw [Token.mergeOnto]
      split
      · next h => exact congrArg some h.1.symm
      · rfl

/-- After merging no two numbers are neighbours, and functions are only where they were before. -/
theorem isChain_separate_mergeNumbers (h : ts.IsChain Token.NotBothFunctions) :
    (mergeNumbers ts).IsChain Token.Separate := by
  induction ts with
  | nil => exact .nil
  | cons t ts ih =>
    obtain ⟨hhead, htail⟩ := List.isChain_cons.1 h
    have hkind := head?_mergeNumbers ts
    have hmerged : (mergeNumbers ts).IsChain Token.Separate := ih htail
    rw [mergeNumbers_cons]
    cases hts : mergeNumbers ts with
    | nil => exact .singleton t
    | cons u us =>
      rw [hts] at hkind hmerged
      obtain ⟨hu, hus⟩ := List.isChain_cons.1 hmerged
      rw [Token.mergeOnto]
      split
      · next hnumbers =>
        refine List.isChain_cons.2 ⟨fun v hv => ?_, hus⟩
        have hseparate : u.Separate v := hu v hv
        rwa [Token.Separate, hnumbers.2] at hseparate
      · next hnumbers =>
        refine List.isChain_cons_cons.2 ⟨?_, hmerged⟩
        -- The token after this one has been merged, but its kind is still that of the first one.
        obtain ⟨v, hv, hvkind⟩ := Option.map_eq_some_iff.1 hkind.symm
        by_contra hseparate
        rcases Token.not_separate_iff.1 hseparate with hboth | ⟨ht, hu⟩
        · exact hnumbers hboth
        · exact hhead v hv ⟨ht, hvkind.trans hu⟩

/-- When no functions are neighbours, the printed text has the merged tokens. -/
theorem scan_printAll_mergeNumbers (hts : ∀ t ∈ ts, t.WellFormed)
    (h : ts.IsChain Token.NotBothFunctions) :
    scan (Token.printAll ts) = ⟨mergeNumbers ts, none⟩ := by
  rw [← printAll_mergeNumbers]
  exact scan_printAll (wellFormed_mergeNumbers hts) (isChain_separate_mergeNumbers h)

/-! ### The first functions side by side -/

/-- A token that begins no run of functions may come before the first one. -/
theorem FirstNames.cons (h : FirstNames p run q)
    (hhead : ∀ u ∈ (p ++ run ++ q).head?, t.NotBothFunctions u) : FirstNames (t :: p) run q := by
  have hrun : run ≠ [] := by
    rintro rfl
    have hlength : 2 ≤ 0 := h.two_le
    omega
  refine ⟨?_, h.two_le, h.names, ?_, h.stops⟩
  · refine List.isChain_cons.2 ⟨fun u hu => hhead u ?_, h.before⟩
    rw [List.append_assoc, List.head?_append, hu, Option.some_or]
    rfl
  · intro u hu
    rcases eq_or_ne p [] with rfl | hp
    · obtain rfl : t = u := Option.some.inj hu
      intro ht
      refine hhead (run.head hrun) ?_ ⟨ht, h.names _ (List.head_mem hrun)⟩
      rw [List.nil_append, List.head?_append, List.head?_eq_some_head hrun, Option.some_or]
      rfl
    · rw [List.getLast?_cons_of_ne_nil hp] at hu
      exact h.starts u hu

/-- Two functions at the start begin the first run, which goes on as long as functions follow. -/
theorem firstNames_nil (ht : t.kind = .function) (hu : u.kind = .function) (ts : List Token) :
    FirstNames [] (t :: u :: ts.takeWhile fun v => v.kind = .function)
      (ts.dropWhile fun v => v.kind = .function) where
  before := .nil
  two_le := by simp
  names := by
    refine List.forall_mem_cons.2 ⟨ht, List.forall_mem_cons.2 ⟨hu, fun v hv => ?_⟩⟩
    simpa using List.mem_takeWhile_imp hv
  starts := nofun
  stops := by
    intro v hv
    have hstop := List.head?_dropWhile_not (fun v : Token => decide (v.kind = .function)) ts
    rw [hv] at hstop
    exact of_decide_eq_false hstop

/-- Where functions stand side by side, there is a first run of them. -/
theorem exists_firstNames (h : ¬ ts.IsChain Token.NotBothFunctions) :
    ∃ p run q, ts = p ++ run ++ q ∧ FirstNames p run q := by
  induction ts with
  | nil => exact absurd .nil h
  | cons t ts ih =>
    by_cases hhead : ∀ u ∈ ts.head?, t.NotBothFunctions u
    · obtain ⟨p, run, q, rfl, hfirst⟩ := ih fun htail => h (List.isChain_cons.2 ⟨hhead, htail⟩)
      exact ⟨t :: p, run, q, rfl, hfirst.cons hhead⟩
    · simp only [Token.NotBothFunctions, not_forall, Classical.not_not] at hhead
      obtain ⟨u, hu, ht, hukind⟩ := hhead
      obtain ⟨us, rfl⟩ := List.head?_eq_some_iff.1 hu
      refine ⟨_, _, _, ?_, firstNames_nil ht hukind us⟩
      simp only [List.nil_append, List.cons_append, List.takeWhile_append_dropWhile]

/-! ### What is printed for functions side by side -/

/-- A run of functions is printed as their names. -/
theorem printAll_names (h : ∀ t ∈ run, t.kind = .function) :
    Token.printAll run = String.join (run.map Token.text) := by
  refine congrArg String.join (List.map_congr_left fun t ht => Token.print_eq_text ?_)
  rw [h t ht]
  decide

/-- Every token that a scan can give is printed as something. -/
theorem Token.toList_print_ne_nil (h : t.WellFormed) : t.print.toList ≠ [] := by
  rw [print]
  split
  · simp
  · exact h.toList_text_ne_nil

/-- A token is printed with the characters of its text and with spaces only. -/
theorem Token.mem_text_of_mem_print {c : Char} (h : c ∈ t.print.toList) :
    c = ' ' ∨ c ∈ t.text.toList := by
  rw [print] at h
  split at h
  · have hspace : " ".toList = [' '] := rfl
    rw [String.toList_append, String.toList_append, List.mem_append, List.mem_append, hspace,
      List.mem_singleton] at h
    tauto
  · exact .inr h

/-- Letters are printed for functions only. -/
theorem Token.WellFormed.isLower_of_mem_print (h : t.WellFormed) (hkind : t.kind ≠ .function)
    {c : Char} (hc : c ∈ t.print.toList) : c.isLower = false := by
  rcases Token.mem_text_of_mem_print hc with rfl | htext
  · rfl
  · rw [(h.class_of_mem_text htext).2, decide_eq_false hkind]

/-- What is printed before a run of functions does not end in a letter. -/
theorem isLower_getLast?_printAll (hp : ∀ t ∈ p, t.WellFormed)
    (hlast : ∀ t ∈ p.getLast?, t.kind ≠ .function) :
    ∀ c ∈ (Token.printAll p).toList.getLast?, c.isLower = false := by
  rcases List.eq_nil_or_concat' p with rfl | ⟨ts, t, rfl⟩
  · exact nofun
  · have ht : t.WellFormed := hp t (by simp)
    have hkind : t.kind ≠ .function := hlast t (by simp)
    intro c hc
    have hprint : Token.printAll [t] = t.print := String.empty_append
    rw [printAll_append, hprint, String.toList_append,
      List.getLast?_append_of_ne_nil _ (Token.toList_print_ne_nil ht)] at hc
    exact ht.isLower_of_mem_print hkind (List.mem_of_getLast? hc)

/-- What is printed after a run of functions does not begin with a letter. -/
theorem isLower_head?_printAll (hq : ∀ t ∈ q, t.WellFormed)
    (hhead : ∀ t ∈ q.head?, t.kind ≠ .function) :
    ∀ c ∈ (Token.printAll q).toList.head?, c.isLower = false := by
  cases q with
  | nil => exact nofun
  | cons t ts =>
    have ht : t.WellFormed := hq t List.mem_cons_self
    intro c hc
    rw [printAll_cons, String.toList_append,
      List.head?_append_of_ne_nil _ (Token.toList_print_ne_nil ht)] at hc
    exact ht.isLower_of_mem_print (hhead t rfl) (List.mem_of_mem_head? hc)

/-- The name of every function has three letters. -/
theorem Func.length_name (f : Func) : f.name.length = 3 := by
  cases f <;> rfl

/-- A function token that a scan can give has three letters. -/
theorem Token.WellFormed.length_text (h : t.WellFormed) (hkind : t.kind = .function) :
    t.text.length = 3 := by
  cases h with
  | function f => exact f.length_name
  | number | opening | closing | binary | factorial => cases hkind

/-- The names of functions side by side are the name of no function, since all names are equally
long. -/
theorem FirstNames.unknownName (h : FirstNames p run q) (hrun : ∀ t ∈ run, t.WellFormed) :
    UnknownName (String.join (run.map Token.text)) := by
  have hlength : 6 ≤ (String.join (run.map Token.text)).length := by
    match run, h, hrun with
    | [], h, _ => exact absurd h.two_le (by simp)
    | [t], h, _ => exact absurd h.two_le (by simp)
    | t :: u :: ts, h, hrun =>
      have ht : t.text.length = 3 := (hrun t (by simp)).length_text (h.names t (by simp))
      have hu : u.text.length = 3 := (hrun u (by simp)).length_text (h.names u (by simp))
      simp only [List.map_cons, String.join_cons, String.length_append]
      omega
  refine ⟨?_, ?_, ?_⟩
  · intro hempty
    rw [hempty] at hlength
    exact absurd hlength (by decide)
  · intro c hc
    rw [String.toList_join, List.mem_flatMap] at hc
    obtain ⟨text, htext, hc⟩ := hc
    obtain ⟨t, ht, rfl⟩ := List.mem_map.1 htext
    rw [((hrun t ht).class_of_mem_text hc).2, h.names t ht]
    rfl
  · intro f hf
    rw [hf, f.length_name] at hlength
    omega

/-- The printed text is read up to the first functions that stand side by side. -/
theorem FirstNames.firstFailure (h : FirstNames p run q)
    (hts : ∀ t ∈ p ++ run ++ q, t.WellFormed) :
    FirstFailure (Token.printAll p) (String.join (run.map Token.text)) (Token.printAll q)
      (.unexpectedIdentifier (String.join (run.map Token.text))) := by
  obtain ⟨hprun, hq⟩ := List.forall_mem_append.1 hts
  obtain ⟨hp, hrun⟩ := List.forall_mem_append.1 hprun
  have hname := h.unknownName hrun
  refine ⟨?_, .identifier hname, ?_, ?_⟩
  · rw [scan_printAll_mergeNumbers hp h.before]
  · rw [apart_letters_right_iff hname.toList_ne_nil hname.isLower]
    exact isLower_getLast?_printAll hp h.starts
  · rw [apart_letters_left_iff hname.toList_ne_nil hname.isLower]
    exact isLower_head?_printAll hq h.stops

/-! ### What scanning gives back -/

/-- Whatever tokens are printed, scanning their text gives them back with neighbouring numbers
merged, unless functions are neighbours; then it gives the error that tells the names of the first
of these.  So the tokens are recovered exactly when no numbers and no functions are neighbours. -/
theorem tokenize_printAll (ts : List Token) (hts : ∀ t ∈ ts, t.WellFormed) :
    (ts.IsChain Token.NotBothFunctions →
      tokenize (Token.printAll ts) = .ok (mergeNumbers ts) ∧
        Token.printAll (mergeNumbers ts) = Token.printAll ts) ∧
    (¬ ts.IsChain Token.NotBothFunctions →
      ∃ p run q, ts = p ++ run ++ q ∧ FirstNames p run q) ∧
    (∀ p run q, ts = p ++ run ++ q → FirstNames p run q →
      tokenize (Token.printAll ts) =
        .error (.unexpectedIdentifier (String.join (run.map Token.text)))) ∧
    (tokenize (Token.printAll ts) = .ok ts ↔ ts.IsChain Token.Separate) := by
  have hmerged : ts.IsChain Token.NotBothFunctions →
      tokenize (Token.printAll ts) = .ok (mergeNumbers ts) :=
    fun h => tokenize_eq_ok_iff.2 (scan_printAll_mergeNumbers hts h)
  have herror : ∀ p run q, ts = p ++ run ++ q → FirstNames p run q →
      tokenize (Token.printAll ts) =
        .error (.unexpectedIdentifier (String.join (run.map Token.text))) := by
    rintro p run q rfl hfirst
    rw [tokenize_eq_error_iff_scan, printAll_append, printAll_append, printAll_names hfirst.names]
    exact (hfirst.firstFailure hts).error?_scan
  refine ⟨fun h => ⟨hmerged h, printAll_mergeNumbers ts⟩, exists_firstNames, herror, ?_⟩
  constructor
  · intro h
    by_cases hchain : ts.IsChain Token.NotBothFunctions
    · have hsame : mergeNumbers ts = ts := Except.ok.inj ((hmerged hchain).symm.trans h)
      rw [← hsame]
      exact isChain_separate_mergeNumbers hchain
    · obtain ⟨p, run, q, hsplit, hfirst⟩ := exists_firstNames hchain
      rw [herror p run q hsplit hfirst] at h
      cases h
  · exact fun h => tokenize_eq_ok_iff.2 (scan_printAll hts h)

/-- Three numbers side by side after a parenthesis. -/
def neighbouringNumbers : List Token :=
  [.opening, .number "1", .number "2", .number "3", .operator '+', .number "4"]

/-- Three functions side by side after a number, and two more later. -/
def neighbouringNames : List Token :=
  [.number "2", .function "sin", .function "cos", .function "sin", .opening, .function "cos",
    .function "cos"]

/-- Three numbers are read as one, and three functions as a name that no function has. -/
theorem tokenize_printAll_neighbours :
    (∀ t ∈ neighbouringNumbers, t.WellFormed) ∧ (∀ t ∈ neighbouringNames, t.WellFormed) ∧
      tokenize "(123 + 4" = .ok [.opening, .number "123", .operator '+', .number "4"] ∧
      tokenize "(123 + 4" ≠ .ok neighbouringNumbers ∧
      tokenize "2sincossin(coscos" = .error (.unexpectedIdentifier "sincossin") := by
  have hnumbers : ∀ t ∈ neighbouringNumbers, t.WellFormed := by
    simp only [Token.wellFormed_iff_scan_text]
    decide
  have hnames : ∀ t ∈ neighbouringNames, t.WellFormed := by
    simp only [Token.wellFormed_iff_scan_text]
    decide
  have hchain : neighbouringNumbers.IsChain Token.NotBothFunctions := by decide
  have hrun : neighbouringNames = [.number "2"] ++
      [.function "sin", .function "cos", .function "sin"] ++
        [.opening, .function "cos", .function "cos"] := rfl
  have hfirst : FirstNames [.number "2"] [.function "sin", .function "cos", .function "sin"]
      [.opening, .function "cos", .function "cos"] := by
    refine ⟨.singleton _, by decide, by decide, ?_, ?_⟩ <;> decide
  obtain ⟨hmerged, -, -, hsame⟩ := tokenize_printAll neighbouringNumbers hnumbers
  obtain ⟨-, -, herror, -⟩ := tokenize_printAll neighbouringNames hnames
  exact ⟨hnumbers, hnames, (hmerged hchain).1, mt hsame.1 (by decide), herror _ _ _ hrun hfirst⟩

end InfixArith
