import InfixArith.Proofs.Scanning.Append
import Mathlib.Data.List.TakeWhile

/-!
# Runs of characters

A run is a list of characters each of which belongs to one piece with the next one.  Its characters
are of one kind, digits or letters (`sameRun_of_isChain`), unless it has only one
(`eq_nil_of_isChain`); white space is never in a longer run
(`not_digit_not_lower_of_isWhiteSpace`).
-/

namespace InfixArith

variable {c d d' : Char} {cs : List Char}

/-! ### Classes of characters -/

/-- The digits are the characters from `0` to `9`, by their code points. -/
theorem isDigit_iff : c.isDigit = true ↔ 48 ≤ c.toNat ∧ c.toNat ≤ 57 :=
  Char.isDigit_iff_toNat

/-- The lower-case letters are the characters from `a` to `z`, by their code points. -/
theorem isLower_iff : c.isLower = true ↔ 97 ≤ c.toNat ∧ c.toNat ≤ 122 := by
  have hlower : c.isLower = (decide (97 ≤ c.val) && decide (c.val ≤ 122)) := rfl
  simp [hlower, UInt32.le_iff_toNat_le]

/-- A digit is no letter. -/
theorem isLower_eq_false_of_isDigit (h : c.isDigit = true) : c.isLower = false := by
  rw [isDigit_iff] at h
  rw [← Bool.not_eq_true, isLower_iff]
  omega

/-- The code points of white space are below those of the digits or above those of the letters. -/
theorem toNat_of_isWhiteSpace (h : isWhiteSpace c = true) : c.toNat < 48 ∨ 122 < c.toNat := by
  obtain ⟨r, hr, hfirst, hlast⟩ := (isWhiteSpace_iff c).1 h
  have hranges : ∀ r ∈ whiteSpaceRanges, r.last < 48 ∨ 122 < r.first := by decide
  rcases hranges r hr with hbelow | habove
  · omega
  · omega

/-- White space is neither a digit nor a letter. -/
theorem not_digit_not_lower_of_isWhiteSpace (h : isWhiteSpace c = true) :
    c.isDigit = false ∧ c.isLower = false := by
  have hcode : c.toNat < 48 ∨ 122 < c.toNat := toNat_of_isWhiteSpace h
  constructor
  · rw [← Bool.not_eq_true, isDigit_iff]
    omega
  · rw [← Bool.not_eq_true, isLower_iff]
    omega

/-- A digit is no white space. -/
theorem isWhiteSpace_eq_false_of_isDigit (h : c.isDigit = true) : isWhiteSpace c = false := by
  rw [← Bool.not_eq_true]
  intro hspace
  rw [(not_digit_not_lower_of_isWhiteSpace hspace).1] at h
  cases h

/-- A letter is no white space. -/
theorem isWhiteSpace_eq_false_of_isLower (h : c.isLower = true) : isWhiteSpace c = false := by
  rw [← Bool.not_eq_true]
  intro hspace
  rw [(not_digit_not_lower_of_isWhiteSpace hspace).2] at h
  cases h

/-! ### Characters of one run -/

/-- Two characters belong to one run when both are digits or both are letters. -/
theorem sameRun_iff :
    sameRun c d = true ↔
      (c.isDigit = true ∧ d.isDigit = true) ∨ (c.isLower = true ∧ d.isLower = true) := by
  simp [sameRun]

/-- Whether two characters belong to one run does not depend on their order. -/
theorem sameRun_comm (c d : Char) : sameRun c d = sameRun d c := by
  simp only [sameRun, Bool.and_comm]

/-- A character that is neither a digit nor a letter stands alone. -/
theorem sameRun_eq_false (hdigit : c.isDigit = false) (hlower : c.isLower = false) (d : Char) :
    sameRun c d = false ∧ sameRun d c = false := by
  simp [sameRun, hdigit, hlower]

/-- What belongs to one run with a digit is a digit. -/
theorem isDigit_of_sameRun (h : sameRun c d = true) (hc : c.isDigit = true) :
    d.isDigit = true := by
  rcases sameRun_iff.1 h with ⟨-, hd⟩ | ⟨hlower, -⟩
  · exact hd
  · rw [isLower_eq_false_of_isDigit hc] at hlower
    cases hlower

/-- What belongs to one run with a letter is a letter. -/
theorem isLower_of_sameRun (h : sameRun c d = true) (hc : c.isLower = true) :
    d.isLower = true := by
  rcases sameRun_iff.1 h with ⟨hdigit, -⟩ | ⟨-, hd⟩
  · rw [isLower_eq_false_of_isDigit hdigit] at hc
    cases hc
  · exact hd

/-- Characters that belong to one run with the same one belong to one run. -/
theorem sameRun_trans (h : sameRun c d = true) (h' : sameRun d d' = true) :
    sameRun c d' = true := by
  rcases sameRun_iff.1 h with ⟨hc, hd⟩ | ⟨hc, hd⟩
  · exact sameRun_iff.2 (.inl ⟨hc, isDigit_of_sameRun h' hd⟩)
  · exact sameRun_iff.2 (.inr ⟨hc, isLower_of_sameRun h' hd⟩)

/-! ### Runs -/

/-- All characters of a run are of the kind of the first one. -/
theorem sameRun_of_isChain (h : (c :: cs).IsChain fun c d => sameRun c d) :
    ∀ d ∈ cs, sameRun c d = true := by
  induction cs generalizing c with
  | nil => exact nofun
  | cons d cs ih =>
    obtain ⟨hrun, hrest⟩ := List.isChain_cons_cons.1 h
    intro d' hd'
    rcases List.mem_cons.1 hd' with rfl | hmem
    · exact hrun
    · exact sameRun_trans hrun (ih hrest d' hmem)

/-- A run that begins with a digit has digits only. -/
theorem isDigit_of_isChain (h : (c :: cs).IsChain fun c d => sameRun c d)
    (hc : c.isDigit = true) : ∀ d ∈ c :: cs, d.isDigit = true :=
  List.forall_mem_cons.2 ⟨hc, fun d hd => isDigit_of_sameRun (sameRun_of_isChain h d hd) hc⟩

/-- A run that begins with a letter has letters only. -/
theorem isLower_of_isChain (h : (c :: cs).IsChain fun c d => sameRun c d)
    (hc : c.isLower = true) : ∀ d ∈ c :: cs, d.isLower = true :=
  List.forall_mem_cons.2 ⟨hc, fun d hd => isLower_of_sameRun (sameRun_of_isChain h d hd) hc⟩

/-- A run that begins with a character that stands alone has no other character. -/
theorem eq_nil_of_isChain (h : (c :: cs).IsChain fun c d => sameRun c d)
    (hdigit : c.isDigit = false) (hlower : c.isLower = false) : cs = [] := by
  rw [List.eq_nil_iff_forall_not_mem]
  intro d hd
  have hrun : sameRun c d = true := sameRun_of_isChain h d hd
  rw [(sameRun_eq_false hdigit hlower d).1] at hrun
  cases hrun

/-- Characters each two of which belong to one run are a run. -/
theorem isChain_of_forall_sameRun (h : ∀ c ∈ cs, ∀ d ∈ cs, sameRun c d = true) :
    cs.IsChain fun c d => sameRun c d :=
  (List.pairwise_of_forall_mem_list h).isChain

/-- Digits are a run. -/
theorem isChain_of_forall_isDigit (h : ∀ c ∈ cs, c.isDigit = true) :
    cs.IsChain fun c d => sameRun c d :=
  isChain_of_forall_sameRun fun c hc d hd => sameRun_iff.2 (.inl ⟨h c hc, h d hd⟩)

/-- Letters are a run. -/
theorem isChain_of_forall_isLower (h : ∀ c ∈ cs, c.isLower = true) :
    cs.IsChain fun c d => sameRun c d :=
  isChain_of_forall_sameRun fun c hc d hd => sameRun_iff.2 (.inr ⟨h c hc, h d hd⟩)

/-- A character and the characters of its kind right after it are a run. -/
theorem isChain_cons_takeWhile (c : Char) (cs : List Char) :
    (c :: cs.takeWhile (sameRun c)).IsChain fun c d => sameRun c d := by
  have hkind : ∀ d ∈ cs.takeWhile (sameRun c), sameRun c d = true := fun d hd =>
    List.mem_takeWhile_imp hd
  have hpairs : (cs.takeWhile (sameRun c)).Pairwise fun d d' => sameRun d d' = true := by
    refine List.pairwise_of_forall_mem_list fun d hd d' hd' => ?_
    exact sameRun_trans ((sameRun_comm d c).trans (hkind d hd)) (hkind d' hd')
  exact (List.pairwise_cons.2 ⟨hkind, hpairs⟩).isChain

/-! ### What is apart -/

section

variable {ds : List Char}

/-- What is apart is so too when it is read backwards. -/
theorem apart_reverse_iff : Apart ds.reverse cs.reverse ↔ Apart cs ds := by
  simp only [Apart, List.getLast?_reverse, List.head?_reverse]
  constructor
  · intro h c hc d hd
    rw [sameRun_comm]
    exact h d hd c hc
  · intro h d hd c hc
    rw [sameRun_comm]
    exact h c hc d hd

/-- Characters that stand alone are apart from all that follows them. -/
theorem apart_of_alone_left (hcs : ∀ c ∈ cs, c.isDigit = false ∧ c.isLower = false) :
    Apart cs ds := by
  intro c hc d _
  obtain ⟨hdigit, hlower⟩ := hcs c (List.mem_of_getLast? hc)
  exact (sameRun_eq_false hdigit hlower d).1

/-- Characters that stand alone are apart from all that is before them. -/
theorem apart_of_alone_right (hds : ∀ d ∈ ds, d.isDigit = false ∧ d.isLower = false) :
    Apart cs ds := by
  rw [← apart_reverse_iff]
  exact apart_of_alone_left (by simpa using hds)

/-- The longest run from a character on is apart from what follows it. -/
theorem apart_cons_takeWhile (c : Char) (cs : List Char) :
    Apart (c :: cs.takeWhile (sameRun c)) (cs.dropWhile (sameRun c)) := by
  intro l hl d hd
  have hend : sameRun c d = false := by
    have hnot := List.head?_dropWhile_not (sameRun c) cs
    rw [hd] at hnot
    exact hnot
  rw [← Bool.not_eq_true]
  intro hrun
  -- The last character is the first one or of its kind, and the next one is not.
  rcases List.mem_cons.1 (List.mem_of_getLast? hl) with rfl | hmem
  · rw [hend] at hrun
    cases hrun
  · rw [sameRun_trans (List.mem_takeWhile_imp hmem) hrun] at hend
    cases hend

/-- Letters are apart from what is before them when no letter comes last there. -/
theorem apart_letters_right_iff (hne : ds ≠ []) (hds : ∀ d ∈ ds, d.isLower = true) :
    Apart cs ds ↔ ∀ c ∈ cs.getLast?, c.isLower = false := by
  constructor
  · intro h c hc
    rw [← Bool.not_eq_true]
    intro hlower
    have hapart : sameRun c (ds.head hne) = false := h c hc _ (List.head_mem_head? hne)
    rw [sameRun_iff.2 (.inr ⟨hlower, hds _ (List.head_mem hne)⟩)] at hapart
    cases hapart
  · intro h c hc d hd
    rw [← Bool.not_eq_true]
    intro hrun
    rw [sameRun_comm] at hrun
    have hlower : c.isLower = true := isLower_of_sameRun hrun (hds d (List.mem_of_mem_head? hd))
    rw [h c hc] at hlower
    cases hlower

/-- Letters are apart from what follows them when no letter comes first there. -/
theorem apart_letters_left_iff (hne : cs ≠ []) (hcs : ∀ c ∈ cs, c.isLower = true) :
    Apart cs ds ↔ ∀ d ∈ ds.head?, d.isLower = false := by
  have hletters : ∀ c ∈ cs.reverse, c.isLower = true := by simpa using hcs
  rw [← apart_reverse_iff, apart_letters_right_iff (List.reverse_ne_nil_iff.2 hne) hletters,
    List.getLast?_reverse]

end

end InfixArith
