import InfixArith.Text.Field
import Mathlib.Data.List.Basic

/-!
# Lines of a text

`Text.lines` cuts a text at its line ends.  A text that is written from lines, with a line end after
each, has exactly these lines (`Text.lines_flatMap`, `Text.lines_ofLines`).  A text without line
ends is one line (`Text.IsLine`); so is what a field makes of it, and so are the digits of a number.
-/

namespace InfixArith.Text

/-- The lines of a text without their line ends.  What follows the last line end is a line as well,
unless there is nothing. -/
def lines : List Char → List (List Char)
  | [] => []
  | c :: cs =>
    if c = '\n' then [] :: lines cs
    else
      match lines cs with
      | [] => [[c]]
      | l :: ls => (c :: l) :: ls

variable {l : List Char} {ls : List (List Char)}

/-- A line end closes the line before it. -/
theorem lines_append (hl : '\n' ∉ l) (rest : List Char) :
    lines (l ++ '\n' :: rest) = l :: lines rest := by
  induction l with
  | nil => rw [List.nil_append, lines, if_pos rfl]
  | cons c l ih =>
    obtain ⟨hc, hrest⟩ := not_or.1 (List.mem_cons.not.1 hl)
    rw [List.cons_append, lines, if_neg (Ne.symm hc), ih hrest]

/-- Lines that are each ended are the lines of the text. -/
theorem lines_flatMap (hls : ∀ l ∈ ls, '\n' ∉ l) :
    lines (ls.flatMap fun l => l ++ ['\n']) = ls := by
  induction ls with
  | nil => rfl
  | cons l ls ih =>
    obtain ⟨hl, hrest⟩ := List.forall_mem_cons.1 hls
    rw [List.flatMap_cons, List.append_assoc, List.singleton_append, lines_append hl, ih hrest]

/-- A text that does not end with a line end has one more line, and empty lines count. -/
example : lines "a\n\nb".toList = [['a'], [], ['b']] ∧ lines "a\n".toList = [['a']] := by
  decide

/-! ### Texts without line ends -/

/-- The text has no line end. -/
def IsLine (text : String) : Prop :=
  '\n' ∉ text.toList

/-- Two texts one after the other are one line when both are. -/
theorem isLine_append {a b : String} : IsLine (a ++ b) ↔ IsLine a ∧ IsLine b := by
  rw [IsLine, String.toList_append, List.mem_append, not_or]
  rfl

/-- A text given by its characters; this is how a fixed text is seen to be a line. -/
theorem isLine_ofList {cs : List Char} (h : '\n' ∉ cs) : IsLine (String.ofList cs) := by
  rw [IsLine, String.toList_ofList]
  exact h

/-- A line between two lines makes one line with them. -/
theorem isLine_between {a b c : String} (ha : IsLine a) (hb : IsLine b) (hc : IsLine c) :
    IsLine (a ++ b ++ c) :=
  isLine_append.2 ⟨isLine_append.2 ⟨ha, hb⟩, hc⟩

/-- Lines that are joined are one line. -/
theorem isLine_join {texts : List String} (h : ∀ text ∈ texts, IsLine text) :
    IsLine (String.join texts) := by
  rw [IsLine, String.toList_join, List.mem_flatMap]
  rintro ⟨text, htext, hnewline⟩
  exact h text htext hnewline

/-- Digits are one line. -/
theorem isLine_of_isDigit {text : String} (h : ∀ c ∈ text.toList, c.isDigit = true) :
    IsLine text := by
  intro hnewline
  exact absurd (h _ hnewline) (by decide)

/-- The digits of a number are one line. -/
theorem isLine_repr (n : Nat) : IsLine (Nat.repr n) := by
  refine isLine_of_isDigit fun c hc => ?_
  rw [Nat.toList_repr] at hc
  exact Nat.isDigit_of_mem_toDigits (by decide) (by decide) hc

/-- A field adds nothing but its filling to the text. -/
theorem isLine_apply {field : Field} {text : String} (hfiller : field.filler ≠ '\n')
    (h : IsLine text) : IsLine (field.apply text) := by
  have hkept : '\n' ∉ field.cut text.toList := by
    unfold Field.cut
    split
    · exact h
    · exact fun hnewline => h (List.mem_of_mem_take hnewline)
  simp only [IsLine, Field.apply, String.toList_ofList, List.mem_append, List.mem_replicate, not_or]
  exact ⟨⟨fun hnewline => hfiller hnewline.2.symm, hkept⟩, fun hnewline => hfiller hnewline.2.symm⟩

/-- A line that is filled on the left is one line. -/
theorem isLine_padLeft {text : String} (width : Nat) (h : IsLine text) :
    IsLine (padLeft width text) :=
  isLine_apply (show ' ' ≠ '\n' by decide) h

/-- A line that is filled on the right is one line. -/
theorem isLine_padRight {text : String} (width : Nat) (h : IsLine text) :
    IsLine (padRight width text) :=
  isLine_apply (show ' ' ≠ '\n' by decide) h

/-- The text that has these lines, with a line end after each. -/
def ofLines (texts : List String) : String :=
  String.join (texts.map (· ++ "\n"))

/-- One line is written with its line end. -/
theorem ofLines_singleton (text : String) : ofLines [text] = text ++ "\n" := by
  simp [ofLines]

/-- Lines are written one list after the other. -/
theorem ofLines_append (texts texts' : List String) :
    ofLines (texts ++ texts') = ofLines texts ++ ofLines texts' := by
  rw [ofLines, List.map_append, String.join_append]
  rfl

/-- A text that is written from lines has these lines. -/
theorem lines_ofLines {texts : List String} (h : ∀ text ∈ texts, IsLine text) :
    lines (ofLines texts).toList = texts.map String.toList := by
  have htext : (ofLines texts).toList = (texts.map String.toList).flatMap fun l => l ++ ['\n'] := by
    rw [ofLines, String.toList_join, List.flatMap_map, List.flatMap_map]
    exact List.flatMap_congr fun text _ => String.toList_append
  rw [htext]
  exact lines_flatMap (List.forall_mem_map.2 h)

end InfixArith.Text
