import InfixArith.Analysis
import InfixArith.Proofs.Scanning.Spelling

/-!
# White space between two texts

Where two texts are apart, the tokens of both together are those of the first one and then those of
the second one, and the first error is the error of both (`Scan.result_append`).  White space in
between keeps any two texts apart and has no tokens itself (`scan_append_blank`), so it does not
matter how much of it there is, or whether there is any between texts that are apart without it
(`tokenize_append`).
-/

namespace InfixArith

variable {a b blank text text' : String} {cs ds : List Char}

/-- All tokens of a scan and of the next one, unless one of them has stopped at an error. -/
theorem Scan.result_append (s s' : Scan) :
    (s.append s').result = do return (← s.result) ++ (← s'.result) := by
  obtain ⟨ts, error?⟩ := s
  obtain ⟨ts', error?'⟩ := s'
  cases error? with
  | some e => rfl
  | none =>
    cases error?' with
    | some e' => rfl
    | none => rfl

/-- White space keeps apart what it stands between; without any, this must be apart itself. -/
theorem IsBlank.apart_append (hblank : IsBlank blank) (h : blank ≠ "" ∨ Apart cs ds) :
    Apart cs (blank.toList ++ ds) := by
  by_cases hempty : blank = ""
  · have hapart : Apart cs ds := h.resolve_left (not_not_intro hempty)
    rwa [hempty]
  · have hne : blank.toList ≠ [] := fun hnil => hempty (String.toList_eq_nil_iff.1 hnil)
    have hapart : Apart cs blank.toList := (hblank.apart cs).2
    exact (apart_append_iff hne).2 hapart

/-- White space between two texts leaves no trace in the scan. -/
theorem scan_append_blank (hblank : IsBlank blank) (h : blank ≠ "" ∨ Apart a.toList b.toList) :
    scan (a ++ blank ++ b) = (scan a).append (scan b) := by
  have hrest : scan (blank ++ b) = scan b := by
    rw [scan_append (hblank.apart b.toList).1, scan_of_isBlank hblank]
    rfl
  have hapart : Apart a.toList (blank ++ b).toList := by
    rw [String.toList_append]
    exact hblank.apart_append h
  rw [String.append_assoc, scan_append hapart, hrest]

/-- An analysis depends on the scan of the text alone. -/
theorem analyze_eq_of_scan_eq (h : scan text = scan text') : analyze text = analyze text' := by
  rw [analyze, tokenize, h]
  rfl

/-- Two texts in which no run goes on from the first to the second have the tokens of the one and
then those of the other, or else the first error.  White space between them does not change the
analysis, and between any two texts it does not matter which white space there is. -/
theorem tokenize_append :
    (∀ a b : String, Apart a.toList b.toList →
      tokenize (a ++ b) = do return (← tokenize a) ++ (← tokenize b)) ∧
    (∀ a b blank : String, Apart a.toList b.toList → IsBlank blank →
      analyze (a ++ blank ++ b) = analyze (a ++ b)) ∧
    ∀ a b blank blank' : String, IsBlank blank → IsBlank blank' → blank ≠ "" → blank' ≠ "" →
      analyze (a ++ blank ++ b) = analyze (a ++ blank' ++ b) := by
  refine ⟨?_, ?_, ?_⟩
  · intro a b hapart
    rw [tokenize, scan_append hapart, Scan.result_append]
    rfl
  · intro a b blank hapart hblank
    apply analyze_eq_of_scan_eq
    rw [scan_append_blank hblank (.inr hapart), scan_append hapart]
  · intro a b blank blank' hblank hblank' hne hne'
    apply analyze_eq_of_scan_eq
    rw [scan_append_blank hblank (.inl hne), scan_append_blank hblank' (.inl hne')]

/-- A function stands apart from the sign before it, with an em space or without; the error in
`2*sine` stays when the text goes on; and two numbers are kept apart by a space as by a tab and a
line end. -/
theorem tokenize_append_sine :
    tokenize ("2*" ++ "sin(3)") =
        .ok [.number "2", .operator '*', .function "sin", .opening, .number "3", .closing] ∧
      analyze ("2*" ++ "\u2003" ++ "sin(3)") = analyze ("2*" ++ "sin(3)") ∧
      tokenize ("2*sine" ++ "(@)") = .error (.unexpectedIdentifier "sine") ∧
      analyze ("1" ++ " " ++ "2") = analyze ("1" ++ "\t\n" ++ "2") := by
  have hsign : Apart "2*".toList "sin(3)".toList := by
    intro c hc d _
    obtain rfl : '*' = c := Option.some.inj hc
    rfl
  have hname : Apart "2*sine".toList "(@)".toList := by
    intro c _ d hd
    obtain rfl : '(' = d := Option.some.inj hd
    exact (sameRun_eq_false rfl rfl c).2
  have hblank : IsBlank "\u2003" := List.all_eq_true.1 (by rfl)
  have hspace : IsBlank " " := List.all_eq_true.1 (by rfl)
  have hlines : IsBlank "\t\n" := List.all_eq_true.1 (by rfl)
  refine ⟨?_, tokenize_append.2.1 _ _ _ hsign hblank, ?_,
    tokenize_append.2.2 _ _ _ _ hspace hlines (by decide) (by decide)⟩
  · rw [tokenize_append.1 _ _ hsign]
    rfl
  · rw [tokenize_append.1 _ _ hname]
    rfl

end InfixArith
