import InfixArith.Token.Scan
import Mathlib.Data.List.SplitBy

/-!
# Scanning one text after another

Where two texts meet, a piece of the first one and a piece of the second one are joined only if they
are runs of the same kind.  Everywhere else the scan of both texts together is the scan of the first
one followed by that of the second one (`scan_append`), and the first error wins (`Scan.append`).
-/

namespace InfixArith

/-- The scan of a text and then of another one, which an error in the first one keeps from being
reached. -/
def Scan.append (s s' : Scan) : Scan :=
  match s.error? with
  | none => ⟨s.tokens ++ s'.tokens, s'.error?⟩
  | some _ => s

/-- No run of characters goes on from the first list to the second one. -/
def Apart (cs ds : List Char) : Prop :=
  ∀ c ∈ cs.getLast?, ∀ d ∈ ds.head?, sameRun c d = false

/-! ### Where two texts meet -/

section

variable {cs ds es : List Char}

/-- The empty list is apart from all that follows it. -/
theorem apart_nil_left : Apart [] ds := by
  intro c hc
  cases hc

/-- The empty list is apart from all that is before it. -/
theorem apart_nil_right : Apart cs [] := by
  intro c hc d hd
  cases hd

/-- Lists are apart when the last character of the first one and the first character of the second
one are. -/
theorem apart_iff_getLast_head (hcs : cs ≠ []) (hds : ds ≠ []) :
    Apart cs ds ↔ sameRun (cs.getLast hcs) (ds.head hds) = false := by
  rw [Apart, List.getLast?_eq_some_getLast hcs, List.head?_eq_some_head hds]
  simp

/-- Only the first of the lists that follow counts for what is apart from them. -/
theorem apart_append_iff (hds : ds ≠ []) : Apart cs (ds ++ es) ↔ Apart cs ds := by
  rw [Apart, List.head?_append_of_ne_nil _ hds]
  rfl

/-- What is apart from two lists is apart from the first of them. -/
theorem Apart.of_append_right (h : Apart cs (ds ++ es)) : Apart cs ds := by
  rcases eq_or_ne ds [] with rfl | hds
  · exact apart_nil_right
  · exact (apart_append_iff hds).1 h

/-- What is apart from two lists is so together with the first of them. -/
theorem Apart.append_left (h : Apart cs (ds ++ es)) (h' : Apart ds es) : Apart (cs ++ ds) es := by
  rcases eq_or_ne ds [] with rfl | hds
  · rwa [List.append_nil]
  · intro c hc
    rw [List.getLast?_append_of_ne_nil _ hds] at hc
    exact h' c hc

end

/-! ### Scanning both -/

/-- A reading that fails ends the scan before any token. -/
theorem ofReadings_cons_of_failure {r : Reading} {e : LexError} (hr : r.error? = some e)
    (rs : List Reading) : Scan.ofReadings (r :: rs) = ⟨[], some e⟩ := by
  simp [Scan.ofReadings, hr]

/-- A reading that does not fail adds its token, if it has one, before those of the others. -/
theorem ofReadings_cons_of_error?_eq_none {r : Reading} (hr : r.error? = none)
    (rs : List Reading) :
    Scan.ofReadings (r :: rs) =
      ⟨r.token?.toList ++ (Scan.ofReadings rs).tokens, (Scan.ofReadings rs).error?⟩ := by
  cases htoken : r.token? <;> simp [Scan.ofReadings, hr, htoken]

/-- Readings that follow others are scanned after them, and the first error wins. -/
theorem ofReadings_append (rs rs' : List Reading) :
    Scan.ofReadings (rs ++ rs') = (Scan.ofReadings rs).append (Scan.ofReadings rs') := by
  induction rs with
  | nil => rfl
  | cons r rs ih =>
    -- An error ends both scans at once, so nothing of the second list counts.
    cases hr : r.error? with
    | some e =>
      rw [List.cons_append, ofReadings_cons_of_failure hr, ofReadings_cons_of_failure hr]
      rfl
    | none =>
      rw [List.cons_append, ofReadings_cons_of_error?_eq_none hr,
        ofReadings_cons_of_error?_eq_none hr, ih]
      cases herror : (Scan.ofReadings rs).error? <;> simp [Scan.append, herror]

/-- Two texts that are apart are scanned one after the other, and the first error wins. -/
theorem scan_append {a b : String} (h : Apart a.toList b.toList) :
    scan (a ++ b) = (scan a).append (scan b) := by
  have hpieces : pieces (a ++ b).toList = pieces a.toList ++ pieces b.toList := by
    rw [String.toList_append]
    exact List.splitBy_append h
  rw [scan, hpieces, List.map_append, ofReadings_append]
  rfl

/-- Two texts with tokens that are apart have the tokens of both. -/
theorem scan_append_of_tokens {a b : String} {ts us : List Token} (h : Apart a.toList b.toList)
    (ha : scan a = ⟨ts, none⟩) (hb : scan b = ⟨us, none⟩) : scan (a ++ b) = ⟨ts ++ us, none⟩ := by
  rw [scan_append h, ha, hb]
  rfl

end InfixArith
