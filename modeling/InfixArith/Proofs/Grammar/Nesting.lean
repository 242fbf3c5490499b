import InfixArith.Token.Basic
import Mathlib.Order.Bounds.Defs

/-!
# Nesting of parentheses

`Token.depth` is the number of parentheses that a list of tokens leaves open, negative when it
closes more than it opens, and `Token.NestsWithin k` says that no beginning of the list leaves more
than `k` of them open.  The lemmas `nestsWithin_cons` and `nestsWithin_append` follow the list, so
that a bound on the whole is a bound on each part, less what is open before the part.  The least
such bound is `Token.maxDepth`.
-/

namespace InfixArith.Token

/-- The number of opening parentheses less the number of closing ones. -/
def depth (ts : List Token) : Int :=
  ts.count opening - ts.count closing

/-- No beginning of the list has more than `k` opening parentheses more than closing ones. -/
def NestsWithin (k : Int) (ts : List Token) : Prop :=
  ∀ q, q <+: ts → depth q ≤ k

/-- The largest number of parentheses that a beginning of the list leaves open. -/
def maxDepth : List Token → Int
  | [] => 0
  | t :: ts => max 0 (depth [t] + maxDepth ts)

/-! ### Depth -/

/-- Before the first token nothing is open. -/
@[simp]
theorem depth_nil : depth [] = 0 :=
  rfl

/-- The depths of two lists of tokens add up when one follows the other. -/
@[simp]
theorem depth_append (ts us : List Token) : depth (ts ++ us) = depth ts + depth us := by
  simp only [depth, List.count_append]
  omega

/-- The depth of a list is that of its first token and that of the others. -/
theorem depth_cons (t : Token) (ts : List Token) : depth (t :: ts) = depth [t] + depth ts :=
  depth_append [t] ts

/-- An opening parenthesis is one step down. -/
@[simp]
theorem depth_opening : depth [opening] = 1 := by
  decide

/-- A closing parenthesis is one step up. -/
@[simp]
theorem depth_closing : depth [closing] = -1 := by
  decide

/-- A token that is no parenthesis leaves the depth as it is. -/
theorem depth_singleton_of_ne {t : Token} (ho : t ≠ opening) (hc : t ≠ closing) :
    depth [t] = 0 := by
  simp [depth, ho, hc]

/-- A number leaves the depth as it is. -/
@[simp]
theorem depth_number (text : String) : depth [number text] = 0 :=
  depth_singleton_of_ne (by simp [number, opening, operator]) (by simp [number, closing, operator])

/-- The name of a function leaves the depth as it is. -/
@[simp]
theorem depth_function (name : String) : depth [function name] = 0 :=
  depth_singleton_of_ne (by simp [function, opening, operator])
    (by simp [function, closing, operator])

/-- A factorial sign leaves the depth as it is. -/
@[simp]
theorem depth_factorial (text : String) : depth [⟨.factorial, text⟩] = 0 :=
  depth_singleton_of_ne (by simp [opening, operator]) (by simp [closing, operator])

/-- A binary operator leaves the depth as it is. -/
@[simp]
theorem depth_operator_symbol (op : BinaryOp) : depth [operator op.symbol] = 0 := by
  cases op <;> decide

/-- Opening parentheses in a row are as deep as there are of them. -/
theorem depth_replicate_opening (n : Nat) : depth (.replicate n opening) = n := by
  induction n with
  | zero => rfl
  | succ n ih =>
    rw [List.replicate_succ, depth_cons, depth_opening, ih]
    omega

/-- Only an opening parenthesis leads further down. -/
theorem depth_singleton_nonpos {t : Token} (ho : t ≠ opening) : depth [t] ≤ 0 := by
  by_cases hc : t = closing
  · rw [hc, depth_closing]
    decide
  · exact Int.le_of_eq (depth_singleton_of_ne ho hc)

/-! ### Bounds on the depth -/

/-- The empty list nests within every bound that is not negative. -/
theorem nestsWithin_nil {k : Int} : NestsWithin k [] ↔ 0 ≤ k := by
  simp [NestsWithin]

/-- After the first token the bound for the others is less by its depth. -/
theorem nestsWithin_cons {k : Int} {t : Token} {ts : List Token} :
    NestsWithin k (t :: ts) ↔ 0 ≤ k ∧ NestsWithin (k - depth [t]) ts := by
  constructor
  · intro h
    refine ⟨h [] List.nil_prefix, ?_⟩
    intro q hq
    have hcons := h (t :: q) ((List.prefix_cons_inj t).2 hq)
    rw [depth_cons] at hcons
    omega
  · rintro ⟨hk, h⟩ q hq
    rcases List.prefix_cons_iff.1 hq with rfl | ⟨q', rfl, hq'⟩
    · exact hk
    · have hdepth := h q' hq'
      rw [depth_cons]
      omega

/-- A single token nests within a bound when the bound is neither negative nor below its depth. -/
theorem nestsWithin_singleton {k : Int} {t : Token} :
    NestsWithin k [t] ↔ 0 ≤ k ∧ depth [t] ≤ k := by
  rw [nestsWithin_cons, nestsWithin_nil, Int.sub_nonneg]

/-- After the first of two lists the bound for the second one is less by its depth. -/
theorem nestsWithin_append {k : Int} {ts us : List Token} :
    NestsWithin k (ts ++ us) ↔ NestsWithin k ts ∧ NestsWithin (k - depth ts) us := by
  induction ts generalizing k with
  | nil =>
    rw [List.nil_append, nestsWithin_nil, depth_nil, Int.sub_zero]
    exact ⟨fun h => ⟨h [] List.nil_prefix, h⟩, fun h => h.2⟩
  | cons t ts ih =>
    have hcons : depth (t :: ts) = depth [t] + depth ts := depth_cons t ts
    have hdepth : k - depth [t] - depth ts = k - depth (t :: ts) := by omega
    rw [List.cons_append, nestsWithin_cons, nestsWithin_cons, ih, hdepth, and_assoc]

/-- A bound that tokens nest within is not negative. -/
theorem NestsWithin.nonneg {k : Int} {ts : List Token} (h : NestsWithin k ts) : 0 ≤ k :=
  h [] List.nil_prefix

/-- Parentheses around a list make it nest one deeper. -/
theorem nestsWithin_parentheses {k : Int} {ts : List Token} :
    NestsWithin k (.opening :: (ts ++ [.closing])) ↔ NestsWithin (k - 1) ts := by
  rw [nestsWithin_cons, nestsWithin_append, nestsWithin_singleton, depth_opening, depth_closing]
  constructor
  · exact fun h => h.2.1
  · intro h
    have hnonneg : 0 ≤ k - 1 := h.nonneg
    have hdepth : depth ts ≤ k - 1 := h ts List.prefix_rfl
    exact ⟨by omega, h, by omega, by omega⟩

/-- The name of a function before the parentheses does not count. -/
theorem nestsWithin_call {k : Int} {name : String} {ts : List Token} :
    NestsWithin k (.function name :: .opening :: (ts ++ [.closing])) ↔ NestsWithin (k - 1) ts := by
  rw [nestsWithin_cons, depth_function, Int.sub_zero, nestsWithin_parentheses]
  refine and_iff_right_of_imp fun h => ?_
  have hnonneg : 0 ≤ k - 1 := h.nonneg
  omega

/-- Tokens that nest within a bound nest within every greater one. -/
theorem NestsWithin.mono {k k' : Int} {ts : List Token} (h : NestsWithin k ts) (hk : k ≤ k') :
    NestsWithin k' ts :=
  fun q hq => Int.le_trans (h q hq) hk

/-- There is room for one more level where no beginning of the list reaches the bound. -/
theorem NestsWithin.sub_one_iff {k : Int} {ts : List Token} (h : NestsWithin k ts) :
    NestsWithin (k - 1) ts ↔ ∀ q, q <+: ts → depth q ≠ k := by
  constructor
  · intro hless q hq
    have hdepth : depth q ≤ k - 1 := hless q hq
    omega
  · intro hne q hq
    have hdepth : depth q ≤ k := h q hq
    have hq' : depth q ≠ k := hne q hq
    omega

/-- A list never leaves more parentheses open than it has tokens. -/
theorem nestsWithin_length (ts : List Token) : NestsWithin ts.length ts := by
  intro q hq
  have hcount : q.count opening ≤ q.length := List.count_le_length
  have hlength : q.length ≤ ts.length := hq.length_le
  simp only [depth]
  omega

/-! ### The largest depth -/

/-- The depths of the beginnings of a list have `maxDepth` as the greatest one. -/
theorem isGreatest_maxDepth (ts : List Token) :
    IsGreatest {k | ∃ q, q <+: ts ∧ depth q = k} (maxDepth ts) := by
  induction ts with
  | nil =>
    refine ⟨⟨[], List.nil_prefix, rfl⟩, ?_⟩
    rintro k ⟨q, hq, rfl⟩
    rw [List.prefix_nil.1 hq]
    exact Int.le_refl 0
  | cons t ts ih =>
    obtain ⟨⟨q, hq, hdepth⟩, hbound⟩ := ih
    constructor
    · -- The largest depth is that of the empty beginning or of one that goes on after the token.
      rcases Int.le_total (depth [t] + maxDepth ts) 0 with hle | hle
      · exact ⟨[], List.nil_prefix, (Int.max_eq_left hle).symm⟩
      · refine ⟨t :: q, (List.prefix_cons_inj t).2 hq, ?_⟩
        rw [depth_cons, hdepth]
        exact (Int.max_eq_right hle).symm
    · rintro k ⟨q', hq', rfl⟩
      rcases List.prefix_cons_iff.1 hq' with rfl | ⟨q₁, rfl, hq₁⟩
      · exact Int.le_max_left 0 _
      · have hle : depth q₁ ≤ maxDepth ts := hbound ⟨q₁, hq₁, rfl⟩
        have hcons : depth (t :: q₁) = depth [t] + depth q₁ := depth_cons t q₁
        exact Int.le_trans (by omega) (Int.le_max_right 0 _)

/-- A bound on the depth is one on the largest depth. -/
theorem nestsWithin_iff_maxDepth_le {k : Int} {ts : List Token} :
    NestsWithin k ts ↔ maxDepth ts ≤ k := by
  obtain ⟨⟨q, hq, hdepth⟩, hbound⟩ := isGreatest_maxDepth ts
  constructor
  · intro h
    rw [← hdepth]
    exact h q hq
  · intro h q' hq'
    exact Int.le_trans (hbound ⟨q', hq', rfl⟩) h

end InfixArith.Token
