import InfixArith.Derivation.Basic
import InfixArith.Proofs.Reading.Shift

/-!
# What a list of tokens does

`Shifts asked s ts steps s'` says that the tokens `ts` continue the state `s` one after the other up
to the state `s'`, again with no regard to the number of open parentheses; `Takes` adds that this
number stays within the limit.  A reading ends in one of three ways (`Ending`): the tokens are over,
a token does not continue the state, or a parenthesis is one too many.  The main statement is
`run_eq_iff`, by which `run` gives exactly the outcome of this ending.
-/

namespace InfixArith

/-- The tokens continue the state one after the other. -/
inductive Shifts (asked : Rule) : State → List Token → List Step → State → Prop
  /-- No token leaves the state as it is. -/
  | nil (s : State) : Shifts asked s [] [] s
  /-- One token and then the others. -/
  | cons {s s' s'' : State} {t : Token} {ts : List Token} {steps steps' : List Step}
      (h : Shift asked s t steps s') (h' : Shifts asked s' ts steps' s'') :
      Shifts asked s (t :: ts) (steps ++ steps') s''

namespace Shifts

variable {asked : Rule} {s s' s'' : State} {t : Token} {ts us : List Token}
  {steps steps' : List Step}

/-- One token that continues the state is a list that does. -/
theorem single (h : Shift asked s t steps s') : Shifts asked s [t] steps s' := by
  have hcons : Shifts asked s [t] (steps ++ []) s' := .cons h (.nil s')
  rwa [List.append_nil] at hcons

/-- A list of one token continues the state as the token does. -/
theorem shift_of_single (h : Shifts asked s [t] steps s') : Shift asked s t steps s' := by
  cases h with
  | cons hshift hnil =>
    cases hnil
    rwa [List.append_nil]

/-- Two lists that continue a state one after the other continue it together. -/
theorem append (h : Shifts asked s ts steps s') (h' : Shifts asked s' us steps' s'') :
    Shifts asked s (ts ++ us) (steps ++ steps') s'' := by
  induction h with
  | nil s => exact h'
  | cons hshift _ ih =>
    rw [List.append_assoc, List.cons_append]
    exact .cons hshift (ih h')

/-- What two lists do one after the other goes through a state between them. -/
theorem exists_of_append (h : Shifts asked s (ts ++ us) steps s'') :
    ∃ steps₁ s' steps₂, Shifts asked s ts steps₁ s' ∧ Shifts asked s' us steps₂ s'' ∧
      steps = steps₁ ++ steps₂ := by
  induction ts generalizing s steps with
  | nil => exact ⟨[], s, steps, .nil s, h, rfl⟩
  | cons t ts ih =>
    cases h with
    | cons hshift hrest =>
      obtain ⟨steps₁, s', steps₂, h₁, h₂, rfl⟩ := ih hrest
      exact ⟨_, s', steps₂, .cons hshift h₁, h₂, (List.append_assoc ..).symm⟩

/-- A list of tokens continues a state in one way at most. -/
theorem unique {steps₁ steps₂ : List Step} {s₁ s₂ : State} (h₁ : Shifts asked s ts steps₁ s₁)
    (h₂ : Shifts asked s ts steps₂ s₂) : steps₁ = steps₂ ∧ s₁ = s₂ := by
  induction h₁ generalizing steps₂ s₂ with
  | nil s =>
    cases h₂
    exact ⟨rfl, rfl⟩
  | cons hshift₁ _ ih =>
    cases h₂ with
    | cons hshift₂ hrest₂ =>
      obtain ⟨rfl, rfl⟩ := hshift₁.unique hshift₂
      obtain ⟨rfl, rfl⟩ := ih hrest₂
      exact ⟨rfl, rfl⟩

/-- The number of open levels changes by the depth of the tokens. -/
theorem length_frames (h : Shifts asked s ts steps s') :
    (s'.frames.length : Int) = s.frames.length + Token.depth ts := by
  induction h with
  | nil s => simp
  | @cons s s' s'' t ts steps steps' hshift _ ih =>
    have hfirst := hshift.length_frames
    have hdepth := Token.depth_cons t ts
    omega

end Shifts

/-- The number of parentheses that may still be opened, below zero when too many are open. -/
def State.room (outer : Nat) (s : State) : Int :=
  nestingLimit - outer - s.frames.length

/-- The tokens continue the state and do not open too many parentheses. -/
structure Takes (asked : Rule) (outer : Nat) (s : State) (ts : List Token) (steps : List Step)
    (s' : State) : Prop where
  /-- The tokens continue the state. -/
  shifts : Shifts asked s ts steps s'
  /-- They stay within the limit. -/
  within : Token.NestsWithin (s.room outer) ts

/-- The room left after some tokens. -/
theorem Shifts.room {asked : Rule} {outer : Nat} {s s' : State} {ts : List Token}
    {steps : List Step} (h : Shifts asked s ts steps s') :
    s'.room outer = s.room outer - Token.depth ts := by
  have hlength := h.length_frames
  simp only [State.room]
  omega

namespace Takes

variable {asked : Rule} {outer : Nat} {s s' s'' : State} {t : Token} {ts us : List Token}
  {steps steps' : List Step}

/-- A state within the limit takes the empty list. -/
theorem nil (h : 0 ≤ s.room outer) : Takes asked outer s [] [] s :=
  ⟨.nil s, Token.nestsWithin_nil.2 h⟩

/-- Two lists that are taken one after the other are taken together. -/
theorem append (h : Takes asked outer s ts steps s') (h' : Takes asked outer s' us steps' s'') :
    Takes asked outer s (ts ++ us) (steps ++ steps') s'' := by
  refine ⟨h.shifts.append h'.shifts, Token.nestsWithin_append.2 ⟨h.within, ?_⟩⟩
  rw [← h.shifts.room]
  exact h'.within

/-- What is taken as two lists is taken one after the other, through a state between them. -/
theorem exists_of_append (h : Takes asked outer s (ts ++ us) steps s'') :
    ∃ steps₁ s' steps₂, Takes asked outer s ts steps₁ s' ∧ Takes asked outer s' us steps₂ s'' ∧
      steps = steps₁ ++ steps₂ := by
  obtain ⟨hts, hus⟩ := Token.nestsWithin_append.1 h.within
  obtain ⟨steps₁, s', steps₂, h₁, h₂, hsteps⟩ := h.shifts.exists_of_append
  rw [← h₁.room] at hus
  exact ⟨steps₁, s', steps₂, ⟨h₁, hts⟩, ⟨h₂, hus⟩, hsteps⟩

/-- There is no less than no room after tokens that are taken. -/
theorem room_nonneg (h : Takes asked outer s ts steps s') : 0 ≤ s'.room outer := by
  have hdepth := h.within ts List.prefix_rfl
  rw [h.shifts.room]
  omega

/-- A token that continues the state is taken unless it opens one parenthesis too many. -/
theorem of_shift (h : Shift asked s t steps s') (hs : 0 ≤ s.room outer)
    (hroom : t = .opening → 0 < s.room outer) : Takes asked outer s [t] steps s' := by
  refine ⟨.single h, Token.nestsWithin_singleton.2 ⟨hs, ?_⟩⟩
  by_cases ht : t = .opening
  · have hpos : 0 < s.room outer := hroom ht
    rw [ht, Token.depth_opening]
    omega
  · exact Int.le_trans (Token.depth_singleton_nonpos ht) hs

/-- The tokens that are taken lead to the state that the others are read from. -/
theorem run_append (h : Takes asked outer s ts steps s') (taken : List Step) (us : List Token) :
    run asked outer s taken (ts ++ us) = run asked outer s' (steps.reverse ++ taken) us := by
  obtain ⟨hshifts, hwithin⟩ := h
  induction hshifts generalizing taken with
  | nil s => rfl
  | @cons s s' s'' t ts steps steps' hshift hrest ih =>
    obtain ⟨hs, hts⟩ := Token.nestsWithin_cons.1 hwithin
    rw [← (Shifts.single hshift).room] at hts
    have hnext : s.next asked outer t = .shift steps s' := by
      refine next_of_shift hshift fun ht => ?_
      have hroom : 0 ≤ s'.room outer := hts.nonneg
      rw [(Shifts.single hshift).room, ht, Token.depth_opening, State.room] at hroom
      omega
    rw [List.cons_append, run, hnext, List.reverse_append, List.append_assoc]
    exact ih (steps.reverse ++ taken) hts

end Takes

/-- How reading a list of tokens from a state ends. -/
inductive Ending (asked : Rule) (outer : Nat) (s : State) : List Token → Outcome → Prop
  /-- All tokens are taken. -/
  | finished {ts : List Token} {steps : List Step} {s' : State}
      (h : Takes asked outer s ts steps s') :
      Ending asked outer s ts ⟨s'.finish.2, [], steps ++ s'.finish.1⟩
  /-- A token does not continue what is read before it. -/
  | stuck {q us : List Token} {t : Token} {steps : List Step} {s' : State}
      (h : Takes asked outer s q steps s') (ht : Stuck asked s' t) :
      Ending asked outer s (q ++ t :: us) ⟨(s'.refuse t).2, t :: us, steps ++ (s'.refuse t).1⟩
  /-- A parenthesis is opened when there is no room for it. -/
  | tooDeep {q us : List Token} {steps steps' : List Step} {s' s'' : State}
      (h : Takes asked outer s q steps s') (ht : Shift asked s' .opening steps' s'')
      (hfull : s'.room outer = 0) :
      Ending asked outer s (q ++ .opening :: us)
        ⟨.invalid (.nestingTooDeep nestingLimit), .opening :: us, steps ++ steps'⟩

variable {asked : Rule} {outer : Nat} {s s' : State} {t : Token} {ts : List Token}
  {steps : List Step} {o : Outcome}

/-- The tokens before an ending only add their steps to it. -/
theorem Ending.prepend (h : Takes asked outer s ts steps s') {us : List Token}
    (ho : Ending asked outer s' us o) :
    Ending asked outer s (ts ++ us) { o with steps := steps ++ o.steps } := by
  cases ho with
  | finished h' =>
    rw [← List.append_assoc]
    exact .finished (h.append h')
  | stuck h' ht =>
    rw [← List.append_assoc, ← List.append_assoc]
    exact .stuck (h.append h') ht
  | tooDeep h' ht hfull =>
    rw [← List.append_assoc, ← List.append_assoc]
    exact .tooDeep (h.append h') ht hfull

/-- Every reading ends. -/
theorem exists_ending (hs : 0 ≤ s.room outer) (ts : List Token) :
    ∃ o, Ending asked outer s ts o := by
  induction ts generalizing s with
  | nil => exact ⟨_, .finished (.nil hs)⟩
  | cons t ts ih =>
    by_cases hstuck : Stuck asked s t
    · exact ⟨_, .stuck (.nil hs) hstuck⟩
    · obtain ⟨steps, s', hshift⟩ := not_stuck_iff.1 hstuck
      -- Only an opening parenthesis takes room away.
      by_cases hfull : t = .opening ∧ s.room outer = 0
      · obtain ⟨rfl, hfull⟩ := hfull
        exact ⟨_, .tooDeep (.nil hs) hshift hfull⟩
      · have htake : Takes asked outer s [t] steps s' := by
          refine .of_shift hshift hs fun ht => ?_
          have hne : s.room outer ≠ 0 := fun h => hfull ⟨ht, h⟩
          omega
        obtain ⟨o, ho⟩ := ih htake.room_nonneg
        exact ⟨_, ho.prepend htake⟩

/-- Reading gives the outcome of its ending. -/
theorem Ending.run_eq (h : Ending asked outer s ts o) : run asked outer s [] ts = o := by
  cases h with
  | @finished ts steps s' h =>
    have hrun := h.run_append [] []
    simpa [run] using hrun
  | @stuck q us t steps s' h ht =>
    rw [h.run_append, run, next_of_stuck ht]
    simp
  | @tooDeep q us steps steps' s' s'' h ht hfull =>
    have hlimit : nestingLimit ≤ outer + s'.frames.length := by
      rw [State.room] at hfull
      omega
    have hnext := next_of_tooDeep ht hlimit
    rw [h.run_append, run, hnext]
    simp

/-- Reading from a state that keeps the limit gives exactly the outcome of its ending. -/
theorem run_eq_iff (hs : 0 ≤ s.room outer) :
    run asked outer s [] ts = o ↔ Ending asked outer s ts o := by
  constructor
  · rintro rfl
    obtain ⟨o, ho⟩ := exists_ending hs ts
    rw [ho.run_eq]
    exact ho
  · exact Ending.run_eq

/-! ### Reading from the start -/

/-- Before the first token all parentheses up to the limit may still be opened. -/
@[simp]
theorem room_start : State.start.room 0 = nestingLimit := by
  decide

/-- The tokens are derived as their reading ends. -/
theorem Ending.parse_eq (h : Ending .expression 0 .start ts o) : parse ts = ⟨o.steps, o.whole⟩ := by
  rw [parse, h.run_eq]

/-- Every list of tokens is read to an ending. -/
theorem exists_ending_start (ts : List Token) : ∃ o, Ending .expression 0 .start ts o :=
  exists_ending (by decide) ts

end InfixArith
