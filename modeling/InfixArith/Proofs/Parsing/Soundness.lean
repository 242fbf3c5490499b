import InfixArith.Proofs.Grammar.Derives
import InfixArith.Proofs.Reading.Run

/-!
# What is read is derived

`State.ReadFrom s ts` says that the tokens `ts` are a phrase for each operand of the state `s`, with
the operators and the open parentheses between them.  Every move keeps it (`Shift.readFrom`), so
the state that a list of tokens leads to accounts for all of them, and when it stops with an
expression outside all parentheses, the tokens derive this expression.
-/

namespace InfixArith

/-- The tokens of the left operand that waits and of its operator. -/
inductive Pending.ReadFrom {r : Rule} : Pending r → List Token → Prop
  /-- Nothing waits. -/
  | none : ReadFrom none []
  /-- The left operand is a phrase of the rule. -/
  | some (l : LeftOperand r) {ts : List Token} (h : Derives r ts l.value) :
      ReadFrom (some l) (ts ++ [.operator l.op.symbol])

/-- The tokens that open a level. -/
def Opener.tokens : Opener → List Token
  | group => [.opening]
  | call f => [.function f.name, .opening]

/-- The tokens of the levels around the innermost one. -/
inductive FramesReadFrom : List Frame → List Token → Prop
  /-- No parenthesis is open. -/
  | nil : FramesReadFrom [] []
  /-- One more level is open after the operands that wait around it. -/
  | cons {f : Frame} {fs : List Frame} {outside sum product power : List Token}
      (houtside : FramesReadFrom fs outside) (hsum : f.sum.ReadFrom sum)
      (hproduct : f.product.ReadFrom product) (hpower : f.power.ReadFrom power) :
      FramesReadFrom (f :: fs) (outside ++ sum ++ product ++ power ++ f.opener.tokens)

/-- The tokens since the last operand that waits for a term or a factor. -/
inductive Position.ReadFrom : Position → List Token → Prop
  /-- A primary is to come. -/
  | operand {power : Pending .power} {ts : List Token} (h : power.ReadFrom ts) :
      ReadFrom (.operand power) ts
  /-- The name of a function has been read. -/
  | callee (f : Func) {power : Pending .power} {ts : List Token} (h : power.ReadFrom ts) :
      ReadFrom (.callee f power) (ts ++ [.function f.name])
  /-- The operand is a power, and a factor when factorial signs have been read. -/
  | operator {e : Expr} {powers : Bool} {ts : List Token}
      (h : Derives (if powers then .power else .factor) ts e) : ReadFrom (.operator e powers) ts

/-- The tokens make up all that the state knows: those of the levels around the innermost one, of
the operands that wait there, and of the position. -/
def State.ReadFrom (s : State) (ts : List Token) : Prop :=
  ∃ outside sum product last : List Token,
    FramesReadFrom s.frames outside ∧ s.sum.ReadFrom sum ∧ s.product.ReadFrom product ∧
      s.position.ReadFrom last ∧ ts = outside ++ sum ++ product ++ last

variable {asked r : Rule} {s s' : State} {t : Token} {ts us : List Token} {e : Expr}
  {steps : List Step}

/-! ### Joining operands -/

/-- A left operand that waits and the operand after it are a phrase of the rule. -/
theorem Pending.ReadFrom.join {p : Pending r} (hr : r ≠ .primary) (hp : p.ReadFrom ts)
    (h : Derives r.operand us e) : Derives r (ts ++ us) (p.join e) := by
  cases hp with
  | none => exact .operand hr h
  | some l hl =>
    rw [List.append_assoc, List.singleton_append]
    exact .binary l.op l.rule_eq hl h

/-- An expression between its opener and the closing parenthesis is a primary. -/
theorem Opener.derives_wrap (o : Opener) (h : Derives .expression ts e) :
    Derives .primary (o.tokens ++ (ts ++ [.closing])) (o.wrap e) := by
  cases o with
  | group => exact .group h
  | call f => exact .call f h

/-- The operand before an operator is a factor. -/
theorem Position.ReadFrom.derives {powers : Bool} (h : Position.ReadFrom (.operator e powers) ts) :
    Derives .factor ts e := by
  cases h with
  | operator h =>
    cases powers with
    | false => exact h
    | true => exact .operand (by decide) h

/-- The operands that wait at one level make an expression together with the last one. -/
theorem derives_total {pendingSum : Pending .expression} {pendingProduct : Pending .term}
    {powers : Bool} {sum product last : List Token} (hsum : pendingSum.ReadFrom sum)
    (hproduct : pendingProduct.ReadFrom product)
    (hlast : Position.ReadFrom (.operator e powers) last) :
    Derives .expression (sum ++ (product ++ last)) (pendingSum.join (pendingProduct.join e)) := by
  have hterm : Derives .term (product ++ last) (pendingProduct.join e) :=
    hproduct.join (by decide) hlast.derives
  exact hsum.join (by decide) hterm

/-- A primary is joined to the left operand of `^` before it. -/
theorem readFrom_afterPrimary {power : Pending .power} (hpower : power.ReadFrom ts)
    (h : Derives .primary us e) : (afterPrimary power e).ReadFrom (ts ++ us) :=
  .operator (hpower.join (by decide) h)

/-! ### Moves -/

/-- Nothing has been read before the start. -/
theorem readFrom_start : State.start.ReadFrom [] :=
  ⟨[], [], [], [], .nil, .none, .none, .operand .none, rfl⟩

/-- A token that continues a state is accounted for by the state after it. -/
theorem Shift.readFrom (h : Shift asked s t steps s') (hs : s.ReadFrom ts) :
    s'.ReadFrom (ts ++ [t]) := by
  obtain ⟨outside, sum, product, last, houtside, hsum, hproduct, hlast, rfl⟩ := hs
  cases h with
  | number text =>
    cases hlast with
    | operand hpower =>
      refine ⟨outside, sum, product, _, houtside, hsum, hproduct,
        readFrom_afterPrimary hpower (.number text), ?_⟩
      simp only [List.append_assoc]
  | group =>
    cases hlast with
    | operand hpower =>
      refine ⟨_, [], [], [], .cons houtside hsum hproduct hpower, .none, .none, .operand .none, ?_⟩
      simp [Opener.tokens]
  | name f =>
    cases hlast with
    | operand hpower =>
      refine ⟨outside, sum, product, _, houtside, hsum, hproduct, .callee f hpower, ?_⟩
      simp only [List.append_assoc]
  | call =>
    cases hlast with
    | callee f hpower =>
      refine ⟨_, [], [], [], .cons houtside hsum hproduct hpower, .none, .none, .operand .none, ?_⟩
      simp [Opener.tokens]
  | factorial text hasked =>
    refine ⟨outside, sum, product, _, houtside, hsum, hproduct,
      .operator (.factorial text hlast.derives), ?_⟩
    simp only [List.append_assoc]
  | sum op hop hasked =>
    have hexpression := derives_total hsum hproduct hlast
    refine ⟨outside, _, [], [], houtside, .some ⟨_, op, hop⟩ hexpression, .none,
      .operand .none, ?_⟩
    simp only [List.append_assoc, List.append_nil]
  | product op hop hasked =>
    have hterm := hproduct.join (by decide) hlast.derives
    refine ⟨outside, sum, _, [], houtside, hsum, .some ⟨_, op, hop⟩ hterm, .operand .none, ?_⟩
    simp only [List.append_assoc, List.append_nil]
  | power op hop hasked =>
    cases hlast with
    | operator hpower =>
      refine ⟨outside, sum, product, _, houtside, hsum, hproduct,
        .operand (.some ⟨_, op, hop⟩ hpower), ?_⟩
      simp only [List.append_assoc]
  | @close f fs =>
    cases houtside with
    | @cons _ _ outside₁ sum₁ product₁ power₁ houtside₁ hsum₁ hproduct₁ hpower₁ =>
      -- The level that closes is one primary of the level around it, whose operands its frame kept.
      have hexpression := derives_total hsum hproduct hlast
      refine ⟨outside₁, sum₁, product₁, _, houtside₁, hsum₁, hproduct₁,
        readFrom_afterPrimary hpower₁ (f.opener.derives_wrap hexpression), ?_⟩
      simp only [List.append_assoc]

/-- Tokens that continue a state are accounted for by the state after them. -/
theorem Shifts.readFrom (h : Shifts asked s us steps s') (hs : s.ReadFrom ts) :
    s'.ReadFrom (ts ++ us) := by
  induction h generalizing ts with
  | nil s =>
    rw [List.append_nil]
    exact hs
  | cons hshift _ ih =>
    rw [List.append_cons]
    exact ih (hshift.readFrom hs)

/-- Tokens after which the reading may end with an expression derive it. -/
theorem State.ReadFrom.derives (h : s.ReadFrom ts) (hs : s.finish.2 = .valid e) :
    Derives .expression ts e := by
  obtain ⟨outside, sum, product, last, houtside, hsum, hproduct, hlast, rfl⟩ := h
  obtain ⟨fs, pendingSum, pendingProduct, position⟩ := s
  cases position with
  | operand power => cases hs
  | callee f power => cases hs
  | operator e' powers =>
    cases houtside with
    | cons => cases hs
    | nil =>
      obtain rfl := Verdict.valid.inj hs
      rw [List.nil_append, List.append_assoc]
      exact derives_total hsum hproduct hlast

/-- Tokens that lead from the start to a state that stops with an expression derive it. -/
theorem Shifts.derives (h : Shifts asked .start ts steps s') (hs : s'.finish.2 = .valid e) :
    Derives .expression ts e :=
  (h.readFrom readFrom_start).derives hs

end InfixArith
