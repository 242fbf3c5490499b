import InfixArith.Expr.Visitor
import InfixArith.Proofs.Parsing.Counts
import InfixArith.Proofs.Tree.Projection

/-!
# What the walks write down

A visitor that only adds entries to what is written has, at each expression, a list of entries of
its own, whatever was written before (`Expr.Writes`).  For the visitors of numbers, of calls and of
all events these lists follow the structure of the expression: `Expr.literals`, `Expr.calls` and
`Expr.events`.  The first two are read off the tokens of a valid expression, in their order.  The
events have two entries for each node but the numbers, and they tell the expression, as long as its
numbers are written in digits and so differ from the titles of the other nodes
(`Expr.events_append_inj`).
-/

namespace InfixArith

namespace Expr

/-- At the expression the visitor adds these entries, given in their order, to what is written. -/
def Writes (v : Visitor (List String)) (e : Expr) (entries : List String) : Prop :=
  ∀ out, e.accept v out = entries.reverse ++ out

/-- What a visitor has written after the walk are the entries that it adds. -/
theorem Writes.written_eq {v : Visitor (List String)} {e : Expr} {entries : List String}
    (h : e.Writes v entries) : e.written v = entries := by
  rw [written, h [], List.append_nil, List.reverse_reverse]

/-! ### The entries of the three visitors -/

/-- The names of the functions that are called, an outer call before the calls in its argument. -/
def calls : Expr → List String
  | literal _ => []
  | binary _ left right => left.calls ++ right.calls
  | factorial arg => arg.calls
  | call f arg => f.name :: arg.calls

/-- The title of a node, which a number has not. -/
def title? : Expr → Option String
  | literal _ => none
  | binary op _ _ => some op.title
  | factorial _ => some factorialTitle
  | call f _ => some f.title

/-- Entries between the title of a node and its end. -/
def titled (title : String) (entries : List String) : List String :=
  title :: (entries ++ ["exit " ++ title])

/-- The numbers, and every other node before and after its parts. -/
def events : Expr → List String
  | literal text => [text]
  | binary op left right => titled op.title (left.events ++ right.events)
  | factorial arg => titled factorialTitle arg.events
  | call f arg => titled f.title arg.events

/-- A number is one event; the events of every other node are its title, the events of its parts and
the end of its title. -/
theorem events_eq (e : Expr) :
    e.events =
      match e.title? with
      | none => [e.label]
      | some title => titled title (e.children.flatMap events) := by
  cases e with
  | literal text => rfl
  | binary op left right => simp [events, title?, children]
  | factorial arg => simp [events, title?, children]
  | call f arg => simp [events, title?, children]

/-- The visitor of numbers adds the literals of the expression. -/
theorem writes_literals (e : Expr) : e.Writes .literals e.literals := by
  induction e with
  | literal text => exact fun out => rfl
  | binary op left right ihleft ihright =>
    intro out
    change right.accept .literals (left.accept .literals out) = _
    rw [ihleft, ihright, literals, List.reverse_append, List.append_assoc]
  | factorial arg ih => exact ih
  | call f arg ih => exact ih

/-- The visitor of calls adds the names of the functions that the expression calls. -/
theorem writes_calls (e : Expr) : e.Writes .calls e.calls := by
  induction e with
  | literal text => exact fun out => rfl
  | binary op left right ihleft ihright =>
    intro out
    change right.accept .calls (left.accept .calls out) = _
    rw [ihleft, ihright, calls, List.reverse_append, List.append_assoc]
  | factorial arg ih => exact ih
  | call f arg ih =>
    intro out
    change arg.accept .calls (f.name :: out) = _
    rw [ih, calls, List.reverse_cons, List.append_assoc, List.singleton_append]

/-- The walk through the parts of a node writes between the title and its end. -/
theorem bracket_eq {title : String} {walk : List String → List String} {entries : List String}
    (hwalk : ∀ out, walk out = entries.reverse ++ out) (out : List String) :
    Visitor.bracket title walk out = (titled title entries).reverse ++ out := by
  rw [Visitor.bracket, hwalk, titled]
  simp

/-- The visitor of events adds the events of the expression. -/
theorem writes_events (e : Expr) : e.Writes .events e.events := by
  induction e with
  | literal text => exact fun out => rfl
  | binary op left right ihleft ihright =>
    have hparts (out : List String) : right.accept .events (left.accept .events out) =
        (left.events ++ right.events).reverse ++ out := by
      rw [ihleft, ihright, List.reverse_append, List.append_assoc]
    exact bracket_eq hparts
  | factorial arg ih => exact bracket_eq ih
  | call f arg ih => exact bracket_eq ih

/-- The visitor of events has written the events of the expression. -/
theorem written_events (e : Expr) : e.written .events = e.events :=
  e.writes_events.written_eq

/-! ### The number of events -/

/-- The title of a node and its end are two entries. -/
theorem length_titled (title : String) (entries : List String) :
    (titled title entries).length = entries.length + 2 := by
  rw [titled, List.length_cons, List.length_append, List.length_singleton]

/-- Every node but a number is written down twice. -/
theorem length_events (e : Expr) : e.events.length + e.literals.length = 2 * e.size := by
  induction e with
  | literal text => rfl
  | binary op left right ihleft ihright =>
    rw [events, length_titled, literals, List.length_append, List.length_append, size]
    omega
  | factorial arg ih =>
    rw [events, length_titled, literals, size]
    omega
  | call f arg ih =>
    rw [events, length_titled, literals, size]
    omega

/-! ### The events tell the expression -/

/-- The numbers of the expression are written in digits. -/
def IsNumeric (e : Expr) : Prop :=
  ∀ text ∈ e.literals, ∀ c ∈ text.toList, c.isDigit = true

/-- Operands joined by an operator have numbers in digits when both of them do. -/
theorem isNumeric_binary {op : BinaryOp} {left right : Expr} :
    (binary op left right).IsNumeric ↔ left.IsNumeric ∧ right.IsNumeric :=
  List.forall_mem_append

/-- No title is a number. -/
theorem exists_mem_title {e : Expr} {title : String} (h : e.title? = some title) :
    ∃ c ∈ title.toList, c.isDigit = false := by
  have hany : title.toList.any (fun c => !c.isDigit) = true := by
    cases e with
    | literal text => cases h
    | binary op left right =>
      obtain rfl := Option.some.inj h
      cases op <;> decide
    | factorial arg =>
      obtain rfl := Option.some.inj h
      decide
    | call f arg =>
      obtain rfl := Option.some.inj h
      cases f <;> decide
  obtain ⟨c, hc, hdigit⟩ := List.any_eq_true.1 hany
  exact ⟨c, hc, by simpa using hdigit⟩

/-- A number that is written in digits is not the title of a node. -/
theorem IsNumeric.text_ne {text : String} (htext : (literal text).IsNumeric) (e : Expr)
    {title : String} (h : e.title? = some title) : text ≠ title := by
  rintro rfl
  obtain ⟨c, hc, hdigit⟩ := exists_mem_title h
  rw [htext text (List.mem_singleton_self text) c hc] at hdigit
  cases hdigit

end Expr

/-- Operators with the same title are the same. -/
theorem BinaryOp.title_injective {op op' : BinaryOp} (h : op.title = op'.title) : op = op' := by
  revert h
  cases op <;> cases op' <;> decide

/-- Functions with the same title are the same. -/
theorem Func.title_injective {f f' : Func} (h : f.title = f'.title) : f = f' := by
  revert h
  cases f <;> cases f' <;> decide

/-- No operator has the title of the factorial. -/
theorem BinaryOp.title_ne_factorialTitle (op : BinaryOp) : op.title ≠ factorialTitle := by
  cases op <;> decide

/-- No operator has the title of a function. -/
theorem BinaryOp.title_ne_funcTitle (op : BinaryOp) (f : Func) : op.title ≠ f.title := by
  cases op <;> cases f <;> decide

/-- No function has the title of the factorial. -/
theorem Func.title_ne_factorialTitle (f : Func) : f.title ≠ factorialTitle := by
  cases f <;> decide

namespace Expr

/-- The same entries begin with the same title, and what follows the titles is the same. -/
theorem titled_append_inj {title title' : String} {entries entries' rest rest' : List String}
    (h : titled title entries ++ rest = titled title' entries' ++ rest') :
    title = title' ∧
      entries ++ ("exit " ++ title) :: rest = entries' ++ ("exit " ++ title') :: rest' := by
  simpa [titled] using h

/-- The events of an expression tell it, and they tell where they end. -/
theorem events_append_inj {e e' : Expr} (he : e.IsNumeric) (he' : e'.IsNumeric)
    {rest rest' : List String} (h : e.events ++ rest = e'.events ++ rest') :
    e = e' ∧ rest = rest' := by
  induction e generalizing e' rest rest' with
  | literal text =>
    cases e' with
    | literal text' =>
      obtain ⟨rfl, hrest⟩ := List.cons.inj h
      exact ⟨rfl, hrest⟩
    | binary op' left' right' =>
      exact absurd (List.cons.inj h).1 (he.text_ne (binary op' left' right') rfl)
    | factorial arg' => exact absurd (List.cons.inj h).1 (he.text_ne (factorial arg') rfl)
    | call f' arg' => exact absurd (List.cons.inj h).1 (he.text_ne (call f' arg') rfl)
  | binary op left right ihleft ihright =>
    obtain ⟨hleft, hright⟩ := isNumeric_binary.1 he
    cases e' with
    | literal text' =>
      exact absurd (List.cons.inj h).1.symm (he'.text_ne (binary op left right) rfl)
    | binary op' left' right' =>
      obtain ⟨hleft', hright'⟩ := isNumeric_binary.1 he'
      obtain ⟨htitle, hparts⟩ := titled_append_inj h
      rw [List.append_assoc, List.append_assoc] at hparts
      -- The end of the left part is where the events of the right part begin.
      obtain ⟨rfl, hmiddle⟩ := ihleft hleft hleft' hparts
      obtain ⟨rfl, hend⟩ := ihright hright hright' hmiddle
      rw [BinaryOp.title_injective htitle]
      exact ⟨rfl, (List.cons.inj hend).2⟩
    | factorial arg' => exact absurd (titled_append_inj h).1 op.title_ne_factorialTitle
    | call f' arg' => exact absurd (titled_append_inj h).1 (op.title_ne_funcTitle f')
  | factorial arg ih =>
    cases e' with
    | literal text' => exact absurd (List.cons.inj h).1.symm (he'.text_ne (factorial arg) rfl)
    | binary op' left' right' =>
      exact absurd (titled_append_inj h).1.symm op'.title_ne_factorialTitle
    | factorial arg' =>
      have harg' : arg'.IsNumeric := he'
      obtain ⟨-, hparts⟩ := titled_append_inj h
      obtain ⟨rfl, hend⟩ := ih he harg' hparts
      exact ⟨rfl, (List.cons.inj hend).2⟩
    | call f' arg' => exact absurd (titled_append_inj h).1.symm f'.title_ne_factorialTitle
  | call f arg ih =>
    cases e' with
    | literal text' => exact absurd (List.cons.inj h).1.symm (he'.text_ne (call f arg) rfl)
    | binary op' left' right' =>
      exact absurd (titled_append_inj h).1.symm (op'.title_ne_funcTitle f)
    | factorial arg' => exact absurd (titled_append_inj h).1 f.title_ne_factorialTitle
    | call f' arg' =>
      have harg' : arg'.IsNumeric := he'
      obtain ⟨htitle, hparts⟩ := titled_append_inj h
      obtain ⟨rfl, hend⟩ := ih he harg' hparts
      rw [Func.title_injective htitle]
      exact ⟨rfl, (List.cons.inj hend).2⟩

/-- Expressions with numbers in digits have the same events only when they are the same. -/
theorem events_eq_events_iff {e e' : Expr} (he : e.IsNumeric) (he' : e'.IsNumeric) :
    e.events = e'.events ↔ e = e' := by
  constructor
  · intro h
    exact (events_append_inj he he' (congrArg (· ++ []) h)).1
  · rintro rfl
    rfl

end Expr

/-! ### The walks through valid expressions -/

/-- An opener adds the name of its function, if it has one, before the calls in it. -/
theorem Opener.calls_wrap (o : Opener) (e : Expr) :
    (o.wrap e).calls = (o.tokens.filter Token.isFunction).map Token.text ++ e.calls := by
  cases o <;> rfl

/-- The calls of a phrase are its function tokens. -/
theorem Phrase.calls_expr {r : Rule} (p : Phrase r) :
    p.expr.calls = (p.tokens.filter Token.isFunction).map Token.text := by
  induction p with
  | number text => rfl
  | enclosed o p ih =>
    have hclosing : [Token.closing].filter Token.isFunction = [] := rfl
    rw [expr, o.calls_wrap, ih, tokens, List.filter_append, List.filter_append, hclosing,
      List.append_nil, List.map_append]
  | operand hr p ih => exact ih
  | factorial text p ih =>
    rw [expr, Expr.calls, ih, tokens, List.filter_append]
    exact congrArg (List.map Token.text) (List.append_nil _).symm
  | binary op hop p p' ih ih' =>
    have hoperator : ¬ (Token.operator op.symbol).isFunction = true := Bool.false_ne_true
    rw [expr, Expr.calls, ih, ih', tokens, List.filter_append, List.filter_cons_of_neg hoperator,
      List.map_append]

/-- The numbers of an expression that is read from a text are written in digits. -/
theorem isNumeric_of_valid {text : String} {a : Analysis} {e : Expr} (h : analyze text = .ok a)
    (he : a.derivation.verdict = .valid e) : e.IsNumeric := by
  intro literal hliteral
  exact isDigit_of_mem_literals h he hliteral

/-- The walks through a valid expression find its numbers and its functions in the order of the
tokens.  The walk that writes down every node has, for each expression, the events of the parts
between the two entries of a node, so two entries for each node that is not a number, and for two
valid texts it writes the same only when their expressions are the same. -/
theorem walks_in_order :
    (∀ (ts : List Token) (e : Expr), (parse ts).verdict = .valid e →
      e.written .literals = (ts.filter Token.isNumber).map Token.text ∧
        e.written .calls = (ts.filter Token.isFunction).map Token.text) ∧
    (∀ e : Expr,
      (e.written .events =
        match e.title? with
        | none => [e.label]
        | some title =>
          title :: (e.children.flatMap (Expr.written .events) ++ ["exit " ++ title])) ∧
      (e.written .events).length + e.literals.length = 2 * e.nodeCount) ∧
    ∀ (text text' : String) (a a' : Analysis) (e e' : Expr), analyze text = .ok a →
      analyze text' = .ok a' → a.derivation.verdict = .valid e →
        a'.derivation.verdict = .valid e' → (e.written .events = e'.written .events ↔ e = e') := by
  have hwritten : Expr.written .events = Expr.events := funext Expr.written_events
  refine ⟨?_, ?_, ?_⟩
  · intro ts e h
    obtain ⟨p, rfl, -, -, rfl⟩ := exists_phrase_of_valid h
    rw [p.expr.writes_literals.written_eq, p.expr.writes_calls.written_eq]
    exact ⟨p.literals_expr, p.calls_expr⟩
  · intro e
    rw [hwritten, Expr.nodeCount_eq_size]
    exact ⟨e.events_eq, e.length_events⟩
  · intro text text' a a' e e' h h' he he'
    rw [hwritten]
    exact Expr.events_eq_events_iff (isNumeric_of_valid h he) (isNumeric_of_valid h' he')

/-- The expression of `sin(1 + 2)! * 3`. -/
def sineProduct : Expr :=
  .binary .multiply
    (.factorial (.call .sin (.binary .add (.literal "1") (.literal "2")))) (.literal "3")

/-- The tokens of `sin(1 + 2)! * 3`. -/
def sineProductTokens : List Token :=
  [.function "sin", .opening, .number "1", .operator '+', .number "2", .closing, .factorial,
    .operator '*', .number "3"]

/-- The tokens of `(sin(1+2)!)*3`. -/
def groupedSineProductTokens : List Token :=
  .opening :: (sineProductTokens.take 7 ++ .closing :: sineProductTokens.drop 7)

/-- The walks through `sin(1 + 2)! * 3`, with and without parentheses around its first factor. -/
theorem walks_in_order_sine :
    ((parse sineProductTokens).verdict = .valid sineProduct ∧
      sineProduct.written .literals = ["1", "2", "3"] ∧ sineProduct.written .calls = ["sin"]) ∧
    ((sineProduct.written .events).length + sineProduct.literals.length =
        2 * sineProduct.nodeCount ∧
      sineProduct.written .events =
        ["Multiply", "Factorial", "Sin", "Add", "1", "2", "exit Add", "exit Sin",
          "exit Factorial", "3", "exit Multiply"]) ∧
    analyze "sin(1 + 2)! * 3" = .ok ⟨sineProductTokens, parse sineProductTokens⟩ ∧
      analyze "(sin(1+2)!)*3" = .ok ⟨groupedSineProductTokens, parse groupedSineProductTokens⟩ ∧
      ∃ e, (parse groupedSineProductTokens).verdict = .valid e ∧
        e.written .events = sineProduct.written .events ∧ e = sineProduct := by
  have hvalid : (parse sineProductTokens).verdict = .valid sineProduct := by rfl
  have htext : analyze "sin(1 + 2)! * 3" = .ok ⟨sineProductTokens, parse sineProductTokens⟩ := by
    rfl
  have hgrouped : analyze "(sin(1+2)!)*3" =
      .ok ⟨groupedSineProductTokens, parse groupedSineProductTokens⟩ := by rfl
  have hvalid' : (parse groupedSineProductTokens).verdict = .valid sineProduct := by rfl
  obtain ⟨hliterals, hcalls⟩ := walks_in_order.1 _ _ hvalid
  refine ⟨⟨hvalid, hliterals, hcalls⟩, ⟨(walks_in_order.2.1 sineProduct).2, by rfl⟩, htext,
    hgrouped, _, hvalid', by rfl, ?_⟩
  exact (walks_in_order.2.2 _ _ _ _ _ _ hgrouped htext hvalid' hvalid).1 rfl

end InfixArith
