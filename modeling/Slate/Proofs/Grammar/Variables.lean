import Slate.Proofs.Grammar.StmtParser
import Slate.Proofs.Tree.Names

/-!
# The variables of a program are names in its text

A name of a text is that of a function if a parenthesis opens behind it, and that of a variable otherwise. The
parser keeps every variable, at its place and in the order of the text:

* `variableTokens` — the tokens that write a variable;
* `Derivation.variablesIn_tokens`, `Phrase.variablesIn_tokens` — those of a derivation are the variables of what
  it stands for, whatever stands behind it;
* `occurrences_of_program` — so those of a text are the variables of its program.
-/

namespace Slate.Grammar

open Slate.Parser

attribute [local simp] Expr.occurrences occurrencesOfExprs Stmt.occurrences occurrencesOfStmts

/-! ## Tokens that write a variable -/

/-- No parenthesis opens at the front. -/
def OpensNone (ts : List Token) : Prop := (ts.head?.map fun t => t.kind) ≠ some .openParen

instance (ts : List Token) : Decidable (OpensNone ts) := inferInstanceAs (Decidable (_ ≠ _))

/-- The names behind which no parenthesis opens. -/
def variableTokens : List Token → List Token
  | [] => []
  | t :: ts =>
    if t.kind = .identifier ∧ OpensNone ts then t :: variableTokens ts else variableTokens ts

/-- The variables that tokens write, each where it stands. -/
def variablesIn (ts : List Token) : List Identifier := (variableTokens ts).map fun t => ⟨t.text, t.span⟩

section

variable {kind : TokenKind} {ts : List Token}

/-- A kind that writes something is another than one that writes nothing. -/
theorem kind_ne {α : Type} {written : TokenKind → Option α} {a : α} {k k' : TokenKind}
    (writes : written k = some a) (nothing : written k' = none) : k ≠ k' := by
  rintro rfl
  cases writes.symm.trans nothing

theorem opensNone_cons {t : Token} (h : t.kind ≠ .openParen) (ts : List Token) : OpensNone (t :: ts) := by
  simpa [OpensNone] using h

theorem TokenOf.opensNone (t : TokenOf kind) (h : kind ≠ .openParen) (ts : List Token) :
    OpensNone (t.val :: ts) :=
  opensNone_cons (fun opens => h (t.property.symm.trans opens)) ts

theorem variablesIn_cons {t : Token} (h : t.kind ≠ .identifier) (ts : List Token) :
    variablesIn (t :: ts) = variablesIn ts := by
  rw [variablesIn, variableTokens, if_neg (fun name => h name.1), variablesIn]

theorem TokenOf.variablesIn_cons (t : TokenOf kind) (h : kind ≠ .identifier) (ts : List Token) :
    variablesIn (t.val :: ts) = variablesIn ts :=
  Grammar.variablesIn_cons (fun name => h (t.property.symm.trans name)) ts

/-- A name with no parenthesis behind it is that of a variable. -/
theorem variablesIn_name (t : TokenOf .identifier) (h : OpensNone ts) :
    variablesIn (t.val :: ts) = nameOf t :: variablesIn ts := by
  rw [variablesIn, variableTokens, if_pos ⟨t.property, h⟩]
  rfl

/-- A name with a parenthesis behind it is that of a function. -/
theorem variablesIn_callee (callee : TokenOf .identifier) (opening : TokenOf .openParen) (ts : List Token) :
    variablesIn (callee.val :: opening.val :: ts) = variablesIn ts := by
  have opens : ¬ OpensNone (opening.val :: ts) := by
    simp [OpensNone, opening.property]
  rw [variablesIn, variableTokens, if_neg (fun name => opens name.2), ← variablesIn,
    opening.variablesIn_cons (by decide)]

end

/-! ## Expressions -/

theorem Operator.variablesIn_cons {precedence : Nat} (op : Operator precedence) (ts : List Token) :
    variablesIn (op.sign :: ts) = variablesIn ts :=
  Grammar.variablesIn_cons (kind_ne op.writes rfl) ts

theorem Operator.opensNone {precedence : Nat} (op : Operator precedence) (ts : List Token) :
    OpensNone (op.sign :: ts) :=
  opensNone_cons (kind_ne op.writes rfl) ts

theorem Leaf.variablesIn_cons (l : Leaf) {ts : List Token} (h : OpensNone ts) :
    variablesIn (l.token :: ts) = l.result.occurrences ++ variablesIn ts := by
  cases l with
  | number t | string t | boolean t =>
    rw [token, t.variablesIn_cons (by decide)]
    simp [result]
  | name t =>
    rw [token, variablesIn_name t h]
    simp [result, nameOf]

namespace Derivation

/-- The variables of what a derivation stands for. -/
def occurrences {n : Nonterminal} (d : Derivation n) : List Identifier :=
  match n, d with
  | .arguments, d => occurrencesOfExprs d.result
  | .expr, d | .term, d | .factor, d | .atom, d => Expr.occurrences d.result

theorem occurrences_sum (left : Derivation .expr) (op : Operator 1) (right : Derivation .term) :
    (sum left op right).occurrences = left.occurrences ++ right.occurrences := by
  show Expr.occurrences (.binary op.op left.result right.result (.cover left.place right.place)) = _
  rw [Expr.occurrences]
  rfl

theorem occurrences_product (left : Derivation .term) (op : Operator 2) (right : Derivation .factor) :
    (product left op right).occurrences = left.occurrences ++ right.occurrences := by
  show Expr.occurrences (.binary op.op left.result right.result (.cover left.place right.place)) = _
  rw [Expr.occurrences]
  rfl

/-- The nought of a sign is no variable. -/
theorem occurrences_sign (minus : TokenOf .minus) (operand : Derivation .factor) :
    (sign minus operand).occurrences = operand.occurrences := by
  show Expr.occurrences (.negation minus.val.span operand.result
    (.cover minus.val.span operand.place)) = _
  rw [Expr.negation, Expr.occurrences, Expr.occurrences]
  rfl

theorem occurrences_call (callee : TokenOf .identifier) (opening : TokenOf .openParen)
    (closing : TokenOf .closeParen) : (call callee opening closing).occurrences = [] := by
  show Expr.occurrences (.call (nameOf callee) [] (.cover callee.val.span closing.val.span)) = _
  rw [Expr.occurrences, occurrencesOfExprs]

theorem occurrences_callWith (callee : TokenOf .identifier) (opening : TokenOf .openParen)
    (arguments : Derivation .arguments) (closing : TokenOf .closeParen) :
    (callWith callee opening arguments closing).occurrences = arguments.occurrences := by
  show Expr.occurrences (.call (nameOf callee) arguments.result
    (.cover callee.val.span closing.val.span)) = _
  rw [Expr.occurrences]
  rfl

theorem occurrences_last (e : Derivation .expr) : (last e).occurrences = e.occurrences := by
  show occurrencesOfExprs [e.result] = _
  rw [occurrencesOfExprs, occurrencesOfExprs, List.append_nil]
  rfl

theorem occurrences_more (e : Derivation .expr) (comma : TokenOf .comma) (rest : Derivation .arguments) :
    (more e comma rest).occurrences = e.occurrences ++ rest.occurrences := by
  show occurrencesOfExprs (e.result :: rest.result) = _
  rw [occurrencesOfExprs]
  rfl

/-- No name is lost between the tokens of a derivation and the tree, and none changes places. What stands behind
may be anything but a parenthesis that opens: that would make a call of a name at the end. -/
theorem variablesIn_tokens {n : Nonterminal} (d : Derivation n) :
    ∀ {rest : List Token}, OpensNone rest →
      variablesIn (d.tokens ++ rest) = d.occurrences ++ variablesIn rest := by
  induction d with
  | ofTerm t ih | ofFactor t ih | ofAtom t ih => exact ih
  | sum left op right ihl ihr =>
    intro rest h
    rw [tokens, List.append_assoc, List.cons_append, ihl (op.opensNone _), op.variablesIn_cons, ihr h,
      occurrences_sum, List.append_assoc]
  | product left op right ihl ihr =>
    intro rest h
    rw [tokens, List.append_assoc, List.cons_append, ihl (op.opensNone _), op.variablesIn_cons, ihr h,
      occurrences_product, List.append_assoc]
  | sign minus operand ih =>
    intro rest h
    rw [tokens, List.cons_append, minus.variablesIn_cons (by decide), ih h, occurrences_sign]
  | leaf l =>
    intro rest h
    exact l.variablesIn_cons h
  | call callee opening closing =>
    intro rest h
    show variablesIn (callee.val :: opening.val :: closing.val :: rest) = _
    rw [variablesIn_callee, closing.variablesIn_cons (by decide), occurrences_call, List.nil_append]
  | callWith callee opening arguments closing ih =>
    intro rest h
    show variablesIn (callee.val :: opening.val :: (arguments.tokens ++ [closing.val] ++ rest)) = _
    rw [variablesIn_callee, List.append_assoc, List.singleton_append,
      ih (closing.opensNone (by decide) rest), closing.variablesIn_cons (by decide), occurrences_callWith]
  | group opening inner closing ih =>
    intro rest h
    show variablesIn (opening.val :: (inner.tokens ++ [closing.val] ++ rest)) = _
    rw [opening.variablesIn_cons (by decide), List.append_assoc, List.singleton_append,
      ih (closing.opensNone (by decide) rest), closing.variablesIn_cons (by decide)]
    rfl
  | last e ih =>
    intro rest h
    rw [tokens, ih h, occurrences_last]
  | more e comma others ihe iho =>
    intro rest h
    rw [tokens, List.append_assoc, List.cons_append, ihe (comma.opensNone (by decide) _),
      comma.variablesIn_cons (by decide), iho h, occurrences_more, List.append_assoc]

end Derivation

theorem Accepted.variablesIn_tokens (a : Accepted) {rest : List Token} (h : OpensNone rest) :
    variablesIn (a.tokens ++ rest) = a.result.occurrences ++ variablesIn rest := by
  obtain ⟨d, tokens, result⟩ := exists_derivation a.read
  rw [← tokens, ← result]
  exact d.variablesIn_tokens h

/-! ## Statements -/

theorem Variable.variablesIn_tokens (v : Variable) {rest : List Token} (h : OpensNone rest) :
    variablesIn (v.tokens ++ rest) = v.result.occurrences ++ variablesIn rest := by
  obtain ⟨name, colon, word, type, writes, init⟩ := v
  rw [tokens, List.cons_append, List.cons_append, List.cons_append,
    variablesIn_name name (colon.opensNone (by decide) _), colon.variablesIn_cons (by decide),
    variablesIn_cons (kind_ne writes rfl)]
  rcases init with _ | ⟨assign, value⟩
  · rfl
  · rw [initTokens, List.cons_append, assign.variablesIn_cons (by decide), value.variablesIn_tokens h]
    rfl

theorem Variables.variablesIn_tokens (vs : Variables) {rest : List Token} (h : OpensNone rest) :
    variablesIn (vs.tokens ++ rest) = vs.result.flatMap Declarator.occurrences ++ variablesIn rest := by
  induction vs with
  | last v => rw [tokens, v.variablesIn_tokens h, result, List.flatMap_singleton]
  | more v comma others ih =>
    rw [tokens, List.append_assoc, List.cons_append, v.variablesIn_tokens (comma.opensNone (by decide) _),
      comma.variablesIn_cons (by decide), ih, result, List.flatMap_cons, List.append_assoc]

theorem Action.variablesIn_tokens (a : Action) {rest : List Token} (h : OpensNone rest) :
    variablesIn (a.tokens ++ rest) = a.result.occurrences ++ variablesIn rest := by
  cases a with
  | expression e => exact e.variablesIn_tokens h
  | assignment target assign value =>
    rw [tokens, List.cons_append, List.cons_append,
      variablesIn_name target (assign.opensNone (by decide) _), assign.variablesIn_cons (by decide),
      value.variablesIn_tokens h, result, Expr.occurrences]
    rfl

theorem Test.variablesIn_tokens (t : Test) (rest : List Token) :
    variablesIn (t.tokens ++ rest) = nameOf t.name :: variablesIn rest := by
  show variablesIn (t.ifWord.val :: t.opening.val :: t.name.val :: t.closing.val :: rest) = _
  rw [t.ifWord.variablesIn_cons (by decide), t.opening.variablesIn_cons (by decide),
    variablesIn_name t.name (t.closing.opensNone (by decide) _), t.closing.variablesIn_cons (by decide)]

namespace Phrase

/-- The variables of what a phrase stands for. -/
def occurrences {c : Category} (p : Phrase c) : List Identifier :=
  match c, p with
  | .statement, p => Stmt.occurrences p.result
  | .block, p | .body, p => occurrencesOfStmts p.result

theorem occurrences_declaration (d : Declaration) (semicolon : TokenOf .semicolon) :
    (declaration d semicolon).occurrences = d.vars.result.flatMap Declarator.occurrences := by
  show Stmt.occurrences (.declaration d.kind d.vars.result (placeOf (declaration d semicolon).tokens)) = _
  rw [Stmt.occurrences]

theorem occurrences_action (a : Action) (semicolon : TokenOf .semicolon) :
    (action a semicolon).occurrences = a.result.occurrences := by
  show Stmt.occurrences (.expression a.result (placeOf (action a semicolon).tokens)) = _
  rw [Stmt.occurrences]

theorem occurrences_conditional (test : Test) (consequent : Phrase .block) :
    (conditional test consequent).occurrences = nameOf test.name :: consequent.occurrences := by
  show Stmt.occurrences (.conditional (nameOf test.name) consequent.result []
    (placeOf (conditional test consequent).tokens)) = _
  rw [Stmt.occurrences, occurrencesOfStmts, List.append_nil]
  rfl

theorem occurrences_conditionalElse (test : Test) (consequent : Phrase .block)
    (elseWord : TokenOf .elseKeyword) (alternate : Phrase .block) :
    (conditionalElse test consequent elseWord alternate).occurrences =
      nameOf test.name :: (consequent.occurrences ++ alternate.occurrences) := by
  show Stmt.occurrences (.conditional (nameOf test.name) consequent.result alternate.result
    (placeOf (conditionalElse test consequent elseWord alternate).tokens)) = _
  rw [Stmt.occurrences]
  rfl

theorem occurrences_more (first : Phrase .statement) (rest : Phrase .body) :
    (more first rest).occurrences = first.occurrences ++ rest.occurrences := by
  show occurrencesOfStmts (first.result :: rest.result) = _
  rw [occurrencesOfStmts]
  rfl

/-- No name is lost between the tokens of a phrase and the statements, and none changes places. -/
theorem variablesIn_tokens {c : Category} (p : Phrase c) : ∀ rest : List Token,
    variablesIn (p.tokens ++ rest) = p.occurrences ++ variablesIn rest := by
  induction p with
  | declaration d semicolon =>
    intro rest
    show variablesIn (d.keyword :: (d.vars.tokens ++ [semicolon.val] ++ rest)) = _
    rw [variablesIn_cons (kind_ne d.writes rfl), List.append_assoc, List.singleton_append,
      d.vars.variablesIn_tokens (semicolon.opensNone (by decide) rest),
      semicolon.variablesIn_cons (by decide), occurrences_declaration]
  | action a semicolon =>
    intro rest
    rw [tokens, List.append_assoc, List.singleton_append,
      a.variablesIn_tokens (semicolon.opensNone (by decide) rest),
      semicolon.variablesIn_cons (by decide), occurrences_action]
  | conditional test consequent ih =>
    intro rest
    rw [tokens, List.append_assoc, test.variablesIn_tokens, ih, occurrences_conditional, List.cons_append]
  | conditionalElse test consequent elseWord alternate ihc iha =>
    intro rest
    rw [tokens, List.append_assoc, List.append_assoc, List.cons_append, test.variablesIn_tokens, ihc,
      elseWord.variablesIn_cons (by decide), iha, occurrences_conditionalElse, List.cons_append,
      List.append_assoc]
  | block opening body closing ih =>
    intro rest
    show variablesIn (opening.val :: (body.tokens ++ [closing.val] ++ rest)) = _
    rw [opening.variablesIn_cons (by decide), List.append_assoc, ih, List.singleton_append,
      closing.variablesIn_cons (by decide)]
    rfl
  | done =>
    intro rest
    rfl
  | more first others ihf iho =>
    intro rest
    rw [tokens, List.append_assoc, ihf, iho, occurrences_more, List.append_assoc]

end Phrase

/-- The variables of a program are those that its tokens write, each where it stands. -/
theorem occurrences_of_program {ts : List Token} {p : Program} (h : program ts = .ok p) :
    occurrencesOfStmts p.statements = variablesIn ts := by
  obtain ⟨body, tokens, result⟩ := exists_phrase h
  have all := body.variablesIn_tokens []
  rw [List.append_nil, tokens] at all
  rw [← result, all]
  exact (List.append_nil _).symm

end Slate.Grammar
