import Slate.Parser.Delimiter
import Slate.Tree

/-!
# Expressions

    expr   ::= term | expr (+|-) term
    term   ::= factor | term (*|/) factor
    factor ::= - factor | atom
    atom   ::= literal | name | name ( [expr {, expr}] ) | ( expr )

A list of tokens is taken apart at its *weakest* operator: among those outside parentheses that bind
least, the last. So operators of one strength group to the left. A list without such an operator is
a single token, an operand with a sign, something in parentheses, or a call. An operator stands
behind an operand; a minus anywhere else is a sign.

The forms that a list can have are types of their own (`Split`, `Group`, `CallForm`), each with a
function that finds it and one that reads its parts:

    tokens ──weakest / Group.ofTokens / CallForm.ofTokens──▶ form ──▶ Expr

* `weakest_eq_some`, `Group.ofTokens_eq_ok`, `CallForm.ofTokens_eq_ok`: a form holds the tokens it
  was found in, so its parts are shorter and reading them comes to an end;
* `expression` reads an expression, and fails only with faults of kind `malformed`.
-/

namespace Slate.Parser

/-! ### Single tokens -/

/-- Reads a name. -/
def identifier : List Token → Parsed Identifier
  | [t] => if t.kind = .identifier then .ok ⟨t.text, t.span⟩ else mismatch .identifier [t]
  | ts => mismatch .identifier ts

/-- Reads a number literal. -/
def numberLiteral : List Token → Parsed Literal
  | [t] =>
    if t.kind = .number then
      match Decimal.ofString? t.text with
      | .ok d => .ok ⟨.number d, t.span⟩
      | .error why => failAt t.span (.invalidNumber t.text why)
    else mismatch .number [t]
  | ts => mismatch .number ts

/-- Reads a string literal. -/
def stringLiteral : List Token → Parsed Literal
  | [t] => if t.kind = .string then .ok ⟨.string t.text, t.span⟩ else mismatch .string [t]
  | ts => mismatch .string ts

/-- Reads one of the two truth values. -/
def booleanLiteral : List Token → Parsed Literal
  | [t] =>
    if t.kind = .boolean then
      if t.text = "true" then .ok ⟨.boolean true, t.span⟩
      else if t.text = "false" then .ok ⟨.boolean false, t.span⟩
      else failAt t.span (.invalidBoolean t.text)
    else mismatch .boolean [t]
  | ts => mismatch .boolean ts

/-- Reads a literal of any kind. -/
def literal : List Token → Parsed Literal
  | [t] =>
    match t.kind with
    | .number => numberLiteral [t]
    | .string => stringLiteral [t]
    | .boolean => booleanLiteral [t]
    | _ => mismatch .literal [t]
  | ts => mismatch .literal ts

/-- Reads a token that is an expression by itself. -/
def atom (t : Token) : Parsed Expr :=
  match t.kind with
  | .identifier => .ok (.identifier ⟨t.text, t.span⟩)
  | .number | .string | .boolean => (literal [t]).map .literal
  | _ => failAt t.span (.unexpected t.toLexeme (some .inExpression))

/-! ### Operators -/

/-- The operator that a kind of token writes. -/
def operator? : TokenKind → Option BinaryOp
  | .plus => some .add
  | .minus => some .subtract
  | .times => some .multiply
  | .divide => some .divide
  | _ => none

/-- Whether an operand can end with a token of the kind. -/
def endsOperand : TokenKind → Bool
  | .number | .string | .boolean | .identifier | .closeParen => true
  | _ => false

/-- The operator that `t` is, behind the token `previous` and inside `depth` parentheses, if it
stands outside them and behind an operand. -/
def operatorAt? (previous : Option Token) (depth : Nat) (t : Token) : Option BinaryOp :=
  if depth = 0 ∧ previous.any (endsOperand ·.kind) then operator? t.kind else none

/-- Tokens taken apart at an operator. -/
structure Split where
  left : List Token
  sign : Token
  op : BinaryOp
  right : List Token

namespace Split

def tokens (s : Split) : List Token := s.left ++ s.sign :: s.right

def span (s : Split) : Span :=
  Span.cover (s.left.headD s.sign).span (s.right.getLastD s.sign).span

def prepend (t : Token) (s : Split) : Split := { s with left := t :: s.left }

@[simp] theorem tokens_prepend (t : Token) (s : Split) :
    (s.prepend t).tokens = t :: s.tokens := rfl

end Split

/-- The weakest operator outside parentheses, the last one if there are several. -/
def weakest (previous : Option Token) (depth : Nat) : List Token → Option Split
  | [] => none
  | t :: ts =>
    let later := (weakest (some t) (depthAfter t depth) ts).map (Split.prepend t)
    match operatorAt? previous depth t with
    | none => later
    | some op =>
      match later with
      | none => some ⟨[], t, op, ts⟩
      | some s => if s.op.precedence ≤ op.precedence then some s else some ⟨[], t, op, ts⟩

theorem weakest_eq_some {previous : Option Token} {depth : Nat} {ts : List Token} {s : Split}
    (h : weakest previous depth ts = some s) : s.tokens = ts := by
  induction ts generalizing previous depth s with
  | nil => simp [weakest] at h
  | cons t ts ih =>
    have later {s' : Split}
        (h' : (weakest (some t) (depthAfter t depth) ts).map (Split.prepend t) = some s') :
        s'.tokens = t :: ts := by
      obtain ⟨s'', hs'', rfl⟩ := Option.map_eq_some_iff.1 h'
      rw [Split.tokens_prepend, ih hs'']
    unfold weakest at h
    dsimp only at h
    split at h
    · exact later h
    · split at h
      · cases h; rfl
      · next hs =>
        split at h <;> cases h
        · exact later hs
        · rfl

/-! ### Parentheses and calls -/

/-- Tokens in a pair of parentheses. -/
structure Group where
  opening : Token
  inner : List Token
  closing : Token

def Group.tokens (g : Group) : List Token := g.opening :: g.inner ++ [g.closing]

/-- Tokens that a pair of parentheses encloses whole. -/
def Group.ofTokens : List Token → Parsed Group
  | [] => mismatch .parenthesized []
  | t :: ts =>
    if t.kind = .openParen then
      match closingParen? 0 ts with
      | none => failAt t.span .unclosedParen
      | some ⟨inner, close, []⟩ => .ok ⟨t, inner, close⟩
      | some ⟨_, _, extra :: _⟩ =>
        failAt extra.span (.unexpected extra.toLexeme (some (.after .closeParen)))
    else mismatch .parenthesized (t :: ts)

theorem Group.ofTokens_eq_ok {ts : List Token} {g : Group} (h : Group.ofTokens ts = .ok g) :
    g.tokens = ts := by
  unfold Group.ofTokens at h
  split at h
  · cases h
  · split at h
    · split at h
      · cases h
      · next he => cases h; rw [closingParen?_eq_some he]; rfl
      · cases h
    · cases h

/-- A name and tokens in a pair of parentheses behind it. -/
structure CallForm where
  callee : Token
  opening : Token
  inner : List Token
  closing : Token

namespace CallForm

def tokens (c : CallForm) : List Token := c.callee :: c.opening :: c.inner ++ [c.closing]

/-- Tokens that are a name and a pair of parentheses up to their end. -/
def ofTokens : List Token → Parsed CallForm
  | callee :: opening :: ts =>
    if callee.kind = .identifier ∧ opening.kind = .openParen then
      match closingParen? 0 ts with
      | none => failAt opening.span .unclosedCall
      | some ⟨inner, close, []⟩ => .ok ⟨callee, opening, inner, close⟩
      | some ⟨_, _, extra :: _⟩ =>
        failAt extra.span (.unexpected extra.toLexeme (some (.afterCall callee.text)))
    else mismatch .call (callee :: opening :: ts)
  | ts => mismatch .call ts

theorem ofTokens_eq_ok {ts : List Token} {c : CallForm} (h : ofTokens ts = .ok c) :
    c.tokens = ts := by
  unfold ofTokens at h
  split at h
  · split at h
    · split at h
      · cases h
      · next he => cases h; rw [closingParen?_eq_some he]; rfl
      · cases h
    · cases h
  · cases h

/-- The tokens of each argument. -/
def arguments (c : CallForm) : List (List Token) :=
  if c.inner = [] then [] else commaParts 0 c.inner

theorem length_lt_of_mem_arguments {c : CallForm} {part : List Token} (h : part ∈ c.arguments) :
    part.length < c.tokens.length := by
  unfold arguments at h
  split at h
  · cases h
  · have := commaParts_length part h
    simp only [tokens, List.length_append, List.length_cons, List.length_nil]
    omega

end CallForm

/-! ### Expressions -/

mutual

/-- Reads an expression. -/
def expression (ts : List Token) : Parsed Expr :=
  match ts with
  | [] => .error ⟨.expected .expression none none, none⟩
  | t :: rest =>
    match balanced [] (t :: rest) with
    | .error f => .error f
    | .ok () =>
      match _split : weakest none 0 (t :: rest) with
      | some s => binaryOf s
      | none =>
        match rest with
        | [] => atom t
        | u :: us =>
          match t.kind with
          | .minus => do
            let operand ← expression (u :: us)
            .ok (.negation t.span operand (coverFrom t (u :: us)))
          | .openParen =>
            match _group : Group.ofTokens (t :: u :: us) with
            | .error f => .error f
            | .ok g => groupOf g
          | .identifier =>
            if u.kind = .openParen then
              match _call : CallForm.ofTokens (t :: u :: us) with
              | .error f => .error f
              | .ok c => callOf c
            else failAt u.span (.unexpected u.toLexeme (some .inExpression))
          | _ => failAt u.span (.unexpected u.toLexeme (some .inExpression))
termination_by (ts.length, 1)
decreasing_by
  · have := congrArg List.length (weakest_eq_some _split)
    simp_all [Prod.lex_def, Split.tokens]
  · simp [Prod.lex_def]
  · have := congrArg List.length (Group.ofTokens_eq_ok _group)
    simp_all [Prod.lex_def]
  · have := congrArg List.length (CallForm.ofTokens_eq_ok _call)
    simp_all [Prod.lex_def]

/-- Reads the two operands of an operator. -/
def binaryOf (s : Split) : Parsed Expr :=
  if s.right = [] then
    failAt s.sign.span.after (.expected .expression (some (.after s.sign.kind)) none)
  else do
    let left ← expression s.left
    let right ← expression s.right
    .ok (.binary s.op left right s.span)
termination_by (s.tokens.length, 0)
decreasing_by
  all_goals simp only [Split.tokens, List.length_append, List.length_cons, Prod.lex_def]; omega

/-- Reads what parentheses enclose. They leave no trace. -/
def groupOf (g : Group) : Parsed Expr :=
  if g.inner = [] then
    failAt g.opening.span.after (.expected .expression (some .insideParentheses) none)
  else expression g.inner
termination_by (g.tokens.length, 0)
decreasing_by simp only [Group.tokens, List.length_append, List.length_cons, Prod.lex_def]; omega

/-- Reads the arguments of a call. -/
def callOf (c : CallForm) : Parsed Expr := do
  let arguments ← inOrder (c.arguments.attach.map fun ⟨part, _arg⟩ =>
    if part = [] then .error ⟨.expected .argument none none, coverAll c.inner⟩
    else expression part)
  .ok (.call ⟨c.callee.text, c.callee.span⟩ arguments (Span.cover c.callee.span c.closing.span))
termination_by (c.tokens.length, 0)
decreasing_by
  have := CallForm.length_lt_of_mem_arguments _arg
  simp_all [Prod.lex_def]

end

/-- Reads one argument of a call whose parentheses hold `inner`. -/
def argument (inner part : List Token) : Parsed Expr :=
  if part = [] then .error ⟨.expected .argument none none, coverAll inner⟩ else expression part

theorem callOf_eq (c : CallForm) :
    callOf c = (do
      let arguments ← inOrder (c.arguments.map (argument c.inner))
      .ok (.call ⟨c.callee.text, c.callee.span⟩ arguments
        (Span.cover c.callee.span c.closing.span))) := by
  rw [callOf, List.map_attach_eq_pmap, List.pmap_eq_map]
  rfl

/-- Reads an expression that an operator joins from two. -/
def binary (ts : List Token) : Parsed Expr := do
  balanced [] ts
  match weakest none 0 ts with
  | some s => binaryOf s
  | none => mismatch .binary ts

/-- Reads an expression in parentheses. -/
def parenthesized (ts : List Token) : Parsed Expr := do groupOf (← Group.ofTokens ts)

/-- Reads a call. -/
def call (ts : List Token) : Parsed Expr := do callOf (← CallForm.ofTokens ts)

/-- Reads an assignment. -/
def assignment : List Token → Parsed Expr
  | target :: assign :: value =>
    if target.kind = .identifier ∧ assign.kind = .assign then
      if value = [] then
        failAt assign.span.after (.expected .expression (some (.after .assign)) none)
      else do
        let right ← expression value
        .ok (.assignment ⟨target.text, target.span⟩ right (coverFrom target value))
    else mismatch .assignment (target :: assign :: value)
  | ts => mismatch .assignment ts

end Slate.Parser
