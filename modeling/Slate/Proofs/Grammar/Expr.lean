import Slate.Proofs.Parser.Weakest
import Slate.Value

/-!
# The grammar of expressions

    expr      ::= term | expr (+|-) term
    term      ::= factor | term (*|/) factor
    factor    ::= - factor | atom
    atom      ::= leaf | NAME ( ) | NAME ( arguments ) | ( expr )
    arguments ::= expr | expr , arguments
    leaf      ::= NUMBER | STRING | BOOLEAN | NAME

A `Derivation` is a tree of this grammar, with a constructor for each alternative and a token at each
leaf. It says nothing of how tokens are taken apart: the parser looks for the weakest operator, and
the grammar knows no such thing. Two views of a derivation are compared with the parser:

* `Derivation.tokens` — the tokens at its leaves, in order;
* `Derivation.result` — the expression it stands for. Operators of one strength group to the left, a
  sign is a subtraction from nought, and parentheses leave nothing behind.
-/

namespace Slate.Grammar

open Slate.Parser

/-- A token of a kind. -/
abbrev TokenOf (kind : TokenKind) := { t : Token // t.kind = kind }

theorem TokenOf.ne {k k' : TokenKind} (t : TokenOf k) (t' : TokenOf k') (h : k ≠ k') :
    t.val ≠ t'.val :=
  fun e => h (t.property.symm.trans ((congrArg (·.kind) e).trans t'.property))

/-- A token that writes an operator of some strength. -/
structure Operator (precedence : Nat) where
  sign : Token
  op : BinaryOp
  writes : operator? sign.kind = some op
  binds : op.precedence = precedence

/-- A token that is an expression by itself. -/
inductive Leaf where
  | number (t : TokenOf .number) (d : Decimal) (h : Decimal.ofString? t.val.text = .ok d)
  | string (t : TokenOf .string)
  | boolean (t : TokenOf .boolean) (b : Bool) (h : t.val.text = Value.booleanText b)
  | name (t : TokenOf .identifier)

namespace Leaf

def token : Leaf → Token
  | number t _ _ | string t | boolean t _ _ | name t => t.val

def result : Leaf → Expr
  | number t d _ => .literal ⟨.number d, t.val.span⟩
  | string t => .literal ⟨.string t.val.text, t.val.span⟩
  | boolean t b _ => .literal ⟨.boolean b, t.val.span⟩
  | name t => .identifier ⟨t.val.text, t.val.span⟩

def kind : Leaf → TokenKind
  | number .. => .number
  | string _ => .string
  | boolean .. => .boolean
  | name _ => .identifier

theorem token_kind (l : Leaf) : l.token.kind = l.kind := by
  cases l with
  | number t | string t | boolean t | name t => exact t.property

end Leaf

/-- What the grammar has rules for. -/
inductive Nonterminal where
  | expr
  | term
  | factor
  | atom
  | arguments

/-- What a derivation stands for: arguments are a list, all else is an expression. -/
abbrev Nonterminal.Result : Nonterminal → Type
  | expr | term | factor | atom => Expr
  | arguments => List Expr

/-- A tree of the grammar. -/
inductive Derivation : Nonterminal → Type where
  | ofTerm (t : Derivation .term) : Derivation .expr
  | sum (left : Derivation .expr) (op : Operator 1) (right : Derivation .term) : Derivation .expr
  | ofFactor (f : Derivation .factor) : Derivation .term
  | product (left : Derivation .term) (op : Operator 2) (right : Derivation .factor) :
      Derivation .term
  | sign (minus : TokenOf .minus) (operand : Derivation .factor) : Derivation .factor
  | ofAtom (a : Derivation .atom) : Derivation .factor
  | leaf (l : Leaf) : Derivation .atom
  | call (callee : TokenOf .identifier) (opening : TokenOf .openParen)
      (closing : TokenOf .closeParen) : Derivation .atom
  | callWith (callee : TokenOf .identifier) (opening : TokenOf .openParen)
      (arguments : Derivation .arguments) (closing : TokenOf .closeParen) : Derivation .atom
  | group (opening : TokenOf .openParen) (inner : Derivation .expr)
      (closing : TokenOf .closeParen) : Derivation .atom
  | last (e : Derivation .expr) : Derivation .arguments
  | more (e : Derivation .expr) (comma : TokenOf .comma) (rest : Derivation .arguments) :
      Derivation .arguments

namespace Derivation

/-- The tokens of a derivation. -/
def tokens {n : Nonterminal} : Derivation n → List Token
  | ofTerm t => t.tokens
  | sum left op right => left.tokens ++ op.sign :: right.tokens
  | ofFactor f => f.tokens
  | product left op right => left.tokens ++ op.sign :: right.tokens
  | sign minus operand => minus.val :: operand.tokens
  | ofAtom a => a.tokens
  | leaf l => [l.token]
  | call callee opening closing => [callee.val, opening.val, closing.val]
  | callWith callee opening arguments closing =>
    callee.val :: opening.val :: arguments.tokens ++ [closing.val]
  | group opening inner closing => opening.val :: inner.tokens ++ [closing.val]
  | last e => e.tokens
  | more e comma rest => e.tokens ++ comma.val :: rest.tokens

/-- The place of its tokens, from the start of the first to the end of the last. -/
def place {n : Nonterminal} : Derivation n → Span
  | ofTerm t => t.place
  | sum left _ right => .cover left.place right.place
  | ofFactor f => f.place
  | product left _ right => .cover left.place right.place
  | sign minus operand => .cover minus.val.span operand.place
  | ofAtom a => a.place
  | leaf l => l.token.span
  | call callee _ closing => .cover callee.val.span closing.val.span
  | callWith callee _ _ closing => .cover callee.val.span closing.val.span
  | group opening _ closing => .cover opening.val.span closing.val.span
  | last e => e.place
  | more e _ rest => .cover e.place rest.place

/-- What the derivation stands for. -/
def result {n : Nonterminal} : Derivation n → n.Result
  | ofTerm t => t.result
  | sum left op right => .binary op.op left.result right.result (.cover left.place right.place)
  | ofFactor f => f.result
  | product left op right => .binary op.op left.result right.result (.cover left.place right.place)
  | sign minus operand =>
    .negation minus.val.span operand.result (.cover minus.val.span operand.place)
  | ofAtom a => a.result
  | leaf l => l.result
  | call callee _ closing =>
    .call ⟨callee.val.text, callee.val.span⟩ [] (.cover callee.val.span closing.val.span)
  | callWith callee _ arguments closing =>
    .call ⟨callee.val.text, callee.val.span⟩ arguments.result
      (.cover callee.val.span closing.val.span)
  | group _ inner _ => inner.result
  | last e => [e.result]
  | more e _ rest => e.result :: rest.result

/-! ## The tokens of a derivation -/

attribute [local simp] tokens

theorem tokens_ne_nil {n : Nonterminal} (d : Derivation n) : d.tokens ≠ [] := by
  induction d with
  | ofTerm t ih | ofFactor t ih | ofAtom t ih | last t ih => exact ih
  | _ => simp

/-- The last token ends an operand. -/
theorem endsOperand_last {n : Nonterminal} (d : Derivation n) : EndsOperand d.tokens.getLast? := by
  have closes (ts : List Token) (c : TokenOf .closeParen) :
      EndsOperand (ts ++ [c.val]).getLast? := by
    rw [List.getLast?_concat, EndsOperand, Option.any_some, c.property]
    rfl
  induction d with
  | ofTerm t ih | ofFactor t ih | ofAtom t ih | last t ih => exact ih
  | sum left op right _ ih | product left op right _ ih =>
    exact endsOperand_getLast?_append _ (List.cons_ne_nil _ _)
      (endsOperand_getLast?_append [op.sign] right.tokens_ne_nil ih)
  | sign minus operand ih => exact endsOperand_getLast?_append [minus.val] operand.tokens_ne_nil ih
  | leaf l =>
    rw [tokens, List.getLast?_singleton, EndsOperand, Option.any_some, l.token_kind]
    cases l <;> rfl
  | call callee opening closing => exact closes [callee.val, opening.val] closing
  | callWith | group => exact closes _ _
  | more e comma rest _ ih =>
    exact endsOperand_getLast?_append _ (List.cons_ne_nil _ _)
      (endsOperand_getLast?_append [comma.val] rest.tokens_ne_nil ih)

/-- Parentheses have their partners. -/
theorem nested {n : Nonterminal} (d : Derivation n) : Nested d.tokens := by
  have plain {k : TokenKind} (t : TokenOf k) (h : isPlain k = true) : isPlain t.val.kind = true := by
    rw [t.property]
    exact h
  induction d with
  | ofTerm t ih | ofFactor t ih | ofAtom t ih | last t ih => exact ih
  | sum left op right ihl ihr | product left op right ihl ihr =>
    exact ihl.append (ihr.cons (isPlain_of_operator? op.writes))
  | sign minus operand ih => exact ih.cons (plain minus rfl)
  | leaf l =>
    refine nested_singleton ?_
    rw [l.token_kind]
    cases l <;> rfl
  | call callee opening closing =>
    exact (nested_group opening.property closing.property nested_nil).cons (plain callee rfl)
  | callWith callee opening arguments closing ih =>
    exact (nested_group opening.property closing.property ih).cons (plain callee rfl)
  | group opening inner closing ih => exact nested_group opening.property closing.property ih
  | more e comma rest ihe ihr => exact ihe.append (ihr.cons (plain comma rfl))

/-- Only arguments have commas outside parentheses. -/
theorem whole {n : Nonterminal} (d : Derivation n) (h : n ≠ .arguments) : Whole d.tokens := by
  have between {precedence : Nat} (op : Operator precedence) {left right : List Token}
      (hn : Nested left) (hl : Whole left) (hr : Whole right) : Whole (left ++ op.sign :: right) := by
    refine hl.append hn (hr.cons (isPlain_of_operator? op.writes) fun hc => ?_)
    have := op.writes
    rw [hc] at this
    cases this
  have named {ts : List Token} (callee : TokenOf .identifier) (hw : Whole ts) :
      Whole (callee.val :: ts) :=
    hw.cons (by rw [callee.property]; rfl) (by rw [callee.property]; simp)
  revert h
  induction d with
  | ofTerm t ih | ofFactor t ih | ofAtom t ih => exact fun _ => ih (by simp)
  | sum left op right ihl ihr | product left op right ihl ihr =>
    exact fun _ => between op left.nested (ihl (by simp)) (ihr (by simp))
  | sign minus operand ih =>
    exact fun _ => (ih (by simp)).cons (by rw [minus.property]; rfl) (by rw [minus.property]; simp)
  | leaf l =>
    refine fun _ => whole_singleton ?_
    rw [l.token_kind]
    cases l <;> simp [Leaf.kind]
  | call callee opening closing =>
    exact fun _ => named callee (whole_group opening.property closing.property nested_nil)
  | callWith callee opening arguments closing =>
    exact fun _ => named callee (whole_group opening.property closing.property arguments.nested)
  | group opening inner closing =>
    exact fun _ => whole_group opening.property closing.property inner.nested
  | last | more => exact fun h => absurd rfl h

end Derivation

/-! ## The operators of a derivation -/

/-- Which operators a part may have outside parentheses. -/
def Nonterminal.Admits : Nonterminal → BinaryOp → Prop
  | .expr, _ | .arguments, _ => True
  | .term, op => op.precedence = 2
  | .factor, _ | .atom, _ => False

namespace Derivation

theorem outerOperators_sum (left : Derivation .expr) (op : Operator 1) (right : Derivation .term) :
    outerOperators none 0 (sum left op right).tokens =
      outerOperators none 0 left.tokens ++ op.op :: outerOperators none 0 right.tokens :=
  outerOperators_operation left.nested left.endsOperand_last op.writes

theorem outerOperators_product (left : Derivation .term) (op : Operator 2)
    (right : Derivation .factor) :
    outerOperators none 0 (product left op right).tokens =
      outerOperators none 0 left.tokens ++ op.op :: outerOperators none 0 right.tokens :=
  outerOperators_operation left.nested left.endsOperand_last op.writes

/-- Each part has only the operators that its level admits. -/
theorem admits {n : Nonterminal} (d : Derivation n) :
    ∀ op ∈ outerOperators none 0 d.tokens, n.Admits op := by
  have none_ {ts : List Token} {P : BinaryOp → Prop} (h : outerOperators none 0 ts = []) :
      ∀ op ∈ outerOperators none 0 ts, P op := by
    rw [h]
    exact fun _ hop => by cases hop
  induction d with
  | ofTerm | sum | last | more => exact fun _ _ => trivial
  | ofFactor f ih => exact fun op hop => (ih op hop).elim
  | product left op right ihl ihr =>
    rw [outerOperators_product]
    intro o ho
    rcases List.mem_append.1 ho with ho | ho
    · exact ihl o ho
    · rcases List.mem_cons.1 ho with rfl | ho
      · exact op.binds
      · exact (ihr o ho).elim
  | sign minus operand ih =>
    rw [tokens, outerOperators_cons_of_isPlain (by rw [minus.property]; rfl),
      outerOperators_of_not_endsOperand (by simp [EndsOperand, endsOperand, minus.property])]
    exact ih
  | ofAtom a ih => exact ih
  | leaf l =>
    refine none_ ?_
    rw [tokens, outerOperators, operatorAt?_of_not_endsOperand (by simp [EndsOperand])]
    rfl
  | call callee opening closing =>
    exact none_ (outerOperators_call closing.val callee.property opening.property nested_nil)
  | callWith callee opening arguments closing =>
    exact none_ (outerOperators_call closing.val callee.property opening.property arguments.nested)
  | group opening inner closing =>
    exact none_ (outerOperators_group closing.val opening.property inner.nested none)

theorem outerOperators_factor (f : Derivation .factor) : outerOperators none 0 f.tokens = [] :=
  List.eq_nil_iff_forall_not_mem.2 f.admits

theorem outerOperators_atom (a : Derivation .atom) : outerOperators none 0 a.tokens = [] :=
  List.eq_nil_iff_forall_not_mem.2 a.admits

/-- A sum is taken apart at its sign. -/
theorem weakest_sum (left : Derivation .expr) (op : Operator 1) (right : Derivation .term) :
    weakest none 0 (sum left op right).tokens =
      some ⟨left.tokens, op.sign, op.op, right.tokens⟩ := by
  refine weakest_append left.nested ?_ op.writes (fun o _ => ?_) (fun o ho => ?_)
  · rw [Option.or_none]
    exact left.endsOperand_last
  · rw [op.binds]
    cases o <;> decide
  · have two : o.precedence = 2 := right.admits o ho
    rw [op.binds, two]
    decide

/-- A product is taken apart at its sign. -/
theorem weakest_product (left : Derivation .term) (op : Operator 2) (right : Derivation .factor) :
    weakest none 0 (product left op right).tokens =
      some ⟨left.tokens, op.sign, op.op, right.tokens⟩ := by
  refine weakest_append left.nested ?_ op.writes (fun o ho => ?_) (fun o ho => ?_)
  · rw [Option.or_none]
    exact left.endsOperand_last
  · have two : o.precedence = 2 := left.admits o ho
    exact Nat.le_of_eq (op.binds.trans two.symm)
  · exact (right.admits o ho).elim

end Derivation

end Slate.Grammar
