import Slate.Proofs.Decimal.Text
import Slate.Proofs.Grammar.StmtParser
import Slate.Proofs.Token.Lexer

/-!
# What the parser makes of a text

Not every tree can be written and read back: a name could be a keyword, a number could be negative.
`Expr.Writable` and `Stmt.Writable` describe the trees that come from a text, and
`writable_of_program` says that they do.
-/

namespace Slate

/-- An expression that was read from a text. No nought of a text has an empty span, so only a sign
looks like one. -/
inductive Expr.Writable : Expr → Prop where
  | number (d : Decimal) (s : Span) (h : d.negative = false) (hs : s.start ≠ s.stop) :
      Writable (.literal ⟨.number d, s⟩)
  | string (text : String) (s : Span) : Writable (.literal ⟨.string text, s⟩)
  | boolean (b : Bool) (s : Span) : Writable (.literal ⟨.boolean b, s⟩)
  | name (x : Identifier) (h : IsName x.name) : Writable (.identifier x)
  | sign {operand : Expr} (h : Writable operand) (place s : Span) :
      Writable (.negation place operand s)
  | operation (op : BinaryOp) {left right : Expr} (hl : Writable left) (hr : Writable right)
      (s : Span) : Writable (.binary op left right s)
  | call (callee : Identifier) (h : IsName callee.name) {arguments : List Expr}
      (ha : ∀ a ∈ arguments, Writable a) (s : Span) : Writable (.call callee arguments s)

/-- An operation whose left operand was read is no sign. -/
theorem Expr.Writable.not_isNegation {left : Expr} (h : left.Writable) (op : BinaryOp)
    (right : Expr) (s : Span) : (Expr.binary op left right s).isNegation = false := by
  cases h with
  | number d place _ hs => cases op <;> simp [Expr.isNegation, hs]
  | _ => cases op <;> rfl

/-- What stands in front of a semicolon. -/
inductive Expr.WritableAction : Expr → Prop where
  | expression {e : Expr} (h : e.Writable) : WritableAction e
  | assignment (target : Identifier) (h : IsName target.name) {value : Expr} (hv : value.Writable)
      (s : Span) : WritableAction (.assignment target value s)

structure Declarator.Writable (d : Declarator) : Prop where
  name : IsName d.id.name
  init : ∀ e ∈ d.init, e.Writable

/-- A statement that was read from a text. -/
inductive Stmt.Writable : Stmt → Prop where
  | declaration (kind : DeclarationKind) {ds : List Declarator} (hne : ds ≠ [])
      (h : ∀ d ∈ ds, d.Writable) (s : Span) : Writable (.declaration kind ds s)
  | action {e : Expr} (h : e.WritableAction) (s : Span) : Writable (.expression e s)
  | conditional (test : Identifier) (h : IsName test.name) {consequent alternate : List Stmt}
      (hc : ∀ s ∈ consequent, Writable s) (ha : ∀ s ∈ alternate, Writable s) (s : Span) :
      Writable (.conditional test consequent alternate s)

namespace Grammar

open Slate.Parser

/-! ## Expressions -/

theorem forall_mem_enclosed {P : Token → Prop} {o c : Token} {ts : List Token}
    (h : ∀ t ∈ o :: ts ++ [c], P t) : P o ∧ (∀ t ∈ ts, P t) ∧ P c := by
  obtain ⟨front, hc⟩ := List.forall_mem_append.1 h
  obtain ⟨ho, hts⟩ := List.forall_mem_cons.1 front
  exact ⟨ho, hts, List.forall_mem_singleton.1 hc⟩

theorem not_negative_of_isNumeralText {s : String} {d : Decimal} (h : IsNumeralText s)
    (hd : Decimal.ofString? s = .ok d) : d.negative = false := by
  obtain ⟨c, cs, text, digit, others⟩ := h
  refine Decimal.not_negative_of_ofString? text digit ?_ hd
  have plain {x : Char} (h : x.isDigit = true ∨ x = '.') : Decimal.isExponentMark x = false := by
    rw [Bool.eq_false_iff]
    intro mark
    simp only [Decimal.isExponentMark, Bool.or_eq_true, decide_eq_true_eq] at mark
    rcases mark with rfl | rfl <;> rcases h with h | h <;> revert h <;> decide
  rw [text]
  exact List.forall_mem_cons.2 ⟨plain (.inl digit), fun x hx => plain (others x hx)⟩

theorem Leaf.writable (l : Leaf) (h : l.token.IsLexed) : l.result.Writable := by
  cases l with
  | number t d hd =>
    exact .number d _ (not_negative_of_isNumeralText (h.number t.property) hd) (Nat.ne_of_lt h.span)
  | string t => exact .string _ _
  | boolean t b hb => exact .boolean _ _
  | name t => exact .name _ (h.name t.property)

namespace Derivation

def IsWritable {n : Nonterminal} (d : Derivation n) : Prop :=
  match n, d with
  | .arguments, d => ∀ a ∈ d.result, a.Writable
  | .expr, d | .term, d | .factor, d | .atom, d => d.result.Writable

theorem isWritable {n : Nonterminal} (d : Derivation n) (h : ∀ t ∈ d.tokens, t.IsLexed) :
    d.IsWritable := by
  induction d with
  | ofTerm t ih => exact ih h
  | ofFactor t ih => exact ih h
  | ofAtom t ih => exact ih h
  | sum left op right ihl ihr =>
    obtain ⟨hl, hr⟩ := List.forall_mem_append.1 h
    exact .operation op.op (ihl hl) (ihr (List.forall_mem_cons.1 hr).2) _
  | product left op right ihl ihr =>
    obtain ⟨hl, hr⟩ := List.forall_mem_append.1 h
    exact .operation op.op (ihl hl) (ihr (List.forall_mem_cons.1 hr).2) _
  | sign minus operand ih => exact .sign (ih (List.forall_mem_cons.1 h).2) _ _
  | leaf l => exact l.writable (List.forall_mem_singleton.1 h)
  | call callee opening closing =>
    have name := (List.forall_mem_cons.1 h).1.name callee.property
    exact .call _ name (fun _ ha => by cases ha) _
  | callWith callee opening arguments closing ih =>
    obtain ⟨hn, h⟩ := List.forall_mem_cons.1 h
    exact .call _ (hn.name callee.property) (ih (forall_mem_enclosed h).2.1) _
  | group opening inner closing ih => exact ih (forall_mem_enclosed h).2.1
  | last e ih => exact List.forall_mem_singleton.2 (ih h)
  | more e comma rest ihe ihr =>
    obtain ⟨he, hr⟩ := List.forall_mem_append.1 h
    exact List.forall_mem_cons.2 ⟨ihe he, ihr (List.forall_mem_cons.1 hr).2⟩

end Derivation

theorem Accepted.writable (a : Accepted) (h : ∀ t ∈ a.tokens, t.IsLexed) : a.result.Writable := by
  obtain ⟨d, ht, hr⟩ := exists_derivation a.read
  rw [← hr]
  rw [← ht] at h
  exact d.isWritable h

/-! ## Statements -/

theorem Variable.writable (v : Variable) (h : ∀ t ∈ v.tokens, t.IsLexed) : v.result.Writable := by
  obtain ⟨hn, h⟩ := List.forall_mem_cons.1 h
  have init := (List.forall_mem_cons.1 (List.forall_mem_cons.1 h).2).2
  refine ⟨hn.name v.name.property, ?_⟩
  obtain ⟨name, colon, word, type, writes, i⟩ := v
  rcases i with _ | ⟨assign, value⟩
  · exact fun _ he => by cases he
  · intro e he
    cases he
    exact value.writable (List.forall_mem_cons.1 init).2

theorem Variables.writable (vs : Variables) (h : ∀ t ∈ vs.tokens, t.IsLexed) :
    ∀ d ∈ vs.result, d.Writable := by
  induction vs with
  | last v => exact List.forall_mem_singleton.2 (v.writable h)
  | more v comma rest ih =>
    obtain ⟨hv, hr⟩ := List.forall_mem_append.1 h
    exact List.forall_mem_cons.2 ⟨v.writable hv, ih (List.forall_mem_cons.1 hr).2⟩

theorem Variables.result_ne_nil (vs : Variables) : vs.result ≠ [] := by
  cases vs <;> exact List.cons_ne_nil _ _

theorem Action.writable (a : Action) (h : ∀ t ∈ a.tokens, t.IsLexed) :
    a.result.WritableAction := by
  cases a with
  | expression e => exact .expression (e.writable h)
  | assignment target assign value =>
    obtain ⟨hn, h⟩ := List.forall_mem_cons.1 h
    exact .assignment _ (hn.name target.property) (value.writable (List.forall_mem_cons.1 h).2) _

theorem Test.isName (t : Test) (h : ∀ u ∈ t.tokens, u.IsLexed) : IsName (nameOf t.name).name := by
  obtain ⟨-, h⟩ := List.forall_mem_cons.1 h
  obtain ⟨-, h⟩ := List.forall_mem_cons.1 h
  exact (List.forall_mem_cons.1 h).1.name t.name.property

namespace Phrase

def IsWritable {c : Category} (p : Phrase c) : Prop :=
  match c, p with
  | .statement, p => p.result.Writable
  | .block, p | .body, p => ∀ s ∈ p.result, s.Writable

theorem isWritable {c : Category} (p : Phrase c) (h : ∀ t ∈ p.tokens, t.IsLexed) :
    p.IsWritable := by
  induction p with
  | declaration d semicolon =>
    exact .declaration _ d.vars.result_ne_nil (d.vars.writable (forall_mem_enclosed h).2.1) _
  | action a semicolon => exact .action (a.writable (List.forall_mem_append.1 h).1) _
  | conditional test consequent ih =>
    obtain ⟨ht, hc⟩ := List.forall_mem_append.1 h
    exact .conditional _ (test.isName ht) (ih hc) (fun _ hs => by cases hs) _
  | conditionalElse test consequent elseWord alternate ihc iha =>
    obtain ⟨ht, h⟩ := List.forall_mem_append.1 h
    obtain ⟨hc, ha⟩ := List.forall_mem_append.1 h
    exact .conditional _ (test.isName ht) (ihc hc) (iha (List.forall_mem_cons.1 ha).2) _
  | block opening body closing ih => exact ih (forall_mem_enclosed h).2.1
  | done => exact fun _ hs => by cases hs
  | more first rest ihf ihr =>
    obtain ⟨hf, hr⟩ := List.forall_mem_append.1 h
    exact List.forall_mem_cons.2 ⟨ihf hf, ihr hr⟩

end Phrase

/-- The statements that are read from the tokens of a text can be written. -/
theorem writable_of_program {ts : List Token} {p : Program} (h : ∀ t ∈ ts, t.IsLexed)
    (hp : program ts = .ok p) : ∀ s ∈ p.statements, s.Writable := by
  obtain ⟨b, ht, hr⟩ := exists_phrase hp
  rw [← hr]
  rw [← ht] at h
  exact b.isWritable h

end Grammar

end Slate
