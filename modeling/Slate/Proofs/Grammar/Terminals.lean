import Mathlib
import Slate.Proofs.Format.Writable
import Slate.Proofs.Grammar.Spans
import Slate.Proofs.Token.Order
import Slate.Proofs.Tree.Terminals

/-!
# Trees follow the text

The parser loses no name and no literal, it makes none up, and it changes no two of them: those of a program, from
its first leaf to its last one, are those of its text.

    text ──tokenize──▶ tokens ──program──▶ tree
                          │                  │
                   names and literals ══ terminals

* `Token.StandsFor` — the name or the literal that a token writes, with its place;
* `Derivation.standFor`, `Phrase.standFor` — the tokens of a derivation stand for the terminals of its result;
* `nodes_follow_source` — the same for a text, and its nodes come in the order of their places.

The nought in front of a sign is known by its empty place. No token of a text is empty (`Token.IsLexed`), so a
nought of the text is never taken for it.
-/

namespace Slate

/-- Whether a token of the kind is a name or a literal. -/
def TokenKind.isTerminal : TokenKind → Bool
  | .identifier | .number | .string | .boolean => true
  | _ => false

/-- What the token writes: a name, or a literal by the value of its text. -/
inductive Token.StandsFor : Token → Terminal → Prop where
  | name {t : Token} (h : t.kind = .identifier) : StandsFor t (.name ⟨t.text, t.span⟩)
  | number {t : Token} {d : Decimal} (h : t.kind = .number) (hd : Decimal.ofString? t.text = .ok d) :
      StandsFor t (.literal ⟨.number d, t.span⟩)
  | string {t : Token} (h : t.kind = .string) : StandsFor t (.literal ⟨.string t.text, t.span⟩)
  | boolean {t : Token} {b : Bool} (h : t.kind = .boolean) (hb : t.text = Value.booleanText b) :
      StandsFor t (.literal ⟨.boolean b, t.span⟩)

theorem Token.StandsFor.isTerminal {t : Token} {x : Terminal} (h : t.StandsFor x) : t.kind.isTerminal = true := by
  cases h with
  | name h | number h | string h | boolean h =>
    rw [h]
    rfl

/-- The names and the literals among the tokens stand for these, one for one. -/
def StandFor (ts : List Token) (xs : List Terminal) : Prop :=
  List.Forall₂ Token.StandsFor (ts.filter fun t => t.kind.isTerminal) xs

namespace StandFor

variable {ts us : List Token} {xs ys : List Terminal}

theorem nil : StandFor [] [] := List.Forall₂.nil

theorem append (h : StandFor ts xs) (hu : StandFor us ys) : StandFor (ts ++ us) (xs ++ ys) := by
  unfold StandFor
  rw [List.filter_append]
  exact List.rel_append h hu

theorem cons {t : Token} {x : Terminal} (ht : t.StandsFor x) (h : StandFor ts xs) :
    StandFor (t :: ts) (x :: xs) := by
  unfold StandFor
  rw [List.filter_cons, if_pos ht.isTerminal]
  exact .cons ht h

/-- A token that is neither a name nor a literal. -/
theorem mark {t : Token} (ht : t.kind.isTerminal = false) (h : StandFor ts xs) : StandFor (t :: ts) xs := by
  unfold StandFor
  rw [List.filter_cons, ht]
  exact h

theorem markBehind {t : Token} (ht : t.kind.isTerminal = false) (h : StandFor ts xs) :
    StandFor (ts ++ [t]) xs := by
  have both := h.append (mark ht nil)
  rwa [List.append_nil] at both

end StandFor

namespace Grammar

open Slate.Parser

/-! ## Tokens that leave no terminal -/

theorem TokenOf.mark {kind : TokenKind} (t : TokenOf kind) (h : kind.isTerminal = false) :
    t.val.kind.isTerminal = false := by
  rw [t.property]
  exact h

/-- A kind that writes something else is that of no terminal. -/
theorem mark_of_writes {α : Type} {written : TokenKind → Option α} {a : α} {k : TokenKind}
    (writes : written k = some a) (nothing : ∀ k, k.isTerminal = true → written k = none) :
    k.isTerminal = false := by
  refine Bool.eq_false_iff.2 fun terminal => ?_
  cases (nothing k terminal).symm.trans writes

theorem operator?_of_isTerminal (k : TokenKind) (h : k.isTerminal = true) : operator? k = none := by
  cases k <;> first | rfl | cases h

theorem type?_of_isTerminal (k : TokenKind) (h : k.isTerminal = true) : type? k = none := by
  cases k <;> first | rfl | cases h

theorem declarationKind?_of_isTerminal (k : TokenKind) (h : k.isTerminal = true) : declarationKind? k = none := by
  cases k <;> first | rfl | cases h

theorem Operator.mark {precedence : Nat} (op : Operator precedence) : op.sign.kind.isTerminal = false :=
  mark_of_writes op.writes operator?_of_isTerminal

/-! ## Expressions -/

theorem TokenOf.standsFor (t : TokenOf .identifier) : t.val.StandsFor (.name (nameOf t)) := .name t.property

theorem Leaf.standsFor (l : Leaf) : StandFor [l.token] l.result.terminals := by
  have single {x : Terminal} (h : l.token.StandsFor x) : StandFor [l.token] [x] := .cons h .nil
  cases l with
  | number t d h => exact single (.number t.property h)
  | string t => exact single (.string t.property)
  | boolean t b h => exact single (.boolean t.property h)
  | name t => exact single t.standsFor

namespace Derivation

/-- The names and the literals of what a derivation stands for. -/
def terminals {n : Nonterminal} (d : Derivation n) : List Terminal :=
  match n, d with
  | .arguments, d => terminalsOfExprs d.result
  | .expr, d | .term, d | .factor, d | .atom, d => d.result.terminals

theorem standFor {n : Nonterminal} (d : Derivation n) (h : ∀ t ∈ d.tokens, t.IsLexed) :
    StandFor d.tokens d.terminals := by
  induction d with
  | ofTerm t ih | ofFactor t ih | ofAtom t ih => exact ih h
  | sum left op right ihl ihr | product left op right ihl ihr =>
    obtain ⟨hl, hr⟩ := List.forall_mem_append.1 h
    -- the left operand is no nought in front of a sign, for it was read from tokens of a text
    have plain := (left.isWritable hl).not_isNegation op.op right.result (.cover left.place right.place)
    show StandFor (left.tokens ++ op.sign :: right.tokens) (Expr.binary op.op left.result right.result _).terminals
    rw [Expr.terminals_binary plain]
    exact (ihl hl).append ((ihr (List.forall_mem_cons.1 hr).2).mark op.mark)
  | sign minus operand ih =>
    show StandFor (minus.val :: operand.tokens) (Expr.negation _ operand.result _).terminals
    rw [Expr.terminals_negation]
    exact (ih (List.forall_mem_cons.1 h).2).mark (minus.mark rfl)
  | leaf l => exact l.standsFor
  | call callee opening closing =>
    exact .cons callee.standsFor (.mark (opening.mark rfl) (.mark (closing.mark rfl) .nil))
  | callWith callee opening arguments closing ih =>
    have inner := ih (forall_mem_enclosed (List.forall_mem_cons.1 h).2).2.1
    exact .cons callee.standsFor (.mark (opening.mark rfl) (inner.markBehind (closing.mark rfl)))
  | group opening inner closing ih =>
    have inner := ih (forall_mem_enclosed h).2.1
    exact (inner.markBehind (closing.mark rfl)).mark (opening.mark rfl)
  | last e ih =>
    show StandFor e.tokens (e.terminals ++ [])
    rw [List.append_nil]
    exact ih h
  | more e comma rest ihe ihr =>
    obtain ⟨he, hr⟩ := List.forall_mem_append.1 h
    exact (ihe he).append ((ihr (List.forall_mem_cons.1 hr).2).mark (comma.mark rfl))

end Derivation

theorem Accepted.standFor (a : Accepted) (h : ∀ t ∈ a.tokens, t.IsLexed) :
    StandFor a.tokens a.result.terminals := by
  obtain ⟨d, tokens, result⟩ := exists_derivation a.read
  rw [← tokens] at h ⊢
  rw [← result]
  exact d.standFor h

/-! ## Statements -/

theorem Variable.standFor (v : Variable) (h : ∀ t ∈ v.tokens, t.IsLexed) :
    StandFor v.tokens v.result.terminals := by
  have type := mark_of_writes v.writes type?_of_isTerminal
  refine .cons v.name.standsFor (.mark (v.colon.mark rfl) (.mark type ?_))
  obtain ⟨name, colon, word, type, writes, init⟩ := v
  rcases init with _ | ⟨assign, value⟩
  · exact .nil
  · have inner := value.standFor fun t ht => h t (by simp [tokens, initTokens, ht])
    exact inner.mark (assign.mark rfl)

theorem Variables.standFor (vs : Variables) (h : ∀ t ∈ vs.tokens, t.IsLexed) :
    StandFor vs.tokens (vs.result.flatMap Declarator.terminals) := by
  induction vs with
  | last v =>
    rw [result, List.flatMap_singleton]
    exact v.standFor h
  | more v comma rest ih =>
    obtain ⟨hv, hr⟩ := List.forall_mem_append.1 h
    exact (v.standFor hv).append ((ih (List.forall_mem_cons.1 hr).2).mark (comma.mark rfl))

theorem Action.standFor (a : Action) (h : ∀ t ∈ a.tokens, t.IsLexed) :
    StandFor a.tokens a.result.terminals := by
  cases a with
  | expression e => exact e.standFor h
  | assignment target assign value =>
    have right := value.standFor fun t ht => h t (by simp [tokens, ht])
    exact .cons target.standsFor (right.mark (assign.mark rfl))

theorem Test.standFor (t : Test) : StandFor t.tokens [.name (nameOf t.name)] :=
  .mark (t.ifWord.mark rfl) (.mark (t.opening.mark rfl) (.cons t.name.standsFor (.mark (t.closing.mark rfl) .nil)))

namespace Phrase

/-- The names and the literals of what a phrase stands for. -/
def terminals {c : Category} (p : Phrase c) : List Terminal :=
  match c, p with
  | .statement, p => p.result.terminals
  | .block, p | .body, p => terminalsOfStmts p.result

theorem standFor {c : Category} (p : Phrase c) (h : ∀ t ∈ p.tokens, t.IsLexed) :
    StandFor p.tokens p.terminals := by
  induction p with
  | declaration d semicolon =>
    have vars := d.vars.standFor (forall_mem_enclosed h).2.1
    exact (vars.markBehind (semicolon.mark rfl)).mark (mark_of_writes d.writes declarationKind?_of_isTerminal)
  | action a semicolon =>
    exact (a.standFor (List.forall_mem_append.1 h).1).markBehind (semicolon.mark rfl)
  | conditional test consequent ih =>
    have blocks : StandFor consequent.tokens (terminalsOfStmts consequent.result ++ []) := by
      rw [List.append_nil]
      exact ih (List.forall_mem_append.1 h).2
    exact test.standFor.append blocks
  | conditionalElse test consequent elseWord alternate ihc iha =>
    obtain ⟨hc, hb⟩ := List.forall_mem_append.1 (List.forall_mem_append.1 h).2
    have blocks := (ihc hc).append ((iha (List.forall_mem_cons.1 hb).2).mark (elseWord.mark rfl))
    exact test.standFor.append blocks
  | block opening body closing ih =>
    have inner := ih (forall_mem_enclosed h).2.1
    exact (inner.markBehind (closing.mark rfl)).mark (opening.mark rfl)
  | done => exact .nil
  | more first rest ihf ihr =>
    obtain ⟨hf, hr⟩ := List.forall_mem_append.1 h
    exact (ihf hf).append (ihr hr)

end Phrase

/-! ## Programs -/

/-- Places that follow tokens come in the order of the tokens. -/
theorem Follows.inOrder {ts : List Token} {places : List Span} (h : Follows ts places)
    (order : ts.Pairwise fun t u => t.span.position ≤ u.span.position) :
    (places.map Span.position).Pairwise (· ≤ ·) := by
  induction h with
  | done => exact .nil
  | skip t _ ih => exact ih (List.pairwise_cons.1 order).2
  | @here t ts s places line start rest ih =>
    -- what comes later starts at this token, or at one behind it
    have first : s.position = t.span.position := by
      rw [Span.position, Span.position, line, start]
    refine .cons (fun position hp => ?_) (ih order)
    obtain ⟨later, hl, rfl⟩ := List.mem_map.1 hp
    obtain ⟨u, hu, line, start⟩ := rest.startIn later hl
    have at_ : later.position = u.span.position := by
      rw [Span.position, Span.position, line, start]
    rw [first, at_]
    rcases List.mem_cons.1 hu with rfl | hu
    · exact le_rfl
    · exact (List.pairwise_cons.1 order).1 u hu

/-- The nodes of a program, each in front of its parts, come in the order of their lines and columns. Its names and
its literals are those of the text, one for one and in their order, at their places, and each with the value of its
token. -/
theorem nodes_follow_source {source : String} {ts : List Token} {p : Program} (read : tokenize source = .ok ts)
    (parsed : program ts = .ok p) :
    ((spansOfStmts p.statements).map Span.position).Pairwise (· ≤ ·) ∧
      List.Forall₂ Token.StandsFor (ts.filter fun t => t.kind.isTerminal) (terminalsOfStmts p.statements) := by
  refine ⟨(spans_follow_program parsed).inOrder (positions_inOrder read), ?_⟩
  obtain ⟨body, tokens, result⟩ := exists_phrase parsed
  have lexed := isLexed_of_tokenize read
  rw [← tokens] at lexed
  rw [← tokens, ← result]
  exact body.standFor lexed

/-- The tokens of `x = -f(0 - y,`, with the rest of the call on the next line. -/
def signedCall : List Token :=
  [⟨⟨.identifier, "x"⟩, ⟨1, 1, 2⟩⟩, ⟨⟨.assign, "="⟩, ⟨1, 3, 4⟩⟩, ⟨⟨.minus, "-"⟩, ⟨1, 5, 6⟩⟩,
   ⟨⟨.identifier, "f"⟩, ⟨1, 6, 7⟩⟩, ⟨⟨.openParen, "("⟩, ⟨1, 7, 8⟩⟩, ⟨⟨.number, "0"⟩, ⟨1, 8, 9⟩⟩,
   ⟨⟨.minus, "-"⟩, ⟨1, 10, 11⟩⟩, ⟨⟨.identifier, "y"⟩, ⟨1, 12, 13⟩⟩, ⟨⟨.comma, ","⟩, ⟨1, 13, 14⟩⟩,
   ⟨⟨.string, "a"⟩, ⟨2, 2, 5⟩⟩, ⟨⟨.closeParen, ")"⟩, ⟨2, 5, 6⟩⟩, ⟨⟨.semicolon, ";"⟩, ⟨2, 6, 7⟩⟩]

/-- Of the two noughts one is in the text. -/
theorem nodes_follow_source_signedCall :
    ∃ p, tokenize "x = -f(0 - y,\n 'a');" = .ok signedCall ∧ program signedCall = .ok p ∧
      (spansOfStmts p.statements).length = 11 ∧ (terminalsOfStmts p.statements).length = 5 ∧
      ((spansOfStmts p.statements).map Span.position).Pairwise (· ≤ ·) ∧
      List.Forall₂ Token.StandsFor (signedCall.filter fun t => t.kind.isTerminal)
        (terminalsOfStmts p.statements) := by
  have read : tokenize "x = -f(0 - y,\n 'a');" = .ok signedCall := by decide +kernel
  have parsed : ∃ p, program signedCall = .ok p ∧ (spansOfStmts p.statements).length = 11 ∧
      (terminalsOfStmts p.statements).length = 5 := ⟨_, by cbv, by cbv, by cbv⟩
  obtain ⟨p, hp, nodes, leaves⟩ := parsed
  exact ⟨p, read, hp, nodes, leaves, nodes_follow_source read hp⟩

end Grammar

end Slate
