import Slate.Proofs.Format.Parser

/-!
# Derivations do not see the layout

Tokens of a text that have the lexemes of a derivation have a derivation of their own, and both stand for the
same tree at other places. That includes the signs: the nought of a sign has an empty span and the tokens of a
text have not (`Token.IsLexed`), so on neither side a nought of the text passes for one of a sign.

* `Derivation.exists_same` — expressions and arguments;
* `Phrase.exists_same` — statements, blocks and bodies;
* `exists_same_program` — so which program some tokens are is a matter of their lexemes.
-/

namespace Slate

/-- An operation between operands of a text is no sign, so it is the same as another if its operands are. -/
theorem Expr.Writable.same_operation {left left' right right' : Expr} (hw : left.Writable)
    (hw' : left'.Writable) (hl : left.Same left') (hr : right.Same right') (op : BinaryOp)
    (s s' : Span) : (Expr.binary op left right s).Same (.binary op left' right' s') :=
  .binary hl hr ((hw.not_isNegation op right s).trans (hw'.not_isNegation op right' s').symm)

namespace Grammar

open Slate.Parser

/-! ## Tokens laid out anew -/

/-- Tokens of two texts with the same lexemes. -/
structure Relaid (ts us : List Token) : Prop where
  lexed : ∀ t ∈ ts, t.IsLexed
  relaid : LexedAs us (ts.map Token.toLexeme)

namespace Relaid

variable {t t' : Token} {ts ts' us : List Token}

theorem eq_nil (h : Relaid [] us) : us = [] := h.relaid.eq_nil

theorem cons (h : Relaid (t :: ts) us) :
    ∃ u vs, us = u :: vs ∧ u.toLexeme = t.toLexeme ∧ Relaid ts vs := by
  obtain ⟨u, vs, rfl, hu, hv⟩ := h.relaid.cons
  exact ⟨u, vs, rfl, hu, (List.forall_mem_cons.1 h.lexed).2, hv⟩

theorem singleton (h : Relaid [t] us) : ∃ u, us = [u] ∧ u.toLexeme = t.toLexeme :=
  h.relaid.singleton

theorem append (h : Relaid (ts ++ ts') us) :
    ∃ vs ws, us = vs ++ ws ∧ Relaid ts vs ∧ Relaid ts' ws := by
  obtain ⟨lexed, relaid⟩ := h
  rw [List.map_append] at relaid
  obtain ⟨vs, ws, rfl, hv, hw⟩ := relaid.append
  obtain ⟨left, right⟩ := List.forall_mem_append.1 lexed
  exact ⟨vs, ws, rfl, ⟨left, hv⟩, ⟨right, hw⟩⟩

/-- What stands on both sides of a token. -/
theorem around (h : Relaid (ts ++ t :: ts') us) :
    ∃ vs u ws, us = vs ++ u :: ws ∧ Relaid ts vs ∧ u.toLexeme = t.toLexeme ∧ Relaid ts' ws := by
  obtain ⟨vs, more, rfl, hv, hm⟩ := h.append
  obtain ⟨u, ws, rfl, hu, hw⟩ := hm.cons
  exact ⟨vs, u, ws, rfl, hv, hu, hw⟩

/-- What stands between a first token and a last one. -/
theorem enclosed (h : Relaid (t :: ts ++ [t']) us) :
    ∃ u vs u', us = u :: vs ++ [u'] ∧ u.toLexeme = t.toLexeme ∧ Relaid ts vs ∧
      u'.toLexeme = t'.toLexeme := by
  obtain ⟨front, u', back, rfl, hf, hu', hb⟩ := h.around
  obtain ⟨u, vs, rfl, hu, hv⟩ := hf.cons
  rw [hb.eq_nil]
  exact ⟨u, vs, u', rfl, hu, hv, hu'⟩

end Relaid

namespace TokenOf

variable {kind : TokenKind} {t' : Token}

/-- A token of some kind, laid out anew. -/
def relaid (t : TokenOf kind) (h : t'.toLexeme = t.val.toLexeme) : TokenOf kind :=
  ⟨t', (kind_eq h).trans t.property⟩

theorem text_relaid (t : TokenOf kind) (h : t'.toLexeme = t.val.toLexeme) :
    (t.relaid h).val.text = t.val.text :=
  text_eq h

end TokenOf

/-- An operator, laid out anew. -/
def Operator.relaid {precedence : Nat} (op : Operator precedence) {t : Token}
    (h : t.toLexeme = op.sign.toLexeme) : Operator precedence :=
  { op with sign := t, writes := (congrArg operator? (kind_eq h)).trans op.writes }

/-! ## Expressions -/

theorem Leaf.exists_same (l : Leaf) {t : Token} (h : t.toLexeme = l.token.toLexeme) :
    ∃ l' : Leaf, l'.token = t ∧ l.result.Same l'.result := by
  cases l with
  | number u d hd =>
    have read : Decimal.ofString? t.text = .ok d := (congrArg Decimal.ofString? (text_eq h)).trans hd
    exact ⟨.number (u.relaid h) d read, rfl, .literal _ _ _⟩
  | string u =>
    refine ⟨.string (u.relaid h), rfl, ?_⟩
    rw [result, result, u.text_relaid h]
    exact .literal _ _ _
  | boolean u b hb => exact ⟨.boolean (u.relaid h) b ((text_eq h).trans hb), rfl, .literal _ _ _⟩
  | name u =>
    refine ⟨.name (u.relaid h), rfl, ?_⟩
    rw [result, result, u.text_relaid h]
    exact .identifier _ _ _

namespace Derivation

/-- Both stand for the same tree. -/
def Same {n : Nonterminal} (d d' : Derivation n) : Prop :=
  match n, d, d' with
  | .arguments, d, d' => SameExprs d.result d'.result
  | .expr, d, d' | .term, d, d' | .factor, d, d' | .atom, d, d' => Expr.Same d.result d'.result

theorem exists_same {n : Nonterminal} (d : Derivation n) {us : List Token} (h : Relaid d.tokens us) :
    ∃ d' : Derivation n, d'.tokens = us ∧ d.Same d' := by
  induction d generalizing us with
  | ofTerm t ih =>
    obtain ⟨t', rfl, same⟩ := ih h
    exact ⟨.ofTerm t', rfl, same⟩
  | ofFactor f ih =>
    obtain ⟨f', rfl, same⟩ := ih h
    exact ⟨.ofFactor f', rfl, same⟩
  | ofAtom a ih =>
    obtain ⟨a', rfl, same⟩ := ih h
    exact ⟨.ofAtom a', rfl, same⟩
  | sum left op right ihl ihr =>
    obtain ⟨ls, t, rs, rfl, hl, ht, hr⟩ := h.around
    obtain ⟨l, rfl, left_⟩ := ihl hl
    obtain ⟨r, rfl, right_⟩ := ihr hr
    have writable : left.result.Writable := left.isWritable hl.lexed
    exact ⟨.sum l (op.relaid ht) r, rfl,
      writable.same_operation (l.isWritable hl.relaid.lexed) left_ right_ _ _ _⟩
  | product left op right ihl ihr =>
    obtain ⟨ls, t, rs, rfl, hl, ht, hr⟩ := h.around
    obtain ⟨l, rfl, left_⟩ := ihl hl
    obtain ⟨r, rfl, right_⟩ := ihr hr
    have writable : left.result.Writable := left.isWritable hl.lexed
    exact ⟨.product l (op.relaid ht) r, rfl,
      writable.same_operation (l.isWritable hl.relaid.lexed) left_ right_ _ _ _⟩
  | sign minus operand ih =>
    obtain ⟨m, vs, rfl, hm, hv⟩ := h.cons
    obtain ⟨o, rfl, same⟩ := ih hv
    exact ⟨.sign (minus.relaid hm) o, rfl, same.negation _ _ _ _⟩
  | leaf l =>
    obtain ⟨t, rfl, ht⟩ := h.singleton
    obtain ⟨l', rfl, same⟩ := l.exists_same ht
    exact ⟨.leaf l', rfl, same⟩
  | call callee opening closing =>
    obtain ⟨n, vs, rfl, hn, hv⟩ := h.cons
    obtain ⟨o, ws, rfl, ho, hw⟩ := hv.cons
    obtain ⟨c, rfl, hc⟩ := hw.singleton
    refine ⟨.call (callee.relaid hn) (opening.relaid ho) (closing.relaid hc), rfl, ?_⟩
    rw [Same, result, result, callee.text_relaid hn]
    exact .call .nil _ _ _ _ _
  | callWith callee opening arguments closing ih =>
    rw [tokens, List.cons_append] at h
    obtain ⟨n, vs, rfl, hn, hv⟩ := h.cons
    obtain ⟨o, inner, c, rfl, ho, hi, hc⟩ := hv.enclosed
    obtain ⟨as, rfl, parts⟩ := ih hi
    refine ⟨.callWith (callee.relaid hn) (opening.relaid ho) as (closing.relaid hc), rfl, ?_⟩
    rw [Same, result, result, callee.text_relaid hn]
    exact .call parts _ _ _ _ _
  | group opening inner closing ih =>
    obtain ⟨o, vs, c, rfl, ho, hv, hc⟩ := h.enclosed
    obtain ⟨e, rfl, same⟩ := ih hv
    exact ⟨.group (opening.relaid ho) e (closing.relaid hc), rfl, same⟩
  | last e ih =>
    obtain ⟨e', rfl, same⟩ := ih h
    exact ⟨.last e', rfl, Expr.Same.cons same .nil⟩
  | more e comma rest ihe ihr =>
    obtain ⟨vs, c, ws, rfl, hv, hc, hw⟩ := h.around
    obtain ⟨e', rfl, first⟩ := ihe hv
    obtain ⟨rest', rfl, others⟩ := ihr hw
    exact ⟨.more e' (comma.relaid hc) rest', rfl, Expr.Same.cons first others⟩

end Derivation

theorem Accepted.exists_same (a : Accepted) {us : List Token} (h : Relaid a.tokens us) :
    ∃ a' : Accepted, a'.tokens = us ∧ a.result.Same a'.result := by
  obtain ⟨d, ht, hr⟩ := exists_derivation a.read
  rw [← ht] at h
  obtain ⟨d', rfl, same⟩ := d.exists_same h
  rw [← hr]
  exact ⟨⟨d'.tokens, d'.result, expression_tokens d'⟩, rfl, same⟩

/-! ## Declarations and actions -/

theorem Variable.exists_same (v : Variable) {us : List Token} (h : Relaid v.tokens us) :
    ∃ v' : Variable, v'.tokens = us ∧ v.result.Same v'.result := by
  obtain ⟨name, colon, word, type, writes, init⟩ := v
  obtain ⟨n, vs, rfl, hn, hv⟩ := h.cons
  obtain ⟨c, ws, rfl, hc, hw⟩ := hv.cons
  obtain ⟨w, is, rfl, hword, hi⟩ := hw.cons
  have writes' : type? w.kind = some type := (congrArg type? (kind_eq hword)).trans writes
  rcases init with _ | ⟨assign, value⟩
  · rw [hi.eq_nil]
    refine ⟨⟨name.relaid hn, colon.relaid hc, w, type, writes', none⟩, rfl, ?_⟩
    rw [result, result, nameOf, nameOf, name.text_relaid hn]
    exact .of_init ⟨rfl, rfl⟩
  · obtain ⟨a, xs, rfl, ha, hx⟩ := hi.cons
    obtain ⟨e, rfl, same⟩ := value.exists_same hx
    refine ⟨⟨name.relaid hn, colon.relaid hc, w, type, writes', some (assign.relaid ha, e)⟩, rfl, ?_⟩
    rw [result, result, nameOf, nameOf, name.text_relaid hn]
    exact .of_init ⟨congrArg some same.1, congrArg some same.2⟩

theorem Variables.exists_same (vs : Variables) {us : List Token} (h : Relaid vs.tokens us) :
    ∃ vs' : Variables, vs'.tokens = us ∧ SameDeclarators vs.result vs'.result := by
  induction vs generalizing us with
  | last v =>
    obtain ⟨v', rfl, same⟩ := v.exists_same h
    exact ⟨.last v', rfl, same.cons .nil⟩
  | more v comma rest ih =>
    obtain ⟨xs, c, ys, rfl, hx, hc, hy⟩ := h.around
    obtain ⟨v', rfl, first⟩ := v.exists_same hx
    obtain ⟨rest', rfl, others⟩ := ih hy
    exact ⟨.more v' (comma.relaid hc) rest', rfl, first.cons others⟩

theorem Action.exists_same (a : Action) {us : List Token} (h : Relaid a.tokens us) :
    ∃ a' : Action, a'.tokens = us ∧ a.result.Same a'.result := by
  cases a with
  | expression e =>
    obtain ⟨e', rfl, same⟩ := e.exists_same h
    exact ⟨.expression e', rfl, same⟩
  | assignment target assign value =>
    obtain ⟨n, vs, rfl, hn, hv⟩ := h.cons
    obtain ⟨a, ws, rfl, ha, hw⟩ := hv.cons
    obtain ⟨e, rfl, same⟩ := value.exists_same hw
    refine ⟨.assignment (target.relaid hn) (assign.relaid ha) e, rfl, ?_⟩
    rw [result, result, nameOf, nameOf, target.text_relaid hn]
    exact .assignment same _ _ _ _ _

/-! ## Statements -/

theorem Test.exists_same (t : Test) {us : List Token} (h : Relaid t.tokens us) :
    ∃ t' : Test, t'.tokens = us ∧ t'.name.val.text = t.name.val.text := by
  obtain ⟨i, vs, rfl, hi, hv⟩ := h.cons
  obtain ⟨o, ws, rfl, ho, hw⟩ := hv.cons
  obtain ⟨n, xs, rfl, hn, hx⟩ := hw.cons
  obtain ⟨c, rfl, hc⟩ := hx.singleton
  exact ⟨⟨t.ifWord.relaid hi, t.opening.relaid ho, t.name.relaid hn, t.closing.relaid hc⟩, rfl,
    t.name.text_relaid hn⟩

namespace Phrase

/-- Both stand for the same statements. -/
def Same {c : Category} (p p' : Phrase c) : Prop :=
  match c, p, p' with
  | .statement, p, p' => Stmt.Same p.result p'.result
  | .block, p, p' | .body, p, p' => SameStmts p.result p'.result

theorem exists_same {c : Category} (p : Phrase c) {us : List Token} (h : Relaid p.tokens us) :
    ∃ p' : Phrase c, p'.tokens = us ∧ p.Same p' := by
  induction p generalizing us with
  | declaration d semicolon =>
    obtain ⟨keyword, kind, writes, vars⟩ := d
    obtain ⟨k, vs, s, rfl, hk, hv, hs⟩ := h.enclosed
    have writes' : declarationKind? k.kind = some kind :=
      (congrArg declarationKind? (kind_eq hk)).trans writes
    obtain ⟨vars', rfl, same⟩ := vars.exists_same hv
    exact ⟨.declaration ⟨k, kind, writes', vars'⟩ (semicolon.relaid hs), rfl, .declaration same _ _ _⟩
  | action a semicolon =>
    obtain ⟨vs, ws, rfl, hv, hw⟩ := h.append
    obtain ⟨s, rfl, hs⟩ := hw.singleton
    obtain ⟨a', rfl, same⟩ := a.exists_same hv
    exact ⟨.action a' (semicolon.relaid hs), rfl, .expression same _ _⟩
  | conditional test consequent ih =>
    obtain ⟨vs, ws, rfl, hv, hw⟩ := h.append
    obtain ⟨test', rfl, name⟩ := test.exists_same hv
    obtain ⟨p', rfl, same⟩ := ih hw
    refine ⟨.conditional test' p', rfl, ?_⟩
    rw [Same, result, result, nameOf, nameOf, name]
    exact .conditional same .nil _ _ _ _ _
  | conditionalElse test consequent elseWord alternate ihc iha =>
    obtain ⟨vs, ws, rfl, hv, hw⟩ := h.append
    obtain ⟨xs, e, ys, rfl, hx, he, hy⟩ := hw.around
    obtain ⟨test', rfl, name⟩ := test.exists_same hv
    obtain ⟨p', rfl, first⟩ := ihc hx
    obtain ⟨q', rfl, second⟩ := iha hy
    refine ⟨.conditionalElse test' p' (elseWord.relaid he) q', rfl, ?_⟩
    rw [Same, result, result, nameOf, nameOf, name]
    exact .conditional first second _ _ _ _ _
  | block opening body closing ih =>
    obtain ⟨o, vs, c, rfl, ho, hv, hc⟩ := h.enclosed
    obtain ⟨b, rfl, same⟩ := ih hv
    exact ⟨.block (opening.relaid ho) b (closing.relaid hc), rfl, same⟩
  | done => exact ⟨.done, h.eq_nil.symm, .nil⟩
  | more first rest ihf ihr =>
    obtain ⟨vs, ws, rfl, hv, hw⟩ := h.append
    obtain ⟨p', rfl, same⟩ := ihf hv
    obtain ⟨b', rfl, others⟩ := ihr hw
    exact ⟨.more p' b', rfl, Stmt.Same.cons same others⟩

end Phrase

/-! ## Programs -/

/-- Tokens of a text with the lexemes of a program are the same program at other places. -/
theorem exists_same_program {ts us : List Token} {p : Program} (h : Relaid ts us)
    (hp : program ts = .ok p) :
    ∃ q, program us = .ok q ∧ SameStmts p.statements q.statements := by
  obtain ⟨b, rfl, hb⟩ := exists_phrase hp
  obtain ⟨b', rfl, same⟩ := b.exists_same h
  refine ⟨⟨b'.result⟩, program_tokens b', ?_⟩
  rw [← hb]
  exact same

end Grammar

end Slate
