import Mathlib
import Slate.Proofs.Format.Text
import Slate.Proofs.Tree.Erase

/-!
# What is written is read back

The lexemes of a tree have a derivation, and it stands for the same tree at other places. The level of
the grammar that a part belongs to is its precedence: an operand gets its parentheses exactly where
its own level is below the one that the operator asks for (`stands_parenthesize`).

* `stands_of_writable` — the derivation of an expression;
* `exists_phrase_of_writable` — the phrase of a statement.
-/

namespace Slate.Grammar

open Slate.Parser

/-! ## Tokens of lexemes -/

theorem kind_eq {t : Token} {x : Lexeme} (h : t.toLexeme = x) : t.kind = x.kind := by
  rw [← h]

theorem text_eq {t : Token} {x : Lexeme} (h : t.toLexeme = x) : t.text = x.text := by
  rw [← h]

/-- Tokens of a text, with these lexemes. -/
structure LexedAs (ts : List Token) (xs : List Lexeme) : Prop where
  lexed : ∀ t ∈ ts, t.IsLexed
  lexemes : ts.map Token.toLexeme = xs

namespace LexedAs

variable {ts : List Token} {xs ys : List Lexeme} {x : Lexeme}

theorem eq_nil (h : LexedAs ts []) : ts = [] := List.map_eq_nil_iff.1 h.lexemes

theorem cons (h : LexedAs ts (x :: xs)) :
    ∃ t us, ts = t :: us ∧ t.toLexeme = x ∧ LexedAs us xs := by
  obtain ⟨lexed, lexemes⟩ := h
  obtain ⟨t, us, rfl, ht, hu⟩ := List.map_eq_cons_iff.1 lexemes
  exact ⟨t, us, rfl, ht, (List.forall_mem_cons.1 lexed).2, hu⟩

theorem singleton (h : LexedAs ts [x]) : ∃ t, ts = [t] ∧ t.toLexeme = x := by
  obtain ⟨t, us, rfl, ht, hu⟩ := h.cons
  exact ⟨t, by rw [hu.eq_nil], ht⟩

theorem append (h : LexedAs ts (xs ++ ys)) :
    ∃ us vs, ts = us ++ vs ∧ LexedAs us xs ∧ LexedAs vs ys := by
  obtain ⟨lexed, lexemes⟩ := h
  obtain ⟨us, vs, rfl, hu, hv⟩ := List.map_eq_append_iff.1 lexemes
  obtain ⟨left, right⟩ := List.forall_mem_append.1 lexed
  exact ⟨us, vs, rfl, ⟨left, hu⟩, ⟨right, hv⟩⟩

/-- What stands between a first lexeme and a last one. -/
theorem enclosed {y : Lexeme} (h : LexedAs ts (x :: xs ++ [y])) :
    ∃ o us c, ts = o :: us ++ [c] ∧ o.toLexeme = x ∧ LexedAs us xs ∧ c.toLexeme = y := by
  obtain ⟨o, rest, rfl, ho, hr⟩ := LexedAs.cons h
  obtain ⟨us, cs, rfl, hu, hcs⟩ := hr.append
  obtain ⟨c, rfl, hc⟩ := hcs.singleton
  exact ⟨o, us, c, rfl, ho, hu, hc⟩

end LexedAs

/-! ## Levels -/

/-- The tokens have a derivation of some level, which stands for the expression. Level 1 are
expressions, level 2 terms, and all above factors. -/
def Stands (level : Nat) (ts : List Token) (e : Expr) : Prop :=
  match level with
  | 0 | 1 => ∃ d : Derivation .expr, d.tokens = ts ∧ e.Same d.result
  | 2 => ∃ d : Derivation .term, d.tokens = ts ∧ e.Same d.result
  | _ => ∃ d : Derivation .factor, d.tokens = ts ∧ e.Same d.result

theorem Stands.term {ts : List Token} {e : Expr} (h : Stands 3 ts e) : Stands 2 ts e := by
  obtain ⟨d, ht, he⟩ := h
  exact ⟨.ofFactor d, ht, he⟩

theorem Stands.expr {ts : List Token} {e : Expr} (h : Stands 2 ts e) : Stands 1 ts e := by
  obtain ⟨d, ht, he⟩ := h
  exact ⟨.ofTerm d, ht, he⟩

/-- What is of a level is of every lower one. -/
theorem Stands.of_le {m n : Nat} {ts : List Token} {e : Expr} (h : Stands n ts e) (hm : 1 ≤ m)
    (hmn : m ≤ n) (hn : n ≤ 3) : Stands m ts e := by
  obtain rfl | rfl | rfl : n = 1 ∨ n = 2 ∨ n = 3 := by omega
  · obtain rfl : m = 1 := by omega
    exact h
  · obtain rfl | rfl : m = 1 ∨ m = 2 := by omega
    · exact h.expr
    · exact h
  · obtain rfl | rfl | rfl : m = 1 ∨ m = 2 ∨ m = 3 := by omega
    · exact h.term.expr
    · exact h.term
    · exact h

theorem stands_of_atom {ts : List Token} {e : Expr} {d : Derivation .atom} (ht : d.tokens = ts)
    (he : e.Same d.result) : Stands 3 ts e :=
  ⟨.ofAtom d, ht, he⟩

/-- The level of an expression: that of its operator, or the highest. -/
def levelOf (e : Expr) : Nat := e.looseness?.getD 3

theorem levelOf_le (e : Expr) : 1 ≤ levelOf e ∧ levelOf e ≤ 3 := by
  unfold levelOf Expr.looseness?
  cases e with
  | binary op =>
    dsimp only
    split
    · exact ⟨by decide, by decide⟩
    · cases op <;> exact ⟨by decide, by decide⟩
  | _ => simp

/-- The lexemes of an expression are read as it, at the level of its operator. -/
def StandsAlone (e : Expr) : Prop := ∀ ts, LexedAs ts e.lexemes → Stands (levelOf e) ts e

theorem StandsAlone.expr {e : Expr} (h : StandsAlone e) {ts : List Token}
    (ht : LexedAs ts e.lexemes) : Stands 1 ts e :=
  (h ts ht).of_le (Nat.le_refl 1) (levelOf_le e).1 (levelOf_le e).2

/-- An operand has its parentheses where its own level is too low. -/
theorem StandsAlone.parenthesize {e : Expr} {level : Nat} {needed : Nat → Bool} {ts : List Token}
    (h : StandsAlone e) (hl : 1 ≤ level ∧ level ≤ 3)
    (hneed : ∀ p, e.looseness? = some p → needed p = false → level ≤ p)
    (ht : LexedAs ts (parenthesizeLexemes e needed e.lexemes)) : Stands level ts e := by
  rw [parenthesizeLexemes] at ht
  split at ht
  · -- in parentheses an expression of any level is an atom
    obtain ⟨o, us, c, rfl, ho, hu, hc⟩ := ht.enclosed
    obtain ⟨d, hd, he⟩ := h.expr hu
    refine (stands_of_atom (d := .group ⟨o, kind_eq ho⟩ d ⟨c, kind_eq hc⟩) ?_ he).of_le hl.1 hl.2
      (Nat.le_refl 3)
    rw [Derivation.tokens, hd]
  · next plain =>
    refine (h ts ht).of_le hl.1 ?_ (levelOf_le e).2
    rw [levelOf]
    cases hp : e.looseness? with
    | none => exact hl.2
    | some p =>
      rw [hp, Option.any_some] at plain
      exact hneed p hp (Bool.eq_false_iff.2 plain)

/-! ## Expressions -/

theorem operator_lexeme (op : BinaryOp) : operator? op.lexeme.kind = some op := by
  cases op <;> rfl

/-- Two operands of the right levels with an operator between them. -/
theorem stands_operation {op : BinaryOp} {left right : Expr} {ls rs : List Token} {sign : Token}
    (s : Span) (hw : left.Writable) (lexed : ∀ t ∈ ls, t.IsLexed)
    (hl : Stands op.precedence ls left) (hr : Stands (op.precedence + 1) rs right)
    (hs : sign.toLexeme = op.lexeme) :
    Stands op.precedence (ls ++ sign :: rs) (.binary op left right s) := by
  have writes : operator? sign.kind = some op := by
    rw [kind_eq hs]
    exact operator_lexeme op
  have level : op.precedence = 1 ∨ op.precedence = 2 := by cases op <;> decide
  rcases level with binds | binds
  · rw [binds] at hl hr ⊢
    obtain ⟨l, rfl, hl⟩ := hl
    obtain ⟨r, rfl, hr⟩ := hr
    have plain := (l.isWritable lexed).not_isNegation op r.result (.cover l.place r.place)
    refine ⟨.sum l ⟨sign, op, writes, binds⟩ r, rfl, ?_⟩
    exact .binary hl hr ((hw.not_isNegation op right s).trans plain.symm)
  · rw [binds] at hl hr ⊢
    obtain ⟨l, rfl, hl⟩ := hl
    obtain ⟨r, rfl, hr⟩ := hr
    have plain := (l.isWritable lexed).not_isNegation op r.result (.cover l.place r.place)
    refine ⟨.product l ⟨sign, op, writes, binds⟩ r, rfl, ?_⟩
    exact .binary hl hr ((hw.not_isNegation op right s).trans plain.symm)

/-- Lexemes with commas between them are those of arguments, if each part is an expression. -/
theorem exists_arguments {es : List Expr} {ts : List Token} (hne : es ≠ [])
    (h : ∀ e ∈ es, StandsAlone e)
    (ht : LexedAs ts ([Lexeme.comma].intercalate (es.map Expr.lexemes))) :
    ∃ d : Derivation .arguments, d.tokens = ts ∧ SameExprs es d.result := by
  induction es generalizing ts with
  | nil => exact absurd rfl hne
  | cons e es ih =>
    have first := h e List.mem_cons_self
    cases es with
    | nil =>
      obtain ⟨d, hd, he⟩ := first.expr (by simpa using ht)
      exact ⟨.last d, hd, he.cons .nil⟩
    | cons e' es =>
      rw [List.map_cons, List.map_cons, List.intercalate_cons_cons, List.append_assoc] at ht
      obtain ⟨us, vs, rfl, hu, hv⟩ := ht.append
      obtain ⟨c, ws, rfl, hc, hw⟩ := hv.cons
      obtain ⟨d, rfl, he⟩ := first.expr hu
      obtain ⟨ds, rfl, hes⟩ := ih (List.cons_ne_nil _ _)
        (fun a ha => h a (List.mem_cons_of_mem _ ha)) hw
      exact ⟨.more d ⟨c, kind_eq hc⟩ ds, rfl, he.cons hes⟩

theorem stands_of_writable {e : Expr} (h : e.Writable) : StandsAlone e := by
  induction h with
  | number d s h hs =>
    intro ts ht
    rw [Expr.lexemes] at ht
    obtain ⟨t, rfl, hx⟩ := ht.singleton
    have read : Decimal.ofString? t.text = .ok d := by
      rw [text_eq hx]
      exact Decimal.ofString?_toString_of_not_negative h
    exact stands_of_atom (d := .leaf (.number ⟨t, kind_eq hx⟩ d read)) rfl (.literal _ _ _)
  | string text s =>
    intro ts ht
    rw [Expr.lexemes] at ht
    obtain ⟨t, rfl, hx⟩ := ht.singleton
    refine stands_of_atom (d := .leaf (.string ⟨t, kind_eq hx⟩)) rfl ?_
    have same : t.text = text := text_eq hx
    rw [Derivation.result, Leaf.result, same]
    exact .literal _ _ _
  | boolean b s =>
    intro ts ht
    rw [Expr.lexemes] at ht
    obtain ⟨t, rfl, hx⟩ := ht.singleton
    have kind : t.kind = .boolean := by
      rw [kind_eq hx]
      cases b <;> rfl
    exact stands_of_atom (d := .leaf (.boolean ⟨t, kind⟩ b (text_eq hx))) rfl (.literal _ _ _)
  | name x h =>
    intro ts ht
    rw [Expr.lexemes] at ht
    obtain ⟨t, rfl, hx⟩ := ht.singleton
    have kind : t.kind = .identifier := (kind_eq hx).trans h.2
    refine stands_of_atom (d := .leaf (.name ⟨t, kind⟩)) rfl ?_
    have same : t.text = x.name := text_eq hx
    rw [Derivation.result, Leaf.result, same]
    exact .identifier _ _ _
  | @sign operand h place s ih =>
    intro ts ht
    rw [lexemes_negation] at ht
    obtain ⟨t, us, rfl, hm, hu⟩ := ht.cons
    -- behind a sign every operation has its parentheses, so the operand is a factor
    have bare : Stands 3 us operand := by
      apply ih.parenthesize ⟨by decide, by decide⟩ _ hu
      intro p _ h
      cases h
    obtain ⟨d, rfl, he⟩ := bare
    have level : levelOf (.negation place operand s) = 3 := by
      rw [levelOf, looseness?_negation]
      rfl
    rw [level]
    refine ⟨.sign ⟨t, kind_eq hm⟩ d, rfl, ?_⟩
    rw [Derivation.result]
    exact he.negation _ _ _ _
  | @operation op left right hl hr s ihl ihr =>
    intro ts ht
    have plain := hl.not_isNegation op right s
    rw [Expr.lexemes, plain, if_neg Bool.false_ne_true] at ht
    obtain ⟨us, vs, rfl, hu, hv⟩ := ht.append
    obtain ⟨sign, ws, rfl, hs, hw⟩ := hv.cons
    have bound : 1 ≤ op.precedence ∧ op.precedence ≤ 2 := by cases op <;> decide
    have level : levelOf (.binary op left right s) = op.precedence := by
      rw [levelOf, Expr.looseness?, plain, if_neg Bool.false_ne_true]
      rfl
    rw [level]
    -- operations group to the left: only the right operand has to bind more
    apply stands_operation s hl hu.lexed _ _ hs
    · apply ihl.parenthesize ⟨bound.1, by omega⟩ _ hu
      intro p _ hp
      simpa using hp
    · apply ihr.parenthesize ⟨by omega, by omega⟩ _ hw
      intro p _ hp
      exact Nat.lt_of_not_le (by simpa using hp)
  | @call callee h arguments ha s ih =>
    intro ts ht
    rw [Expr.lexemes, lexemesOfExprs_eq_map] at ht
    obtain ⟨n, us, rfl, hn, hu⟩ := ht.cons
    obtain ⟨o, inner, c, rfl, ho, hi, hc⟩ := LexedAs.enclosed hu
    have kind : n.kind = .identifier := (kind_eq hn).trans h.2
    have same : n.text = callee.name := text_eq hn
    by_cases hne : arguments = []
    · rw [hne, List.map_nil, List.intercalate_nil] at hi
      rw [hi.eq_nil, hne]
      refine stands_of_atom (d := .call ⟨n, kind⟩ ⟨o, kind_eq ho⟩ ⟨c, kind_eq hc⟩) rfl ?_
      rw [Derivation.result, same]
      exact .call .nil _ _ _ _ _
    · obtain ⟨d, rfl, hd⟩ := exists_arguments hne ih hi
      refine stands_of_atom (d := .callWith ⟨n, kind⟩ ⟨o, kind_eq ho⟩ d ⟨c, kind_eq hc⟩) rfl ?_
      rw [Derivation.result, same]
      exact .call hd _ _ _ _ _

theorem exists_accepted {e : Expr} (h : e.Writable) {ts : List Token}
    (ht : LexedAs ts e.lexemes) : ∃ a : Accepted, a.tokens = ts ∧ e.Same a.result := by
  obtain ⟨d, rfl, he⟩ := (stands_of_writable h).expr ht
  exact ⟨⟨d.tokens, d.result, expression_tokens d⟩, rfl, he⟩

/-! ## Statements -/

theorem type?_ofWord (type : Ty) : type? (TokenKind.ofWord type.keyword) = some type := by
  cases type <;> rfl

theorem declarationKind?_ofWord (kind : DeclarationKind) :
    declarationKind? (TokenKind.ofWord kind.keyword) = some kind := by
  cases kind <;> rfl

theorem exists_variable {d : Declarator} (h : d.Writable) {ts : List Token}
    (ht : LexedAs ts d.lexemes) : ∃ v : Variable, v.tokens = ts ∧ d.Same v.result := by
  obtain ⟨id, type, init, s⟩ := d
  rw [Declarator.lexemes] at ht
  obtain ⟨name, us, rfl, hn, hu⟩ := ht.cons
  obtain ⟨colon, vs, rfl, hc, hv⟩ := hu.cons
  obtain ⟨word, is, rfl, hw, hi⟩ := hv.cons
  have kind : name.kind = .identifier := (kind_eq hn).trans h.name.2
  have same : name.text = id.name := text_eq hn
  have writes : type? word.kind = some type := by
    rw [kind_eq hw]
    exact type?_ofWord type
  cases init with
  | none =>
    rw [hi.eq_nil]
    refine ⟨⟨⟨name, kind⟩, ⟨colon, kind_eq hc⟩, word, type, writes, none⟩, rfl, ?_⟩
    rw [Variable.result, nameOf, same]
    exact .of_init ⟨rfl, rfl⟩
  | some e =>
    obtain ⟨assign, ws, rfl, ha, hw⟩ := hi.cons
    obtain ⟨a, rfl, he⟩ := exists_accepted (h.init e rfl) hw
    refine ⟨⟨⟨name, kind⟩, ⟨colon, kind_eq hc⟩, word, type, writes,
      some (⟨assign, kind_eq ha⟩, a)⟩, rfl, ?_⟩
    rw [Variable.result, nameOf, same]
    exact .of_init ⟨congrArg some he.1, congrArg some he.2⟩

theorem exists_variables {ds : List Declarator} (hne : ds ≠ []) (h : ∀ d ∈ ds, d.Writable)
    {ts : List Token}
    (ht : LexedAs ts ([Lexeme.comma].intercalate (ds.map Declarator.lexemes))) :
    ∃ vs : Variables, vs.tokens = ts ∧ SameDeclarators ds vs.result := by
  induction ds generalizing ts with
  | nil => exact absurd rfl hne
  | cons d ds ih =>
    have first := h d List.mem_cons_self
    cases ds with
    | nil =>
      obtain ⟨v, hv, hd⟩ := exists_variable first (by simpa using ht)
      exact ⟨.last v, hv, hd.cons .nil⟩
    | cons d' ds =>
      rw [List.map_cons, List.map_cons, List.intercalate_cons_cons, List.append_assoc] at ht
      obtain ⟨us, vs, rfl, hu, hv⟩ := ht.append
      obtain ⟨c, ws, rfl, hc, hw⟩ := hv.cons
      obtain ⟨v, rfl, hd⟩ := exists_variable first hu
      obtain ⟨rest, rfl, hds⟩ := ih (List.cons_ne_nil _ _)
        (fun a ha => h a (List.mem_cons_of_mem _ ha)) hw
      exact ⟨.more v ⟨c, kind_eq hc⟩ rest, rfl, hd.cons hds⟩

theorem exists_action {e : Expr} (h : e.WritableAction) {ts : List Token}
    (ht : LexedAs ts e.lexemes) : ∃ a : Action, a.tokens = ts ∧ e.Same a.result := by
  cases h with
  | expression h =>
    obtain ⟨a, rfl, he⟩ := exists_accepted h ht
    exact ⟨.expression a, rfl, he⟩
  | assignment target h hv s =>
    rw [Expr.lexemes] at ht
    obtain ⟨name, us, rfl, hn, hu⟩ := ht.cons
    obtain ⟨assign, vs, rfl, hs, hvs⟩ := hu.cons
    obtain ⟨a, rfl, he⟩ := exists_accepted hv hvs
    have kind : name.kind = .identifier := (kind_eq hn).trans h.2
    have same : name.text = target.name := text_eq hn
    refine ⟨.assignment ⟨name, kind⟩ ⟨assign, kind_eq hs⟩ a, rfl, ?_⟩
    rw [Action.result, nameOf, same]
    exact .assignment he _ _ _ _ _

/-- The lexemes of a statement are those of a phrase, which stands for it. -/
def HasPhrase (s : Stmt) : Prop :=
  ∀ ts, LexedAs ts s.lexemes → ∃ p : Phrase .statement, p.tokens = ts ∧ s.Same p.result

/-- Statements that have phrases make a body. -/
theorem exists_body_of_lexemes {ss : List Stmt} (h : ∀ s ∈ ss, HasPhrase s) {ts : List Token}
    (ht : LexedAs ts (lexemesOfStmts ss)) :
    ∃ b : Phrase .body, b.tokens = ts ∧ SameStmts ss b.result := by
  induction ss generalizing ts with
  | nil =>
    rw [lexemesOfStmts] at ht
    exact ⟨.done, ht.eq_nil.symm, .nil⟩
  | cons s ss ih =>
    rw [lexemesOfStmts] at ht
    obtain ⟨us, vs, rfl, hu, hv⟩ := ht.append
    obtain ⟨p, rfl, hp⟩ := h s List.mem_cons_self us hu
    obtain ⟨b, rfl, hb⟩ := ih (fun s hs => h s (List.mem_cons_of_mem _ hs)) hv
    exact ⟨.more p b, rfl, hp.cons hb⟩

/-- A body in braces makes a block, whatever follows. -/
theorem exists_block_of_lexemes {ss : List Stmt} (h : ∀ s ∈ ss, HasPhrase s) {ts : List Token}
    {xs : List Lexeme}
    (ht : LexedAs ts (.openBrace :: (lexemesOfStmts ss ++ .closeBrace :: xs))) :
    ∃ (p : Phrase .block) (us : List Token), ts = p.tokens ++ us ∧ LexedAs us xs ∧
      SameStmts ss p.result := by
  obtain ⟨o, us, rfl, ho, hu⟩ := ht.cons
  obtain ⟨inner, vs, rfl, hi, hv⟩ := hu.append
  obtain ⟨c, rest, rfl, hc, hr⟩ := hv.cons
  obtain ⟨b, rfl, hb⟩ := exists_body_of_lexemes h hi
  refine ⟨.block ⟨o, kind_eq ho⟩ b ⟨c, kind_eq hc⟩, rest, ?_, hr, hb⟩
  simp [Phrase.tokens]

theorem exists_test {x : Identifier} (h : IsName x.name) {ts : List Token} {xs : List Lexeme}
    (ht : LexedAs ts (.ofWord "if" :: .openParen :: .ofWord x.name :: .closeParen :: xs)) :
    ∃ (test : Test) (us : List Token), ts = test.tokens ++ us ∧ LexedAs us xs ∧
      nameOf test.name = ⟨x.name, test.name.val.span⟩ := by
  obtain ⟨ifWord, us, rfl, hi, hu⟩ := ht.cons
  obtain ⟨o, vs, rfl, ho, hv⟩ := hu.cons
  obtain ⟨name, ws, rfl, hn, hw⟩ := hv.cons
  obtain ⟨c, rest, rfl, hc, hr⟩ := hw.cons
  have kind : name.kind = .identifier := (kind_eq hn).trans h.2
  refine ⟨⟨⟨ifWord, kind_eq hi⟩, ⟨o, kind_eq ho⟩, ⟨name, kind⟩, ⟨c, kind_eq hc⟩⟩, rest, rfl, hr, ?_⟩
  rw [nameOf, text_eq hn]
  rfl

theorem exists_phrase_of_writable {s : Stmt} (h : s.Writable) : HasPhrase s := by
  induction h with
  | @declaration kind ds hne h s =>
    intro ts ht
    rw [Stmt.lexemes] at ht
    obtain ⟨keyword, vars, semicolon, rfl, hk, hv, hs⟩ := LexedAs.enclosed ht
    have writes : declarationKind? keyword.kind = some kind := by
      rw [kind_eq hk]
      exact declarationKind?_ofWord kind
    obtain ⟨vs, rfl, hd⟩ := exists_variables hne h hv
    exact ⟨.declaration ⟨keyword, kind, writes, vs⟩ ⟨semicolon, kind_eq hs⟩, rfl,
      .declaration hd _ _ _⟩
  | @action e h s =>
    intro ts ht
    rw [Stmt.lexemes] at ht
    obtain ⟨us, ws, rfl, hu, hw⟩ := ht.append
    obtain ⟨semicolon, rfl, hs⟩ := hw.singleton
    obtain ⟨a, rfl, he⟩ := exists_action h hu
    exact ⟨.action a ⟨semicolon, kind_eq hs⟩, rfl, .expression he _ _⟩
  | @conditional test h consequent alternate hc ha s ihc iha =>
    intro ts ht
    rw [Stmt.lexemes] at ht
    obtain ⟨head, us, rfl, hu, same⟩ := exists_test h ht
    obtain ⟨p, vs, rfl, hv, hp⟩ := exists_block_of_lexemes ihc hu
    -- an empty alternate is not written, and is what a conditional without `else` stands for
    cases hempty : alternate.isEmpty with
    | true =>
      rw [hempty, if_pos rfl] at hv
      rw [hv.eq_nil, List.append_nil, List.isEmpty_iff.1 hempty]
      refine ⟨.conditional head p, rfl, ?_⟩
      rw [Phrase.result, same]
      exact .conditional hp .nil _ _ _ _ _
    | false =>
      rw [hempty, if_neg Bool.false_ne_true] at hv
      obtain ⟨word, ws, rfl, hw, hws⟩ := hv.cons
      obtain ⟨q, ws', rfl, hq, hsame⟩ := exists_block_of_lexemes iha hws
      rw [hq.eq_nil, List.append_nil]
      refine ⟨.conditionalElse head p ⟨word, kind_eq hw⟩ q, rfl, ?_⟩
      rw [Phrase.result, same]
      exact .conditional hp hsame _ _ _ _ _

/-! ## Programs -/

/-- The text that the formatter writes for a program of some text is a text of the same program, in
every style: the trees differ in their spans only, and the same operations are signs. -/
theorem format_reads_back (style : Style) {source : String} {ts : List Token} {p : Program}
    (hts : tokenize source = .ok ts) (hp : program ts = .ok p) :
    ∃ ts' p', tokenize (format style p) = .ok ts' ∧ program ts' = .ok p' ∧
      p'.erase = p.erase ∧ p'.negations = p.negations := by
  have writable := writable_of_program (isLexed_of_tokenize hts) hp
  obtain ⟨ts', hts', lexemes⟩ := tokenize_format writable style
  obtain ⟨b, rfl, same⟩ := exists_body_of_lexemes
    (fun s hs => exists_phrase_of_writable (writable s hs)) ⟨isLexed_of_tokenize hts', lexemes⟩
  refine ⟨_, ⟨b.result⟩, hts', program_tokens b, ?_, same.2.symm⟩
  rw [Program.erase, Program.erase, same.1]

/-- The tokens of `-(1 - x);`. -/
def signedDifference : List Token :=
  [⟨⟨.minus, "-"⟩, ⟨1, 1, 2⟩⟩, ⟨⟨.openParen, "("⟩, ⟨1, 2, 3⟩⟩, ⟨⟨.number, "1"⟩, ⟨1, 3, 4⟩⟩,
   ⟨⟨.minus, "-"⟩, ⟨1, 5, 6⟩⟩, ⟨⟨.identifier, "x"⟩, ⟨1, 7, 8⟩⟩, ⟨⟨.closeParen, ")"⟩, ⟨1, 8, 9⟩⟩,
   ⟨⟨.semicolon, ";"⟩, ⟨1, 9, 10⟩⟩]

theorem format_reads_back_signedDifference :
    ∃ p, tokenize "-(1 - x);" = .ok signedDifference ∧ program signedDifference = .ok p ∧
      ∃ ts' p', tokenize (format default p) = .ok ts' ∧ program ts' = .ok p' ∧
        p'.erase = p.erase ∧ p'.negations = p.negations := by
  have tokens_ : (tokenize "-(1 - x);").toOption = some signedDifference := by decide +kernel
  have read : ∃ p, program signedDifference = .ok p := ⟨_, by cbv⟩
  obtain ⟨p, hp⟩ := read
  have hts := toOption_eq_some.1 tokens_
  exact ⟨p, hts, hp, format_reads_back default hts hp⟩

end Slate.Grammar
