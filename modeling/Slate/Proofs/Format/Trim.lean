import Mathlib
import Slate.Proofs.Format.Behaviour
import Slate.Proofs.Format.Same
import Slate.Proofs.Token.Text

/-!
# To format a program only takes tokens away

What is written for a program of some text has the tokens of the text, in their order, but for parentheses and
for empty blocks behind `else` (`TrimsTo`). A number keeps its value and not its digits.

The formatter puts parentheses by the tree, and the tree does not know of any. So they have to be found in the
grammar: an operand that binds too little for its level can only have been a group (`TrimsAt`).

* `Derivation.trims` — the tokens of an expression, along its derivation;
* `Phrase.trims` — the tokens of a statement;
* `format_trims` — the tokens of a text. A program is written the same whichever of its texts it was read from,
  so none of them has fewer parentheses than what is written.
-/

namespace Slate.Grammar

open Slate.Parser

/-! ## Tokens that are taken away -/

/-- The lexeme says what the token says. A number is said by its value, whatever its digits are. -/
inductive Writes (t : Token) : Lexeme → Prop
  | itself : Writes t t.toLexeme
  | number {text : String} {d : Decimal} (hk : t.kind = .number) (h : Decimal.ofString? t.text = .ok d)
      (h' : Decimal.ofString? text = .ok d) : Writes t ⟨.number, text⟩

/-- The lexemes are what is left of the tokens when some parentheses are taken away, each with its partner, and
some empty blocks, each with the `else` in front of it. -/
inductive TrimsTo : List Token → List Lexeme → Prop
  | nil : TrimsTo [] []
  | keep {t : Token} {x : Lexeme} {ts : List Token} {xs : List Lexeme} (h : Writes t x)
      (rest : TrimsTo ts xs) : TrimsTo (t :: ts) (x :: xs)
  | parens (o : TokenOf .openParen) (c : TokenOf .closeParen) {inner ts : List Token} {xs : List Lexeme}
      (h : Nested inner) (rest : TrimsTo (inner ++ ts) xs) : TrimsTo (o.val :: inner ++ c.val :: ts) xs
  | noElse (word : TokenOf .elseKeyword) (o : TokenOf .openBrace) (c : TokenOf .closeBrace)
      {ts : List Token} {xs : List Lexeme} (rest : TrimsTo ts xs) :
      TrimsTo (word.val :: o.val :: c.val :: ts) xs

/-- How many parentheses there are, of both kinds. -/
def parentheses (ts : List Token) : Nat := (ts.map fun t => t.kind).countP fun k => !isPlain k

theorem Writes.of_eq {t : Token} {x : Lexeme} (hk : t.kind = x.kind) (ht : t.text = x.text) : Writes t x := by
  obtain ⟨⟨k, s⟩, span⟩ := t
  obtain ⟨k', s'⟩ := x
  cases hk
  cases ht
  exact .itself

theorem Writes.kind_eq {t : Token} {x : Lexeme} (h : Writes t x) : t.kind = x.kind := by
  cases h with
  | itself => rfl
  | number hk => exact hk

namespace TrimsTo

variable {ts us : List Token} {xs ys : List Lexeme}

theorem single {t : Token} {x : Lexeme} (h : Writes t x) : TrimsTo [t] [x] := .keep h .nil

theorem append (h : TrimsTo ts xs) (h' : TrimsTo us ys) : TrimsTo (ts ++ us) (xs ++ ys) := by
  induction h with
  | nil => exact h'
  | keep h _ ih => exact .keep h ih
  | parens o c h _ ih =>
    rw [List.append_assoc, List.cons_append]
    rw [List.append_assoc] at ih
    exact .parens o c h ih
  | noElse word o c _ ih => exact .noElse word o c ih

/-- What stands between a first token and a last one, which both are kept. -/
theorem enclosed {o c : Token} {x y : Lexeme} (ho : Writes o x) (h : TrimsTo ts xs) (hc : Writes c y) :
    TrimsTo (o :: ts ++ [c]) (x :: xs ++ [y]) :=
  .keep ho (h.append (.single hc))

/-- Parentheses around everything are taken away. -/
theorem bare (o : TokenOf .openParen) (c : TokenOf .closeParen) (hn : Nested ts) (h : TrimsTo ts xs) :
    TrimsTo (o.val :: ts ++ [c.val]) xs := by
  refine .parens o c hn ?_
  rw [List.append_nil]
  exact h

/-- Nothing is added, and nothing changes places. -/
theorem kinds_sublist (h : TrimsTo ts xs) : (xs.map Lexeme.kind).Sublist (ts.map fun t => t.kind) := by
  induction h with
  | nil => exact .slnil
  | keep h _ ih =>
    rw [List.map_cons, List.map_cons, h.kind_eq]
    exact ih.cons_cons _
  | parens o c _ _ ih =>
    refine ih.trans (List.Sublist.map _ ?_)
    exact ((List.Sublist.refl _).append (List.sublist_cons_self _ _)).cons _
  | noElse word o c _ ih => exact ((ih.cons _).cons _).cons _

theorem parentheses_le (h : TrimsTo ts (us.map Token.toLexeme)) : parentheses us ≤ parentheses ts := by
  have kinds := h.kinds_sublist
  rw [List.map_map] at kinds
  exact kinds.countP_le

end TrimsTo

/-! ## Tokens of a text -/

/-- A token of a text, whose text is that of its kind if there is only one. -/
structure WellSpelled (t : Token) : Prop extends t.IsLexed where
  onlyText : ∀ s ∈ t.kind.onlyText?, t.text = s

theorem wellSpelled_of_tokenize {source : String} {ts : List Token} (h : tokenize source = .ok ts) :
    ∀ t ∈ ts, WellSpelled t :=
  fun t ht => ⟨isLexed_of_tokenize h t ht, (laidOut_of_tokens h [] rfl).onlyText t ht⟩

namespace WellSpelled

variable {t : Token}

/-- Of most kinds there is only one lexeme. -/
theorem writes {x : Lexeme} (h : WellSpelled t) (hk : t.kind = x.kind) (hx : x.kind.onlyText? = some x.text) :
    Writes t x :=
  .of_eq hk (h.onlyText x.text (by rw [hk]; exact hx))

theorem writesName (h : WellSpelled t) (hk : t.kind = .identifier) : Writes t (.ofWord t.text) :=
  .of_eq (hk.trans (h.name hk).2.symm) rfl

end WellSpelled

/-! ## Expressions -/

theorem kind_of_operator? {k : TokenKind} {op : BinaryOp} (h : operator? k = some op) : k = op.kind := by
  unfold operator? at h
  split at h <;> cases h <;> rfl

theorem WellSpelled.writes_operator {t : Token} {op : BinaryOp} (h : WellSpelled t)
    (writes : operator? t.kind = some op) : Writes t op.lexeme := by
  refine h.writes (kind_of_operator? writes) ?_
  cases op <;> rfl

/-- The tokens of an expression are trimmed to what is written for it. If its operator binds too little for the
level, the tokens have parentheses around them, which may stay. -/
structure TrimsAt (level : Nat) (ts : List Token) (e : Expr) : Prop where
  bare : TrimsTo ts e.lexemes
  enclosed : ∀ p, e.looseness? = some p → p < level →
    TrimsTo ts (.openParen :: e.lexemes ++ [.closeParen])

namespace TrimsAt

variable {level : Nat} {ts : List Token} {e : Expr}

theorem of_le {lower : Nat} (h : TrimsAt level ts e) (hl : lower ≤ level) : TrimsAt lower ts e :=
  ⟨h.bare, fun p hp below => h.enclosed p hp (Nat.lt_of_lt_of_le below hl)⟩

/-- What is no operation never needs parentheses. -/
theorem of_atom (h : TrimsTo ts e.lexemes) (hp : e.looseness? = none) : TrimsAt level ts e :=
  ⟨h, fun p some_ => by rw [hp] at some_; cases some_⟩

/-- Where the formatter puts parentheses there are some. -/
theorem parenthesize {needed : Nat → Bool} (h : TrimsAt level ts e)
    (hneed : ∀ p, e.looseness? = some p → needed p = true → p < level) :
    TrimsTo ts (parenthesizeLexemes e needed e.lexemes) := by
  rw [parenthesizeLexemes]
  split
  · next needs =>
    obtain ⟨p, hp, need⟩ := (Option.any_eq_true _ _).1 needs
    exact h.enclosed p hp (hneed p hp need)
  · exact h.bare

/-- Two operands around an operator of the level. What stands on the right has to bind more. -/
theorem operation {op : Operator level} {left right : Expr} {ls rs : List Token} (hw : left.Writable)
    (hl : TrimsAt level ls left) (hs : WellSpelled op.sign) (hr : TrimsAt (level + 1) rs right) (s : Span) :
    TrimsAt level (ls ++ op.sign :: rs) (.binary op.op left right s) := by
  have plain := hw.not_isNegation op.op right s
  obtain ⟨sign, op, writes, rfl⟩ := op
  constructor
  · rw [Expr.lexemes, plain, if_neg Bool.false_ne_true]
    refine (hl.parenthesize ?_).append (.keep (hs.writes_operator writes) (hr.parenthesize ?_))
    · intro p _ hp
      simpa using hp
    · intro p _ hp
      exact Nat.lt_succ_of_le (by simpa using hp)
  · intro p hp below
    rw [Expr.looseness?, plain, if_neg Bool.false_ne_true] at hp
    cases hp
    exact absurd below (Nat.lt_irrefl _)

end TrimsAt

theorem Leaf.trims (l : Leaf) (h : WellSpelled l.token) : TrimsAt 3 [l.token] l.result := by
  refine .of_atom ?_ (by cases l <;> rfl)
  cases l with
  | number t d hd =>
    have unsigned := not_negative_of_isNumeralText (h.number t.property) hd
    rw [Leaf.result, Expr.lexemes]
    exact .single (.number t.property hd (Decimal.ofString?_toString_of_not_negative unsigned))
  | string t =>
    rw [Leaf.result, Expr.lexemes]
    exact .single (.of_eq t.property rfl)
  | boolean t b hb =>
    rw [Leaf.result, Expr.lexemes]
    refine .single (.of_eq ?_ hb)
    rw [token, t.property]
    cases b <;> rfl
  | name t =>
    rw [Leaf.result, Expr.lexemes]
    exact .single (h.writesName t.property)

/-- No operator binds as much as a factor. -/
theorem precedence_lt_of_looseness? {e : Expr} {p : Nat} (h : e.looseness? = some p) : p < 3 := by
  unfold Expr.looseness? at h
  split at h
  · next op _ _ _ =>
    split at h
    · cases h
    · cases h
      cases op <;> decide
  · cases h

namespace Derivation

/-- The statement about a derivation, by what it is one of. Behind an operator stands what binds more. -/
def Trims {n : Nonterminal} (d : Derivation n) : Prop :=
  match n, d with
  | .expr, d => TrimsAt 1 d.tokens d.result
  | .term, d => TrimsAt 2 d.tokens d.result
  | .factor, d | .atom, d => TrimsAt 3 d.tokens d.result
  | .arguments, d => TrimsTo d.tokens ([Lexeme.comma].intercalate (d.result.map Expr.lexemes))

theorem arguments_ne_nil (d : Derivation .arguments) : d.result ≠ [] := by
  cases d <;> exact List.cons_ne_nil _ _

theorem trims {n : Nonterminal} (d : Derivation n) (h : ∀ t ∈ d.tokens, WellSpelled t) : d.Trims := by
  have lexed {ts : List Token} (h : ∀ t ∈ ts, WellSpelled t) : ∀ t ∈ ts, t.IsLexed :=
    fun t ht => (h t ht).toIsLexed
  induction d with
  | ofTerm t ih => exact TrimsAt.of_le (ih h) (by decide)
  | ofFactor f ih => exact TrimsAt.of_le (ih h) (by decide)
  | ofAtom a ih => exact ih h
  | sum left op right ihl ihr | product left op right ihl ihr =>
    obtain ⟨hl, hr⟩ := List.forall_mem_append.1 h
    obtain ⟨hs, hr⟩ := List.forall_mem_cons.1 hr
    exact TrimsAt.operation (left.isWritable (lexed hl)) (ihl hl) hs (ihr hr) _
  | sign minus operand ih =>
    obtain ⟨hm, ho⟩ := List.forall_mem_cons.1 h
    have part : TrimsAt 3 operand.tokens operand.result := ih ho
    refine TrimsAt.of_atom ?_ (looseness?_negation _ _ _)
    rw [Derivation.result, lexemes_negation]
    -- every operator binds less than what may stand behind a sign
    refine .keep (hm.writes minus.property rfl) (part.parenthesize fun p hp _ => ?_)
    exact precedence_lt_of_looseness? hp
  | leaf l => exact l.trims (List.forall_mem_singleton.1 h)
  | call callee opening closing =>
    obtain ⟨hn, h⟩ := List.forall_mem_cons.1 h
    obtain ⟨ho, h⟩ := List.forall_mem_cons.1 h
    have hc := List.forall_mem_singleton.1 h
    refine TrimsAt.of_atom ?_ rfl
    rw [Derivation.result, Expr.lexemes]
    exact .keep (hn.writesName callee.property)
      (.enclosed (ho.writes opening.property rfl) .nil (hc.writes closing.property rfl))
  | callWith callee opening arguments closing ih =>
    obtain ⟨hn, h⟩ := List.forall_mem_cons.1 h
    obtain ⟨ho, ha, hc⟩ := forall_mem_enclosed h
    refine TrimsAt.of_atom ?_ rfl
    rw [Derivation.result, Expr.lexemes, lexemesOfExprs_eq_map]
    exact .keep (hn.writesName callee.property)
      (.enclosed (ho.writes opening.property rfl) (ih ha) (hc.writes closing.property rfl))
  | group opening inner closing ih =>
    obtain ⟨ho, hi, hc⟩ := forall_mem_enclosed h
    have part : TrimsAt 1 inner.tokens inner.result := ih hi
    -- the one place where parentheses go, and where they may stay
    exact ⟨.bare opening closing inner.nested part.bare, fun _ _ _ =>
      .enclosed (ho.writes opening.property rfl) part.bare (hc.writes closing.property rfl)⟩
  | last e ih =>
    have part : TrimsAt 1 e.tokens e.result := ih h
    show TrimsTo e.tokens ([Lexeme.comma].intercalate [e.result.lexemes])
    rw [List.intercalate_singleton]
    exact part.bare
  | more e comma rest ihe ihr =>
    obtain ⟨he, hr⟩ := List.forall_mem_append.1 h
    obtain ⟨hc, hr⟩ := List.forall_mem_cons.1 hr
    have part : TrimsAt 1 e.tokens e.result := ihe he
    show TrimsTo (e.tokens ++ comma.val :: rest.tokens)
      ([Lexeme.comma].intercalate (e.result.lexemes :: rest.result.map Expr.lexemes))
    rw [List.intercalate_cons_of_ne_nil (by simpa using rest.arguments_ne_nil), List.append_assoc]
    exact part.bare.append (.keep (hc.writes comma.property rfl) (ihr hr))

end Derivation

theorem Accepted.trims (a : Accepted) (h : ∀ t ∈ a.tokens, WellSpelled t) :
    TrimsTo a.tokens a.result.lexemes := by
  obtain ⟨d, tokens, result⟩ := exists_derivation a.read
  rw [← tokens] at h ⊢
  rw [← result]
  have whole : TrimsAt 1 d.tokens d.result := d.trims h
  exact whole.bare

/-! ## Statements -/

theorem kind_of_type? {k : TokenKind} {type : Ty} (h : type? k = some type) :
    k = TokenKind.ofWord type.keyword := by
  unfold type? at h
  split at h <;> cases h <;> rfl

theorem kind_of_declarationKind? {k : TokenKind} {kind : DeclarationKind}
    (h : declarationKind? k = some kind) : k = TokenKind.ofWord kind.keyword := by
  unfold declarationKind? at h
  split at h <;> cases h <;> rfl

theorem Variable.trims (v : Variable) (h : ∀ t ∈ v.tokens, WellSpelled t) :
    TrimsTo v.tokens v.result.lexemes := by
  obtain ⟨name, colon, word, type, writes, init⟩ := v
  obtain ⟨hn, h⟩ := List.forall_mem_cons.1 h
  obtain ⟨hc, h⟩ := List.forall_mem_cons.1 h
  obtain ⟨hw, h⟩ := List.forall_mem_cons.1 h
  have behind : TrimsTo (Variable.initTokens init) (initLexemes (init.map fun i => i.2.result)) := by
    rcases init with _ | ⟨assign, value⟩
    · exact .nil
    · obtain ⟨ha, hv⟩ := List.forall_mem_cons.1 h
      exact .keep (ha.writes assign.property rfl) (value.trims hv)
  refine .keep (hn.writesName name.property) (.keep (hc.writes colon.property rfl) (.keep ?_ behind))
  exact hw.writes (kind_of_type? writes) (by cases type <;> rfl)

theorem Variables.trims (vs : Variables) (h : ∀ t ∈ vs.tokens, WellSpelled t) :
    TrimsTo vs.tokens ([Lexeme.comma].intercalate (vs.result.map Declarator.lexemes)) := by
  induction vs with
  | last v =>
    rw [tokens, result, List.map_singleton, List.intercalate_singleton]
    exact v.trims h
  | more v comma rest ih =>
    obtain ⟨hv, hr⟩ := List.forall_mem_append.1 h
    obtain ⟨hc, hr⟩ := List.forall_mem_cons.1 hr
    rw [tokens, result, List.map_cons,
      List.intercalate_cons_of_ne_nil (by simpa using rest.result_ne_nil), List.append_assoc]
    exact (v.trims hv).append (.keep (hc.writes comma.property rfl) (ih hr))

theorem Action.trims (a : Action) (h : ∀ t ∈ a.tokens, WellSpelled t) :
    TrimsTo a.tokens a.result.lexemes := by
  cases a with
  | expression e => exact e.trims h
  | assignment target assign value =>
    obtain ⟨hn, h⟩ := List.forall_mem_cons.1 h
    obtain ⟨ha, hv⟩ := List.forall_mem_cons.1 h
    rw [result, Expr.lexemes]
    exact .keep (hn.writesName target.property) (.keep (ha.writes assign.property rfl) (value.trims hv))

theorem Test.trims (t : Test) (h : ∀ u ∈ t.tokens, WellSpelled u) :
    TrimsTo t.tokens [.ofWord "if", .openParen, .ofWord (nameOf t.name).name, .closeParen] := by
  obtain ⟨hi, h⟩ := List.forall_mem_cons.1 h
  obtain ⟨ho, h⟩ := List.forall_mem_cons.1 h
  obtain ⟨hn, h⟩ := List.forall_mem_cons.1 h
  have hc := List.forall_mem_singleton.1 h
  exact .keep (hi.writes t.ifWord.property rfl) (.keep (ho.writes t.opening.property rfl)
    (.keep (hn.writesName t.name.property) (.single (hc.writes t.closing.property rfl))))

namespace Phrase

/-- The statement about a phrase, by what it is one of. -/
def Trims {c : Category} (p : Phrase c) : Prop :=
  match c, p with
  | .statement, p => TrimsTo p.tokens p.result.lexemes
  | .block, p => TrimsTo p.tokens (.openBrace :: lexemesOfStmts p.result ++ [.closeBrace])
  | .body, p => TrimsTo p.tokens (lexemesOfStmts p.result)

/-- A block with no statements is two braces. -/
theorem tokens_of_block_nil (p : Phrase .block) (h : p.result = []) :
    ∃ (o : TokenOf .openBrace) (c : TokenOf .closeBrace), p.tokens = [o.val, c.val] := by
  cases p with
  | block opening body closing =>
    cases body with
    | done => exact ⟨opening, closing, rfl⟩
    | more first rest => cases h

theorem trims {c : Category} (p : Phrase c) (h : ∀ t ∈ p.tokens, WellSpelled t) : p.Trims := by
  induction p with
  | declaration d semicolon =>
    obtain ⟨hk, hv, hs⟩ := forall_mem_enclosed h
    have keyword : Writes d.keyword (.ofWord d.kind.keyword) :=
      hk.writes (kind_of_declarationKind? d.writes) (by cases d.kind <;> rfl)
    show TrimsTo _ (Phrase.declaration d semicolon).result.lexemes
    rw [result, Stmt.lexemes]
    exact .enclosed keyword (d.vars.trims hv) (hs.writes semicolon.property rfl)
  | action a semicolon =>
    obtain ⟨ha, h⟩ := List.forall_mem_append.1 h
    have hs := List.forall_mem_singleton.1 h
    show TrimsTo _ (Phrase.action a semicolon).result.lexemes
    rw [result, Stmt.lexemes]
    exact (a.trims ha).append (.single (hs.writes semicolon.property rfl))
  | conditional test consequent ih =>
    obtain ⟨ht, hc⟩ := List.forall_mem_append.1 h
    show TrimsTo _ (Phrase.conditional test consequent).result.lexemes
    rw [result, Stmt.lexemes]
    exact (test.trims ht).append (ih hc)
  | conditionalElse test consequent elseWord alternate ihc iha =>
    obtain ⟨ht, h⟩ := List.forall_mem_append.1 h
    obtain ⟨hc, h⟩ := List.forall_mem_append.1 h
    obtain ⟨he, ha⟩ := List.forall_mem_cons.1 h
    have second : TrimsTo (elseWord.val :: alternate.tokens)
        (if alternate.result.isEmpty then []
          else .ofWord "else" :: .openBrace :: (lexemesOfStmts alternate.result ++ [.closeBrace])) := by
      split
      · next hempty =>
        obtain ⟨o, c, tokens⟩ := alternate.tokens_of_block_nil (List.isEmpty_iff.1 hempty)
        rw [tokens]
        exact .noElse elseWord o c .nil
      · exact .keep (he.writes elseWord.property rfl) (iha ha)
    have whole := (test.trims ht).append ((ihc hc).append second)
    rw [List.append_assoc] at whole
    show TrimsTo _ (Phrase.conditionalElse test consequent elseWord alternate).result.lexemes
    rw [result, Stmt.lexemes]
    exact whole
  | block opening body closing ih =>
    obtain ⟨ho, hb, hc⟩ := forall_mem_enclosed h
    exact .enclosed (ho.writes opening.property rfl) (ih hb) (hc.writes closing.property rfl)
  | done => exact .nil
  | more first rest ihf ihr =>
    obtain ⟨hf, hr⟩ := List.forall_mem_append.1 h
    exact (ihf hf).append (ihr hr)

end Phrase

/-! ## Programs -/

theorem trimsTo_of_program {ts : List Token} {p : Program} (h : ∀ t ∈ ts, WellSpelled t)
    (hp : program ts = .ok p) : TrimsTo ts (lexemesOfStmts p.statements) := by
  obtain ⟨b, tokens, result⟩ := exists_phrase hp
  rw [← tokens] at h ⊢
  rw [← result]
  exact b.trims h

/-- What is written for a program of some text is left of the tokens of the text. -/
theorem trimsTo_of_format {style : Style} {source : String} {ts ts' : List Token} {p : Program}
    (hts : tokenize source = .ok ts) (hp : program ts = .ok p) (hts' : tokenize (format style p) = .ok ts') :
    TrimsTo ts (ts'.map Token.toLexeme) := by
  have writable := writable_of_program (isLexed_of_tokenize hts) hp
  obtain ⟨us, hus, lexemes⟩ := tokenize_format writable style
  cases hts'.symm.trans hus
  rw [lexemes]
  exact trimsTo_of_program (wellSpelled_of_tokenize hts) hp

/-- What is written for a program of some text, in every style, is a text of the same program. Its tokens are
those of the text, but for parentheses and empty blocks behind `else` that are taken away. And no text of the same
program has fewer parentheses. Programs are the same here if their trees differ in spans only and the same
operations are signs, so `-(x * y);` and `0 - x * y;` are two programs. -/
theorem format_trims (style : Style) {source : String} {ts : List Token} {p : Program}
    (hts : tokenize source = .ok ts) (hp : program ts = .ok p) :
    ∃ ts' p', tokenize (format style p) = .ok ts' ∧ program ts' = .ok p' ∧
      p'.erase = p.erase ∧ p'.negations = p.negations ∧
      TrimsTo ts (ts'.map Token.toLexeme) ∧
      ∀ (other : String) (us : List Token) (q : Program), tokenize other = .ok us → program us = .ok q →
        q.erase = p.erase → q.negations = p.negations → parentheses ts' ≤ parentheses us := by
  obtain ⟨b, hts', same⟩ := exists_body_of_format style hts hp
  refine ⟨_, ⟨b.result⟩, hts', program_tokens b, ?_, same.2.symm, trimsTo_of_format hts hp hts', ?_⟩
  · rw [Program.erase, Program.erase, same.1]
  · intro other us q hus hq erased signs
    -- both are written the same, so what is written is left of the other text too
    have alike : SameStmts q.statements p.statements := ⟨congrArg Program.statements erased, signs⟩
    rw [← Program.format_eq_of_same style alike] at hts'
    exact (trimsTo_of_format hus hq hts').parentheses_le

/-- The tokens of `if(b){(01-(x));}else{}`. -/
def overdressed : List Token :=
  [⟨⟨.ifKeyword, "if"⟩, ⟨1, 1, 3⟩⟩, ⟨⟨.openParen, "("⟩, ⟨1, 3, 4⟩⟩, ⟨⟨.identifier, "b"⟩, ⟨1, 4, 5⟩⟩,
   ⟨⟨.closeParen, ")"⟩, ⟨1, 5, 6⟩⟩, ⟨⟨.openBrace, "\x7b"⟩, ⟨1, 6, 7⟩⟩, ⟨⟨.openParen, "("⟩, ⟨1, 7, 8⟩⟩,
   ⟨⟨.number, "01"⟩, ⟨1, 8, 10⟩⟩, ⟨⟨.minus, "-"⟩, ⟨1, 10, 11⟩⟩, ⟨⟨.openParen, "("⟩, ⟨1, 11, 12⟩⟩,
   ⟨⟨.identifier, "x"⟩, ⟨1, 12, 13⟩⟩, ⟨⟨.closeParen, ")"⟩, ⟨1, 13, 14⟩⟩, ⟨⟨.closeParen, ")"⟩, ⟨1, 14, 15⟩⟩,
   ⟨⟨.semicolon, ";"⟩, ⟨1, 15, 16⟩⟩, ⟨⟨.closeBrace, "\x7d"⟩, ⟨1, 16, 17⟩⟩,
   ⟨⟨.elseKeyword, "else"⟩, ⟨1, 17, 21⟩⟩, ⟨⟨.openBrace, "\x7b"⟩, ⟨1, 21, 22⟩⟩,
   ⟨⟨.closeBrace, "\x7d"⟩, ⟨1, 22, 23⟩⟩]

theorem format_trims_overdressed :
    ∃ p, tokenize "if(b)\x7b(01-(x));\x7delse\x7b\x7d" = .ok overdressed ∧ program overdressed = .ok p ∧
      ∃ ts' p', tokenize (format default p) = .ok ts' ∧ program ts' = .ok p' ∧
        p'.erase = p.erase ∧ p'.negations = p.negations ∧
        TrimsTo overdressed (ts'.map Token.toLexeme) ∧
        ∀ (other : String) (us : List Token) (q : Program), tokenize other = .ok us → program us = .ok q →
          q.erase = p.erase → q.negations = p.negations → parentheses ts' ≤ parentheses us := by
  have tokens_ : (tokenize "if(b)\x7b(01-(x));\x7delse\x7b\x7d").toOption = some overdressed := by
    decide +kernel
  have read : ∃ p, program overdressed = .ok p := ⟨_, by cbv⟩
  obtain ⟨p, hp⟩ := read
  have hts := toOption_eq_some.1 tokens_
  exact ⟨p, hts, hp, format_trims default hts hp⟩

end Slate.Grammar
