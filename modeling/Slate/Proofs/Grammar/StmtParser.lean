import Slate.Proofs.Grammar.ExprParser
import Slate.Proofs.Grammar.Stmt
import Slate.Proofs.Parser.Stmt

/-!
# The parser of programs reads the grammar

* `Phrase.cut_statement`, `Phrase.cut_body` — a statement is cut off as one slice and a body into its
  statements, however deep its blocks are nested;
* `program_tokens` — the tokens of a body are read, and as what it stands for;
* `exists_phrase` — whatever is read is a body of the grammar.

The parser of a conditional cuts both of its blocks before it reads a slice, so it meets a block as
tokens up to a brace. `Phrase.cut_closedBody` and `exists_block` say that these are the tokens of a
body, in either direction. Soundness is an induction on the number of tokens: only the slices of a
conditional are read again, and they are shorter.
-/

namespace Slate.Grammar

open Slate.Parser

attribute [local simp] Variable.tokens Variables.tokens Action.tokens Test.tokens Phrase.tokens

/-! ## Expressions in statements -/

/-- A kind that a token of an expression can have. -/
def isInExpression : TokenKind → Bool
  | .identifier | .number | .string | .boolean | .comma | .plus | .minus | .times | .divide
  | .openParen | .closeParen => true
  | _ => false

theorem Derivation.isInExpression {n : Nonterminal} (d : Derivation n) :
    ∀ t ∈ d.tokens, isInExpression t.kind = true := by
  have of {k : TokenKind} (t : TokenOf k) (h : Grammar.isInExpression k = true) :
      Grammar.isInExpression t.val.kind = true := by
    rw [t.property]
    exact h
  have sign {precedence : Nat} (op : Operator precedence) :
      Grammar.isInExpression op.sign.kind = true := by
    have := op.writes
    revert this
    cases op.sign.kind <;> simp [operator?, Grammar.isInExpression]
  induction d with
  | ofTerm t ih | ofFactor t ih | ofAtom t ih | last t ih => exact ih
  | sum left op right ihl ihr | product left op right ihl ihr =>
    exact List.forall_mem_append.2 ⟨ihl, List.forall_mem_cons.2 ⟨sign op, ihr⟩⟩
  | sign minus operand ih => exact List.forall_mem_cons.2 ⟨of minus rfl, ih⟩
  | leaf l =>
    refine List.forall_mem_singleton.2 ?_
    rw [l.token_kind]
    cases l <;> rfl
  | call callee opening closing =>
    exact List.forall_mem_cons.2 ⟨of callee rfl, List.forall_mem_cons.2
      ⟨of opening rfl, List.forall_mem_singleton.2 (of closing rfl)⟩⟩
  | callWith callee opening arguments closing ih =>
    exact List.forall_mem_cons.2 ⟨of callee rfl, List.forall_mem_cons.2
      ⟨of opening rfl, List.forall_mem_append.2
        ⟨ih, List.forall_mem_singleton.2 (of closing rfl)⟩⟩⟩
  | group opening inner closing ih =>
    exact List.forall_mem_cons.2 ⟨of opening rfl, List.forall_mem_append.2
      ⟨ih, List.forall_mem_singleton.2 (of closing rfl)⟩⟩
  | more e comma rest ihe ihr =>
    exact List.forall_mem_append.2 ⟨ihe, List.forall_mem_cons.2 ⟨of comma rfl, ihr⟩⟩

namespace Accepted

theorem tokens_ne_nil (a : Accepted) : a.tokens ≠ [] := by
  obtain ⟨d, hd, -⟩ := exists_derivation a.read
  exact hd ▸ d.tokens_ne_nil

theorem nested (a : Accepted) : Nested a.tokens := nested_of_expression a.read

theorem whole (a : Accepted) : Whole a.tokens := by
  obtain ⟨d, hd, -⟩ := exists_derivation a.read
  exact hd ▸ d.whole (by simp)

theorem isInExpression (a : Accepted) : ∀ t ∈ a.tokens, isInExpression t.kind = true := by
  obtain ⟨d, hd, -⟩ := exists_derivation a.read
  exact hd ▸ d.isInExpression

theorem isPassive (a : Accepted) : ∀ t ∈ a.tokens, isPassive t.kind = true := by
  intro t ht
  have h := a.isInExpression t ht
  revert h
  cases t.kind <;> simp [Grammar.isInExpression, Parser.isPassive]

end Accepted

/-! ## Declarations -/

theorem isPlain_of_type? {k : TokenKind} {type : Ty} (h : type? k = some type) :
    isPlain k = true ∧ isPassive k = true ∧ k ≠ .comma := by
  cases k <;> simp_all [type?, isPlain, isPassive]

namespace Variable

theorem initTokens_nested (i : Option (TokenOf .assign × Accepted)) : Nested (initTokens i) := by
  rcases i with _ | ⟨assign, value⟩
  · exact nested_nil
  · exact value.nested.cons (by rw [assign.property]; rfl)

theorem initTokens_whole (i : Option (TokenOf .assign × Accepted)) : Whole (initTokens i) := by
  rcases i with _ | ⟨assign, value⟩
  · rfl
  · exact value.whole.cons (by rw [assign.property]; rfl) (by rw [assign.property]; simp)

theorem nested (v : Variable) : Nested v.tokens :=
  (((initTokens_nested v.init).cons (isPlain_of_type? v.writes).1).cons
    (by rw [v.colon.property]; rfl)).cons (by rw [v.name.property]; rfl)

theorem whole (v : Variable) : Whole v.tokens :=
  (((initTokens_whole v.init).cons (isPlain_of_type? v.writes).1
      (isPlain_of_type? v.writes).2.2).cons
    (by rw [v.colon.property]; rfl) (by rw [v.colon.property]; simp)).cons
    (by rw [v.name.property]; rfl) (by rw [v.name.property]; simp)

theorem isPassive (v : Variable) : ∀ t ∈ v.tokens, isPassive t.kind = true := by
  have init : ∀ t ∈ initTokens v.init, Parser.isPassive t.kind = true := by
    rcases v.init with _ | ⟨assign, value⟩
    · exact fun _ h => by cases h
    · exact List.forall_mem_cons.2 ⟨by rw [assign.property]; rfl, value.isPassive⟩
  exact List.forall_mem_cons.2 ⟨by rw [v.name.property]; rfl, List.forall_mem_cons.2
    ⟨by rw [v.colon.property]; rfl, List.forall_mem_cons.2 ⟨(isPlain_of_type? v.writes).2.1, init⟩⟩⟩

theorem initializer_tokens (i : Option (TokenOf .assign × Accepted)) :
    initializer (initTokens i) = .ok (i.map fun i => i.2.result) := by
  rcases i with _ | ⟨assign, value⟩
  · rfl
  · rw [initTokens, initializer, if_pos assign.property, if_neg value.tokens_ne_nil, value.read]
    rfl

/-- A variable is read as what it stands for. -/
theorem declarator_tokens (v : Variable) : declarator v.tokens = .ok v.result := by
  have name : expect .identifier .inDeclaration none v.tokens = .ok (v.name.val, _) :=
    expect_eq_ok.2 ⟨rfl, v.name.property⟩
  have colon : expect .colon .afterVariableName (some v.name.val.span)
      (v.colon.val :: v.word :: initTokens v.init) = .ok (v.colon.val, _) :=
    expect_eq_ok.2 ⟨rfl, v.colon.property⟩
  simp only [declarator, name, colon, typeName, v.writes, initializer_tokens, bind, Except.bind]
  rfl

theorem exists_initTokens {ts : List Token} {i : Option Expr} (h : initializer ts = .ok i) :
    ∃ i, initTokens i = ts := by
  cases ts with
  | nil => exact ⟨none, rfl⟩
  | cons t ts =>
    rw [initializer] at h
    split at h
    · next ht =>
      split at h
      · cases h
      · cases he : expression ts with
        | error f => rw [he] at h; cases h
        | ok e => exact ⟨some (⟨t, ht⟩, ⟨ts, e, he⟩), rfl⟩
    · cases h

theorem exists_tokens {ts : List Token} {d : Declarator} (h : declarator ts = .ok d) :
    ∃ v : Variable, v.tokens = ts := by
  obtain ⟨⟨name, r₁⟩, hn, h⟩ := bind_eq_ok h
  obtain ⟨⟨colon, r₂⟩, hc, h⟩ := bind_eq_ok h
  obtain ⟨⟨type, r₃⟩, ht, h⟩ := bind_eq_ok h
  obtain ⟨init, hi, -⟩ := bind_eq_ok h
  obtain ⟨rfl, isName⟩ := expect_eq_ok.1 hn
  obtain ⟨rfl, isColon⟩ := expect_eq_ok.1 hc
  obtain ⟨i, rfl⟩ := exists_initTokens hi
  cases r₂ with
  | nil => cases ht
  | cons word r₂ =>
    rw [typeName] at ht
    split at ht
    · next hw =>
      cases ht
      exact ⟨⟨⟨name, isName⟩, ⟨colon, isColon⟩, word, type, hw, i⟩, rfl⟩
    · cases ht

end Variable

namespace Variables

theorem isPassive (vs : Variables) : ∀ t ∈ vs.tokens, isPassive t.kind = true := by
  induction vs with
  | last v => exact v.isPassive
  | more v comma rest ih =>
    exact List.forall_mem_append.2
      ⟨v.isPassive, List.forall_mem_cons.2 ⟨by rw [comma.property]; rfl, ih⟩⟩

theorem tokens_ne_nil (vs : Variables) : vs.tokens ≠ [] := by
  cases vs <;> simp

theorem declarators_tokens (last : Token) (vs : Variables) :
    declarators last vs.tokens = .ok vs.result := by
  have one (v : Variable) : (if v.tokens = [] then
      failAt last.span (.expected .declarator none none) else declarator v.tokens) =
      .ok v.result := by
    rw [if_neg (by simp), v.declarator_tokens]
  rw [declarators, inOrder_eq_ok]
  induction vs with
  | last v => rw [tokens, v.whole, List.map_singleton, one]; rfl
  | more v comma rest ih =>
    rw [tokens, commaParts_append_comma v.nested v.whole comma.property, List.map_cons, one, ih]
    rfl

/-- Parts that are read as variables are the variables of a list joined by commas. -/
theorem exists_tokens {last : Token} {body : List Token} {ds : List Declarator}
    (h : declarators last body = .ok ds) : ∃ vs : Variables, vs.tokens = body := by
  rw [declarators, inOrder_eq_ok] at h
  generalize hp : commaParts 0 body = parts at h
  induction parts generalizing body ds with
  | nil => exact absurd hp (commaParts_ne_nil _ _)
  | cons p ps ih =>
    cases ds with
    | nil => cases h
    | cons d ds =>
      rw [List.map_cons, List.map_cons, List.cons.injEq] at h
      obtain ⟨first, others⟩ := h
      split at first
      · cases first
      · obtain ⟨v, rfl⟩ := Variable.exists_tokens first
        rcases commaParts_eq_cons hp with ⟨rfl, -⟩ | ⟨c, rest, rfl, hc, hr⟩
        · exact ⟨.last v, rfl⟩
        · obtain ⟨vs, rfl⟩ := ih hr others
          exact ⟨.more v ⟨c, hc⟩ vs, rfl⟩

end Variables

theorem placeOf_cons (t : Token) (ts : List Token) : coverFrom t ts = placeOf (t :: ts) := rfl

/-- A declaration is read as what it stands for. -/
theorem declaration_tokens (d : Declaration) (semicolon : TokenOf .semicolon) :
    declaration (Phrase.declaration d semicolon).tokens =
      .ok (Phrase.declaration d semicolon).result := by
  rw [Phrase.result, Phrase.tokens, List.cons_append, declaration, d.writes]
  dsimp only
  rw [List.getLastD_concat, List.dropLast_concat, if_neg (fun h => h.2 semicolon.property),
    if_neg d.vars.tokens_ne_nil, d.vars.declarators_tokens, placeOf_cons]
  rfl

theorem exists_declaration {ts : List Token} {s : Stmt} (h : declaration ts = .ok s) :
    ∃ d semicolon, (Phrase.declaration d semicolon).tokens = ts := by
  cases ts with
  | nil => cases h
  | cons keyword rest =>
    rw [declaration] at h
    split at h
    · cases h
    · next kind hk =>
      dsimp only at h
      split at h
      · cases h
      · next hs =>
        split at h
        · cases h
        · next hb =>
          obtain ⟨ds, hds, -⟩ := bind_eq_ok h
          obtain ⟨vs, hvs⟩ := Variables.exists_tokens hds
          have hne : rest ≠ [] := fun e => hb (by rw [e]; rfl)
          have hl : (rest.getLast hne).kind = .semicolon := by
            rw [List.getLastD_eq_getLast?, List.getLast?_eq_some_getLast hne] at hs
            exact Classical.not_not.1 fun e => hs ⟨hne, e⟩
          refine ⟨⟨keyword, kind, hk, vs⟩, ⟨rest.getLast hne, hl⟩, ?_⟩
          rw [Phrase.tokens, hvs, List.cons_append, List.dropLast_concat_getLast hne]

/-! ## Actions -/

/-- Tokens without a sign of assignment are an action if they are an expression. -/
theorem action_eq_expression {ts : List Token} (h : ∀ t ∈ ts, t.kind ≠ .assign) :
    action ts = expression ts := by
  match ts with
  | [] | [_] => rfl
  | target :: assign :: value => rw [action, if_neg (h assign (by simp))]

namespace Action

theorem isPassive (a : Action) : ∀ t ∈ a.tokens, isPassive t.kind = true := by
  cases a with
  | expression e => exact e.isPassive
  | assignment target assign value =>
    exact List.forall_mem_cons.2 ⟨by rw [target.property]; rfl,
      List.forall_mem_cons.2 ⟨by rw [assign.property]; rfl, value.isPassive⟩⟩

theorem tokens_ne_nil (a : Action) : a.tokens ≠ [] := by
  cases a with
  | expression e => exact e.tokens_ne_nil
  | assignment => exact List.cons_ne_nil _ _

theorem action_tokens (a : Action) : action a.tokens = .ok a.result := by
  cases a with
  | expression e =>
    rw [tokens, action_eq_expression, e.read]
    · rfl
    · intro t ht hk
      have h := e.isInExpression t ht
      rw [hk] at h
      cases h
  | assignment target assign value =>
    obtain ⟨t, ts, ht⟩ := List.exists_cons_of_ne_nil value.tokens_ne_nil
    rw [tokens, action, if_pos assign.property, if_pos target.property, Parser.assignment,
      if_pos ⟨target.property, assign.property⟩, if_neg value.tokens_ne_nil, value.read, result, ht]
    rfl

theorem exists_tokens {ts : List Token} {e : Expr} (h : action ts = .ok e) :
    ∃ a : Action, a.tokens = ts := by
  unfold action at h
  split at h
  · next target assign value =>
    split at h
    · next ha =>
      split at h
      · next ht =>
        rw [Parser.assignment, if_pos ⟨ht, ha⟩] at h
        split at h
        · cases h
        · obtain ⟨right, hr, -⟩ := bind_eq_ok h
          exact ⟨.assignment ⟨target, ht⟩ ⟨assign, ha⟩ ⟨value, right, hr⟩, rfl⟩
      · cases h
    · exact ⟨.expression ⟨_, _, h⟩, rfl⟩
  · exact ⟨.expression ⟨_, _, h⟩, rfl⟩

/-- The first token starts nothing but an action. -/
theorem head_tokens (a : Action) : ∃ t ts, a.tokens = t :: ts ∧ startsOther t.kind = false := by
  cases a with
  | expression e =>
    obtain ⟨t, ts, h⟩ := List.exists_cons_of_ne_nil e.tokens_ne_nil
    refine ⟨t, ts, h, ?_⟩
    have inside := e.isInExpression t (by rw [h]; exact List.mem_cons_self)
    revert inside
    cases t.kind <;> simp [Grammar.isInExpression, startsOther]
  | assignment target assign value => exact ⟨_, _, rfl, by rw [target.property]; rfl⟩

end Action

theorem expressionStatement_tokens (a : Action) (semicolon : TokenOf .semicolon) :
    expressionStatement (Phrase.action a semicolon).tokens =
      .ok (Phrase.action a semicolon).result := by
  obtain ⟨t, ts, ht, hk⟩ := a.head_tokens
  have read : action (t :: ts) = .ok a.result := ht ▸ a.action_tokens
  have last : semicolon.val.kind = .semicolon := semicolon.property
  rw [Phrase.result, Phrase.tokens, ht, List.cons_append, expressionStatement]
  rw [List.getLastD_concat, ← List.cons_append, List.dropLast_concat, hk,
    if_neg Bool.false_ne_true, if_neg (not_not_intro last), if_neg (List.cons_ne_nil _ _), read]
  rfl

theorem exists_expressionStatement {ts : List Token} {s : Stmt}
    (h : expressionStatement ts = .ok s) :
    ∃ a semicolon, (Phrase.action a semicolon).tokens = ts := by
  cases ts with
  | nil => cases h
  | cons first rest =>
    rw [expressionStatement] at h
    split at h
    · cases h
    · split at h
      · cases h
      · next hs =>
        split at h
        · cases h
        · obtain ⟨e, he, -⟩ := bind_eq_ok h
          obtain ⟨a, ha⟩ := Action.exists_tokens he
          have hne : first :: rest ≠ [] := List.cons_ne_nil _ _
          have hl : ((first :: rest).getLast hne).kind = .semicolon := by
            rw [List.getLast_eq_getLastD]
            exact Classical.not_not.1 hs
          refine ⟨a, ⟨(first :: rest).getLast hne, hl⟩, ?_⟩
          rw [Phrase.tokens, ha, List.dropLast_concat_getLast hne]

/-! ## How the tokens of a phrase are cut -/

namespace Phrase

theorem isPassive_of_declarationKind? {k : TokenKind} {kind : DeclarationKind}
    (h : declarationKind? k = some kind) : isPassive k = true := by
  cases k <;> simp_all [declarationKind?, isPassive]

/-- A statement that is no conditional is a stretch of tokens with a semicolon behind it. -/
theorem isPassive_declaration (d : Declaration) :
    ∀ t ∈ d.keyword :: d.vars.tokens, isPassive t.kind = true :=
  List.forall_mem_cons.2 ⟨isPassive_of_declarationKind? d.writes, d.vars.isPassive⟩

theorem braced {c : Category} (p : Phrase c) : Braced p.tokens := by
  have outside {k : TokenKind} (t : TokenOf k) (h : isOutsideBraces k = true) :
      isOutsideBraces t.val.kind = true := by
    rw [t.property]
    exact h
  have simple {ts : List Token} (h : ∀ t ∈ ts, isPassive t.kind = true)
      (semicolon : TokenOf .semicolon) : Braced (ts ++ [semicolon.val]) :=
    (braced_of_passive h).append (.cons (outside semicolon rfl) .nil)
  have behindTest (test : Test) {ts : List Token} (h : Braced ts) : Braced (test.tokens ++ ts) :=
    .cons (outside test.ifWord rfl) (.cons (outside test.opening rfl)
      (.cons (outside test.name rfl) (.cons (outside test.closing rfl) h)))
  induction p with
  | declaration d semicolon => exact simple (isPassive_declaration d) semicolon
  | action a semicolon => exact simple a.isPassive semicolon
  | conditional test consequent ih => exact behindTest test ih
  | conditionalElse test consequent elseWord alternate ihc iha =>
    exact behindTest test (ihc.append (.cons (outside elseWord rfl) iha))
  | block opening body closing ih => exact .block opening.property closing.property ih .nil
  | done => exact .nil
  | more first rest ihf ihr => exact ihf.append ihr

/-- No statement starts with an `else`. -/
theorem head_statement (p : Phrase .statement) :
    ∃ t ts, p.tokens = t :: ts ∧ t.kind ≠ .elseKeyword := by
  cases p with
  | declaration d semicolon =>
    refine ⟨_, _, rfl, fun hk => ?_⟩
    have := d.writes
    rw [hk] at this
    cases this
  | action a semicolon =>
    obtain ⟨t, ts, ht, -⟩ := a.head_tokens
    refine ⟨t, ts ++ [semicolon.val], by rw [tokens, ht, List.cons_append], fun hk => ?_⟩
    have := a.isPassive t (by rw [ht]; exact List.mem_cons_self)
    rw [hk] at this
    cases this
  | conditional test | conditionalElse test =>
    exact ⟨_, _, rfl, by rw [test.ifWord.property]; simp⟩

theorem cut_simple {xs : List Token} (h : ∀ t ∈ xs, isPassive t.kind = true)
    (semicolon : TokenOf .semicolon) (ts : List Token) :
    cut {} (xs ++ [semicolon.val] ++ ts) = (cut {} ts).push (xs ++ [semicolon.val]) := by
  rw [List.append_assoc, cut_passive h]
  show cut ⟨0, none, xs.reverse ++ []⟩ (semicolon.val :: ts) = _
  rw [cut_semicolon semicolon.property, List.append_nil, List.reverse_cons, List.reverse_reverse]

theorem cut_test (test : Test) (ts : List Token) :
    cut {} (test.tokens ++ ts) = cut ⟨0, some ⟨false⟩, test.tokens.reverse⟩ ts := by
  have passive : ∀ t ∈ [test.opening.val, test.name.val, test.closing.val],
      isPassive t.kind = true := by
    simp [test.opening.property, test.name.property, test.closing.property, isPassive]
  exact (cut_if test.ifWord.property _).trans (cut_passive passive _ ts)

/-- A statement is cut off as one slice, if no `else` follows. -/
theorem cut_statement (p : Phrase .statement) {ts : List Token}
    (h : ∀ t ∈ ts.head?, t.kind ≠ .elseKeyword) :
    cut {} (p.tokens ++ ts) = (cut {} ts).push p.tokens := by
  cases p with
  | declaration d semicolon => exact cut_simple (isPassive_declaration d) semicolon ts
  | action a semicolon => exact cut_simple a.isPassive semicolon ts
  | conditional test consequent =>
    cases consequent with
    | block opening body closing =>
      rw [tokens, List.append_assoc, cut_test, tokens, List.append_assoc, List.singleton_append,
        cut_block opening.property closing.property body.braced _ _ h, List.reverse_reverse]
  | conditionalElse test consequent elseWord alternate =>
    cases consequent with
    | block opening body closing =>
      cases alternate with
      | block opening' body' closing' =>
        simp only [tokens, List.append_assoc, List.cons_append, List.nil_append]
        rw [cut_test, ← List.cons_append, cut_block_else opening.property closing.property
            elseWord.property body.braced, ← List.cons_append,
          cut_block opening'.property closing'.property body'.braced _ _ h]
        simp

/-- The statements of a body, one slice for each. -/
def slices : Phrase .body → List (List Token)
  | done => []
  | more first rest => first.tokens :: rest.slices

/-- A body is cut into its statements, if no `else` follows. -/
theorem cut_body (p : Phrase .body) {ts : List Token}
    (h : ∀ t ∈ ts.head?, t.kind ≠ .elseKeyword) :
    cut {} (p.tokens ++ ts) = ⟨p.slices ++ (cut {} ts).slices, (cut {} ts).ending⟩ := by
  match p with
  | done => rw [tokens, slices, List.nil_append, List.nil_append]
  | more first rest =>
    -- behind the first statement stands another one or what follows the body
    have next : ∀ t ∈ (rest.tokens ++ ts).head?, t.kind ≠ .elseKeyword := by
      match rest with
      | done => exact h
      | more second rest =>
        obtain ⟨u, us, hu, hk⟩ := second.head_statement
        rw [tokens, hu]
        intro t ht
        cases ht
        exact hk
    rw [tokens, List.append_assoc, cut_statement first next, cut_body rest h, slices]
    rfl

/-! ## Completeness -/

/-- The body of a block. -/
def bodyOf : Phrase .block → Phrase .body
  | block _ body _ => body

/-- The parser reads the tokens of a phrase, slice by slice, and as what it stands for. -/
def IsRead {c : Category} (p : Phrase c) : Prop :=
  match c, p with
  | .statement, p => statement p.tokens = .ok p.result
  | .block, p => p.bodyOf.slices.map statement = p.result.map .ok
  | .body, p => p.slices.map statement = p.result.map .ok

/-- A closing brace ends the body in front of it. -/
theorem cut_closedBody (p : Phrase .body) (closing : TokenOf .closeBrace) (ts : List Token) :
    cut {} (p.tokens ++ closing.val :: ts) = ⟨p.slices, .closed [] closing.val ts⟩ := by
  have notElse : ∀ t ∈ (closing.val :: ts).head?, t.kind ≠ .elseKeyword := by
    simp [closing.property]
  rw [cut_body p notElse, cut_closed closing.property]
  simp [Cut.stop]

theorem head_tokens (test : Test) (opening : TokenOf .openBrace) {body : List Token}
    (h : body ≠ []) :
    head (test.tokens ++ opening.val :: body) = .ok ⟨test.ifWord.val, test.name.val, body⟩ :=
  head_eq_ok.2 ⟨test.opening.val, test.closing.val, opening.val, rfl, h, test.ifWord.property,
    test.opening.property, test.name.property, test.closing.property, opening.property⟩

/-- The place of a conditional starts with its `if` and ends with its last brace. -/
theorem placeOf_conditional (test : Test) (opening closing : Token) (body : List Token) :
    placeOf (test.tokens ++ opening :: (body ++ [closing])) =
      .cover test.ifWord.val.span closing.span := by
  have place := coverAll_enclosed test.ifWord.val closing
    (test.opening.val :: test.name.val :: test.closing.val :: opening :: body)
  exact congrArg (fun s => s.getD default) place

theorem conditional_tokens (test : Test) (p : Phrase .block) (h : p.IsRead) :
    Parser.conditional (conditional test p).tokens = .ok (conditional test p).result := by
  cases p with
  | block opening body closing =>
    have nonempty : body.tokens ++ [closing.val] ≠ [] := by simp
    have tokens_ : (conditional test (block opening body closing)).tokens =
        test.tokens ++ opening.val :: (body.tokens ++ [closing.val]) := by simp
    rw [tokens_, conditional_eq_ok]
    refine ⟨_, body.slices, [], body.result, [], head_tokens test opening nonempty,
      blocks_eq_complete.2 ?_, h, rfl, ?_⟩
    · rw [cut_closedBody]
      exact ⟨rfl, .inl ⟨closing.val, rfl, rfl⟩⟩
    · rw [result, tokens_, Head.last, List.getLastD_concat, placeOf_conditional]
      rfl

theorem conditionalElse_tokens (test : Test) (p : Phrase .block) (word : TokenOf .elseKeyword)
    (q : Phrase .block) (hp : p.IsRead) (hq : q.IsRead) :
    Parser.conditional (conditionalElse test p word q).tokens =
      .ok (conditionalElse test p word q).result := by
  cases p with
  | block opening body closing =>
    cases q with
    | block opening' body' closing' =>
      have nonempty : body.tokens ++ closing.val :: word.val :: opening'.val ::
          (body'.tokens ++ [closing'.val]) ≠ [] := by simp
      have tokens_ : (conditionalElse test (block opening body closing) word
          (block opening' body' closing')).tokens =
          test.tokens ++ opening.val :: (body.tokens ++ closing.val :: word.val :: opening'.val ::
            (body'.tokens ++ [closing'.val])) := by simp
      rw [tokens_, conditional_eq_ok]
      refine ⟨_, body.slices, body'.slices, body.result, body'.result,
        head_tokens test opening nonempty, blocks_eq_complete.2 ?_, hp, hq, ?_⟩
      · rw [cut_closedBody]
        refine ⟨rfl, .inr ⟨closing.val, word.val, opening'.val, _, closing'.val, rfl,
          word.property, opening'.property, ?_⟩⟩
        rw [cut_closedBody]
        exact ⟨rfl, rfl⟩
      · have regroup : body.tokens ++ closing.val :: word.val :: opening'.val ::
            (body'.tokens ++ [closing'.val]) =
            body.tokens ++ closing.val :: word.val :: opening'.val :: body'.tokens ++
              [closing'.val] := by
          simp
        rw [result, tokens_, Head.last, regroup, List.getLastD_concat,
          placeOf_conditional]
        rfl

theorem isRead {c : Category} (p : Phrase c) : p.IsRead := by
  induction p with
  | declaration d semicolon => exact statement_of_declaration (declaration_tokens d semicolon)
  | action a semicolon =>
    have read := expressionStatement_tokens a semicolon
    obtain ⟨t, ts, ht, hk⟩ := a.head_tokens
    rw [tokens, ht] at read
    rw [IsRead, tokens, ht]
    exact statement_of_expressionStatement hk read
  | conditional test consequent ih =>
    exact statement_of_conditional test.ifWord.property (conditional_tokens test consequent ih)
  | conditionalElse test consequent elseWord alternate ihc iha =>
    exact statement_of_conditional test.ifWord.property
      (conditionalElse_tokens test consequent elseWord alternate ihc iha)
  | block opening body closing ih => exact ih
  | done => rw [IsRead, slices, result]; rfl
  | more first rest ihf ihr =>
    have readFirst : statement first.tokens = .ok first.result := ihf
    have readRest : rest.slices.map statement = rest.result.map .ok := ihr
    rw [IsRead, slices, result, List.map_cons, List.map_cons, readFirst, readRest]

end Phrase

/-- The statements of a body are read as what they stand for. -/
theorem program_tokens (b : Phrase .body) : program b.tokens = .ok ⟨b.result⟩ := by
  have cut_ : cut {} (b.tokens ++ []) = _ := b.cut_body (by simp)
  rw [List.append_nil] at cut_
  rw [program_eq_ok, cut_]
  refine ⟨by rw [cut]; rfl, ?_⟩
  rw [cut, Cut.stop, List.append_nil]
  exact b.isRead

/-! ## Soundness -/

/-- Shorter tokens that are read as a statement are a phrase. -/
def StatementsBelow (n : Nat) : Prop :=
  ∀ ts s, ts.length < n → statement ts = .ok s → ∃ p : Phrase .statement, p.tokens = ts

/-- Slices that are read make a body. -/
theorem exists_body {slices : List (List Token)} {ss : List Stmt} {n : Nat}
    (below : StatementsBelow n) (short : ∀ slice ∈ slices, slice.length < n)
    (h : slices.map statement = ss.map .ok) :
    ∃ b : Phrase .body, b.tokens = slices.flatten := by
  induction slices generalizing ss with
  | nil => exact ⟨.done, rfl⟩
  | cons slice slices ih =>
    cases ss with
    | nil => cases h
    | cons s ss =>
      rw [List.map_cons, List.map_cons, List.cons.injEq] at h
      obtain ⟨p, rfl⟩ := below slice s (short slice List.mem_cons_self) h.1
      obtain ⟨b, hb⟩ := ih (fun slice hm => short slice (List.mem_cons_of_mem _ hm)) h.2
      exact ⟨.more p b, by rw [Phrase.tokens, hb, List.flatten_cons]⟩

/-- What is cut up to a brace is a block, if its slices are read. -/
theorem exists_block {n : Nat} {opening brace : Token} {body rest : List Token} {ss : List Stmt}
    (below : StatementsBelow n) (ho : opening.kind = .openBrace) (hn : body.length < n)
    (he : (cut {} body).ending = .closed [] brace rest)
    (h : (cut {} body).slices.map statement = ss.map .ok) :
    ∃ p : Phrase .block, p.tokens ++ rest = opening :: body := by
  have short (slice : List Token) (hs : slice ∈ (cut {} body).slices) : slice.length < n := by
    have := length_le_of_mem_cut hs
    simp only [List.length_nil] at this
    omega
  obtain ⟨b, hb⟩ := exists_body below short h
  have isBrace : brace.kind = .closeBrace := kind_of_closed he
  refine ⟨.block ⟨opening, ho⟩ b ⟨brace, isBrace⟩, ?_⟩
  have tokens_ : b.tokens ++ brace :: rest = body := by
    rw [hb]
    exact (tokens_of_closed he).symm
  rw [← tokens_, Phrase.tokens, List.cons_append, List.cons_append, List.append_assoc]
  rfl

theorem exists_conditional {ts : List Token} {s : Stmt} (below : StatementsBelow ts.length)
    (h : conditional ts = .ok s) :
    (∃ test p, (Phrase.conditional test p).tokens = ts) ∨
      ∃ test p word q, (Phrase.conditionalElse test p word q).tokens = ts := by
  obtain ⟨start, slices, slices', consequent, alternate, hh, hb, hc, ha, -⟩ := conditional_eq_ok.1 h
  have shorter := length_lt_of_head_eq_ok hh
  obtain ⟨opening, closing, brace, rfl, -, isIf, isOpen, isName, isClose, isBrace⟩ :=
    head_eq_ok.1 hh
  obtain ⟨rfl, ⟨c, he, rfl⟩ | ⟨c, word, opening', inner, c', he, hw, ho, hc', rfl⟩⟩ :=
    blocks_eq_complete.1 hb
  · obtain ⟨p, hp⟩ := exists_block below isBrace shorter he hc
    refine .inl ⟨⟨⟨start.first, isIf⟩, ⟨opening, isOpen⟩, ⟨start.test, isName⟩, ⟨closing, isClose⟩⟩, p, ?_⟩
    rw [← hp, List.append_nil]
    rfl
  · -- the second block is cut from what the first one left
    have inside : inner.length < start.body.length := by
      have := congrArg List.length (tokens_of_closed he)
      simp only [List.length_append, List.length_cons] at this
      omega
    obtain ⟨p, hp⟩ := exists_block below isBrace shorter he hc
    obtain ⟨q, hq⟩ := exists_block below ho (Nat.lt_trans inside shorter) hc' ha
    refine .inr ⟨⟨⟨start.first, isIf⟩, ⟨opening, isOpen⟩, ⟨start.test, isName⟩, ⟨closing, isClose⟩⟩, p,
      ⟨word, hw⟩, q, ?_⟩
    rw [← hp, ← hq, List.append_nil]
    rfl

theorem exists_statement {ts : List Token} {s : Stmt} (h : statement ts = .ok s) :
    ∃ p : Phrase .statement, p.tokens = ts := by
  -- by the number of tokens: only a conditional reads slices again, and its blocks are shorter
  induction hlen : ts.length using Nat.strongRecOn generalizing ts s with
  | ind n ih =>
    have below : StatementsBelow ts.length := fun us s' hlt hu =>
      ih us.length (hlen ▸ hlt) hu rfl
    rcases statement_eq_ok h with h | h | h
    · obtain ⟨d, semicolon, hd⟩ := exists_declaration h
      exact ⟨_, hd⟩
    · obtain ⟨a, semicolon, ha⟩ := exists_expressionStatement h
      exact ⟨_, ha⟩
    · rcases exists_conditional below h with ⟨test, p, hp⟩ | ⟨test, p, word, q, hp⟩
      · exact ⟨_, hp⟩
      · exact ⟨_, hp⟩

theorem statementsBelow (n : Nat) : StatementsBelow n := fun _ _ _ h => exists_statement h

/-- What is read as a program is a body, and stands for the statements that are read. -/
theorem exists_phrase {ts : List Token} {ss : List Stmt} (h : program ts = .ok ⟨ss⟩) :
    ∃ b : Phrase .body, b.tokens = ts ∧ b.result = ss := by
  obtain ⟨he, hs⟩ := program_eq_ok.1 h
  obtain ⟨b, hb⟩ := exists_body (statementsBelow (ts.length + 1))
    (fun slice hm => Nat.lt_succ_of_le (by simpa using length_le_of_mem_cut hm)) hs
  have all : b.tokens = ts := by
    have := tokens_cut {} ts
    rw [Cut.tokens, he] at this
    simpa [Ending.tokens, hb] using this
  refine ⟨b, all, ?_⟩
  rw [← all, program_tokens] at h
  cases h
  rfl

/-! ## The parser and the grammar -/

/-- A program in a pair of braces. -/
structure Block where
  opening : TokenOf .openBrace
  inner : List Token
  closing : TokenOf .closeBrace
  statements : List Stmt
  read : program inner = .ok ⟨statements⟩

def Block.tokens (b : Block) : List Token := b.opening.val :: b.inner ++ [b.closing.val]

/-- A block is a phrase exactly if what its braces hold is a program. -/
theorem Block.exists_phrase (b : Block) :
    ∃ p : Phrase .block, p.tokens = b.tokens ∧ p.result = b.statements := by
  obtain ⟨body, ht, hs⟩ := Grammar.exists_phrase b.read
  exact ⟨.block b.opening body b.closing, by rw [Phrase.tokens, ht]; rfl, hs⟩

theorem Phrase.exists_block (p : Phrase .block) :
    ∃ b : Block, b.tokens = p.tokens ∧ b.statements = p.result := by
  cases p with
  | block opening body closing =>
    exact ⟨⟨opening, body.tokens, closing, body.result, program_tokens body⟩, rfl, rfl⟩

/-- The parser of programs accepts exactly the tokens of a body of the grammar, and reads them as its
statements, in order. The braces of a conditional hold programs: its blocks are cut by the same rule
as the whole text, and an `else` belongs to the conditional whose brace it follows. -/
theorem program_reads_grammar (ts : List Token) :
    (∀ ss, program ts = .ok ⟨ss⟩ ↔ ∃ b : Phrase .body, b.tokens = ts ∧ b.result = ss) ∧
    ∀ s, conditional ts = .ok s ↔
      (∃ (test : Test) (b : Block), ts = test.tokens ++ b.tokens ∧
        s = .conditional (nameOf test.name) b.statements [] (placeOf ts)) ∨
      ∃ (test : Test) (b : Block) (word : TokenOf .elseKeyword) (a : Block),
        ts = test.tokens ++ (b.tokens ++ word.val :: a.tokens) ∧
        s = .conditional (nameOf test.name) b.statements a.statements (placeOf ts) := by
  constructor
  · intro ss
    constructor
    · exact exists_phrase
    · rintro ⟨b, rfl, rfl⟩
      exact program_tokens b
  · intro s
    constructor
    · intro h
      rcases exists_conditional (statementsBelow _) h with ⟨test, p, rfl⟩ | ⟨test, p, word, q, rfl⟩
      · obtain ⟨b, hb, hr⟩ := p.exists_block
        rw [Phrase.conditional_tokens test p p.isRead] at h
        cases h
        exact .inl ⟨test, b, by rw [hb]; rfl, by rw [hr]; rfl⟩
      · obtain ⟨b, hb, hr⟩ := p.exists_block
        obtain ⟨a, ha, hq⟩ := q.exists_block
        rw [Phrase.conditionalElse_tokens test p word q p.isRead q.isRead] at h
        cases h
        exact .inr ⟨test, b, word, a, by rw [hb, ha]; rfl, by rw [hr, hq]; rfl⟩
    · rintro (⟨test, b, rfl, rfl⟩ | ⟨test, b, word, a, rfl, rfl⟩)
      · obtain ⟨p, ht, hs⟩ := b.exists_phrase
        rw [← ht, ← hs]
        exact Phrase.conditional_tokens test p p.isRead
      · obtain ⟨p, ht, hs⟩ := b.exists_phrase
        obtain ⟨q, hu, hr⟩ := a.exists_phrase
        rw [← ht, ← hs, ← hu, ← hr]
        exact Phrase.conditionalElse_tokens test p word q p.isRead q.isRead

end Slate.Grammar
