import Slate.Proofs.Grammar.ExprParser
import Slate.Proofs.Tree.Relocate

/-!
# The parser of expressions does not see places

The parser looks at the kinds and the texts of its tokens, and makes each span of its answer from theirs. So
to read tokens that are all moved by some `f` is to read the tokens themselves and to move the answer, be it
a tree or a failure:

    tokens ──relocate f──▶ tokens
       │ expression           │ expression
       ▼                      ▼
     answer ──relocate f──▶ answer

Nothing is asked of `f` but that it moves the span of a node to where the parts of the node go
(`Span.Coherent`).
-/

namespace Slate

variable (f : Span → Span)

theorem getLastD_relocate (t : Token) (ts : List Token) :
    (ts.map (Token.relocate f)).getLastD (t.relocate f) = (ts.getLastD t).relocate f := by
  rw [List.getLastD_eq_getLast?, List.getLastD_eq_getLast?, List.getLast?_map]
  cases ts.getLast? <;> rfl

section

variable {f} (hf : Span.Coherent f)
include hf

theorem coverFrom_relocate (t : Token) (ts : List Token) :
    coverFrom (t.relocate f) (ts.map (Token.relocate f)) = f (coverFrom t ts) := by
  rw [coverFrom, coverFrom, getLastD_relocate, hf.cover]
  rfl

theorem coverAll_relocate (ts : List Token) :
    coverAll (ts.map (Token.relocate f)) = (coverAll ts).map f := by
  cases ts with
  | nil => rfl
  | cons t ts => exact congrArg some (coverFrom_relocate hf t ts)

theorem Expr.relocate_negation (sign span : Span) (e : Expr) :
    (Expr.negation sign e span).relocate f = .negation (f sign) (e.relocate f) (f span) := by
  rw [negation, negation, relocate, relocate, Literal.relocate, hf.before]

end

namespace Parser

/-! ## Answers -/

/-- The failure at another place. -/
def Failure.relocate (e : Failure) : Failure := { e with span := e.span.map f }

/-- The answer whose places are moved: those of a result by `g`, those of a failure by `f`. -/
def Parsed.relocate {α β : Type} (g : α → β) : Parsed α → Parsed β
  | .ok a => .ok (g a)
  | .error e => .error (e.relocate f)

section

variable {f} {α α' β β' : Type} {g : α → α'} {g' : β → β'}

/-- What is read after something else is moved if both are. -/
theorem bind_eq_relocate_of_ok {r : Parsed α} {r' : Parsed α'} {next : α → Parsed β}
    {next' : α' → Parsed β'} (h : r' = Parsed.relocate f g r)
    (hnext : ∀ a, r = .ok a → next' (g a) = Parsed.relocate f g' (next a)) :
    (r' >>= next') = Parsed.relocate f g' (r >>= next) := by
  rw [h]
  cases r with
  | ok a => exact hnext a rfl
  | error e => rfl

theorem bind_eq_relocate {r : Parsed α} {r' : Parsed α'} {next : α → Parsed β}
    {next' : α' → Parsed β'} (h : r' = Parsed.relocate f g r)
    (hnext : ∀ a, next' (g a) = Parsed.relocate f g' (next a)) :
    (r' >>= next') = Parsed.relocate f g' (r >>= next) :=
  bind_eq_relocate_of_ok h fun a _ => hnext a

theorem ite_eq_relocate {p p' : Prop} [Decidable p] [Decidable p'] {yes no : Parsed α}
    {yes' no' : Parsed α'} (h : p' ↔ p) (hyes : yes' = Parsed.relocate f g yes)
    (hno : no' = Parsed.relocate f g no) :
    (if p' then yes' else no') = Parsed.relocate f g (if p then yes else no) := by
  by_cases hp : p
  · rw [if_pos hp, if_pos (h.2 hp), hyes]
  · rw [if_neg hp, if_neg (mt h.1 hp), hno]

theorem inOrder_relocate {as : List α} {read : α → Parsed β} {read' : α' → Parsed β'}
    (h : ∀ a ∈ as, read' (g a) = Parsed.relocate f g' (read a)) :
    inOrder ((as.map g).map read') = Parsed.relocate f (List.map g') (inOrder (as.map read)) := by
  induction as with
  | nil => rfl
  | cons a as ih =>
    obtain ⟨ha, has⟩ := List.forall_mem_cons.1 h
    rw [List.map_cons, List.map_cons, List.map_cons, ha]
    cases read a with
    | error e => rfl
    | ok b =>
      show (inOrder _).map _ = Parsed.relocate f _ ((inOrder _).map _)
      rw [ih has]
      cases inOrder (as.map read) <;> rfl

end

/-! ## Parentheses and commas -/

theorem balanced_relocate (opened ts : List Token) :
    balanced (opened.map (Token.relocate f)) (ts.map (Token.relocate f)) =
      Parsed.relocate f id (balanced opened ts) := by
  fun_induction balanced opened ts <;>
    simp_all [balanced, failAt, Parsed.relocate, Failure.relocate]

/-- The parts of an enclosure, all moved. -/
def Enclosed.relocate (e : Enclosed) : Enclosed :=
  ⟨e.inner.map (Token.relocate f), e.close.relocate f, e.rest.map (Token.relocate f)⟩

theorem closingParen?_relocate (depth : Nat) (ts : List Token) :
    closingParen? depth (ts.map (Token.relocate f)) =
      (closingParen? depth ts).map (Enclosed.relocate f) := by
  induction ts generalizing depth with
  | nil => rfl
  | cons t ts ih =>
    rw [List.map_cons, closingParen?, closingParen?, Token.kind_relocate]
    split
    · rfl
    · show (closingParen? (depthAfter t depth) _).map _ = _
      rw [ih]
      cases closingParen? (depthAfter t depth) ts <;> rfl

theorem consFirst_relocate (t : Token) (ps : List (List Token)) :
    consFirst (t.relocate f) (ps.map (List.map (Token.relocate f))) =
      (consFirst t ps).map (List.map (Token.relocate f)) := by
  cases ps <;> rfl

theorem commaParts_relocate (depth : Nat) (ts : List Token) :
    commaParts depth (ts.map (Token.relocate f)) =
      (commaParts depth ts).map (List.map (Token.relocate f)) := by
  induction ts generalizing depth with
  | nil => rfl
  | cons t ts ih =>
    rw [List.map_cons, commaParts, commaParts, Token.kind_relocate]
    split
    · rw [ih]
      rfl
    · rw [← consFirst_relocate, ← ih]
      rfl

/-! ## Operators -/

theorem operatorAt?_relocate (previous : Option Token) (depth : Nat) (t : Token) :
    operatorAt? (previous.map (Token.relocate f)) depth (t.relocate f) =
      operatorAt? previous depth t := by
  cases previous <;> rfl

/-- The parts around an operator, all moved. -/
def Split.relocate (s : Split) : Split :=
  ⟨s.left.map (Token.relocate f), s.sign.relocate f, s.op, s.right.map (Token.relocate f)⟩

theorem weakest_relocate (previous : Option Token) (depth : Nat) (ts : List Token) :
    weakest (previous.map (Token.relocate f)) depth (ts.map (Token.relocate f)) =
      (weakest previous depth ts).map (Split.relocate f) := by
  induction ts generalizing previous depth with
  | nil => rfl
  | cons t ts ih =>
    have later : (weakest (some (t.relocate f)) (depthAfter (t.relocate f) depth)
        (ts.map (Token.relocate f))).map (Split.prepend (t.relocate f)) =
        ((weakest (some t) (depthAfter t depth) ts).map (Split.prepend t)).map
          (Split.relocate f) := by
      have more := ih (some t) (depthAfter t depth)
      rw [Option.map_some] at more
      show (weakest _ (depthAfter t depth) _).map _ = _
      rw [more]
      cases weakest (some t) (depthAfter t depth) ts <;> rfl
    rw [List.map_cons, weakest, weakest, later, operatorAt?_relocate]
    cases operatorAt? previous depth t with
    | none => rfl
    | some op =>
      cases (weakest (some t) (depthAfter t depth) ts).map (Split.prepend t) with
      | none => rfl
      | some s =>
        show (if s.op.precedence ≤ op.precedence then _ else _) =
          (if s.op.precedence ≤ op.precedence then some s else _).map _
        split <;> rfl

theorem Split.span_relocate {f : Span → Span} (hf : Span.Coherent f) (s : Split) :
    (s.relocate f).span = f s.span := by
  obtain ⟨left, sign, op, right⟩ := s
  unfold span relocate
  dsimp only
  rw [getLastD_relocate, hf.cover]
  cases left <;> rfl

/-! ## Forms -/

def Group.relocate (g : Group) : Group :=
  ⟨g.opening.relocate f, g.inner.map (Token.relocate f), g.closing.relocate f⟩

def CallForm.relocate (c : CallForm) : CallForm :=
  ⟨c.callee.relocate f, c.opening.relocate f, c.inner.map (Token.relocate f), c.closing.relocate f⟩

theorem CallForm.arguments_relocate (c : CallForm) :
    (c.relocate f).arguments = c.arguments.map (List.map (Token.relocate f)) := by
  unfold arguments
  by_cases h : c.inner = []
  · simp [relocate, h]
  · simp [relocate, h, commaParts_relocate]

section

variable {f} (hf : Span.Coherent f)
include hf

theorem failAt_after_relocate {α β : Type} {g : α → β} (s : Span) (fault : Fault) :
    failAt (f s).after fault = Parsed.relocate f g (failAt s.after fault) :=
  congrArg (fun place => failAt place fault) (hf.after s).symm

theorem mismatch_relocate {α β : Type} {g : α → β} (c : Construct) (ts : List Token) :
    mismatch c (ts.map (Token.relocate f)) = Parsed.relocate f g (mismatch c ts) := by
  rw [mismatch, coverAll_relocate hf]
  rfl

theorem Group.ofTokens_relocate (ts : List Token) :
    Group.ofTokens (ts.map (Token.relocate f)) =
      Parsed.relocate f (Group.relocate f) (Group.ofTokens ts) := by
  cases ts with
  | nil => rfl
  | cons t ts =>
    rw [List.map_cons, ofTokens, ofTokens, Token.kind_relocate, closingParen?_relocate]
    split
    · rcases closingParen? 0 ts with _ | ⟨inner, close, _ | ⟨extra, rest⟩⟩ <;> rfl
    · exact mismatch_relocate hf .parenthesized (t :: ts)

theorem CallForm.ofTokens_relocate (ts : List Token) :
    CallForm.ofTokens (ts.map (Token.relocate f)) =
      Parsed.relocate f (CallForm.relocate f) (CallForm.ofTokens ts) := by
  rcases ts with _ | ⟨callee, _ | ⟨opening, ts⟩⟩
  · rfl
  · exact mismatch_relocate hf .call [callee]
  · rw [List.map_cons, List.map_cons, ofTokens, ofTokens, Token.kind_relocate, Token.kind_relocate,
      closingParen?_relocate]
    split
    · rcases closingParen? 0 ts with _ | ⟨inner, close, _ | ⟨extra, rest⟩⟩ <;> rfl
    · exact mismatch_relocate hf .call (callee :: opening :: ts)

/-! ## Single tokens -/

theorem literal_relocate (t : Token) :
    literal [t.relocate f] = Parsed.relocate f (Literal.relocate f) (literal [t]) := by
  have other (c : Construct) :
      mismatch c [t.relocate f] = Parsed.relocate f (Literal.relocate f) (mismatch c [t]) :=
    mismatch_relocate hf c [t]
  rw [literal, literal, Token.kind_relocate]
  split
  · rw [numberLiteral, numberLiteral, Token.text_relocate]
    refine ite_eq_relocate Iff.rfl ?_ (other .number)
    cases Decimal.ofString? t.text <;> rfl
  · exact ite_eq_relocate Iff.rfl rfl (other .string)
  · refine ite_eq_relocate Iff.rfl ?_ (other .boolean)
    exact ite_eq_relocate Iff.rfl rfl (ite_eq_relocate Iff.rfl rfl rfl)
  · exact other .literal

theorem atom_relocate (t : Token) :
    atom (t.relocate f) = Parsed.relocate f (Expr.relocate f) (atom t) := by
  have ofLiteral : (literal [t.relocate f]).map Expr.literal =
      Parsed.relocate f (Expr.relocate f) ((literal [t]).map Expr.literal) := by
    rw [literal_relocate hf]
    cases literal [t] with
    | ok l => exact congrArg Except.ok (Expr.relocate.eq_1 f l).symm
    | error e => rfl
  unfold atom
  rw [Token.kind_relocate]
  split
  · exact congrArg Except.ok (Expr.relocate.eq_2 f ⟨t.text, t.span⟩).symm
  · exact ofLiteral
  · exact ofLiteral
  · exact ofLiteral
  · rfl

end

/-! ## Expressions -/

/-- To read the moved tokens is to move what is read from the tokens. -/
def ReadRelocates (ts : List Token) : Prop :=
  expression (ts.map (Token.relocate f)) = Parsed.relocate f (Expr.relocate f) (expression ts)

section

variable {f} (hf : Span.Coherent f)
include hf

theorem binaryOf_relocate {s : Split} (left : ReadRelocates f s.left)
    (right : ReadRelocates f s.right) :
    binaryOf (s.relocate f) = Parsed.relocate f (Expr.relocate f) (binaryOf s) := by
  rw [binaryOf, binaryOf]
  refine ite_eq_relocate List.map_eq_nil_iff ?_ ?_
  · exact failAt_after_relocate hf _ _
  · refine bind_eq_relocate left fun l => bind_eq_relocate right fun r => congrArg Except.ok ?_
    rw [Expr.relocate, s.span_relocate hf]
    rfl

theorem groupOf_relocate {g : Group} (inner : ReadRelocates f g.inner) :
    groupOf (g.relocate f) = Parsed.relocate f (Expr.relocate f) (groupOf g) := by
  rw [groupOf, groupOf]
  exact ite_eq_relocate List.map_eq_nil_iff (failAt_after_relocate hf _ _) inner

theorem argument_relocate {part : List Token} (h : ReadRelocates f part) (inner : List Token) :
    argument (inner.map (Token.relocate f)) (part.map (Token.relocate f)) =
      Parsed.relocate f (Expr.relocate f) (argument inner part) := by
  rw [argument, argument, coverAll_relocate hf]
  exact ite_eq_relocate List.map_eq_nil_iff rfl h

theorem callOf_relocate {c : CallForm} (h : ∀ part ∈ c.arguments, ReadRelocates f part) :
    callOf (c.relocate f) = Parsed.relocate f (Expr.relocate f) (callOf c) := by
  rw [callOf_eq, callOf_eq, CallForm.arguments_relocate]
  refine bind_eq_relocate (inOrder_relocate fun part hp => argument_relocate hf (h part hp) c.inner)
    fun es => congrArg Except.ok ?_
  rw [Expr.relocate, relocateExprs_eq_map, hf.cover]
  rfl

theorem parenthesized_relocate {ts : List Token}
    (below : ∀ us : List Token, us.length < ts.length → ReadRelocates f us) :
    parenthesized (ts.map (Token.relocate f)) =
      Parsed.relocate f (Expr.relocate f) (parenthesized ts) := by
  refine bind_eq_relocate_of_ok (Group.ofTokens_relocate hf ts) fun g hg =>
    groupOf_relocate hf (below _ ?_)
  rw [← Group.ofTokens_eq_ok hg]
  simp only [Group.tokens, List.length_append, List.length_cons]
  omega

theorem call_relocate {ts : List Token}
    (below : ∀ us : List Token, us.length < ts.length → ReadRelocates f us) :
    call (ts.map (Token.relocate f)) = Parsed.relocate f (Expr.relocate f) (call ts) := by
  refine bind_eq_relocate_of_ok (CallForm.ofTokens_relocate hf ts) fun c hc =>
    callOf_relocate hf fun part hp => below _ ?_
  rw [← CallForm.ofTokens_eq_ok hc]
  exact CallForm.length_lt_of_mem_arguments hp

/-- To read an expression from moved tokens is to move what is read from the tokens themselves. -/
theorem expression_relocate (ts : List Token) :
    expression (ts.map (Token.relocate f)) = Parsed.relocate f (Expr.relocate f) (expression ts) := by
  -- over the number of tokens: whatever form is found in them, its parts are shorter
  induction hn : ts.length using Nat.strongRecOn generalizing ts with
  | ind n ih =>
    have below : ∀ us : List Token, us.length < ts.length → ReadRelocates f us :=
      fun us hus => ih us.length (hn ▸ hus) us rfl
    have balance := balanced_relocate f [] ts
    -- the moved tokens fail the same check, or are taken apart at the same place
    cases hb : balanced [] ts with
    | error e =>
      rw [hb] at balance
      rw [Grammar.expression_of_unbalanced hb, Grammar.expression_of_unbalanced balance]
      rfl
    | ok _ =>
      rw [hb] at balance
      have nested : Nested ts := balanced_eq_ok_iff.1 hb
      have nested' : Nested (ts.map (Token.relocate f)) := balanced_eq_ok_iff.1 balance
      have operator := weakest_relocate f none 0 ts
      cases hw : weakest none 0 ts with
      | some s =>
        rw [hw] at operator
        have length := congrArg List.length (weakest_eq_some hw)
        simp only [Split.tokens, List.length_append, List.length_cons] at length
        rw [Grammar.expression_of_weakest nested hw, Grammar.expression_of_weakest nested' operator]
        exact binaryOf_relocate hf (below _ (by omega)) (below _ (by omega))
      | none =>
        rw [hw] at operator
        rcases ts with _ | ⟨t, _ | ⟨u, us⟩⟩
        · rw [List.map_nil, expression]
          rfl
        · rw [List.map_singleton, Grammar.expression_singleton nested,
            Grammar.expression_singleton nested']
          exact atom_relocate hf t
        · simp only [List.map_cons] at nested' operator ⊢
          rw [Grammar.expression_cons_cons nested hw, Grammar.expression_cons_cons nested' operator,
            Token.kind_relocate]
          split
          · refine bind_eq_relocate (below (u :: us) (by simp)) fun e => congrArg Except.ok ?_
            rw [Expr.relocate_negation hf, ← coverFrom_relocate hf]
            rfl
          · exact parenthesized_relocate hf below
          · exact ite_eq_relocate Iff.rfl (call_relocate hf below) rfl
          · rfl

end

end Parser

end Slate
