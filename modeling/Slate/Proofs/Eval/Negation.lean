import Slate.Eval
import Slate.Proofs.Decimal.Exact
import Slate.Proofs.Grammar.ExprParser

/-!
# A sign is exact

No operator takes one operand: `-(x)` is read as nought less `x`. So a sign could ask or say something of its own,
round its operand, or be too large for a decimal. It does none of this:

    tokens ──expression──▶ e          o, how e ends
    - ( tokens ) ────────▶ 0 - e      the same events and answers, and then Negates o

* `SignedParentheses.expression_around` — what is read as an operand is read behind a sign as well;
* `Expr.eval_negation` — an operand with a sign runs as the operand, and then ends without a word;
* `negates_negated` — how it ends, for each way in which the operand can end;
* `negation_exact` — all of it, and the operand's value again behind two signs.
-/

namespace Slate

open Slate.Parser Slate.Grammar

/-! ## Tokens -/

/-- The tokens that put an operand in parentheses and a sign in front of them. -/
structure SignedParentheses where
  minus : TokenOf .minus
  opening : TokenOf .openParen
  closing : TokenOf .closeParen

namespace SignedParentheses

/-- The tokens of an operand between those of the parentheses, behind the sign. -/
def around (s : SignedParentheses) (ts : List Token) : List Token :=
  s.minus.val :: s.opening.val :: ts ++ [s.closing.val]

/-- From the sign to the closing parenthesis. -/
def place (s : SignedParentheses) : Span := .cover s.minus.val.span s.closing.val.span

/-- The operand with the sign in front. -/
def negation (s : SignedParentheses) (e : Expr) : Expr := .negation s.minus.val.span e s.place

theorem expression_around {ts : List Token} {e : Expr} (read : expression ts = .ok e)
    (s : SignedParentheses) : expression (s.around ts) = .ok (s.negation e) := by
  obtain ⟨d, rfl, rfl⟩ := exists_derivation read
  exact expression_tokens (.ofTerm (.ofFactor (.sign s.minus (.ofAtom (.group s.opening d s.closing)))))

end SignedParentheses

/-! ## Runs -/

namespace Dialogue

variable {ε α β : Type}

theorem withAnswers_ofExcept (vars : ProcessEnv) (r : Except ε α) (answers : List String) :
    (ofExcept r).withAnswers vars answers = ⟨r, [], answers⟩ := by
  cases r <;> rfl

/-- What ends without a word leaves the events and the answers as they were. -/
theorem withAnswers_bind_ofExcept (vars : ProcessEnv) (d : Dialogue ε α) (f : α → Except ε β)
    (answers : List String) :
    (d >>= fun a => .ofExcept (f a)).withAnswers vars answers =
      ⟨(d.withAnswers vars answers).result >>= f, (d.withAnswers vars answers).events,
        (d.withAnswers vars answers).answers⟩ := by
  simp only [withAnswers_bind, withAnswers_ofExcept]
  obtain ⟨result, events, left⟩ := d.withAnswers vars answers
  cases result with
  | error e => rfl
  | ok a => simp [Outcome.andThen, bind, Except.bind]

end Dialogue

/-- The value of an operand with a sign in front. `place` is that of both, `operand` that of the operand. -/
def negated (place operand : Span) : Option Value → Except EvalError (Option Value)
  | none => .error ⟨.noValue, operand⟩
  | some a =>
    match BinaryOp.subtract.apply (.number .zero) a with
    | .ok c => .ok (some c)
    | .error fault => .error ⟨fault, place⟩

theorem Expr.eval_negation (v : Version) (env : Env) (sign : Span) (e : Expr) (place : Span) :
    (negation sign e place).eval v env =
      e.eval v env >>= fun a => .ofExcept (negated place e.span a) := by
  rw [negation, Expr.eval, Expr.eval]
  refine congrArg (e.eval v env >>= ·) (funext fun a => ?_)
  cases a with
  | none => rfl
  | some a =>
    show (match BinaryOp.subtract.apply (.number .zero) a with
      | .ok c => Dialogue.done (some c)
      | .error fault => Run.fail place fault) = .ofExcept (negated place e.span (some a))
    rw [negated]
    cases BinaryOp.subtract.apply (.number .zero) a <;> rfl

/-- How an operand with a sign in front ends, by how the operand ends: a number with the opposite of it, other
values with the fault that they are no numbers, and an error with that error. -/
inductive Negates (place operand : Span) :
    Except EvalError (Option Value) → Except EvalError (Option Value) → Prop
  | number {d d' : Decimal} (h : d'.value = -d.value) :
      Negates place operand (.ok (some (.number d))) (.ok (some (.number d')))
  | other {a : Value} (h : a.type ≠ .number) :
      Negates place operand (.ok (some a)) (.error ⟨.invalidOperands .subtract .number a.type, place⟩)
  | noValue : Negates place operand (.ok none) (.error ⟨.noValue, operand⟩)
  | failed (e : EvalError) : Negates place operand (.error e) (.error e)

theorem negates_negated (place operand : Span) (result : Except EvalError (Option Value)) :
    Negates place operand result (result >>= negated place operand) := by
  rcases result with e | _ | a
  · exact .failed e
  · exact .noValue
  · cases a with
    | number d =>
      obtain ⟨d', made, opposite⟩ := d.zero_sub?
      have value : negated place operand (some (.number d)) = .ok (some (.number d')) := by
        simp [negated, BinaryOp.apply, BinaryOp.onNumbers, made]
      show Negates place operand _ (negated place operand (some (.number d)))
      rw [value]
      exact .number opposite
    | string s => exact .other (a := .string s) (by simp [Value.type])
    | boolean b => exact .other (a := .boolean b) (by simp [Value.type])

theorem Negates.exists_number {place operand : Span} {d : Decimal}
    {result : Except EvalError (Option Value)}
    (h : Negates place operand (.ok (some (.number d))) result) :
    ∃ d', result = .ok (some (.number d')) ∧ d'.value = -d.value := by
  cases h with
  | number h => exact ⟨_, rfl, h⟩
  | other h => exact absurd rfl h

/-- Run on its own, or behind a sign. -/
theorem SignedParentheses.withAnswers_negation (s : SignedParentheses) (v : Version) (env : Env) (e : Expr)
    (vars : ProcessEnv) (answers : List String) :
    let o := (e.eval v env).withAnswers vars answers
    let signed := ((s.negation e).eval v env).withAnswers vars answers
    signed.events = o.events ∧ signed.answers = o.answers ∧
      Negates s.place e.span o.result signed.result := by
  intro o signed
  have led : signed = ⟨o.result >>= negated s.place e.span, o.events, o.answers⟩ := by
    rw [← Dialogue.withAnswers_bind_ofExcept, ← Expr.eval_negation]
    rfl
  rw [led]
  exact ⟨rfl, rfl, negates_negated _ _ _⟩

/-! ## Expressions in parentheses behind a sign -/

/-- An expression in parentheses is read behind a sign. Run in the same way as the expression, it writes, asks and
takes the same, and ends with the opposite of the same number, or with an error: that of the expression, or what
is wrong with a value of another type or with none. Behind two signs a number is what it was. -/
theorem negation_exact {ts : List Token} {e : Expr} (read : expression ts = .ok e)
    (s outer : SignedParentheses) :
    expression (s.around ts) = .ok (s.negation e) ∧
      expression (outer.around (s.around ts)) = .ok (outer.negation (s.negation e)) ∧
      ∀ (v : Version) (env : Env) (vars : ProcessEnv) (answers : List String),
        let o := (e.eval v env).withAnswers vars answers
        let once := ((s.negation e).eval v env).withAnswers vars answers
        let twice := ((outer.negation (s.negation e)).eval v env).withAnswers vars answers
        once.events = o.events ∧ once.answers = o.answers ∧ Negates s.place e.span o.result once.result ∧
          ∀ d, o.result = .ok (some (.number d)) →
            ∃ d', twice.result = .ok (some (.number d')) ∧ d'.value = d.value := by
  have inner := s.expression_around read
  refine ⟨inner, outer.expression_around inner, fun v env vars answers => ?_⟩
  intro o once twice
  obtain ⟨events, left, ends⟩ := s.withAnswers_negation v env e vars answers
  refine ⟨events, left, ends, fun d number => ?_⟩
  have endsOnce : Negates s.place e.span (.ok (some (.number d))) once.result := by
    rw [← number]
    exact ends
  obtain ⟨d', result, opposite⟩ := endsOnce.exists_number
  have endsTwice : Negates outer.place (s.negation e).span (.ok (some (.number d'))) twice.result := by
    rw [← result]
    exact (outer.withAnswers_negation v env (s.negation e) vars answers).2.2
  obtain ⟨d'', result', opposite'⟩ := endsTwice.exists_number
  exact ⟨d'', result', by rw [opposite', opposite, neg_neg]⟩

/-- The largest number of 28 digits behind the point. -/
def finest : Token := ⟨⟨.number, "7.9228162514264337593543950335"⟩, ⟨1, 5, 35⟩⟩

/-- The tokens of `-(` and `)` around it. -/
def finestInner : SignedParentheses :=
  ⟨⟨⟨⟨.minus, "-"⟩, ⟨1, 3, 4⟩⟩, rfl⟩, ⟨⟨⟨.openParen, "("⟩, ⟨1, 4, 5⟩⟩, rfl⟩,
    ⟨⟨⟨.closeParen, ")"⟩, ⟨1, 35, 36⟩⟩, rfl⟩⟩

/-- The tokens of `-(` and `)` around these. -/
def finestOuter : SignedParentheses :=
  ⟨⟨⟨⟨.minus, "-"⟩, ⟨1, 1, 2⟩⟩, rfl⟩, ⟨⟨⟨.openParen, "("⟩, ⟨1, 2, 3⟩⟩, rfl⟩,
    ⟨⟨⟨.closeParen, ")"⟩, ⟨1, 36, 37⟩⟩, rfl⟩⟩

theorem negation_exact_finest :
    ∃ d, Decimal.ofString? finest.text = .ok d ∧ d.scale = 28 ∧
      expression [finest] = .ok (.literal ⟨.number d, finest.span⟩) ∧
      ∀ (v : Version) (env : Env) (vars : ProcessEnv) (answers : List String),
        let once := finestInner.negation (.literal ⟨.number d, finest.span⟩)
        (∃ d', ((once.eval v env).withAnswers vars answers).result = .ok (some (.number d')) ∧
          d'.value = -d.value) ∧
        ∃ d', (((finestOuter.negation once).eval v env).withAnswers vars answers).result =
          .ok (some (.number d')) ∧ d'.value = d.value := by
  obtain ⟨d, text, scale⟩ : ∃ d, Decimal.ofString? finest.text = .ok d ∧ d.scale = 28 :=
    ⟨_, rfl, rfl⟩
  have read : expression [finest] = .ok (.literal ⟨.number d, finest.span⟩) :=
    expression_tokens (.ofTerm (.ofFactor (.ofAtom (.leaf (.number ⟨finest, rfl⟩ d text)))))
  refine ⟨d, text, scale, read, fun v env vars answers => ?_⟩
  obtain ⟨-, -, ends, back⟩ :=
    (negation_exact read finestInner finestOuter).2.2 v env vars answers
  exact ⟨ends.exists_number, back d rfl⟩

end Slate
