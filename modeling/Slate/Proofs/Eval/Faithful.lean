import Slate.Proofs.Decimal.Text
import Slate.Proofs.Decimal.Value
import Slate.Proofs.Dialogue.Alike
import Slate.Proofs.Eval.Typed

/-!
# Texts instead of values

An environment keeps the canonical text of a value, and every read makes a value of it again. The number
that is read may have fewer noughts behind the point than the one that was stored, and nothing in the
language tells the two apart:

* `Value.Same` — equal values, but for how a number is written;
* `Env.Stores` — an environment of texts holds what an environment of values holds;
* `Expr.eval_alike`, `Stmt.exec_alike`, `execAll_alike` — from such environments the two interpreters
  run alike, and end in such environments again.
-/

namespace Slate

/-! ## Values that nothing tells apart -/

/-- The same value. A number may be written with other noughts behind the point. -/
inductive Value.Same : Value → Value → Prop
  | number {a b : Decimal} : a.value = b.value → Same (.number a) (.number b)
  | string (s : String) : Same (.string s) (.string s)
  | boolean (b : Bool) : Same (.boolean b) (.boolean b)

namespace Value.Same

variable {a b : Value}

theorem refl (a : Value) : a.Same a := by
  cases a with
  | number d => exact .number rfl
  | string s => exact .string s
  | boolean b => exact .boolean b

theorem rel_refl (o : Option Value) : o.Rel Same o := by
  cases o with
  | some a => exact .some (refl a)
  | none => exact .none

theorem type_eq (h : a.Same b) : a.type = b.type := by
  cases h <;> rfl

theorem canonical_eq (h : a.Same b) : a.canonical = b.canonical := by
  cases h with
  | number h => exact Decimal.canonical_eq_of_value_eq h
  | string | boolean => rfl

theorem isTruthy_eq (h : a.Same b) : a.isTruthy = b.isTruthy := by
  cases h with
  | number h => rw [isTruthy, isTruthy, Decimal.isZero_eq_of_value_eq h]
  | string | boolean => rfl

end Value.Same

/-! ## Operators and functions -/

theorem BinaryOp.onNumbers_eq (op : BinaryOp) {a a' b b' : Decimal} (ha : a.value = a'.value)
    (hb : b.value = b'.value) (nonzero : op = .divide → b.isZero = false) :
    op.onNumbers a b = op.onNumbers a' b' := by
  cases op with
  | add => rw [onNumbers, onNumbers, Decimal.add?_eq, Decimal.add?_eq, ha, hb]
  | subtract => rw [onNumbers, onNumbers, Decimal.sub?_eq, Decimal.sub?_eq, ha, hb]
  | multiply => rw [onNumbers, onNumbers, Decimal.mul?_eq, Decimal.mul?_eq, ha, hb]
  | divide =>
    have nonzero' : b'.isZero = false := by
      rw [← Decimal.isZero_eq_of_value_eq hb]
      exact nonzero rfl
    rw [onNumbers, onNumbers, Decimal.div?_eq _ (nonzero rfl), Decimal.div?_eq _ nonzero', ha, hb]

/-- An operator makes the same of the same. -/
theorem BinaryOp.apply_alike (op : BinaryOp) {a a' b b' : Value} (ha : a.Same a') (hb : b.Same b') :
    EndsAlike Value.Same (op.apply a b) (op.apply a' b') := by
  -- only a text or two numbers make a value, so the other pairs fail with their types
  cases ha with
  | string s =>
    cases op with
    | add =>
      rw [apply, apply, hb.canonical_eq]
      exact .ok (.refl _)
    | subtract | multiply | divide => cases hb <;> exact .error _
  | boolean x =>
    cases hb with
    | string s =>
      cases op with
      | add => exact .ok (.refl _)
      | subtract | multiply | divide => exact .error _
    | number | boolean => cases op <;> exact .error _
  | @number m m' hm =>
    cases hb with
    | string s =>
      cases op with
      | add =>
        have text : (Value.number m).canonical = (Value.number m').canonical :=
          Decimal.canonical_eq_of_value_eq hm
        simp only [apply, text]
        exact .ok (.refl _)
      | subtract | multiply | divide => exact .error _
    | boolean y => cases op <;> exact .error _
    | @number n n' hn =>
      simp only [apply, ← Decimal.isZero_eq_of_value_eq hn]
      by_cases zero : op = .divide ∧ n.isZero = true
      · rw [if_pos zero, if_pos zero]
        exact .error _
      · rw [if_neg zero, if_neg zero, ← onNumbers_eq op hm hn fun e => by simpa [e] using zero]
        cases op.onNumbers m n with
        | some d => exact .ok (.refl _)
        | none => exact .error _

/-- A gate of the version runs like itself, and what passes it has the feature. -/
theorem Version.require_alike (v : Version) (feature : Feature) (s : Span) :
    (v.require feature s).Alike (fun _ _ => v.supports feature = true) (v.require feature s) := by
  unfold require
  apply Dialogue.Alike.ite
  · intro h
    exact .done h
  · intro _
    exact .failed _

theorem Version.requireType_alike (v : Version) (type : Ty) (s : Span) :
    (v.requireType type s).Alike (fun _ _ => type = .boolean → v.supports .boolean = true)
      (v.requireType type s) := by
  unfold requireType
  apply Dialogue.Alike.ite
  · intro _
    exact (v.require_alike .boolean s).mono fun _ _ supported _ => supported
  · intro h
    exact .done fun e => absurd e h

/-- A value that fits a variable has its type, and the version has that type. -/
theorem Version.checkType_alike (v : Version) (name : String) (declared : Ty) {a b : Value}
    (h : a.Same b) (s : Span) :
    (v.checkType name declared a s).Alike
      (fun _ _ => b.type = declared ∧ (declared = .boolean → v.supports .boolean = true))
      (v.checkType name declared b s) := by
  unfold checkType
  rw [h.type_eq]
  refine (v.requireType_alike b.type s).bind fun _ _ supported => ?_
  apply Dialogue.Alike.ite
  · intro e
    exact .done ⟨e, e ▸ supported⟩
  · intro _
    exact .failed _

theorem needValue_alike (s : Span) {a b : Option Value} (h : a.Rel Value.Same b) :
    (needValue s a).Alike Value.Same (needValue s b) := by
  cases h with
  | some h => exact .done h
  | none => exact .failed _

theorem needString_alike (s : Span) {a b : Value} (h : a.Same b) :
    (needString s a).Alike Eq (needString s b) := by
  cases h with
  | number | boolean => exact .failed _
  | string text => exact .done rfl

/-- A function does the same with the same argument. -/
theorem Builtin.apply_alike (place : Span) (f : Builtin) {a b : Value} (h : a.Same b) :
    (f.apply place a).Alike (Option.Rel Value.Same) (f.apply place b) := by
  cases f with
  | println =>
    rw [apply, apply, h.canonical_eq]
    exact .say _ (.done .none)
  | readInput | readEnv =>
    refine (needString_alike place h).bind fun text _ e => ?_
    subst e
    exact .refl Value.Same.rel_refl _

/-! ## Environments -/

/-- A stored value has the type of its variable, and the version has that type. -/
def TypedBinding.Fits (v : Version) (b : TypedBinding) : Prop :=
  ∀ a, b.value = some a → a.type = b.type ∧ (b.type = .boolean → v.supports .boolean = true)

/-- The texts are those of the values, name by name, and a run of the version can have stored the
values. -/
structure Env.Stores (v : Version) (env : Env) (typed : TypedEnv) : Prop where
  get? : ∀ name, env.get? name = (typed.get? name).map TypedBinding.toBinding
  fits : ∀ name b, typed.get? name = some b → b.Fits v

/-- Reading the canonical text of a value gives the same value, if the version has its type. -/
theorem Binding.read_canonical {v : Version} {a : Value}
    (supported : a.type = .boolean → v.supports .boolean = true) (x : Identifier) :
    (Binding.read v x a.type a.canonical).Alike Value.Same (.done a) := by
  cases a with
  | number d =>
    simp only [Value.type, Value.canonical, read, Decimal.ofString?_canonical]
    exact .done (.number (Decimal.value_normalize d))
  | string s => exact .done (.string s)
  | boolean b =>
    simp only [Value.type, Value.canonical, read, Version.require, supported rfl, if_true]
    cases b <;> exact .done (.boolean _)

variable {v : Version} {env : Env} {typed : TypedEnv}

theorem Env.Stores.empty (v : Version) : Env.empty.Stores v .empty where
  get? _ := rfl
  fits _ _ h := by cases h

theorem Env.Stores.insert (h : env.Stores v typed) (name : String) {b : TypedBinding}
    (fits : b.Fits v) : (env.insert name b.toBinding).Stores v (typed.insert name b) where
  get? other := by
    rw [Env.get?_insert, TypedEnv.insert]
    by_cases e : name = other
    · simp only [if_pos e, Option.map_some]
    · simp only [if_neg e, h.get? other]
  fits other c hc := by
    by_cases e : name = other
    · simp only [TypedEnv.insert, if_pos e, Option.some.injEq] at hc
      exact hc ▸ fits
    · simp only [TypedEnv.insert, if_neg e] at hc
      exact h.fits other c hc

/-! ## Expressions -/

theorem Identifier.eval_alike (h : env.Stores v typed) (x : Identifier) :
    (x.eval v env).Alike Value.Same (x.evalTyped typed) := by
  rw [eval, evalTyped, h.get? x.name]
  cases hb : typed.get? x.name with
  | none => exact .failed _
  | some b =>
    cases ha : b.value with
    | none =>
      simp only [Option.map_some, TypedBinding.toBinding, ha, Option.map_none]
      exact .failed _
    | some a =>
      -- the gate in front of a truth value is open: the declaration has passed it before
      obtain ⟨type, supported⟩ := h.fits _ b hb a ha
      simp only [Option.map_some, TypedBinding.toBinding, ha, ← type]
      exact Binding.read_canonical (fun e => supported (type ▸ e)) x

/-- From environments that hold the same, an expression does the same and has the same value. -/
theorem Expr.eval_alike (h : env.Stores v typed) :
    ∀ e : Expr, (e.eval v env).Alike (Option.Rel Value.Same) (e.evalTyped v typed)
  | .literal l => by
    rw [eval, evalTyped]
    exact (Dialogue.Alike.refl Value.Same.refl (l.eval v)).bind fun _ _ same => .done (.some same)
  | .identifier x => by
    rw [eval, evalTyped]
    exact (x.eval_alike h).bind fun _ _ same => .done (.some same)
  | .binary op left right s => by
    rw [eval, evalTyped]
    refine (eval_alike h left).bind fun _ _ same => (needValue_alike _ same).bind fun a a' ha => ?_
    refine (eval_alike h right).bind fun _ _ same => (needValue_alike _ same).bind fun b b' hb => ?_
    have applied := op.apply_alike ha hb
    generalize op.apply a b = r, op.apply a' b' = r' at applied ⊢
    cases applied with
    | ok same => exact .done (.some same)
    | error fault => exact .failed _
  | .call callee [argument] s => by
    rw [eval, evalTyped]
    refine .bind_same (Builtin.resolve v callee 1 s) fun f => ?_
    refine (eval_alike h argument).bind fun _ _ same => ?_
    exact (needValue_alike _ same).bind fun a a' ha => f.apply_alike _ ha
  | .call callee [] s | .call callee (_ :: _ :: _) s => by
    -- the number of arguments is wrong, which `Builtin.resolve` finds before it reads one
    exact .refl Value.Same.rel_refl _
  | .assignment target e s => .failed _

theorem Expr.value_alike (h : env.Stores v typed) (e : Expr) :
    (e.value v env).Alike Value.Same (e.valueTyped v typed) :=
  (e.eval_alike h).bind fun _ _ same => needValue_alike _ same

/-! ## Statements -/

/-- A value that was checked is stored as its text, and stays in sight of every later read. -/
theorem assign_alike (h : env.Stores v typed) (target : Identifier) (e : Expr) :
    (assign v env target e).Alike (Env.Stores v) (assignTyped v typed target e) := by
  rw [assign, assignTyped, h.get? target.name]
  cases hb : typed.get? target.name with
  | none => exact .failed _
  | some b =>
    have stored : env.get? target.name = some b.toBinding := by rw [h.get?, hb, Option.map_some]
    simp only [Option.map_some, TypedBinding.toBinding]
    apply Dialogue.Alike.ite
    · intro _
      refine (e.value_alike h).bind fun a a' same => ?_
      refine (v.checkType_alike target.name b.type same e.span).bind fun _ _ fits => ?_
      simp only [Env.setValue?, TypedEnv.setValue?, stored, hb, Option.map_some, same.canonical_eq]
      refine .done (h.insert target.name (b := { b with value := some a' }) fun c hc => ?_)
      cases hc
      exact fits
    · intro _
      exact .failed _

/-- What a declaration gives a variable at first fits the variable. -/
theorem Declarator.initial_alike (h : env.Stores v typed) (kind : DeclarationKind)
    (d : Declarator) :
    (d.initial v kind env).Alike
      (fun text value => text = value.map Value.canonical ∧
        ∀ a, value = some a → a.type = d.type ∧ (d.type = .boolean → v.supports .boolean = true))
      (d.initialTyped v kind typed) := by
  rw [initial, initialTyped]
  cases d.init with
  | none =>
    apply Dialogue.Alike.ite
    · intro _
      exact .failed _
    · intro _
      exact .done ⟨rfl, fun _ h => by cases h⟩
  | some e =>
    refine (e.value_alike h).bind fun a a' same => ?_
    refine (v.checkType_alike d.id.name d.type same e.span).bind fun _ _ fits => ?_
    exact .done ⟨congrArg some same.canonical_eq, fun c hc => by cases hc; exact fits⟩

theorem Declarator.exec_alike (h : env.Stores v typed) (kind : DeclarationKind) (d : Declarator) :
    (d.exec v kind env).Alike (Env.Stores v) (d.execTyped v kind typed) := by
  rw [exec, execTyped]
  refine .bind_same (v.requireType d.type d.span) fun _ => ?_
  refine (d.initial_alike h kind).bind fun text value stored => ?_
  obtain ⟨e, fits⟩ := stored
  subst e
  exact .done (h.insert d.id.name (b := ⟨d.type, value, decide (kind = .mutable)⟩) fits)

theorem declareAll_alike (h : env.Stores v typed) (kind : DeclarationKind)
    (ds : List Declarator) :
    (declareAll v kind env ds).Alike (Env.Stores v) (declareAllTyped v kind typed ds) := by
  induction ds generalizing env typed with
  | nil => exact .done h
  | cons d ds ih =>
    rw [declareAll, declareAllTyped]
    exact (d.exec_alike h kind).bind fun _ _ h => ih h

theorem Expr.exec_alike (h : env.Stores v typed) (e : Expr) :
    (e.exec v env).Alike (Env.Stores v) (e.execTyped v typed) := by
  cases e with
  | assignment target e s => exact assign_alike h target e
  | literal | identifier | binary | call =>
    exact (eval_alike h _).bind fun _ _ _ => .done h

mutual

/-- One statement keeps the environments in step. -/
theorem Stmt.exec_alike : ∀ (s : Stmt) {env : Env} {typed : TypedEnv}, env.Stores v typed →
    (s.exec v env).Alike (Env.Stores v) (s.execTyped v typed)
  | .declaration kind ds _, _, _, h => by
    rw [Stmt.exec, Stmt.execTyped]
    exact declareAll_alike h kind ds
  | .expression e _, _, _, h => by
    rw [Stmt.exec, Stmt.execTyped]
    exact e.exec_alike h
  | .conditional test consequent alternate _, _, _, h => by
    rw [Stmt.exec, Stmt.execTyped]
    refine (test.eval_alike h).bind fun a a' same => ?_
    rw [same.isTruthy_eq]
    apply Dialogue.Alike.ite
    · intro _
      exact execAll_alike consequent h
    · intro _
      exact execAll_alike alternate h

/-- So do any number of them. -/
theorem execAll_alike : ∀ (ss : List Stmt) {env : Env} {typed : TypedEnv}, env.Stores v typed →
    (execAll v env ss).Alike (Env.Stores v) (execAllTyped v typed ss)
  | [], _, _, h => by
    rw [execAll, execAllTyped]
    exact .done h
  | s :: ss, _, _, h => by
    rw [execAll, execAllTyped]
    exact (s.exec_alike h).bind fun _ _ h => execAll_alike ss h

end

/-- Environments of texts are faithful. A run that reads its variables from texts says, asks and
answers what a run does that keeps their values; both fail with the same error, or both succeed, and
then every text is the canonical text of the value that the other one keeps. -/
theorem run_eq_runTyped (v : Version) (vars : ProcessEnv) (answers : List String) (p : Program) :
    let text := (p.run v .empty).withAnswers vars answers
    let typed := (p.runTyped v .empty).withAnswers vars answers
    text.output = typed.output ∧ text.prompts = typed.prompts ∧ text.events = typed.events ∧
      text.answers = typed.answers ∧
      ((∃ e, text.result = .error e ∧ typed.result = .error e) ∨
        ∃ env env', text.result = .ok env ∧ typed.result = .ok env' ∧
          ∀ name, env.get? name = (env'.get? name).map TypedBinding.toBinding) := by
  intro text typed
  -- both environments are empty at the start, and every statement keeps them in step
  have alike := execAll_alike p.statements (Env.Stores.empty v)
  obtain ⟨events, left, result⟩ := alike.withAnswers vars answers
  have same : text.events = typed.events := events
  have output : text.output = typed.output := by rw [Outcome.output, Outcome.output, same]
  have prompts : text.prompts = typed.prompts := by rw [Outcome.prompts, Outcome.prompts, same]
  refine ⟨output, prompts, same, left, ?_⟩
  have ends : EndsAlike (Env.Stores v) text.result typed.result := result
  generalize text.result = r, typed.result = r' at ends ⊢
  cases ends with
  | error e => exact .inl ⟨e, rfl, rfl⟩
  | @ok env env' stores => exact .inr ⟨env, env', rfl, rfl, stores.get?⟩

end Slate
