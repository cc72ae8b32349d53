import Slate.Eval
import Slate.Proofs.Dialogue.MapError
import Slate.Proofs.Tree.Relocate

/-!
# A run does not see places

A span takes no part in a run but for the place of its error. So to run a tree whose spans are all moved by
some `f` is to run the tree itself and to move the place of the error:

    tree ──relocate f──▶ tree
      │ run                │ run
      ▼                    ▼
    run ───mapError────▶ run

* `Expr.eval_relocate`, `Stmt.exec_relocate`, `execAll_relocate` — the square above;
* `run_alike_of_erase_eq` — programs that are equal but for their spans run alike.
-/

namespace Slate

variable (f : Span → Span) (v : Version) (env : Env)

/-- The error with its place moved. -/
def EvalError.relocate (e : EvalError) : EvalError := { e with span := f e.span }

@[simp] theorem EvalError.fault_relocate (e : EvalError) : (e.relocate f).fault = e.fault := rfl

/-- The run whose error has its place moved. -/
abbrev Run.relocate {α : Type} (r : Run α) : Run α := r.mapError (EvalError.relocate f)

/-! ## Single steps -/

theorem Version.require_relocate (feature : Feature) (s : Span) :
    v.require feature (f s) = (v.require feature s).relocate f :=
  Dialogue.ite_eq_mapError rfl rfl

theorem Version.requireType_relocate (type : Ty) (s : Span) :
    v.requireType type (f s) = (v.requireType type s).relocate f :=
  Dialogue.ite_eq_mapError (v.require_relocate f .boolean s) rfl

theorem Version.checkType_relocate (name : String) (declared : Ty) (a : Value) (s : Span) :
    v.checkType name declared a (f s) = (v.checkType name declared a s).relocate f :=
  Dialogue.bind_eq_mapError (v.requireType_relocate f a.type s) fun _ =>
    Dialogue.ite_eq_mapError rfl rfl

theorem Literal.eval_relocate (l : Literal) :
    (l.relocate f).eval v = (l.eval v).relocate f := by
  obtain ⟨value, s⟩ := l
  cases value with
  | number | string => rfl
  | boolean b => exact Dialogue.bind_eq_mapError (v.require_relocate f .boolean s) fun _ => rfl

theorem Binding.read_relocate (x : Identifier) (type : Ty) (text : String) :
    Binding.read v (x.relocate f) type text = (Binding.read v x type text).relocate f := by
  cases type with
  | string => rfl
  | number =>
    simp only [read]
    cases Decimal.ofString? text <;> rfl
  | boolean =>
    refine Dialogue.bind_eq_mapError (v.require_relocate f .boolean x.span) fun _ => ?_
    exact Dialogue.ite_eq_mapError rfl (Dialogue.ite_eq_mapError rfl rfl)

theorem Identifier.eval_relocate (x : Identifier) :
    (x.relocate f).eval v env = (x.eval v env).relocate f := by
  unfold eval
  rw [name_relocate]
  split
  · rfl
  · split
    · rfl
    · exact Binding.read_relocate f v x _ _

theorem needValue_relocate (s : Span) (a : Option Value) :
    needValue (f s) a = (needValue s a).relocate f := by
  cases a <;> rfl

theorem needString_relocate (s : Span) (a : Value) :
    needString (f s) a = (needString s a).relocate f := by
  cases a <;> rfl

theorem Builtin.apply_relocate (place : Span) (a : Value) (b : Builtin) :
    b.apply (f place) a = (b.apply place a).relocate f := by
  cases b with
  | println => rfl
  | readInput =>
    exact Dialogue.bind_eq_mapError (needString_relocate f place a) fun _ => rfl
  | readEnv =>
    refine Dialogue.bind_eq_mapError (needString_relocate f place a) fun name => ?_
    refine congrArg (Dialogue.lookUp name) (funext fun text => ?_)
    cases text <;> rfl

theorem Builtin.resolve_relocate (callee : Identifier) (arguments : Nat) (s : Span) :
    resolve v (callee.relocate f) arguments (f s) =
      (resolve v callee arguments s).relocate f := by
  rw [resolve_eq, resolve_eq, Identifier.name_relocate]
  split
  · rfl
  · refine Dialogue.bind_eq_mapError ?_ fun _ => Dialogue.ite_eq_mapError rfl rfl
    unfold require
    split
    · exact v.require_relocate f _ s
    · rfl

/-! ## Expressions -/

theorem Expr.eval_relocate : ∀ e : Expr, (e.relocate f).eval v env = (e.eval v env).relocate f
  | .literal l => by
    rw [relocate, eval, eval]
    exact Dialogue.bind_eq_mapError (l.eval_relocate f v) fun _ => rfl
  | .identifier x => by
    rw [relocate, eval, eval]
    exact Dialogue.bind_eq_mapError (x.eval_relocate f v env) fun _ => rfl
  | .binary op left right s => by
    rw [relocate, eval, eval, span_relocate, span_relocate]
    refine Dialogue.bind_eq_mapError (eval_relocate left) fun _ =>
      Dialogue.bind_eq_mapError (needValue_relocate f _ _) fun a => ?_
    refine Dialogue.bind_eq_mapError (eval_relocate right) fun _ =>
      Dialogue.bind_eq_mapError (needValue_relocate f _ _) fun b => ?_
    cases op.apply a b <;> rfl
  | .call callee [argument] s => by
    rw [relocate, relocateExprs, relocateExprs, eval, eval, span_relocate]
    refine Dialogue.bind_eq_mapError (Builtin.resolve_relocate f v callee 1 s) fun b => ?_
    refine Dialogue.bind_eq_mapError (eval_relocate argument) fun _ =>
      Dialogue.bind_eq_mapError (needValue_relocate f _ _) fun a => ?_
    exact b.apply_relocate f argument.span a
  | .call callee [] s => by
    rw [relocate, relocateExprs]
    exact Dialogue.bind_eq_mapError (Builtin.resolve_relocate f v callee 0 s) fun _ => rfl
  | .call callee (a :: b :: es) s => by
    rw [relocate, relocateExprs, relocateExprs, relocateExprs_eq_map]
    refine Dialogue.bind_eq_mapError ?_ fun _ => rfl
    simpa using Builtin.resolve_relocate f v callee (a :: b :: es).length s
  | .assignment target value s => by
    rw [relocate]
    rfl

theorem Expr.value_relocate (e : Expr) : (e.relocate f).value v env = (e.value v env).relocate f := by
  unfold value
  rw [span_relocate]
  exact Dialogue.bind_eq_mapError (e.eval_relocate f v env) fun _ => needValue_relocate f _ _

/-! ## Statements -/

theorem assign_relocate (target : Identifier) (e : Expr) :
    assign v env (target.relocate f) (e.relocate f) = (assign v env target e).relocate f := by
  unfold assign
  rw [Identifier.name_relocate, Expr.span_relocate]
  split
  · rfl
  · refine Dialogue.ite_eq_mapError ?_ rfl
    refine Dialogue.bind_eq_mapError (e.value_relocate f v env) fun a => ?_
    refine Dialogue.bind_eq_mapError (v.checkType_relocate f _ _ a _) fun _ => ?_
    split <;> rfl

theorem Declarator.initial_relocate (kind : DeclarationKind) (d : Declarator) :
    (d.relocate f).initial v kind env = (d.initial v kind env).relocate f := by
  obtain ⟨id, type, init, s⟩ := d
  unfold initial
  cases init with
  | none => exact Dialogue.ite_eq_mapError rfl rfl
  | some e =>
    simp only [relocate, Option.map_some, Identifier.name_relocate, Expr.span_relocate]
    refine Dialogue.bind_eq_mapError (e.value_relocate f v env) fun a => ?_
    exact Dialogue.bind_eq_mapError (v.checkType_relocate f _ _ a _) fun _ => rfl

theorem Declarator.exec_relocate (kind : DeclarationKind) (d : Declarator) :
    (d.relocate f).exec v kind env = (d.exec v kind env).relocate f :=
  Dialogue.bind_eq_mapError (v.requireType_relocate f d.type d.span) fun _ =>
    Dialogue.bind_eq_mapError (d.initial_relocate f v env kind) fun _ => rfl

theorem declareAll_relocate (kind : DeclarationKind) (ds : List Declarator) :
    declareAll v kind env (ds.map (Declarator.relocate f)) =
      (declareAll v kind env ds).relocate f := by
  induction ds generalizing env with
  | nil => rfl
  | cons d ds ih =>
    rw [List.map_cons, declareAll, declareAll]
    exact Dialogue.bind_eq_mapError (d.exec_relocate f v env kind) ih

theorem Expr.exec_relocate (e : Expr) : (e.relocate f).exec v env = (e.exec v env).relocate f := by
  cases e with
  | assignment target value s =>
    rw [relocate]
    exact assign_relocate f v env target value
  | literal | identifier | binary | call =>
    rw [relocate, exec, exec, ← relocate]
    · exact Dialogue.bind_eq_mapError (eval_relocate f v env _) fun _ => rfl
    all_goals
      intro _ _ _ h
      cases h

mutual

/-- One statement does the same at other places. -/
theorem Stmt.exec_relocate : ∀ (s : Stmt) (env : Env),
    (s.relocate f).exec v env = (s.exec v env).relocate f
  | .declaration kind ds s, env => by
    rw [Stmt.relocate, Stmt.exec, Stmt.exec]
    exact declareAll_relocate f v env kind ds
  | .expression e s, env => by
    rw [Stmt.relocate, Stmt.exec, Stmt.exec]
    exact e.exec_relocate f v env
  | .conditional test consequent alternate s, env => by
    rw [Stmt.relocate, Stmt.exec, Stmt.exec]
    refine Dialogue.bind_eq_mapError (test.eval_relocate f v env) fun a => ?_
    exact Dialogue.ite_eq_mapError (execAll_relocate consequent env) (execAll_relocate alternate env)

/-- So do any number of them. -/
theorem execAll_relocate : ∀ (ss : List Stmt) (env : Env),
    execAll v env (relocateStmts f ss) = (execAll v env ss).relocate f
  | [], env => by
    rw [relocateStmts, execAll]
    rfl
  | s :: ss, env => by
    rw [relocateStmts, execAll, execAll]
    exact Dialogue.bind_eq_mapError (s.exec_relocate env) (execAll_relocate ss)

end

theorem Program.run_relocate (p : Program) :
    (p.relocate f).run v env = (p.run v env).relocate f :=
  execAll_relocate f v p.statements env

/-! ## Programs that are equal but for their spans -/

/-- They run alike: only the places of their errors can differ. -/
theorem run_alike_of_erase_eq {p q : Program} (h : p.erase = q.erase) (vars : ProcessEnv)
    (answers : List String) :
    ((p.run v env).withAnswers vars answers).mapError EvalError.fault =
      ((q.run v env).withAnswers vars answers).mapError EvalError.fault := by
  have erased : ∀ p : Program, ((p.run v env).withAnswers vars answers).mapError EvalError.fault =
      ((p.erase.run v env).withAnswers vars answers).mapError EvalError.fault := by
    intro p
    rw [p.erase_eq_relocate, Program.run_relocate, Dialogue.withAnswers_mapError,
      Outcome.mapError_mapError]
    exact congrArg (Outcome.mapError · _) (funext fun e => (e.fault_relocate _).symm)
  rw [erased p, erased q, h]

end Slate
