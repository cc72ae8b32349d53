import Slate.Eval
import Slate.Proofs.Dialogue.Extends

/-!
# Newer versions

A version is asked for in six places: literals, variables, the types of declarations and of values, and the
two functions that read from outside. Each of them is a gate, which a version passes or which ends the run.
A newer version passes every gate that an older one passes. So a run of the newer version is the run of
the older one, except that it may go on where the older one is stopped:

* `Version.require_extends` — the gate, and the only place where the version itself is looked at;
* `Expr.eval_extends`, `Stmt.exec_extends`, `execAll_extends` — all else passes through it;
* `run_upgrade` — a run that no gate stops is the same in every newer version.
-/

namespace Slate

/-- The error is that the version lacks a type or a function. -/
def EvalFault.isGate : EvalFault → Bool
  | .unsupportedType .. | .unsupportedFeature .. => true
  | _ => false

/-- The second run is the first one, unless a gate of the version stops that. -/
abbrev Run.ExtendsTo {α : Type} (r r' : Run α) : Prop :=
  Dialogue.ExtendsTo (fun e : EvalError => e.fault.isGate = true) r r'

section

variable {v v' : Version} (newer : v'.isAtLeast v = true)
include newer

/-! ## Gates -/

theorem Version.require_extends (feature : Feature) (s : Span) :
    (v.require feature s).ExtendsTo (v'.require feature s) := by
  unfold require
  cases h : v.supports feature with
  | true =>
    rw [supports_of_isAtLeast newer h]
    exact .refl _
  | false =>
    -- the older version is stopped here, whatever the newer one does
    apply Dialogue.ExtendsTo.stopped
    cases feature <;> rfl

theorem Version.requireType_extends (type : Ty) (s : Span) :
    (v.requireType type s).ExtendsTo (v'.requireType type s) := by
  unfold requireType
  apply Dialogue.ExtendsTo.ite
  · exact require_extends newer .boolean s
  · exact .refl _

theorem Version.checkType_extends (name : String) (declared : Ty) (a : Value) (s : Span) :
    (v.checkType name declared a s).ExtendsTo (v'.checkType name declared a s) := by
  unfold checkType
  exact (requireType_extends newer a.type s).bind fun _ => .refl _

theorem Literal.eval_extends (l : Literal) : Run.ExtendsTo (l.eval v) (l.eval v') := by
  unfold eval
  split
  · exact .refl _
  · exact .refl _
  · exact (Version.require_extends newer .boolean l.span).bind fun _ => .refl _

theorem Identifier.eval_extends (env : Env) (x : Identifier) :
    Run.ExtendsTo (x.eval v env) (x.eval v' env) := by
  unfold eval
  split
  · exact .refl _
  · split
    · exact .refl _
    · next b _ text _ =>
      unfold Binding.read
      split
      · exact .refl _
      · exact .refl _
      · exact (Version.require_extends newer .boolean x.span).bind fun _ => .refl _

theorem Builtin.resolve_extends (callee : Identifier) (arguments : Nat) (s : Span) :
    Run.ExtendsTo (resolve v callee arguments s) (resolve v' callee arguments s) := by
  rw [resolve_eq, resolve_eq]
  split
  · exact .refl _
  · next f _ =>
    refine Dialogue.ExtendsTo.bind ?_ fun _ => .refl _
    unfold require
    split
    · exact Version.require_extends newer _ s
    · exact .refl _

/-! ## Expressions -/

theorem Expr.eval_extends (env : Env) : ∀ e : Expr, Run.ExtendsTo (e.eval v env) (e.eval v' env)
  | .literal l => by
    rw [eval, eval]
    exact (l.eval_extends newer).bind fun _ => .refl _
  | .identifier x => by
    rw [eval, eval]
    exact (x.eval_extends newer env).bind fun _ => .refl _
  | .binary op left right s => by
    rw [eval, eval]
    refine (eval_extends env left).bind fun _ => (Dialogue.ExtendsTo.refl _).bind fun a => ?_
    exact (eval_extends env right).bind fun _ => .refl _
  | .call callee [argument] s => by
    rw [eval, eval]
    refine (Builtin.resolve_extends newer callee 1 s).bind fun f => ?_
    exact (eval_extends env argument).bind fun _ => .refl _
  | .call callee [] s | .call callee (_ :: _ :: _) s =>
    (Builtin.resolve_extends newer callee _ s).bind fun _ => .refl _
  | .assignment target e s => .refl _

theorem Expr.value_extends (env : Env) (e : Expr) :
    Run.ExtendsTo (e.value v env) (e.value v' env) :=
  (e.eval_extends newer env).bind fun _ => .refl _

/-! ## Statements -/

theorem assign_extends (env : Env) (target : Identifier) (e : Expr) :
    Run.ExtendsTo (assign v env target e) (assign v' env target e) := by
  unfold assign
  split
  · exact .refl _
  · next b _ =>
    apply Dialogue.ExtendsTo.ite
    · refine (e.value_extends newer env).bind fun a => ?_
      exact (Version.checkType_extends newer target.name b.type a e.span).bind fun _ => .refl _
    · exact .refl _

theorem Declarator.initial_extends (kind : DeclarationKind) (d : Declarator) (env : Env) :
    Run.ExtendsTo (d.initial v kind env) (d.initial v' kind env) := by
  unfold initial
  split
  · next e _ =>
    refine (e.value_extends newer env).bind fun a => ?_
    exact (Version.checkType_extends newer d.id.name d.type a e.span).bind fun _ => .refl _
  · exact .refl _

theorem Declarator.exec_extends (kind : DeclarationKind) (d : Declarator) (env : Env) :
    Run.ExtendsTo (d.exec v kind env) (d.exec v' kind env) := by
  refine (Version.requireType_extends newer d.type d.span).bind fun _ => ?_
  exact (d.initial_extends newer kind env).bind fun _ => .refl _

theorem declareAll_extends (kind : DeclarationKind) (env : Env) (ds : List Declarator) :
    Run.ExtendsTo (declareAll v kind env ds) (declareAll v' kind env ds) := by
  induction ds generalizing env with
  | nil => exact .refl _
  | cons d ds ih =>
    rw [declareAll, declareAll]
    exact (d.exec_extends newer kind env).bind ih

theorem Expr.exec_extends (env : Env) (e : Expr) :
    Run.ExtendsTo (e.exec v env) (e.exec v' env) := by
  cases e with
  | assignment target e s => exact assign_extends newer env target e
  | literal | identifier | binary | call =>
    exact (eval_extends newer env _).bind fun _ => .refl _

end

mutual

/-- One statement runs the same, unless a gate stops it. -/
theorem Stmt.exec_extends {v v' : Version} (newer : v'.isAtLeast v = true) :
    ∀ (s : Stmt) (env : Env), Run.ExtendsTo (s.exec v env) (s.exec v' env)
  | .declaration kind ds _, env => by
    rw [Stmt.exec, Stmt.exec]
    exact declareAll_extends newer kind env ds
  | .expression e _, env => by
    rw [Stmt.exec, Stmt.exec]
    exact e.exec_extends newer env
  | .conditional test consequent alternate _, env => by
    rw [Stmt.exec, Stmt.exec]
    refine (test.eval_extends newer env).bind fun a => ?_
    apply Dialogue.ExtendsTo.ite
    · exact execAll_extends newer consequent env
    · exact execAll_extends newer alternate env

/-- So do any number of them. -/
theorem execAll_extends {v v' : Version} (newer : v'.isAtLeast v = true) :
    ∀ (ss : List Stmt) (env : Env), Run.ExtendsTo (execAll v env ss) (execAll v' env ss)
  | [], env => by
    rw [execAll, execAll]
    exact .refl _
  | s :: ss, env => by
    rw [execAll, execAll]
    exact (s.exec_extends newer env).bind (execAll_extends newer ss)

end

/-- A run that is not stopped by a gate of its version has the same outcome in every newer version: the
same environment or error, the same events, and the same answers left. -/
theorem run_upgrade {v v' : Version} (newer : v'.isAtLeast v = true) (p : Program) (env : Env)
    (vars : ProcessEnv) (answers : List String)
    (passed : ∀ e, ((p.run v env).withAnswers vars answers).result = .error e →
      e.fault.isGate = false) :
    (p.run v' env).withAnswers vars answers = (p.run v env).withAnswers vars answers := by
  rcases (execAll_extends newer p.statements env).withAnswers vars answers with
    ⟨e, gate, stopped⟩ | same
  · rw [passed e stopped] at gate
    cases gate
  · exact same

/-- The program `if (go) { println(n); n = n / (n - n); }`. -/
def dividing : Program :=
  ⟨[.conditional ⟨"go", ⟨1, 5, 7⟩⟩
    [.expression (.call ⟨"println", ⟨1, 11, 18⟩⟩ [.identifier ⟨"n", ⟨1, 19, 20⟩⟩] ⟨1, 11, 21⟩)
      ⟨1, 11, 22⟩,
     .expression (.assignment ⟨"n", ⟨1, 23, 24⟩⟩
        (.binary .divide (.identifier ⟨"n", ⟨1, 27, 28⟩⟩)
          (.binary .subtract (.identifier ⟨"n", ⟨1, 32, 33⟩⟩) (.identifier ⟨"n", ⟨1, 36, 37⟩⟩)
            ⟨1, 32, 37⟩)
          ⟨1, 27, 38⟩)
        ⟨1, 23, 38⟩)
      ⟨1, 23, 39⟩]
    [] ⟨1, 1, 41⟩]⟩

/-- An environment for it. -/
def divisible : Env := .ofList [("n", ⟨.number, some "2.5", true⟩), ("go", ⟨.string, some "yes", false⟩)]

theorem run_upgrade_dividing :
    Version.isAtLeast ⟨1, 1, 0⟩ ⟨1, 0, 3⟩ = true ∧
    (∀ e, ((dividing.run ⟨1, 0, 3⟩ divisible).withAnswers (fun _ => none) ["unread"]).result =
      .error e → e.fault.isGate = false) ∧
    (dividing.run ⟨1, 1, 0⟩ divisible).withAnswers (fun _ => none) ["unread"] =
      (dividing.run ⟨1, 0, 3⟩ divisible).withAnswers (fun _ => none) ["unread"] := by
  have ends : ((dividing.run ⟨1, 0, 3⟩ divisible).withAnswers (fun _ => none) ["unread"]).result =
      .error ⟨.divisionByZero, ⟨1, 27, 38⟩⟩ := by rfl
  have passed : ∀ e, ((dividing.run ⟨1, 0, 3⟩ divisible).withAnswers (fun _ => none)
      ["unread"]).result = .error e → e.fault.isGate = false := by
    intro e he
    rw [ends] at he
    cases he
    rfl
  exact ⟨by decide, passed, run_upgrade (by decide) dividing divisible _ _ passed⟩

end Slate
