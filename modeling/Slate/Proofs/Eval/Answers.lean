import Slate.Eval
import Slate.Proofs.Dialogue.Answers

/-!
# No answer is lost, taken twice or taken early

Answers are taken by one function only, `readInput`, and it is the only one that fails for want of an answer.
So every run is honest about missing answers, however deep the calls are nested and wherever it fails:

* `Builtin.apply_honest` — the functions, one of which asks;
* `Expr.eval_honest`, `Stmt.exec_honest`, `execAll_honest` — all else passes through them;
* `run_accounts` — what was written, asked and left adds up at the end of a run.
-/

namespace Slate

/-- The error is that there is no answer. -/
def EvalError.IsUnanswered (e : EvalError) : Prop := e.fault = .inputUnavailable

/-- The run says that an answer is missing where it asks for one, and nowhere else. -/
abbrev Run.Honest {α : Type} (d : Run α) : Prop := Dialogue.Honest EvalError.IsUnanswered d

theorem Run.honest_fail {α : Type} (s : Span) {fault : EvalFault} (h : fault ≠ .inputUnavailable) :
    (Run.fail s fault : Run α).Honest := .failed h

variable {v : Version}

/-! ## Checks -/

theorem Version.require_honest (feature : Feature) (s : Span) : (v.require feature s).Honest := by
  unfold require
  apply Dialogue.Honest.ite
  · exact .done ()
  · apply Run.honest_fail
    cases feature <;> simp [lack]

theorem Version.requireType_honest (type : Ty) (s : Span) : (v.requireType type s).Honest := by
  unfold requireType
  apply Dialogue.Honest.ite
  · exact v.require_honest .boolean s
  · exact .done ()

theorem Version.checkType_honest (name : String) (declared : Ty) (a : Value) (s : Span) :
    (v.checkType name declared a s).Honest := by
  refine (v.requireType_honest a.type s).bind fun _ => ?_
  apply Dialogue.Honest.ite
  · exact .done ()
  · exact Run.honest_fail s (by simp)

theorem needValue_honest (s : Span) (a : Option Value) : (needValue s a).Honest := by
  cases a with
  | none => exact Run.honest_fail s (by simp)
  | some a => exact .done a

theorem needString_honest (s : Span) (a : Value) : (needString s a).Honest := by
  cases a with
  | string text => exact .done text
  | number | boolean => exact Run.honest_fail s (by simp)

/-! ## Expressions -/

theorem Literal.eval_honest (l : Literal) : (l.eval v).Honest := by
  unfold eval
  split
  · exact .done _
  · exact .done _
  · exact (v.require_honest .boolean l.span).bind fun _ => .done _

theorem Binding.read_honest (x : Identifier) (type : Ty) (text : String) :
    (Binding.read v x type text).Honest := by
  unfold Binding.read
  split
  · exact .done _
  · split
    · exact .done _
    · exact Run.honest_fail x.span (by simp)
  · refine (v.require_honest .boolean x.span).bind fun _ => ?_
    refine .ite (.done _) (.ite (.done _) ?_)
    exact Run.honest_fail x.span (by simp)

theorem Identifier.eval_honest (env : Env) (x : Identifier) : (x.eval v env).Honest := by
  unfold eval
  split
  · exact Run.honest_fail x.span (by simp)
  · split
    · exact Run.honest_fail x.span (by simp)
    · exact Binding.read_honest x _ _

/-- One function asks, and goes on with the answer. -/
theorem Builtin.apply_honest (place : Span) (a : Value) (f : Builtin) : (f.apply place a).Honest := by
  cases f with
  | println => exact .say a.canonical (.done none)
  | readInput =>
    refine (needString_honest place a).bind fun prompt => ?_
    exact .ask prompt rfl fun answer => .done (some (Value.ofInput answer))
  | readEnv =>
    refine (needString_honest place a).bind fun name => .lookUp name fun text => ?_
    cases text with
    | none => exact Run.honest_fail place (by simp)
    | some text => exact .done (some (Value.ofInput text))

theorem Builtin.resolve_honest (callee : Identifier) (arguments : Nat) (s : Span) :
    (resolve v callee arguments s).Honest := by
  rw [resolve_eq]
  split
  · exact Run.honest_fail callee.span (by simp)
  · next f _ =>
    have gate : (f.require v s).Honest := by
      unfold require
      split
      · exact v.require_honest _ s
      · exact .done ()
    refine gate.bind fun _ => ?_
    apply Dialogue.Honest.ite
    · exact .done f
    · exact Run.honest_fail s (by simp)

/-- However deep its calls are nested, an expression is honest about answers. -/
theorem Expr.eval_honest (env : Env) : ∀ e : Expr, (e.eval v env).Honest
  | .literal l => by
    rw [eval]
    exact l.eval_honest.bind fun _ => .done _
  | .identifier x => by
    rw [eval]
    exact (x.eval_honest env).bind fun _ => .done _
  | .binary op left right s => by
    rw [eval]
    refine (eval_honest env left).bind fun _ => (needValue_honest _ _).bind fun a => ?_
    refine (eval_honest env right).bind fun _ => (needValue_honest _ _).bind fun b => ?_
    cases applied : op.apply a b with
    | ok c => exact .done (some c)
    | error fault =>
      apply Run.honest_fail
      rcases op.fault_of_apply applied with rfl | rfl | rfl
      · simp
      · simp
      · simp
  | .call callee [argument] s => by
    rw [eval]
    refine (Builtin.resolve_honest callee 1 s).bind fun f => ?_
    refine (eval_honest env argument).bind fun _ => (needValue_honest _ _).bind fun a => ?_
    exact f.apply_honest argument.span a
  | .call callee [] s | .call callee (_ :: _ :: _) s =>
    (Builtin.resolve_honest callee _ s).bind fun _ => .done none
  | .assignment target value s => Run.honest_fail s (by simp)

theorem Expr.value_honest (env : Env) (e : Expr) : (e.value v env).Honest :=
  (e.eval_honest env).bind fun a => needValue_honest e.span a

/-! ## Steps -/

theorem assign_honest (env : Env) (target : Identifier) (e : Expr) : (assign v env target e).Honest := by
  unfold assign
  split
  · exact Run.honest_fail target.span (by simp)
  · next b _ =>
    apply Dialogue.Honest.ite
    · refine (e.value_honest env).bind fun a => ?_
      refine (v.checkType_honest target.name b.type a e.span).bind fun _ => ?_
      split
      · exact .done _
      · exact Run.honest_fail target.span (by simp)
    · exact Run.honest_fail target.span (by simp)

theorem Declarator.initial_honest (kind : DeclarationKind) (d : Declarator) (env : Env) :
    (d.initial v kind env).Honest := by
  unfold initial
  split
  · next e _ =>
    refine (e.value_honest env).bind fun a => ?_
    exact (v.checkType_honest d.id.name d.type a e.span).bind fun _ => .done _
  · apply Dialogue.Honest.ite
    · exact Run.honest_fail d.id.span (by simp)
    · exact .done none

theorem Declarator.exec_honest (kind : DeclarationKind) (d : Declarator) (env : Env) :
    (d.exec v kind env).Honest := by
  refine (v.requireType_honest d.type d.span).bind fun _ => ?_
  exact (d.initial_honest kind env).bind fun _ => .done _

theorem declareAll_honest (kind : DeclarationKind) (ds : List Declarator) (env : Env) :
    (declareAll v kind env ds).Honest := by
  induction ds generalizing env with
  | nil => exact .done env
  | cons d ds ih =>
    rw [declareAll]
    exact (d.exec_honest kind env).bind ih

theorem Expr.exec_honest (env : Env) (e : Expr) : (e.exec v env).Honest := by
  cases e with
  | assignment target value s => exact assign_honest env target value
  | literal | identifier | binary | call => exact (eval_honest env _).bind fun _ => .done env

/-! ## Statements -/

mutual

/-- A statement is honest about answers. -/
theorem Stmt.exec_honest : ∀ (s : Stmt) (env : Env), (s.exec v env).Honest
  | .declaration kind ds _, env => by
    rw [Stmt.exec]
    exact declareAll_honest kind ds env
  | .expression e _, env => by
    rw [Stmt.exec]
    exact e.exec_honest env
  | .conditional test consequent alternate _, env => by
    rw [Stmt.exec]
    refine (test.eval_honest env).bind fun a => ?_
    apply Dialogue.Honest.ite
    · exact execAll_honest consequent env
    · exact execAll_honest alternate env

/-- So are any number of them. -/
theorem execAll_honest : ∀ (ss : List Stmt) (env : Env), (execAll v env ss).Honest
  | [], env => by
    rw [execAll]
    exact .done env
  | s :: ss, env => by
    rw [execAll]
    exact (s.exec_honest env).bind (execAll_honest ss)

end

/-! ## Programs -/

/-- A run takes as many answers as it asked questions, those in front, and leaves the others. If one is
missing it asked one question too many and ends there; if none is, further answers would be left. What is
written is the text of the lines that were said and of the questions that were asked, behind one another in the
order in which they came, and each question is noted once. -/
theorem run_accounts (v : Version) (env : Env) (p : Program) (vars : ProcessEnv) (b : Buffers) :
    let o := (p.run v env).withAnswers vars b.answers
    let k := o.prompts.length
    let n := b.answers.length
    o.answers = b.answers.drop (min k n) ∧
      (p.run v env).intoBuffers vars b =
        (o.result, ⟨b.text ++ String.join (o.events.map Event.text),
          b.prompts ++ o.events.filterMap Event.prompt?, o.answers⟩) ∧
      ((∃ s, o.result = .error ⟨.inputUnavailable, s⟩) → k = n + 1) ∧
      ((¬ ∃ s, o.result = .error ⟨.inputUnavailable, s⟩) → k ≤ n ∧
        ∀ more, (p.run v env).withAnswers vars (b.answers ++ more) =
          ⟨o.result, o.events, o.answers ++ more⟩) := by
  intro o k n
  have honest : (p.run v env).Honest := execAll_honest p.statements env
  have asked : k ≤ n + 1 := Dialogue.length_prompts_le vars (p.run v env) b.answers
  have missing := honest.missing_iff vars b.answers
  refine ⟨?_, Dialogue.intoBuffers_eq vars (p.run v env) b, ?_, ?_⟩
  · calc o.answers = b.answers.drop k := Dialogue.answers_withAnswers vars (p.run v env) b.answers
      _ = b.answers.drop (min k n) := List.drop_eq_drop_min
  · rintro ⟨s, ended⟩
    exact missing.1 ⟨⟨.inputUnavailable, s⟩, rfl, ended⟩
  · intro answered
    have fewer : k ≠ n + 1 := by
      intro tooMany
      obtain ⟨⟨fault, s⟩, unanswered, ended⟩ := missing.2 tooMany
      obtain rfl : fault = .inputUnavailable := unanswered
      exact answered ⟨s, ended⟩
    have enough : k ≤ n := by omega
    exact ⟨enough, Dialogue.withAnswers_append enough⟩

end Slate
