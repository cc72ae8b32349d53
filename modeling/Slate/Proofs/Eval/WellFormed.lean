import Slate.Proofs.Decimal.Text
import Slate.Proofs.Decimal.Value
import Slate.Proofs.Dialogue.Ends
import Slate.Session

/-!
# What is stored can be read

An environment could hold any text for a number or a truth value, and constants without a value. A run
that starts from an environment without such bindings leaves none, whatever its version is, and it never
fails because it cannot read what is stored. The version may change from one run to the next: a gate of
the version keeps a truth value out, and never lets a half of one in.

* `Env.WellFormed` — the texts of numbers and truth values are canonical, and constants have values;
* `Run.Reads` — whatever comes back, a run does not fail to read a stored text;
* `Stmt.exec_reads`, `execAll_reads` — one statement keeps an environment well formed, and so do any number;
* `reachable_wellFormed` — so a session has well-formed environments only.
-/

namespace Slate

/-! ## Well-formed environments -/

/-- What a run stores for a variable. -/
structure Binding.WellFormed (b : Binding) : Prop where
  number : ∀ text, b.type = .number → b.value = some text →
    ∃ d, Decimal.ofString? text = .ok d ∧ d.canonical = text
  boolean : ∀ text, b.type = .boolean → b.value = some text → text = "true" ∨ text = "false"
  initialised : b.isMutable = false → b.value.isSome = true

/-- An environment that a run can leave. -/
def Env.WellFormed (env : Env) : Prop := ∀ name b, env.get? name = some b → b.WellFormed

/-- The canonical text of a value is well formed for a variable of its type. -/
theorem Binding.wellFormed_canonical (a : Value) (isMutable : Bool) :
    (Binding.mk a.type (some a.canonical) isMutable).WellFormed where
  number text type stored := by
    cases a with
    | number d =>
      cases stored
      refine ⟨d.normalize, Decimal.ofString?_canonical d, ?_⟩
      exact Decimal.canonical_eq_of_value_eq (Decimal.value_normalize d)
    | string | boolean => cases type
  boolean text type stored := by
    cases a with
    | boolean b =>
      cases stored
      cases b
      · exact .inr rfl
      · exact .inl rfl
    | number | string => cases type
  initialised _ := rfl

/-- Only a constant has to have a value. -/
theorem Binding.wellFormed_uninitialised (type : Ty) :
    (Binding.mk type none true).WellFormed where
  number _ _ stored := by cases stored
  boolean _ _ stored := by cases stored
  initialised constant := by cases constant

namespace Env.WellFormed

theorem empty : Env.empty.WellFormed := by
  intro name b h
  cases h

theorem insert {env : Env} (h : env.WellFormed) (name : String) {b : Binding} (hb : b.WellFormed) :
    (env.insert name b).WellFormed := by
  intro other c hc
  rw [Env.get?_insert] at hc
  split at hc
  · cases hc
    exact hb
  · exact h other c hc

end Env.WellFormed

/-! ## Runs that can read what is stored -/

/-- The error is that a stored text is no value of its type. -/
def EvalFault.isUnreadable : EvalFault → Bool
  | .invalidStoredValue .. => true
  | _ => false

/-- Whatever comes back, the run does not fail to read a stored text, and a result satisfies `P`. -/
abbrev Run.Reads {α : Type} (P : α → Prop) (r : Run α) : Prop :=
  r.Ends P fun e => e.fault.isUnreadable = false

/-- Nothing is said of the result. -/
abbrev Anything {α : Type} : α → Prop := fun _ => True

theorem Run.reads_fail {α : Type} {P : α → Prop} (s : Span) {fault : EvalFault}
    (h : fault.isUnreadable = false) : (Run.fail s fault : Run α).Reads P := .failed h

variable {v : Version} {env : Env}

theorem Version.require_reads (v : Version) (feature : Feature) (s : Span) :
    (v.require feature s).Reads Anything := by
  unfold require
  apply Dialogue.Ends.ite
  · intro _
    exact .done trivial
  · intro _
    exact Run.reads_fail s (by cases feature <;> rfl)

theorem Version.requireType_reads (v : Version) (type : Ty) (s : Span) :
    (v.requireType type s).Reads Anything := by
  unfold requireType
  apply Dialogue.Ends.ite
  · intro _
    exact v.require_reads .boolean s
  · intro _
    exact .done trivial

/-- A value that passes the check has the declared type. -/
theorem Version.checkType_reads (v : Version) (name : String) (declared : Ty) (a : Value)
    (s : Span) : (v.checkType name declared a s).Reads fun _ => a.type = declared := by
  refine (v.requireType_reads a.type s).bind fun _ _ => ?_
  apply Dialogue.Ends.ite
  · intro h
    exact .done h
  · intro _
    exact Run.reads_fail s rfl

theorem needValue_reads (s : Span) (a : Option Value) : (needValue s a).Reads Anything := by
  cases a with
  | none => exact Run.reads_fail s rfl
  | some a => exact .done trivial

theorem needString_reads (s : Span) (a : Value) : (needString s a).Reads Anything := by
  cases a with
  | string text => exact .done trivial
  | number | boolean => exact Run.reads_fail s rfl

theorem Literal.eval_reads (v : Version) (l : Literal) : (l.eval v).Reads Anything := by
  unfold eval
  split
  · exact .done trivial
  · exact .done trivial
  · exact (v.require_reads .boolean l.span).bind fun _ _ => .done trivial

/-- A well-formed text is read. -/
theorem Binding.WellFormed.read_reads {b : Binding} (h : b.WellFormed) {text : String}
    (stored : b.value = some text) (v : Version) (x : Identifier) :
    (Binding.read v x b.type text).Reads Anything := by
  unfold Binding.read
  split
  · exact .done trivial
  · next type =>
    obtain ⟨d, read, -⟩ := h.number text type stored
    rw [read]
    exact .done trivial
  · next type =>
    refine (v.require_reads .boolean x.span).bind fun _ _ => ?_
    rcases h.boolean text type stored with rfl | rfl
    · exact .done trivial
    · exact .done trivial

theorem Identifier.eval_reads (h : env.WellFormed) (x : Identifier) : (x.eval v env).Reads Anything := by
  unfold eval
  cases hb : env.get? x.name with
  | none => exact Run.reads_fail x.span rfl
  | some b =>
    cases ha : b.value with
    | none =>
      simp only [ha]
      exact Run.reads_fail x.span rfl
    | some text =>
      simp only [ha]
      exact (h x.name b hb).read_reads ha v x

/-! ## Expressions -/

theorem BinaryOp.apply_isUnreadable {op : BinaryOp} {a b : Value} {fault : EvalFault}
    (h : op.apply a b = .error fault) : fault.isUnreadable = false := by
  rcases fault_of_apply h with rfl | rfl | rfl
  · rfl
  · rfl
  · rfl

theorem Builtin.apply_reads (place : Span) (a : Value) (f : Builtin) :
    (f.apply place a).Reads Anything := by
  cases f with
  | println => exact .say _ (.done trivial)
  | readInput =>
    refine (needString_reads place a).bind fun prompt _ => ?_
    exact .ask prompt rfl fun answer => .done trivial
  | readEnv =>
    refine (needString_reads place a).bind fun name _ => .lookUp name fun text => ?_
    cases text with
    | some text => exact .done trivial
    | none => exact Run.reads_fail place rfl

theorem Builtin.require_reads (v : Version) (s : Span) (f : Builtin) :
    (f.require v s).Reads Anything := by
  unfold require
  split
  · exact v.require_reads _ s
  · exact .done trivial

theorem Builtin.resolve_reads (v : Version) (callee : Identifier) (arguments : Nat) (s : Span) :
    (resolve v callee arguments s).Reads Anything := by
  rw [resolve_eq]
  split
  · exact Run.reads_fail callee.span rfl
  · next f _ =>
    refine (f.require_reads v s).bind fun _ _ => ?_
    apply Dialogue.Ends.ite
    · intro _
      exact .done trivial
    · intro _
      exact Run.reads_fail s rfl

theorem Expr.eval_reads (h : env.WellFormed) : ∀ e : Expr, (e.eval v env).Reads Anything
  | .literal l => by
    rw [eval]
    exact (l.eval_reads v).bind fun _ _ => .done trivial
  | .identifier x => by
    rw [eval]
    exact (x.eval_reads h).bind fun _ _ => .done trivial
  | .binary op left right s => by
    rw [eval]
    refine (eval_reads h left).bind fun _ _ => (needValue_reads _ _).bind fun a _ => ?_
    refine (eval_reads h right).bind fun _ _ => (needValue_reads _ _).bind fun b _ => ?_
    cases applied : op.apply a b with
    | ok c => exact .done trivial
    | error fault => exact Run.reads_fail s (op.apply_isUnreadable applied)
  | .call callee [argument] s => by
    rw [eval]
    refine (Builtin.resolve_reads v callee 1 s).bind fun f _ => ?_
    refine (eval_reads h argument).bind fun _ _ => (needValue_reads _ _).bind fun a _ => ?_
    exact f.apply_reads argument.span a
  | .call callee [] s | .call callee (_ :: _ :: _) s =>
    (Builtin.resolve_reads v callee _ s).bind fun _ _ => .done trivial
  | .assignment target e s => Run.reads_fail s rfl

theorem Expr.value_reads (h : env.WellFormed) (e : Expr) : (e.value v env).Reads Anything :=
  (e.eval_reads h).bind fun a _ => needValue_reads e.span a

/-! ## Statements -/

/-- An assignment stores the text of a value of the declared type. -/
theorem assign_reads (h : env.WellFormed) (target : Identifier) (e : Expr) :
    (assign v env target e).Reads Env.WellFormed := by
  unfold assign
  cases hb : env.get? target.name with
  | none => exact Run.reads_fail target.span rfl
  | some b =>
    apply Dialogue.Ends.ite
    · intro _
      refine (e.value_reads h).bind fun a _ => ?_
      refine (v.checkType_reads target.name b.type a e.span).bind fun _ type => ?_
      simp only [Env.setValue?, hb, Option.map_some]
      exact .done (h.insert target.name (type ▸ Binding.wellFormed_canonical a b.isMutable))
    · intro _
      exact Run.reads_fail target.span rfl

/-- What a declaration gives a variable at first is well formed for it. -/
theorem Declarator.initial_reads (h : env.WellFormed) (kind : DeclarationKind) (d : Declarator) :
    (d.initial v kind env).Reads fun text =>
      (Binding.mk d.type text (decide (kind = .mutable))).WellFormed := by
  unfold initial
  cases d.init with
  | none =>
    cases kind with
    | constant => exact Run.reads_fail d.id.span rfl
    | mutable => exact .done (Binding.wellFormed_uninitialised d.type)
  | some e =>
    refine (e.value_reads h).bind fun a _ => ?_
    refine (v.checkType_reads d.id.name d.type a e.span).bind fun _ type => ?_
    exact .done (type ▸ Binding.wellFormed_canonical a _)

theorem Declarator.exec_reads (h : env.WellFormed) (kind : DeclarationKind) (d : Declarator) :
    (d.exec v kind env).Reads Env.WellFormed := by
  refine (v.requireType_reads d.type d.span).bind fun _ _ => ?_
  exact (d.initial_reads h kind).bind fun text wellFormed => .done (h.insert d.id.name wellFormed)

theorem declareAll_reads (h : env.WellFormed) (kind : DeclarationKind) (ds : List Declarator) :
    (declareAll v kind env ds).Reads Env.WellFormed := by
  induction ds generalizing env with
  | nil => exact .done h
  | cons d ds ih =>
    rw [declareAll]
    exact (d.exec_reads h kind).bind fun _ h => ih h

theorem Expr.exec_reads (h : env.WellFormed) (e : Expr) :
    (e.exec v env).Reads Env.WellFormed := by
  cases e with
  | assignment target e s => exact assign_reads h target e
  | literal | identifier | binary | call =>
    exact (eval_reads h _).bind fun _ _ => .done h

mutual

/-- One statement keeps an environment well formed. -/
theorem Stmt.exec_reads : ∀ (s : Stmt) {env : Env}, env.WellFormed →
    (s.exec v env).Reads Env.WellFormed
  | .declaration kind ds _, _, h => by
    rw [Stmt.exec]
    exact declareAll_reads h kind ds
  | .expression e _, _, h => by
    rw [Stmt.exec]
    exact e.exec_reads h
  | .conditional test consequent alternate _, _, h => by
    rw [Stmt.exec]
    refine (test.eval_reads h).bind fun a _ => ?_
    apply Dialogue.Ends.ite
    · intro _
      exact execAll_reads consequent h
    · intro _
      exact execAll_reads alternate h

/-- So do any number of them. -/
theorem execAll_reads : ∀ (ss : List Stmt) {env : Env}, env.WellFormed →
    (execAll v env ss).Reads Env.WellFormed
  | [], _, h => by
    rw [execAll]
    exact .done h
  | s :: ss, _, h => by
    rw [execAll]
    exact (s.exec_reads h).bind fun _ h => execAll_reads ss h

end

/-! ## Sessions -/

/-- What a session runs. -/
inductive Task where
  | statement (s : Stmt)
  | program (p : Program)

/-- Runs a task. -/
def Task.run (v : Version) (env : Env) : Task → Run Env
  | statement s => s.exec v env
  | program p => p.run v env

theorem Task.run_reads (h : env.WellFormed) (task : Task) :
    (task.run v env).Reads Env.WellFormed := by
  cases task with
  | statement s => exact s.exec_reads h
  | program p => exact execAll_reads p.statements h

/-- A task, and the version, the variables of the process and the answers that it runs with. -/
structure Step where
  task : Task
  version : Version
  vars : ProcessEnv
  answers : List String

/-- Runs a task from the environment of a session. Where it fails the environment stays. -/
def Session.take (s : Session) (step : Step) : Session :=
  ({ s with version := step.version, vars := step.vars, answers := step.answers }.update
    (step.task.run step.version s.env)).2

/-- The environment that is left by tasks that run one after the other, the first one from the empty
environment. -/
def reached (steps : List Step) : Env := (steps.foldl Session.take {}).env

theorem Session.wellFormed_update {s : Session} (h : s.env.WellFormed) {r : Run Env}
    (reads : r.Reads Env.WellFormed) : (s.update r).2.env.WellFormed := by
  have ends := reads.withAnswers s.vars s.answers
  unfold update lead
  dsimp only
  split at ends
  · next ok => simpa only [ok] using ends
  · next error => simpa only [error] using h

theorem Session.wellFormed_take {s : Session} (h : s.env.WellFormed) (step : Step) :
    (s.take step).env.WellFormed := by
  unfold take
  apply wellFormed_update
  · exact h
  · exact step.task.run_reads h

theorem wellFormed_reached (steps : List Step) : (reached steps).WellFormed := by
  -- over the steps: a session starts from the empty environment, and each step takes it further
  suffices every : ∀ s : Session, s.env.WellFormed → (steps.foldl Session.take s).env.WellFormed from
    every {} Env.WellFormed.empty
  induction steps with
  | nil => exact fun _ h => h
  | cons step steps ih => exact fun _ h => ih _ (Session.wellFormed_take h step)

/-- Every environment that a session reaches is well formed. So neither an expression nor a statement nor a
program that is run from it, in whatever version and with whatever answers, fails because a stored text
cannot be read. -/
theorem reachable_wellFormed (steps : List Step) :
    (reached steps).WellFormed ∧ ∀ v vars answers name type text s,
      (∀ e : Expr, ((e.eval v (reached steps)).withAnswers vars answers).result ≠
        .error ⟨.invalidStoredValue name type text, s⟩) ∧
      ∀ task : Task, ((task.run v (reached steps)).withAnswers vars answers).result ≠
        .error ⟨.invalidStoredValue name type text, s⟩ := by
  have wellFormed := wellFormed_reached steps
  refine ⟨wellFormed, fun v vars answers name type text s => ⟨?_, ?_⟩⟩
  · intro e failed
    have ends := (e.eval_reads (v := v) wellFormed).withAnswers vars answers
    rw [failed] at ends
    cases ends
  · intro task failed
    have ends := (task.run_reads (v := v) wellFormed).withAnswers vars answers
    rw [failed] at ends
    cases ends

end Slate
