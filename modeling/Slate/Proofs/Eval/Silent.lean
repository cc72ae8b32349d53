import Slate.Eval
import Slate.Proofs.Dialogue.Silent
import Slate.Proofs.Tree.Names

/-!
# Runs that are silent

A run says and asks something through two functions only. Where neither is called, nothing is said or asked
(`Stmt.exec_silent`, `execAll_silent`). `readEnv` may be called, as it only looks up a variable of the process.
-/

namespace Slate

open Dialogue (Silent)

/-- None of these functions says or asks anything. -/
structure Quiet (callees : List String) : Prop where
  println : Builtin.println.name ∉ callees
  readInput : Builtin.readInput.name ∉ callees

instance (callees : List String) : Decidable (Quiet callees) :=
  decidable_of_iff (Builtin.println.name ∉ callees ∧ Builtin.readInput.name ∉ callees)
    ⟨fun h => ⟨h.1, h.2⟩, fun h => ⟨h.println, h.readInput⟩⟩

namespace Quiet

variable {callees callees' : List String}

theorem mono (h : Quiet callees) (fewer : callees' ⊆ callees) : Quiet callees' :=
  ⟨fun m => h.println (fewer m), fun m => h.readInput (fewer m)⟩

theorem left (h : Quiet (callees ++ callees')) : Quiet callees := h.mono (List.subset_append_left _ _)

theorem right (h : Quiet (callees ++ callees')) : Quiet callees' := h.mono (List.subset_append_right _ _)

/-- There is only one such function. -/
theorem eq_readEnv (h : Quiet callees) {name : String} (mem : name ∈ callees) {b : Builtin}
    (found : Builtin.ofName? name = some b) : b = .readEnv := by
  have named : b.name = name := by simpa using List.find?_some found
  cases b with
  | println => exact absurd (named ▸ mem) h.println
  | readInput => exact absurd (named ▸ mem) h.readInput
  | readEnv => rfl

end Quiet

variable {v : Version}

/-! ## Checks -/

theorem Version.require_silent (feature : Feature) (s : Span) : (v.require feature s).Silent :=
  .ite (fun _ => .done _) (fun _ => .failed _)

theorem Version.requireType_silent (type : Ty) (s : Span) : (v.requireType type s).Silent :=
  .ite (fun _ => v.require_silent .boolean s) (fun _ => .done _)

theorem Version.checkType_silent (name : String) (declared : Ty) (a : Value) (s : Span) :
    (v.checkType name declared a s).Silent :=
  (v.requireType_silent a.type s).bind fun _ => .ite (fun _ => .done _) (fun _ => .failed _)

theorem needValue_silent (s : Span) (a : Option Value) : (needValue s a).Silent := by
  cases a with
  | none => exact .failed _
  | some a => exact .done a

theorem Builtin.require_silent (s : Span) (b : Builtin) : (b.require v s).Silent := by
  unfold Builtin.require
  split
  · exact v.require_silent _ s
  · exact .done _

theorem Builtin.resolve_silent (callee : Identifier) (arguments : Nat) (s : Span) :
    (resolve v callee arguments s).Silent := by
  rw [resolve_eq]
  split
  · exact .failed _
  · next b _ => exact (b.require_silent s).bind fun _ => .ite (fun _ => .done b) (fun _ => .failed _)

/-! ## Expressions -/

theorem Literal.eval_silent (l : Literal) : (l.eval v).Silent := by
  unfold Literal.eval
  split
  · exact .done _
  · exact .done _
  · exact (v.require_silent .boolean l.span).bind fun _ => .done _

theorem Binding.read_silent (x : Identifier) (type : Ty) (text : String) :
    (Binding.read v x type text).Silent := by
  unfold Binding.read
  split
  · exact .done _
  · split
    · exact .done _
    · exact .failed _
  · refine (v.require_silent .boolean x.span).bind fun _ => .ite (fun _ => .done _) fun _ => ?_
    exact .ite (fun _ => .done _) (fun _ => .failed _)

theorem Identifier.eval_silent (env : Env) (x : Identifier) : (x.eval v env).Silent := by
  unfold Identifier.eval
  split
  · exact .failed _
  · split
    · exact .failed _
    · exact Binding.read_silent _ _ _

theorem Builtin.readEnv_silent (place : Span) (a : Value) : (readEnv.apply place a).Silent := by
  have text : (needString place a).Silent := by
    cases a <;> first | exact .done _ | exact .failed _
  refine text.bind fun name => .bind (.lookUp name fun t => .done t) fun t => ?_
  cases t with
  | none => exact .failed _
  | some t => exact .done _

/-- An expression that calls no other function says and asks nothing. -/
theorem Expr.eval_silent (env : Env) : ∀ e : Expr, Quiet e.callees → (e.eval v env).Silent
  | .literal l, _ => by
    rw [eval]
    exact l.eval_silent.bind fun _ => .done _
  | .identifier x, _ => by
    rw [eval]
    exact (x.eval_silent env).bind fun _ => .done _
  | .binary op left right s, h => by
    rw [callees] at h
    rw [eval]
    refine (eval_silent env left h.left).bind fun _ => (needValue_silent _ _).bind fun a => ?_
    refine (eval_silent env right h.right).bind fun _ => (needValue_silent _ _).bind fun b => ?_
    split
    · exact .done _
    · exact .failed _
  | .call callee [argument] s, h => by
    rw [callees, calleesOfExprs, calleesOfExprs] at h
    have given : (argument.eval v env).Silent :=
      eval_silent env argument (h.mono (List.subset_cons_of_subset _ (List.subset_append_left _ _)))
    rw [eval, Builtin.resolve_eq]
    cases found : Builtin.ofName? callee.name with
    | none => exact .failed _
    | some b =>
      obtain rfl := h.eq_readEnv List.mem_cons_self found
      simp only [if_true, Dialogue.bind_assoc, Dialogue.done_bind]
      refine (Builtin.require_silent s .readEnv).bind fun _ => given.bind fun _ => ?_
      exact (needValue_silent _ _).bind fun a => Builtin.readEnv_silent _ a
  | .call callee [] s, _ | .call callee (_ :: _ :: _) s, _ => by
    exact (Builtin.resolve_silent callee _ s).bind fun _ => .done _
  | .assignment target value s, _ => .failed _

theorem Expr.value_silent (env : Env) {e : Expr} (h : Quiet e.callees) : (e.value v env).Silent :=
  (e.eval_silent env h).bind fun _ => needValue_silent _ _

/-! ## Steps -/

theorem assign_silent (env : Env) (target : Identifier) {e : Expr} (h : Quiet e.callees) :
    (assign v env target e).Silent := by
  unfold assign
  split
  · exact .failed _
  · refine .ite (fun _ => ?_) (fun _ => .failed _)
    refine (Expr.value_silent env h).bind fun a => (v.checkType_silent _ _ a _).bind fun _ => ?_
    split
    · exact .done _
    · exact .failed _

theorem Declarator.exec_silent (kind : DeclarationKind) {d : Declarator} (env : Env)
    (h : Quiet d.callees) : (d.exec v kind env).Silent := by
  have initial : (d.initial v kind env).Silent := by
    unfold Declarator.initial
    unfold Declarator.callees at h
    split
    · next e init =>
      rw [init] at h
      exact (Expr.value_silent env h).bind fun a => (v.checkType_silent _ _ a _).bind fun _ => .done _
    · exact .ite (fun _ => .failed _) (fun _ => .done _)
  exact (v.requireType_silent d.type d.span).bind fun _ => initial.bind fun _ => .done _

theorem declareAll_silent (kind : DeclarationKind) {ds : List Declarator} (env : Env)
    (h : Quiet (ds.flatMap Declarator.callees)) : (declareAll v kind env ds).Silent := by
  induction ds generalizing env with
  | nil => exact .done env
  | cons d ds ih =>
    rw [List.flatMap_cons] at h
    exact (d.exec_silent kind env h.left).bind fun env' => ih env' h.right

theorem Expr.exec_silent (env : Env) {e : Expr} (h : Quiet e.callees) : (e.exec v env).Silent := by
  cases e with
  | assignment target value s => exact assign_silent env target h
  | literal | identifier | binary | call => exact (eval_silent env _ h).bind fun _ => .done env

/-! ## Statements -/

mutual

/-- A statement that calls no other function says and asks nothing. -/
theorem Stmt.exec_silent : ∀ (s : Stmt) (env : Env), Quiet s.callees → (s.exec v env).Silent
  | .declaration kind ds _, env, h => by
    rw [Stmt.callees] at h
    rw [Stmt.exec]
    exact declareAll_silent kind env h
  | .expression e _, env, h => by
    rw [Stmt.callees] at h
    rw [Stmt.exec]
    exact e.exec_silent env h
  | .conditional test consequent alternate _, env, h => by
    rw [Stmt.callees] at h
    rw [Stmt.exec]
    refine (test.eval_silent env).bind fun a => .ite (fun _ => ?_) (fun _ => ?_)
    · exact execAll_silent consequent env h.left
    · exact execAll_silent alternate env h.right

/-- So it is with any number of them. -/
theorem execAll_silent : ∀ (ss : List Stmt) (env : Env), Quiet (calleesOfStmts ss) →
    (execAll v env ss).Silent
  | [], env, _ => by
    rw [execAll]
    exact .done env
  | s :: ss, env, h => by
    rw [calleesOfStmts] at h
    rw [execAll]
    exact (s.exec_silent env h.left).bind fun env' => execAll_silent ss env' h.right

end

end Slate
