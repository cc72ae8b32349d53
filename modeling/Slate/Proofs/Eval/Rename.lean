import Mathlib.Logic.Equiv.Basic
import Slate.Eval
import Slate.Proofs.Dialogue.Map
import Slate.Proofs.Env.Rename
import Slate.Proofs.Tree.Rename

/-!
# The names of variables do not matter

Names of variables are compared with one another and with nothing else. So if `r` gives no two variables the
same new name, to run a tree with other names from an environment with other names is to run the tree itself
and to rename what comes of it:

    tree, environment ──rename r──▶ tree, environment
            │ run                          │ run
            ▼                              ▼
           run ─────────rename r─────────▶ run

Functions are found by names of their own, which stay. So a variable may be called like a function.

* `Expr.eval_rename` — the value stays, and an error names the variable by its new name;
* `Stmt.exec_rename`, `execAll_rename` — the environment that is left is the renamed one;
* `run_rename` — the square, for whoever leads both runs.
-/

namespace Slate

/-! ## Errors -/

/-- The fault with the name of its variable replaced. Functions and variables of the process keep theirs. -/
def EvalFault.rename (r : String → String) : EvalFault → EvalFault
  | .variableNotFound name => .variableNotFound (r name)
  | .uninitializedVariable name => .uninitializedVariable (r name)
  | .immutableAssignment name => .immutableAssignment (r name)
  | .typeMismatch name expected found => .typeMismatch (r name) expected found
  | .constantWithoutInitializer name => .constantWithoutInitializer (r name)
  | .invalidStoredValue name type value => .invalidStoredValue (r name) type value
  | fault => fault

/-- The error with the name of its variable replaced. Its place stays. -/
def EvalError.rename (r : String → String) (e : EvalError) : EvalError := { e with fault := e.fault.rename r }

/-- The run whose error has the name of its variable replaced. -/
abbrev Run.rename {α : Type} (r : String → String) (d : Run α) : Run α := d.mapError (EvalError.rename r)

variable (r : String → String) (v : Version)

/-! ## Steps that know of no variable -/

theorem Version.require_rename (feature : Feature) (s : Span) :
    v.require feature s = (v.require feature s).rename r := by
  apply Dialogue.ite_eq_mapError
  · rfl
  · cases feature <;> rfl

theorem Version.requireType_rename (type : Ty) (s : Span) :
    v.requireType type s = (v.requireType type s).rename r := by
  apply Dialogue.ite_eq_mapError
  · exact v.require_rename r .boolean s
  · rfl

theorem Literal.eval_rename (l : Literal) : l.eval v = (l.eval v).rename r := by
  obtain ⟨value, s⟩ := l
  cases value with
  | number | string => rfl
  | boolean b => exact Dialogue.bind_eq_mapError (v.require_rename r .boolean s) fun _ => rfl

theorem needValue_rename (s : Span) (a : Option Value) : needValue s a = (needValue s a).rename r := by
  cases a with
  | none => rfl
  | some a => rfl

theorem needString_rename (s : Span) (a : Value) : needString s a = (needString s a).rename r := by
  cases a with
  | number | string | boolean => rfl

theorem BinaryOp.fault_rename {op : BinaryOp} {a b : Value} {fault : EvalFault}
    (h : op.apply a b = .error fault) : fault.rename r = fault := by
  rcases fault_of_apply h with rfl | rfl | rfl
  · rfl
  · rfl
  · rfl

theorem Builtin.apply_rename (place : Span) (a : Value) (b : Builtin) :
    b.apply place a = (b.apply place a).rename r := by
  cases b with
  | println => rfl
  | readInput => exact Dialogue.bind_eq_mapError (needString_rename r place a) fun _ => rfl
  | readEnv =>
    refine Dialogue.bind_eq_mapError (needString_rename r place a) fun name => ?_
    refine congrArg (Dialogue.lookUp name) (funext fun text => ?_)
    cases text with
    | none => rfl
    | some text => rfl

/-- Functions are found by names of their own. -/
theorem Builtin.resolve_rename (callee : Identifier) (arguments : Nat) (s : Span) :
    resolve v callee arguments s = (resolve v callee arguments s).rename r := by
  rw [resolve_eq]
  split
  · rfl
  · refine Dialogue.bind_eq_mapError ?_ fun _ => Dialogue.ite_eq_mapError rfl rfl
    unfold require
    split
    · exact v.require_rename r _ s
    · rfl

/-! ## Steps that name a variable -/

theorem Version.checkType_rename (name : String) (declared : Ty) (a : Value) (s : Span) :
    v.checkType (r name) declared a s = (v.checkType name declared a s).rename r := by
  refine Dialogue.bind_eq_mapError (v.requireType_rename r a.type s) fun _ => ?_
  exact Dialogue.ite_eq_mapError rfl rfl

theorem Binding.read_rename (x : Identifier) (type : Ty) (text : String) :
    Binding.read v (x.rename r) type text = (Binding.read v x type text).rename r := by
  cases type with
  | string => rfl
  | number =>
    simp only [read]
    cases Decimal.ofString? text with
    | ok d => rfl
    | error e => rfl
  | boolean =>
    refine Dialogue.bind_eq_mapError (v.require_rename r .boolean x.span) fun _ => ?_
    exact Dialogue.ite_eq_mapError rfl (Dialogue.ite_eq_mapError rfl rfl)

variable {r} (inj : Function.Injective r) (env : Env)
include inj

theorem Identifier.eval_rename (x : Identifier) :
    (x.rename r).eval v (env.rename r) = (x.eval v env).rename r := by
  unfold eval
  rw [name_rename, Env.get?_rename inj]
  cases env.get? x.name with
  | none => rfl
  | some b =>
    obtain ⟨type, value, isMutable⟩ := b
    cases value with
    | none => rfl
    | some text => exact Binding.read_rename r v x type text

/-! ## Expressions -/

/-- Under other names an expression says, asks and looks up the same, and has the same value. -/
theorem Expr.eval_rename : ∀ e : Expr, (e.rename r).eval v (env.rename r) = (e.eval v env).rename r
  | .literal l => by
    rw [rename, eval, eval]
    exact Dialogue.bind_eq_mapError (l.eval_rename r v) fun _ => rfl
  | .identifier x => by
    rw [rename, eval, eval]
    exact Dialogue.bind_eq_mapError (x.eval_rename v inj env) fun _ => rfl
  | .binary op left right s => by
    rw [rename, eval, eval, span_rename, span_rename]
    refine Dialogue.bind_eq_mapError (eval_rename left) fun _ =>
      Dialogue.bind_eq_mapError (needValue_rename r _ _) fun a => ?_
    refine Dialogue.bind_eq_mapError (eval_rename right) fun _ =>
      Dialogue.bind_eq_mapError (needValue_rename r _ _) fun b => ?_
    cases applied : op.apply a b with
    | ok c => rfl
    | error fault =>
      show Run.fail s fault = Run.fail s (fault.rename r)
      rw [op.fault_rename r applied]
  | .call callee [argument] s => by
    rw [rename, renameExprs, renameExprs, eval, eval, span_rename]
    refine Dialogue.bind_eq_mapError (Builtin.resolve_rename r v callee 1 s) fun b => ?_
    refine Dialogue.bind_eq_mapError (eval_rename argument) fun _ =>
      Dialogue.bind_eq_mapError (needValue_rename r _ _) fun a => ?_
    exact b.apply_rename r argument.span a
  | .call callee [] s => by
    rw [rename, renameExprs]
    exact Dialogue.bind_eq_mapError (Builtin.resolve_rename r v callee 0 s) fun _ => rfl
  | .call callee (a :: b :: es) s => by
    rw [rename, renameExprs, renameExprs]
    refine Dialogue.bind_eq_mapError ?_ fun _ => rfl
    simpa using Builtin.resolve_rename r v callee (a :: b :: es).length s
  | .assignment target value s => by
    rw [rename]
    rfl

theorem Expr.value_rename (e : Expr) :
    (e.rename r).value v (env.rename r) = (e.value v env).rename r := by
  unfold value
  rw [span_rename]
  exact Dialogue.bind_eq_mapError (e.eval_rename v inj env) fun _ => needValue_rename r _ _

/-! ## Statements -/

theorem assign_rename (target : Identifier) (e : Expr) :
    assign v (env.rename r) (target.rename r) (e.rename r) =
      Env.rename r <$> (assign v env target e).rename r := by
  unfold assign
  rw [Identifier.name_rename, Expr.span_rename, Env.get?_rename inj]
  cases env.get? target.name with
  | none => rfl
  | some b =>
    apply Dialogue.ite_eq_map
    · refine Dialogue.bind_eq_map_of_same (e.value_rename v inj env) fun a => ?_
      refine Dialogue.bind_eq_map_of_same (v.checkType_rename r target.name b.type a e.span) fun _ => ?_
      rw [Env.setValue?_rename inj]
      cases env.setValue? target.name a.canonical with
      | none => rfl
      | some env' => rfl
    · rfl

theorem Declarator.initial_rename (kind : DeclarationKind) (d : Declarator) :
    (d.rename r).initial v kind (env.rename r) = (d.initial v kind env).rename r := by
  obtain ⟨id, type, init, s⟩ := d
  unfold initial
  cases init with
  | none => exact Dialogue.ite_eq_mapError rfl rfl
  | some e =>
    simp only [rename, Option.map_some, Identifier.name_rename, Expr.span_rename]
    refine Dialogue.bind_eq_mapError (e.value_rename v inj env) fun a => ?_
    exact Dialogue.bind_eq_mapError (v.checkType_rename r id.name type a e.span) fun _ => rfl

theorem Declarator.exec_rename (kind : DeclarationKind) (d : Declarator) :
    (d.rename r).exec v kind (env.rename r) = Env.rename r <$> (d.exec v kind env).rename r := by
  refine Dialogue.bind_eq_map_of_same (v.requireType_rename r d.type d.span) fun _ => ?_
  refine Dialogue.bind_eq_map_of_same (d.initial_rename v inj env kind) fun value => ?_
  show Dialogue.done _ = Dialogue.done _
  rw [Env.rename_insert inj]
  rfl

theorem declareAll_rename (kind : DeclarationKind) (ds : List Declarator) :
    declareAll v kind (env.rename r) (ds.map (Declarator.rename r)) =
      Env.rename r <$> (declareAll v kind env ds).rename r := by
  induction ds generalizing env with
  | nil => rfl
  | cons d ds ih =>
    rw [List.map_cons, declareAll, declareAll]
    exact Dialogue.bind_eq_map (d.exec_rename v inj env kind) ih

theorem Expr.exec_rename (e : Expr) :
    (e.rename r).exec v (env.rename r) = Env.rename r <$> (e.exec v env).rename r := by
  cases e with
  | assignment target value s =>
    rw [rename]
    exact assign_rename v inj env target value
  | literal | identifier | binary | call =>
    rw [rename, exec, exec, ← rename]
    · exact Dialogue.bind_eq_map_of_same (eval_rename v inj env _) fun _ => rfl
    all_goals
      intro _ _ _ h
      cases h

omit inj

mutual

/-- A statement does the same under other names. -/
theorem Stmt.exec_rename (inj : Function.Injective r) : ∀ (s : Stmt) (env : Env),
    (s.rename r).exec v (env.rename r) = Env.rename r <$> (s.exec v env).rename r
  | .declaration kind ds s, env => by
    rw [Stmt.rename, Stmt.exec, Stmt.exec]
    exact declareAll_rename v inj env kind ds
  | .expression e s, env => by
    rw [Stmt.rename, Stmt.exec, Stmt.exec]
    exact e.exec_rename v inj env
  | .conditional test consequent alternate s, env => by
    rw [Stmt.rename, Stmt.exec, Stmt.exec]
    refine Dialogue.bind_eq_map_of_same (test.eval_rename v inj env) fun a => ?_
    apply Dialogue.ite_eq_map
    · exact execAll_rename inj consequent env
    · exact execAll_rename inj alternate env

/-- So do any number of them. -/
theorem execAll_rename (inj : Function.Injective r) : ∀ (ss : List Stmt) (env : Env),
    execAll v (env.rename r) (renameStmts r ss) = Env.rename r <$> (execAll v env ss).rename r
  | [], env => by
    rw [renameStmts, execAll, execAll]
    rfl
  | s :: ss, env => by
    rw [renameStmts, execAll, execAll]
    exact Dialogue.bind_eq_map (s.exec_rename inj env) (execAll_rename inj ss)

end

/-! ## Programs -/

/-- Led with the same answers and variables of the process, the renamed program says and asks the same as the
program itself and leaves the same answers. It ends with the renamed environment, or with the error whose
variable is renamed. -/
theorem run_rename {r : String → String} (inj : Function.Injective r) (v : Version) (env : Env)
    (p : Program) (vars : ProcessEnv) (answers : List String) :
    ((p.rename r).run v (env.rename r)).withAnswers vars answers =
      (((p.run v env).withAnswers vars answers).mapError (EvalError.rename r)).map (Env.rename r) := by
  have renamed : (p.rename r).run v (env.rename r) = Env.rename r <$> (p.run v env).rename r :=
    execAll_rename v inj p.statements env
  rw [renamed, Dialogue.withAnswers_map, Dialogue.withAnswers_mapError]

/-- The program `n = readInput(hint); println(n + println);`, in which a variable is called like a function. -/
def namesake : Program :=
  ⟨[.expression (.assignment ⟨"n", ⟨1, 1, 2⟩⟩
        (.call ⟨"readInput", ⟨1, 5, 14⟩⟩ [.identifier ⟨"hint", ⟨1, 15, 19⟩⟩] ⟨1, 5, 20⟩) ⟨1, 1, 20⟩)
      ⟨1, 1, 21⟩,
    .expression (.call ⟨"println", ⟨1, 22, 29⟩⟩
        [.binary .add (.identifier ⟨"n", ⟨1, 30, 31⟩⟩) (.identifier ⟨"println", ⟨1, 34, 41⟩⟩) ⟨1, 30, 41⟩]
        ⟨1, 22, 42⟩) ⟨1, 22, 43⟩]⟩

/-- An environment for it. -/
def unnamed : Env :=
  .ofList [("hint", ⟨.string, some "name?", false⟩), ("n", ⟨.string, none, true⟩),
    ("println", ⟨.string, some "sake", false⟩)]

/-- The two variables change names, the functions do not. -/
theorem run_rename_namesake :
    Function.Injective (Equiv.swap "n" "println") ∧
      ((namesake.run ⟨1, 1, 0⟩ unnamed).withAnswers (fun _ => none) ["name", "left"]).events =
        [.asked "name?", .said "namesake"] ∧
      ((namesake.rename (Equiv.swap "n" "println")).run ⟨1, 1, 0⟩
          (unnamed.rename (Equiv.swap "n" "println"))).withAnswers (fun _ => none) ["name", "left"] =
        (((namesake.run ⟨1, 1, 0⟩ unnamed).withAnswers (fun _ => none) ["name", "left"]).mapError
          (EvalError.rename (Equiv.swap "n" "println"))).map
            (Env.rename (Equiv.swap "n" "println")) := by
  have inj : Function.Injective (Equiv.swap "n" "println") := Equiv.injective _
  exact ⟨inj, rfl, run_rename inj ⟨1, 1, 0⟩ unnamed namesake (fun _ => none) ["name", "left"]⟩

end Slate
