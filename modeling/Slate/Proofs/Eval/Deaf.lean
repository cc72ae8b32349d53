import Slate.Eval
import Slate.Proofs.Dialogue.Deaf

/-!
# Versions before truth values and input

Truth values and the functions that read from outside came into the language with version 1.1.0. Every way to
one of them is behind a gate of the version, and before 1.1.0 all gates are closed:

* `Version.require_deaf` — nothing goes on behind a gate;
* `Builtin.resolve_deaf` — so only `println` can be called, and it has no value;
* `Expr.eval_deaf` — an expression takes nothing in, and its value is no truth value;
* `execAll_deaf` — a run takes nothing in, and it leaves no truth value that was not there before.
-/

namespace Slate

/-! ## Values and environments -/

/-- The value is no truth value. -/
abbrev Value.NotBoolean (a : Value) : Prop := a.type ≠ .boolean

/-- Every truth value of the second environment is one of the first, bound as it was. -/
def Env.AddsNoBoolean (env env' : Env) : Prop :=
  ∀ name b, env'.get? name = some b → b.type = .boolean → env.get? name = some b

namespace Env.AddsNoBoolean

variable {env env' env'' : Env}

theorem refl (env : Env) : env.AddsNoBoolean env := fun _ _ bound _ => bound

theorem trans (h : env.AddsNoBoolean env') (h' : env'.AddsNoBoolean env'') : env.AddsNoBoolean env'' := by
  intro name b bound isBoolean
  exact h name b (h' name b bound isBoolean) isBoolean

theorem insert (env : Env) (name : String) {b : Binding} (h : b.type ≠ .boolean) :
    env.AddsNoBoolean (env.insert name b) := by
  intro other c bound isBoolean
  rw [get?_insert] at bound
  split at bound
  · obtain rfl : b = c := Option.some.inj bound
    exact absurd isBoolean h
  · exact bound

end Env.AddsNoBoolean

/-! ## Operators -/

/-- An operator makes texts and numbers. -/
theorem BinaryOp.notBoolean_of_apply {op : BinaryOp} {a b c : Value} (h : op.apply a b = .ok c) :
    c.NotBoolean := by
  unfold apply at h
  split at h
  · cases h
    simp [Value.type]
  · cases h
    simp [Value.type]
  · split at h
    · cases h
    · split at h
      · cases h
        simp [Value.type]
      · cases h
  · cases h

section

variable {v : Version} (old : v.isAtLeast ⟨1, 1, 0⟩ = false)
include old

/-! ## Gates -/

/-- All gates are closed. -/
theorem Version.require_deaf (feature : Feature) (s : Span) :
    (v.require feature s).Deaf fun _ => False := by
  have lacks : v.supports feature = false := by
    cases feature with
    | boolean | readInput | readEnv => exact old
  unfold require
  rw [lacks]
  exact .failed _

theorem Version.requireType_deaf (type : Ty) (s : Span) :
    (v.requireType type s).Deaf fun _ => type ≠ .boolean := by
  unfold requireType
  apply Dialogue.Deaf.ite
  · intro _
    exact (require_deaf old .boolean s).mono fun _ closed => closed.elim
  · intro other
    exact .done other

/-- What fits a variable is no truth value, and neither is the variable of their type. -/
theorem Version.checkType_deaf (name : String) (declared : Ty) (a : Value) (s : Span) :
    (v.checkType name declared a s).Deaf fun _ => declared ≠ .boolean := by
  refine (requireType_deaf old a.type s).bind fun _ other => ?_
  apply Dialogue.Deaf.ite
  · intro fits
    exact .done (fits ▸ other)
  · intro _
    exact .failed _

/-! ## Expressions -/

theorem Literal.eval_deaf (l : Literal) : (l.eval v).Deaf Value.NotBoolean := by
  unfold eval
  split
  · exact .done (by simp [Value.type])
  · exact .done (by simp [Value.type])
  · exact (Version.require_deaf old .boolean l.span).bind fun _ closed => closed.elim

theorem Binding.read_deaf (x : Identifier) (type : Ty) (text : String) :
    (Binding.read v x type text).Deaf Value.NotBoolean := by
  unfold Binding.read
  split
  · exact .done (by simp [Value.type])
  · split
    · exact .done (by simp [Value.type])
    · exact .failed _
  · exact (Version.require_deaf old .boolean x.span).bind fun _ closed => closed.elim

theorem Identifier.eval_deaf (env : Env) (x : Identifier) : (x.eval v env).Deaf Value.NotBoolean := by
  unfold eval
  split
  · exact .failed _
  · split
    · exact .failed _
    · exact Binding.read_deaf old x _ _

/-- The functions that read from outside are not found. -/
theorem Builtin.resolve_deaf (callee : Identifier) (arguments : Nat) (s : Span) :
    (resolve v callee arguments s).Deaf fun f => f = println := by
  rw [resolve_eq]
  split
  · exact .failed _
  · next f _ =>
    cases f with
    | println => exact .ite (fun _ => .done rfl) (fun _ => .failed _)
    | readInput => exact (Version.require_deaf old .readInput s).bind fun _ closed => closed.elim
    | readEnv => exact (Version.require_deaf old .readEnv s).bind fun _ closed => closed.elim

omit old in
theorem needValue_deaf (s : Span) {a : Option Value} (h : ∀ b ∈ a, b.NotBoolean) :
    (needValue s a).Deaf (ε := EvalError) Value.NotBoolean := by
  cases a with
  | none => exact .failed _
  | some a => exact .done (h a rfl)

/-- An expression takes nothing in, and its value is no truth value. -/
theorem Expr.eval_deaf (env : Env) : ∀ e : Expr, (e.eval v env).Deaf fun a => ∀ b ∈ a, b.NotBoolean
  | .literal l => by
    rw [eval]
    refine (l.eval_deaf old).bind fun a h => .done ?_
    rintro b ⟨⟩
    exact h
  | .identifier x => by
    rw [eval]
    refine (x.eval_deaf old env).bind fun a h => .done ?_
    rintro b ⟨⟩
    exact h
  | .binary op left right s => by
    rw [eval]
    refine (eval_deaf env left).bind fun _ hl => (needValue_deaf _ hl).bind fun a _ => ?_
    refine (eval_deaf env right).bind fun _ hr => (needValue_deaf _ hr).bind fun b _ => ?_
    cases applied : op.apply a b with
    | error fault => exact .failed _
    | ok c =>
      refine .done ?_
      rintro d ⟨⟩
      exact op.notBoolean_of_apply applied
  | .call callee [argument] s => by
    rw [eval]
    refine (Builtin.resolve_deaf old callee 1 s).bind fun f found => ?_
    refine (eval_deaf env argument).bind fun _ h => (needValue_deaf _ h).bind fun a _ => ?_
    rw [found]
    refine .say a.canonical (.done ?_)
    rintro b ⟨⟩
  | .call callee [] s | .call callee (_ :: _ :: _) s => by
    refine (Builtin.resolve_deaf old callee _ s).bind fun _ _ => .done ?_
    rintro b ⟨⟩
  | .assignment target value s => .failed _

theorem Expr.value_deaf (env : Env) (e : Expr) : (e.value v env).Deaf Value.NotBoolean :=
  (e.eval_deaf old env).bind fun _ h => needValue_deaf e.span h

/-! ## Steps -/

/-- An assignment to a variable for truth values fails, as there is no value for it. -/
theorem assign_deaf (env : Env) (target : Identifier) (e : Expr) :
    (assign v env target e).Deaf env.AddsNoBoolean := by
  unfold assign
  cases bound : env.get? target.name with
  | none => exact .failed _
  | some b =>
    apply Dialogue.Deaf.ite
    · intro _
      refine (e.value_deaf old env).bind fun a _ => ?_
      refine (Version.checkType_deaf old target.name b.type a e.span).bind fun _ other => ?_
      simp only [Env.setValue?, bound, Option.map_some]
      exact .done (.insert env target.name other)
    · intro _
      exact .failed _

theorem Declarator.initial_deaf (kind : DeclarationKind) (d : Declarator) (env : Env) :
    (d.initial v kind env).Deaf fun _ => True := by
  unfold initial
  split
  · next e _ =>
    refine (e.value_deaf old env).bind fun a _ => ?_
    exact (Version.checkType_deaf old d.id.name d.type a e.span).bind fun _ _ => .done trivial
  · exact .ite (fun _ => .failed _) (fun _ => .done trivial)

/-- No variable for truth values is declared. -/
theorem Declarator.exec_deaf (kind : DeclarationKind) (d : Declarator) (env : Env) :
    (d.exec v kind env).Deaf env.AddsNoBoolean := by
  refine (Version.requireType_deaf old d.type d.span).bind fun _ other => ?_
  exact (d.initial_deaf old kind env).bind fun _ _ => .done (.insert env d.id.name other)

theorem declareAll_deaf (kind : DeclarationKind) (ds : List Declarator) (env : Env) :
    (declareAll v kind env ds).Deaf env.AddsNoBoolean := by
  induction ds generalizing env with
  | nil => exact .done (.refl env)
  | cons d ds ih =>
    rw [declareAll]
    refine (d.exec_deaf old kind env).bind fun env' first => ?_
    exact (ih env').mono fun _ others => first.trans others

theorem Expr.exec_deaf (env : Env) (e : Expr) : (e.exec v env).Deaf env.AddsNoBoolean := by
  cases e with
  | assignment target value s => exact assign_deaf old env target value
  | literal | identifier | binary | call =>
    exact (eval_deaf old env _).bind fun _ _ => .done (.refl env)

end

/-! ## Statements -/

mutual

/-- A statement takes nothing in and adds no truth value. -/
theorem Stmt.exec_deaf {v : Version} (old : v.isAtLeast ⟨1, 1, 0⟩ = false) :
    ∀ (s : Stmt) (env : Env), (s.exec v env).Deaf env.AddsNoBoolean
  | .declaration kind ds _, env => by
    rw [Stmt.exec]
    exact declareAll_deaf old kind ds env
  | .expression e _, env => by
    rw [Stmt.exec]
    exact e.exec_deaf old env
  | .conditional test consequent alternate _, env => by
    rw [Stmt.exec]
    refine (test.eval_deaf old env).bind fun a _ => ?_
    apply Dialogue.Deaf.ite
    · intro _
      exact execAll_deaf old consequent env
    · intro _
      exact execAll_deaf old alternate env

/-- So do any number of them. -/
theorem execAll_deaf {v : Version} (old : v.isAtLeast ⟨1, 1, 0⟩ = false) :
    ∀ (ss : List Stmt) (env : Env), (execAll v env ss).Deaf env.AddsNoBoolean
  | [], env => by
    rw [execAll]
    exact .done (.refl env)
  | s :: ss, env => by
    rw [execAll]
    refine (s.exec_deaf old env).bind fun env' first => ?_
    exact (execAll_deaf old ss env').mono fun _ others => first.trans others

end

/-! ## Programs -/

/-- Before version 1.1.0 a run asks nothing and leaves all the answers. What it writes and how it ends depends
neither on them nor on the variables of the process. No expression has a truth value, and each one that the run
leaves was there at the start, bound as it is now. -/
theorem run_takes_nothing {v : Version} (old : v.isAtLeast ⟨1, 1, 0⟩ = false) (env : Env) (p : Program)
    (vars : ProcessEnv) (answers : List String) :
    let o := (p.run v env).withAnswers vars answers
    o.prompts = [] ∧ o.answers = answers ∧
      (∀ vars' answers', ((p.run v env).withAnswers vars' answers').result = o.result ∧
        ((p.run v env).withAnswers vars' answers').output = o.output) ∧
      (∀ (e : Expr) (env' : Env) vars' answers' b,
        ((e.eval v env').withAnswers vars' answers').result ≠ .ok (some (.boolean b))) ∧
      ∀ env', o.result = .ok env' →
        ∀ name b, env'.get? name = some b → b.type = .boolean → env.get? name = some b := by
  intro o
  obtain ⟨result, lines, kept, led⟩ := (execAll_deaf old p.statements env).exists_outcome
  have same : ∀ vars' answers', (p.run v env).withAnswers vars' answers' =
      ⟨result, lines.map Event.said, answers'⟩ := led
  have here : o = ⟨result, lines.map Event.said, answers⟩ := same vars answers
  rw [here]
  refine ⟨?_, rfl, ?_, ?_, kept⟩
  · show (lines.map Event.said).filterMap Event.prompt? = []
    rw [List.filterMap_map]
    exact List.filterMap_eq_nil_iff.2 fun _ _ => rfl
  · intro vars' answers'
    rw [same]
    exact ⟨rfl, rfl⟩
  · intro e env' vars' answers' b isBoolean
    obtain ⟨result, lines, notBoolean, led⟩ := (e.eval_deaf old env').exists_outcome
    rw [led] at isBoolean
    exact notBoolean _ isBoolean (.boolean b) rfl rfl

/-- The program `if (off) { word = readInput(word); } println(word + word);`. -/
def unasking : Program :=
  ⟨[.conditional ⟨"off", ⟨1, 5, 8⟩⟩
      [.expression (.assignment ⟨"word", ⟨1, 12, 16⟩⟩
          (.call ⟨"readInput", ⟨1, 19, 28⟩⟩ [.identifier ⟨"word", ⟨1, 29, 33⟩⟩] ⟨1, 19, 34⟩) ⟨1, 12, 34⟩)
        ⟨1, 12, 35⟩]
      [] ⟨1, 1, 37⟩,
    .expression (.call ⟨"println", ⟨1, 38, 45⟩⟩
        [.binary .add (.identifier ⟨"word", ⟨1, 46, 50⟩⟩) (.identifier ⟨"word", ⟨1, 53, 57⟩⟩) ⟨1, 46, 57⟩]
        ⟨1, 38, 58⟩) ⟨1, 38, 59⟩]⟩

/-- An environment for it, with a truth value from elsewhere. -/
def seeded : Env :=
  .ofList [("flag", ⟨.boolean, some "true", true⟩), ("off", ⟨.string, some "", false⟩),
    ("word", ⟨.string, some "tom", true⟩)]

theorem run_takes_nothing_unasking :
    Version.isAtLeast ⟨1, 0, 9⟩ ⟨1, 1, 0⟩ = false ∧
      (let o := (unasking.run ⟨1, 0, 9⟩ seeded).withAnswers (fun _ => none) ["unread"]
      o.events = [.said "tomtom"] ∧ o.result = .ok seeded ∧ o.prompts = [] ∧ o.answers = ["unread"] ∧
        (∀ vars' answers',
          ((unasking.run ⟨1, 0, 9⟩ seeded).withAnswers vars' answers').result = o.result ∧
          ((unasking.run ⟨1, 0, 9⟩ seeded).withAnswers vars' answers').output = o.output) ∧
        (∀ (e : Expr) (env' : Env) vars' answers' b,
          ((e.eval ⟨1, 0, 9⟩ env').withAnswers vars' answers').result ≠ .ok (some (.boolean b))) ∧
        ∀ env', o.result = .ok env' →
          ∀ name b, env'.get? name = some b → b.type = .boolean → seeded.get? name = some b) := by
  have old : Version.isAtLeast ⟨1, 0, 9⟩ ⟨1, 1, 0⟩ = false := by decide
  exact ⟨old, rfl, rfl, run_takes_nothing old seeded unasking (fun _ => none) ["unread"]⟩

end Slate
