import Slate.Eval
import Slate.Proofs.Dialogue.Alike
import Slate.Proofs.Tree.Names

/-!
# What a run can see

Of its environment a run sees the variables that occur in it. From two environments that bind those alike, an
expression evaluates alike (`Expr.eval_eq`), and statements say, ask and look up the same, end with the same
error or leave environments that bind those variables alike again (`Stmt.exec_agree`, `execAll_agree`). So the
variables that a program does not mention have no say in how it runs (`run_unmentioned`).
-/

namespace Slate

/-! ## Environments -/

/-- Both environments bind these names alike. -/
def Env.AgreeOn (names : List String) (env env' : Env) : Prop :=
  ∀ name ∈ names, env.get? name = env'.get? name

namespace Env.AgreeOn

variable {names names' : List String} {env env' : Env}

theorem symm (h : env.AgreeOn names env') : env'.AgreeOn names env := fun name m => (h name m).symm

theorem mono (h : env.AgreeOn names env') (fewer : names' ⊆ names) : env.AgreeOn names' env' :=
  fun name m => h name (fewer m)

/-- The same name bound in the same way. -/
theorem insert (h : env.AgreeOn names env') (name : String) (b : Binding) :
    (env.insert name b).AgreeOn names (env'.insert name b) := by
  intro other m
  rw [get?_insert, get?_insert, h other m]

end Env.AgreeOn

variable {v : Version} {names : List String} {env env' : Env}

/-! ## Expressions -/

theorem Identifier.eval_eq {x : Identifier} (h : env.get? x.name = env'.get? x.name) :
    x.eval v env = x.eval v env' := by
  unfold eval
  rw [h]

/-- An expression evaluates alike where its variables are bound alike. -/
theorem Expr.eval_eq : ∀ e : Expr, env.AgreeOn e.names env' → e.eval v env = e.eval v env'
  | .literal l, _ => by rw [eval, eval]
  | .identifier x, h => by
    rw [names] at h
    rw [eval, eval, x.eval_eq (h x.name List.mem_cons_self)]
  | .binary op left right s, h => by
    rw [names] at h
    rw [eval, eval, eval_eq left (h.mono (List.subset_append_left _ _)),
      eval_eq right (h.mono (List.subset_append_right _ _))]
  | .call callee [argument] s, h => by
    rw [names, namesOfExprs] at h
    rw [eval, eval, eval_eq argument (h.mono (List.subset_append_left _ _))]
  | .call callee [] s, _ | .call callee (_ :: _ :: _) s, _ => rfl
  | .assignment target value s, _ => rfl

theorem Expr.value_eq {e : Expr} (h : env.AgreeOn e.names env') : e.value v env = e.value v env' := by
  rw [value, value, e.eval_eq h]

/-! ## Steps -/

/-- The results bind these names alike. -/
abbrev Run.Agrees (names : List String) (r r' : Run Env) : Prop := Dialogue.Alike (Env.AgreeOn names) r r'

theorem assign_agree (h : env.AgreeOn names env') {target : Identifier} {e : Expr}
    (sub : target.name :: e.names ⊆ names) :
    Run.Agrees names (assign v env target e) (assign v env' target e) := by
  obtain ⟨mem, sub⟩ := List.cons_subset.1 sub
  unfold assign
  simp only [Env.setValue?, h target.name mem, Expr.value_eq (v := v) (h.mono sub)]
  cases env'.get? target.name with
  | none => exact .failed _
  | some b =>
    apply Dialogue.Alike.ite
    · intro _
      exact .bind_same _ fun a => .bind_same _ fun _ => .done (h.insert _ _)
    · intro _
      exact .failed _

theorem Declarator.exec_agree (h : env.AgreeOn names env') (kind : DeclarationKind) {d : Declarator}
    (sub : d.names ⊆ names) : Run.Agrees names (d.exec v kind env) (d.exec v kind env') := by
  have initial_eq : d.initial v kind env = d.initial v kind env' := by
    unfold initial
    unfold Declarator.names at sub
    split
    · next e init =>
      rw [init] at sub
      rw [Expr.value_eq (h.mono (List.cons_subset.1 sub).2)]
    · rfl
  unfold exec
  rw [initial_eq]
  exact .bind_same _ fun _ => .bind_same _ fun value => .done (h.insert _ _)

theorem declareAll_agree (h : env.AgreeOn names env') (kind : DeclarationKind) {ds : List Declarator}
    (sub : ds.flatMap Declarator.names ⊆ names) :
    Run.Agrees names (declareAll v kind env ds) (declareAll v kind env' ds) := by
  induction ds generalizing env env' with
  | nil => exact .done h
  | cons d ds ih =>
    rw [List.flatMap_cons] at sub
    obtain ⟨first, others⟩ := List.append_subset.1 sub
    rw [declareAll, declareAll]
    exact (d.exec_agree h kind first).bind fun _ _ h => ih h others

theorem Expr.exec_agree (h : env.AgreeOn names env') {e : Expr} (sub : e.names ⊆ names) :
    Run.Agrees names (e.exec v env) (e.exec v env') := by
  have evaluated : Dialogue.Alike Eq (e.eval v env) (e.eval v env') := by
    rw [e.eval_eq (h.mono sub)]
    exact .refl (fun _ => rfl) _
  cases e with
  | assignment target value s =>
    rw [Expr.names] at sub
    exact assign_agree h sub
  | literal | identifier | binary | call => exact evaluated.bind fun _ _ _ => .done h

/-! ## Statements -/

mutual

/-- A statement runs alike where its variables are bound alike. -/
theorem Stmt.exec_agree : ∀ (s : Stmt) {env env' : Env}, env.AgreeOn names env' → s.names ⊆ names →
    Run.Agrees names (s.exec v env) (s.exec v env')
  | .declaration kind ds _, _, _, h, sub => by
    rw [Stmt.names] at sub
    rw [Stmt.exec, Stmt.exec]
    exact declareAll_agree h kind sub
  | .expression e _, _, _, h, sub => by
    rw [Stmt.names] at sub
    rw [Stmt.exec, Stmt.exec]
    exact e.exec_agree h sub
  | .conditional test consequent alternate _, _, _, h, sub => by
    rw [Stmt.names] at sub
    obtain ⟨mem, sub⟩ := List.cons_subset.1 sub
    obtain ⟨first, second⟩ := List.append_subset.1 sub
    rw [Stmt.exec, Stmt.exec, test.eval_eq (h test.name mem)]
    refine .bind_same _ fun a => .ite (fun _ => ?_) (fun _ => ?_)
    · exact execAll_agree consequent h first
    · exact execAll_agree alternate h second

/-- So do any number of statements. -/
theorem execAll_agree : ∀ (ss : List Stmt) {env env' : Env}, env.AgreeOn names env' →
    namesOfStmts ss ⊆ names → Run.Agrees names (execAll v env ss) (execAll v env' ss)
  | [], _, _, h, _ => by
    rw [execAll, execAll]
    exact .done h
  | s :: ss, _, _, h, sub => by
    rw [namesOfStmts] at sub
    obtain ⟨first, others⟩ := List.append_subset.1 sub
    rw [execAll, execAll]
    exact (s.exec_agree h first).bind fun _ _ h => execAll_agree ss h others

end

/-! ## Programs -/

instance (names : List String) (env env' : Env) : Decidable (env.AgreeOn names env') :=
  inferInstanceAs (Decidable (∀ name ∈ names, env.get? name = env'.get? name))

/-- From two environments that bind alike the variables that occur in it, a program says and asks the same in the
same order, leaves the same answers, and ends with the same error or with environments that bind those variables
alike. Of all others either environment may say what it likes. -/
theorem run_unmentioned {p : Program} {env env' : Env}
    (h : env.AgreeOn (namesOfStmts p.statements) env') (v : Version) (vars : ProcessEnv)
    (answers : List String) :
    let o := (p.run v env).withAnswers vars answers
    let o' := (p.run v env').withAnswers vars answers
    o.events = o'.events ∧ o.answers = o'.answers ∧
      EndsAlike (Env.AgreeOn (namesOfStmts p.statements)) o.result o'.result :=
  (execAll_agree p.statements h (List.Subset.refl _)).withAnswers vars answers

/-- The program `if (go) { let word: string = readInput(hint); hint = word + go; } println(hint);`. -/
def unmentioning : Program where
  statements :=
    [.conditional ⟨"go", ⟨1, 5, 7⟩⟩
      [.declaration .mutable
        [⟨⟨"word", ⟨1, 15, 19⟩⟩, .string,
          some (.call ⟨"readInput", ⟨1, 30, 39⟩⟩ [.identifier ⟨"hint", ⟨1, 40, 44⟩⟩] ⟨1, 30, 45⟩),
          ⟨1, 15, 45⟩⟩] ⟨1, 11, 46⟩,
       .expression (.assignment ⟨"hint", ⟨1, 47, 51⟩⟩
          (.binary .add (.identifier ⟨"word", ⟨1, 54, 58⟩⟩) (.identifier ⟨"go", ⟨1, 61, 63⟩⟩) ⟨1, 54, 63⟩)
          ⟨1, 47, 63⟩) ⟨1, 47, 64⟩]
      [] ⟨1, 1, 66⟩,
     .expression (.call ⟨"println", ⟨1, 67, 74⟩⟩ [.identifier ⟨"hint", ⟨1, 75, 79⟩⟩] ⟨1, 67, 80⟩)
      ⟨1, 67, 81⟩]

/-- An environment for it, with a variable that is called like a function. -/
def spoken : Env :=
  .ofList [("go", ⟨.string, some "!", false⟩), ("hint", ⟨.string, some "word?", true⟩),
    ("println", ⟨.number, some "1", false⟩)]

/-- The same for this program. -/
def whispered : Env :=
  .ofList [("go", ⟨.string, some "!", false⟩), ("hint", ⟨.string, some "word?", true⟩),
    ("secret", ⟨.boolean, none, true⟩)]

theorem run_unmentioned_secret :
    spoken.AgreeOn (namesOfStmts unmentioning.statements) whispered ∧ spoken ≠ whispered ∧
      let o := (unmentioning.run .newest spoken).withAnswers (fun _ => none) ["echo", "left"]
      let o' := (unmentioning.run .newest whispered).withAnswers (fun _ => none) ["echo", "left"]
      o'.events = [.asked "word?", .said "echo!"] ∧ o.events = o'.events ∧ o.answers = o'.answers ∧
        EndsAlike (Env.AgreeOn (namesOfStmts unmentioning.statements)) o.result o'.result := by
  have agree : spoken.AgreeOn (namesOfStmts unmentioning.statements) whispered := by decide
  exact ⟨agree, by decide, rfl, run_unmentioned agree .newest (fun _ => none) ["echo", "left"]⟩

end Slate
