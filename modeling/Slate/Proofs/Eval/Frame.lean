import Slate.Eval
import Slate.Proofs.Dialogue.Ends
import Slate.Proofs.Tree.Names

/-!
# What a run can change

A run reaches its environment through declarations and assignments only, so the names in them bound what it
changes. A variable that is not declared stays what it was declared to be, and a constant keeps its value. A
variable that is not assigned to either stays as it is.

* `Env.Framed` — what an environment keeps, given the names that are declared and those that are assigned to;
* `Stmt.exec_framed`, `execAll_framed` — one statement keeps that much of an environment, and so do any number;
* `execAll_keeps` — the same of a run that is led to its end.
-/

namespace Slate

/-! ## What is kept -/

/-- What an assignment leaves of a binding. -/
structure Binding.Kept (b b' : Binding) : Prop where
  type : b'.type = b.type
  isMutable : b'.isMutable = b.isMutable
  constant : b.isMutable = false → b'.value = b.value
  initialised : b.value.isSome = true → b'.value.isSome = true

theorem Binding.Kept.refl (b : Binding) : b.Kept b := ⟨rfl, rfl, fun _ => rfl, id⟩

theorem Binding.Kept.trans {a b c : Binding} (h : a.Kept b) (h' : b.Kept c) : a.Kept c where
  type := h'.type.trans h.type
  isMutable := h'.isMutable.trans h.isMutable
  constant immutable := (h'.constant (h.isMutable.trans immutable)).trans (h.constant immutable)
  initialised value := h'.initialised (h.initialised value)

/-- What an environment keeps if no other names are declared and assigned to than these. -/
structure Env.Framed (declared assigned : List String) (env env' : Env) : Prop where
  /-- No name is unbound. -/
  bound : ∀ name, env.contains name = true → env'.contains name = true
  /-- A name that is neither declared nor assigned to keeps its binding. -/
  untouched : ∀ name, name ∉ declared → name ∉ assigned → env'.get? name = env.get? name
  /-- A name that is not declared keeps its type, its mutability and, if it is a constant, its value. If it
  has a value, it has one afterwards. -/
  kept : ∀ name b, name ∉ declared → env.get? name = some b →
    ∃ b', env'.get? name = some b' ∧ b.Kept b'
  /-- A name that is bound newly is declared. -/
  fresh : ∀ name, env.contains name = false → env'.contains name = true → name ∈ declared

namespace Env.Framed

variable {declared assigned declared' assigned' : List String} {env env' env'' : Env}

theorem refl (declared assigned : List String) (env : Env) : env.Framed declared assigned env where
  bound _ h := h
  untouched _ _ _ := rfl
  kept _ b _ h := ⟨b, h, .refl b⟩
  fresh _ h h' := by
    rw [h] at h'
    cases h'

/-- Whatever keeps to fewer names keeps to more. -/
theorem mono (h : env.Framed declared assigned env') (hd : declared ⊆ declared')
    (ha : assigned ⊆ assigned') : env.Framed declared' assigned' env' where
  bound := h.bound
  untouched name nd na := h.untouched name (fun m => nd (hd m)) (fun m => na (ha m))
  kept name b nd := h.kept name b fun m => nd (hd m)
  fresh name unbound now := hd (h.fresh name unbound now)

theorem trans (h : env.Framed declared assigned env') (h' : env'.Framed declared assigned env'') :
    env.Framed declared assigned env'' where
  bound name was := h'.bound name (h.bound name was)
  untouched name nd na := (h'.untouched name nd na).trans (h.untouched name nd na)
  kept name b nd was := by
    obtain ⟨b', between, first⟩ := h.kept name b nd was
    obtain ⟨b'', after_, second⟩ := h'.kept name b' nd between
    exact ⟨b'', after_, first.trans second⟩
  fresh name unbound now := by
    cases between : env'.contains name with
    | true => exact h.fresh name unbound between
    | false => exact h'.fresh name between now

theorem append (h : env.Framed declared assigned env') (h' : env'.Framed declared' assigned' env'') :
    env.Framed (declared ++ declared') (assigned ++ assigned') env'' :=
  (h.mono (List.subset_append_left _ _) (List.subset_append_left _ _)).trans
    (h'.mono (List.subset_append_right _ _) (List.subset_append_right _ _))

/-- A declaration may change all of a binding, but of its own name only. -/
theorem declare (env : Env) (name : String) (b : Binding) :
    env.Framed [name] [] (env.insert name b) where
  bound other h := by
    rw [contains, get?_insert]
    split
    · rfl
    · exact h
  untouched other nd _ := by
    rw [get?_insert, if_neg (fun e => nd (List.mem_singleton.2 e.symm))]
  kept other c nd h := by
    rw [get?_insert, if_neg (fun e => nd (List.mem_singleton.2 e.symm))]
    exact ⟨c, h, .refl c⟩
  fresh other unbound now := by
    rw [contains, get?_insert] at now
    split at now
    · next e => exact List.mem_singleton.2 e.symm
    · rw [contains] at unbound
      rw [unbound] at now
      cases now

/-- An assignment changes the value of a variable, which is no constant. -/
theorem assign {name : String} {b : Binding} (h : env.get? name = some b) (hm : b.isMutable = true)
    (text : String) :
    env.Framed [] [name] (env.insert name { b with value := some text }) where
  bound other was := by
    rw [contains, get?_insert]
    split
    · rfl
    · exact was
  untouched other _ na := by
    rw [get?_insert, if_neg (fun e => na (List.mem_singleton.2 e.symm))]
  kept other c _ was := by
    rw [get?_insert]
    split
    · next e =>
      obtain rfl : b = c := Option.some.inj (h.symm.trans (e ▸ was))
      refine ⟨_, rfl, ⟨rfl, rfl, fun immutable => ?_, fun _ => rfl⟩⟩
      rw [hm] at immutable
      cases immutable
    · exact ⟨c, was, .refl c⟩
  fresh other unbound now := by
    rw [contains] at unbound
    rw [contains, get?_insert] at now
    split at now
    · next e =>
      rw [← e, h] at unbound
      cases unbound
    · rw [unbound] at now
      cases now

end Env.Framed

/-! ## Runs -/

/-- Whatever comes back, a result of the run satisfies `P`. -/
abbrev Run.Leaves {α : Type} (P : α → Prop) (r : Run α) : Prop := r.Ends P fun _ => True

theorem Run.leaves_fail {α : Type} {P : α → Prop} (s : Span) (fault : EvalFault) :
    (Run.fail s fault : Run α).Leaves P := .failed trivial

/-- What follows on something that says nothing of its result. -/
theorem Run.leaves_bind {α β : Type} {P : β → Prop} (r : Run α) {f : α → Run β}
    (next : ∀ a, (f a).Leaves P) : (r >>= f).Leaves P := by
  have any : r.Leaves fun _ => True := .of_forall (fun _ => trivial) (fun _ => trivial) r
  exact any.bind fun a _ => next a

variable {v : Version}

/-! ## Steps -/

theorem assign_framed (env : Env) (target : Identifier) (e : Expr) :
    (assign v env target e).Leaves (env.Framed [] [target.name]) := by
  unfold assign
  cases hb : env.get? target.name with
  | none => exact Run.leaves_fail _ _
  | some b =>
    apply Dialogue.Ends.ite
    · intro isMutable
      refine Run.leaves_bind _ fun a => Run.leaves_bind _ fun _ => ?_
      simp only [Env.setValue?, hb, Option.map_some]
      exact .done (.assign hb isMutable a.canonical)
    · intro _
      exact Run.leaves_fail _ _

theorem Declarator.exec_framed (kind : DeclarationKind) (d : Declarator) (env : Env) :
    (d.exec v kind env).Leaves (env.Framed [d.id.name] []) :=
  Run.leaves_bind _ fun _ => Run.leaves_bind _ fun _ => .done (.declare env d.id.name _)

theorem declareAll_framed (kind : DeclarationKind) (ds : List Declarator) (env : Env) :
    (declareAll v kind env ds).Leaves (env.Framed (ds.map fun d => d.id.name) []) := by
  induction ds generalizing env with
  | nil => exact .done (.refl _ _ env)
  | cons d ds ih =>
    rw [declareAll]
    exact (d.exec_framed kind env).bind fun env' first => (ih env').mono fun _ others =>
      first.append others

theorem Expr.exec_framed (e : Expr) (env : Env) :
    (e.exec v env).Leaves (env.Framed [] e.assigned) := by
  cases e with
  | assignment target value s => exact assign_framed env target value
  | literal | identifier | binary | call => exact Run.leaves_bind _ fun _ => .done (.refl _ _ env)

/-! ## Statements -/

mutual

/-- A statement changes no more than its names allow. -/
theorem Stmt.exec_framed : ∀ (s : Stmt) (env : Env),
    (s.exec v env).Leaves (env.Framed s.declared s.assigned)
  | .declaration kind ds _, env => by
    rw [Stmt.exec, Stmt.declared, Stmt.assigned]
    exact declareAll_framed kind ds env
  | .expression e _, env => by
    rw [Stmt.exec, Stmt.declared, Stmt.assigned]
    exact e.exec_framed env
  | .conditional test consequent alternate _, env => by
    rw [Stmt.exec, Stmt.declared, Stmt.assigned]
    -- only one of the blocks runs, and it has some of the names of both
    refine Run.leaves_bind _ fun a => Dialogue.Ends.ite (fun _ => ?_) (fun _ => ?_)
    · exact (execAll_framed consequent env).mono fun _ h =>
        h.mono (List.subset_append_left _ _) (List.subset_append_left _ _)
    · exact (execAll_framed alternate env).mono fun _ h =>
        h.mono (List.subset_append_right _ _) (List.subset_append_right _ _)

/-- So do any number of them. -/
theorem execAll_framed : ∀ (ss : List Stmt) (env : Env),
    (execAll v env ss).Leaves (env.Framed (declaredIn ss) (assignedIn ss))
  | [], env => by
    rw [execAll]
    exact .done (.refl _ _ env)
  | s :: ss, env => by
    rw [execAll, declaredIn, assignedIn]
    exact (s.exec_framed env).bind fun env' first => (execAll_framed ss env').mono fun _ others =>
      first.append others

end

/-- Statements that run to their end leave an environment that keeps all that their names do not allow them
to change, whatever the version, the variables of the process and the answers are. -/
theorem execAll_keeps {v : Version} {env env' : Env} {ss : List Stmt} {vars : ProcessEnv}
    {answers : List String}
    (h : ((execAll v env ss).withAnswers vars answers).result = .ok env') :
    env.Framed (declaredIn ss) (assignedIn ss) env' := by
  have ends := (execAll_framed (v := v) ss env).withAnswers vars answers
  rw [h] at ends
  exact ends

/-- The statement `if (go) { n = n + n; let m: number = n, k: string = readInput(go); }`. -/
def counting : List Stmt :=
  [.conditional ⟨"go", ⟨1, 5, 7⟩⟩
    [.expression (.assignment ⟨"n", ⟨1, 11, 12⟩⟩
        (.binary .add (.identifier ⟨"n", ⟨1, 15, 16⟩⟩)
          (.identifier ⟨"n", ⟨1, 19, 20⟩⟩) ⟨1, 15, 20⟩)
        ⟨1, 11, 20⟩) ⟨1, 11, 21⟩,
     .declaration .mutable
      [⟨⟨"m", ⟨1, 26, 27⟩⟩, .number, some (.identifier ⟨"n", ⟨1, 38, 39⟩⟩), ⟨1, 26, 39⟩⟩,
       ⟨⟨"k", ⟨1, 41, 42⟩⟩, .string,
        some (.call ⟨"readInput", ⟨1, 53, 62⟩⟩ [.identifier ⟨"go", ⟨1, 63, 65⟩⟩] ⟨1, 53, 66⟩),
        ⟨1, 41, 66⟩⟩]
      ⟨1, 22, 67⟩]
    [] ⟨1, 1, 69⟩]

/-- A constant, a number and a variable without a value, for these statements. -/
def uncounted : Env :=
  .ofList [("go", ⟨.string, some "yes", false⟩), ("n", ⟨.number, some "9", true⟩),
    ("rest", ⟨.boolean, none, true⟩)]

/-- What they leave. -/
def counted : Env :=
  .ofList [("go", ⟨.string, some "yes", false⟩), ("k", ⟨.string, some "once", true⟩),
    ("m", ⟨.number, some "18", true⟩), ("n", ⟨.number, some "18", true⟩),
    ("rest", ⟨.boolean, none, true⟩)]

theorem execAll_keeps_counting :
    ((execAll ⟨1, 1, 0⟩ uncounted counting).withAnswers (fun _ => none) ["once", "twice"]).result =
      .ok counted ∧
    uncounted.Framed (declaredIn counting) (assignedIn counting) counted := by
  have ran : ((execAll ⟨1, 1, 0⟩ uncounted counting).withAnswers (fun _ => none)
      ["once", "twice"]).result = .ok counted := by
    rfl
  exact ⟨ran, execAll_keeps ran⟩

end Slate
