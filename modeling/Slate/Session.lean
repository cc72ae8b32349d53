import Slate.Eval

/-!
# Sessions

A session runs one program after another: each from the environment that the last one that succeeded
left, with the answers that those before it did not need. Environments can be kept under a name and
gone back to.

* `Session.run` runs a program, `Session.runEach` one statement after another, also behind errors;
* `Session.eval` gives the value of an expression and changes no variable.
-/

namespace Slate

structure Session where
  version : Version := .newest
  vars : ProcessEnv := fun _ => none
  env : Env := ∅
  answers : List String := []
  /-- The environments that were kept, the last one first. -/
  kept : List (String × Env) := []

namespace Session

variable {α : Type}

/-- Leads a run with the answers of the session, and uses them up. -/
def lead (s : Session) (r : Run α) : Outcome EvalError α × Session :=
  let o := r.withAnswers s.vars s.answers
  (o, { s with answers := o.answers })

/-- Leads a run that gives an environment, and goes on from that one. Where it fails the environment
stays. -/
def update (s : Session) (r : Run Env) : Outcome EvalError Env × Session :=
  let (o, s) := s.lead r
  match o.result with
  | .ok env => (o, { s with env })
  | .error _ => (o, s)

/-- Runs a program. -/
def run (s : Session) (p : Program) : Outcome EvalError Env × Session :=
  s.update (p.run s.version s.env)

/-- The value of an expression, if it has one. -/
def eval (s : Session) (e : Expr) : Outcome EvalError (Option Value) × Session :=
  s.lead (e.eval s.version s.env)

/-- Runs statements one by one. One that fails is left out. Each answer comes with the environment
behind it. -/
def runEach (s : Session) : List Stmt → List (Outcome EvalError Env × Env) × Session
  | [] => ([], s)
  | stmt :: rest =>
    let (o, s) := s.update (stmt.exec s.version s.env)
    let (os, last) := s.runEach rest
    ((o, s.env) :: os, last)

/-- Keeps the environment under a name. -/
def keep (s : Session) (name : String) : Session := { s with kept := (name, s.env) :: s.kept }

/-- Goes back to the environment kept last under a name, if there is one. -/
def goBack? (s : Session) (name : String) : Option Session :=
  (s.kept.find? fun k => k.1 = name).map fun k => { s with env := k.2 }

end Session
end Slate
