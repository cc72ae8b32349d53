import Slate.Eval

/-!
# Running a program on values

The same interpreter over an environment that stores values instead of texts. A variable is read by
taking its value: no text is read again, and no version is asked whether it has the type. All else is
as in `Slate.Eval`: the literals, the operators, the functions and the checks are the same definitions,
and the steps come in the same order.

* `TypedEnv` — for each name the type, the value if there is one, and whether it can be assigned to;
* `TypedBinding.toBinding` — what an environment of texts has instead;
* `Expr.evalTyped`, `Stmt.execTyped`, `Program.runTyped` — the interpreter.
-/

namespace Slate

/-- What is known of a variable. -/
structure TypedBinding where
  type : Ty
  /-- A variable without a value is declared and not initialised. -/
  value : Option Value
  isMutable : Bool

/-- The binding whose text is the canonical text of the value. -/
def TypedBinding.toBinding (b : TypedBinding) : Binding :=
  ⟨b.type, b.value.map Value.canonical, b.isMutable⟩

/-- Variables by name, with their values. -/
structure TypedEnv where
  get? : String → Option TypedBinding

namespace TypedEnv

/-- The environment without variables. -/
def empty : TypedEnv := ⟨fun _ => none⟩

/-- Binds a name, or binds it anew. -/
def insert (env : TypedEnv) (name : String) (b : TypedBinding) : TypedEnv :=
  ⟨fun other => if name = other then some b else env.get? other⟩

/-- Gives a bound name a value. Its type and whether it can be assigned to stay. -/
def setValue? (env : TypedEnv) (name : String) (value : Value) : Option TypedEnv :=
  (env.get? name).map fun b => env.insert name { b with value := some value }

end TypedEnv

/-! ## Expressions -/

/-- The value of a variable. -/
def Identifier.evalTyped (env : TypedEnv) (x : Identifier) : Run Value :=
  match env.get? x.name with
  | none => .fail x.span (.variableNotFound x.name)
  | some b =>
    match b.value with
    | none => .fail x.span (.uninitializedVariable x.name)
    | some value => .done value

/-- The value of an expression, if it has one. -/
def Expr.evalTyped (v : Version) (env : TypedEnv) : Expr → Run (Option Value)
  | .literal l => do return some (← l.eval v)
  | .identifier x => do return some (← x.evalTyped env)
  | .binary op left right s => do
    let a ← needValue left.span (← left.evalTyped v env)
    let b ← needValue right.span (← right.evalTyped v env)
    match op.apply a b with
    | .ok c => return some c
    | .error fault => .fail s fault
  | .call callee [argument] s => do
    let b ← Builtin.resolve v callee 1 s
    let a ← needValue argument.span (← argument.evalTyped v env)
    b.apply argument.span a
  | .call callee arguments s => do
    let _ ← Builtin.resolve v callee arguments.length s
    return none
  | .assignment _ _ s => .fail s .noValue

/-- The value of an expression that has to have one. -/
def Expr.valueTyped (v : Version) (env : TypedEnv) (e : Expr) : Run Value := do
  needValue e.span (← e.evalTyped v env)

/-! ## Statements -/

/-- Gives a variable a new value. -/
def assignTyped (v : Version) (env : TypedEnv) (target : Identifier) (e : Expr) : Run TypedEnv :=
  match env.get? target.name with
  | none => .fail target.span (.variableNotFound target.name)
  | some b =>
    if b.isMutable then do
      let a ← e.valueTyped v env
      v.checkType target.name b.type a e.span
      match env.setValue? target.name a with
      | some env' => return env'
      | none => .fail target.span (.variableNotFound target.name)
    else .fail target.span (.immutableAssignment target.name)

/-- The first value of a variable. Only a constant has to have one. -/
def Declarator.initialTyped (v : Version) (kind : DeclarationKind) (d : Declarator)
    (env : TypedEnv) : Run (Option Value) :=
  match d.init with
  | some e => do
    let a ← e.valueTyped v env
    v.checkType d.id.name d.type a e.span
    return some a
  | none =>
    if kind = .constant then .fail d.id.span (.constantWithoutInitializer d.id.name)
    else .done none

/-- Declares a variable. A name that is bound already is bound anew. -/
def Declarator.execTyped (v : Version) (kind : DeclarationKind) (d : Declarator)
    (env : TypedEnv) : Run TypedEnv := do
  v.requireType d.type d.span
  let value ← d.initialTyped v kind env
  return env.insert d.id.name ⟨d.type, value, kind = .mutable⟩

/-- Declares variables, each one with those before it in sight. -/
def declareAllTyped (v : Version) (kind : DeclarationKind) (env : TypedEnv) :
    List Declarator → Run TypedEnv
  | [] => .done env
  | d :: ds => do declareAllTyped v kind (← d.execTyped v kind env) ds

/-- Runs an expression for what it does. An assignment changes its variable. -/
def Expr.execTyped (v : Version) (env : TypedEnv) : Expr → Run TypedEnv
  | .assignment target e _ => assignTyped v env target e
  | e => do
    let _ ← e.evalTyped v env
    return env

mutual

/-- Runs a statement. -/
def Stmt.execTyped (v : Version) (env : TypedEnv) : Stmt → Run TypedEnv
  | .declaration kind ds _ => declareAllTyped v kind env ds
  | .expression e _ => e.execTyped v env
  | .conditional test consequent alternate _ => do
    let a ← test.evalTyped env
    if a.isTruthy then execAllTyped v env consequent else execAllTyped v env alternate

/-- Runs statements in order, each one from the environment that those before it left. -/
def execAllTyped (v : Version) (env : TypedEnv) : List Stmt → Run TypedEnv
  | [] => .done env
  | s :: ss => do execAllTyped v (← s.execTyped v env) ss

end

/-- Runs a program. -/
def Program.runTyped (v : Version) (env : TypedEnv) (p : Program) : Run TypedEnv :=
  execAllTyped v env p.statements

end Slate
