import Slate.Dialogue
import Slate.Env
import Slate.Eval.Error
import Slate.Value

/-!
# Running a program

A run starts from an environment and gives a new one, as a `Dialogue`: nothing is changed in place,
so where a statement fails the environment before it is still there.

An environment holds texts. Reading a variable reads its text by its type again, and a value is
stored as its canonical text. Blocks share the environment around them.

* `Expr.eval` is the value of an expression, if it has one: `println(...)` and assignments have none;
* `Stmt.exec` runs a statement, `execAll` a list of them, `Program.run` a program.

The checks of a step come in a fixed order, so of two errors the first one in it wins: a version that
lacks a feature, the number of arguments, the arguments from left to right, the types.
-/

namespace Slate

/-- A run that gives an `α`. -/
abbrev Run (α : Type) := Dialogue EvalError α

/-- Ends a run at a place. -/
def Run.fail {α : Type} (s : Span) (fault : EvalFault) : Run α := .failed ⟨fault, s⟩

namespace Version

/-- The fault of a version without the feature. -/
def lack (v : Version) : Feature → EvalFault
  | .boolean => .unsupportedType .boolean v
  | feature => .unsupportedFeature feature v

/-- Goes on only if the version has the feature. -/
def require (v : Version) (feature : Feature) (s : Span) : Run Unit :=
  if v.supports feature then .done () else .fail s (v.lack feature)

/-- Goes on only if the version has the type. -/
def requireType (v : Version) (type : Ty) (s : Span) : Run Unit :=
  if type = .boolean then v.require .boolean s else .done ()

/-- Goes on only if the value fits a variable of the type. -/
def checkType (v : Version) (name : String) (declared : Ty) (value : Value) (s : Span) :
    Run Unit := do
  v.requireType value.type s
  if value.type = declared then .done () else .fail s (.typeMismatch name declared value.type)

end Version

/-! ### Expressions -/

/-- The value of a literal. -/
def Literal.eval (v : Version) (l : Literal) : Run Value :=
  match l.value with
  | .number d => .done (.number d)
  | .string s => .done (.string s)
  | .boolean b => do
    v.require .boolean l.span
    return .boolean b

/-- The value that a text stored for a variable stands for. -/
def Binding.read (v : Version) (x : Identifier) (type : Ty) (text : String) : Run Value :=
  match type with
  | .string => .done (.string text)
  | .number =>
    match Decimal.ofString? text with
    | .ok d => .done (.number d)
    | .error _ => .fail x.span (.invalidStoredValue x.name .number text)
  | .boolean => do
    v.require .boolean x.span
    if text = "true" then return .boolean true
    else if text = "false" then return .boolean false
    else .fail x.span (.invalidStoredValue x.name .boolean text)

/-- The value of a variable. -/
def Identifier.eval (v : Version) (env : Env) (x : Identifier) : Run Value :=
  match env.get? x.name with
  | none => .fail x.span (.variableNotFound x.name)
  | some b =>
    match b.value with
    | none => .fail x.span (.uninitializedVariable x.name)
    | some text => Binding.read v x b.type text

/-- The decimal that an operator makes of two, if there is one. -/
def BinaryOp.onNumbers (op : BinaryOp) (a b : Decimal) : Option Decimal :=
  match op with
  | .add => a.add? b
  | .subtract => a.sub? b
  | .multiply => a.mul? b
  | .divide => a.div? b

/-- The value that an operator makes of two. A plus sign joins texts if one side is a text; all else
is arithmetic. -/
def BinaryOp.apply (op : BinaryOp) (a b : Value) : Except EvalFault Value :=
  match op, a, b with
  | .add, .string s, v => .ok (.string (s ++ v.canonical))
  | .add, v, .string s => .ok (.string (v.canonical ++ s))
  | op, .number m, .number n =>
    if op = .divide ∧ n.isZero then .error .divisionByZero
    else
      match op.onNumbers m n with
      | some d => .ok (.number d)
      | none => .error .numericOverflow
  | op, a, b => .error (.invalidOperands op a.type b.type)

/-- The only faults of an operator. -/
theorem BinaryOp.fault_of_apply {op : BinaryOp} {a b : Value} {fault : EvalFault}
    (h : op.apply a b = .error fault) :
    fault = .divisionByZero ∨ fault = .numericOverflow ∨
      fault = .invalidOperands op a.type b.type := by
  unfold apply at h
  split at h
  · cases h
  · cases h
  · split at h
    · cases h
      exact .inl rfl
    · split at h
      · cases h
      · cases h
        exact .inr (.inl rfl)
  · cases h
    exact .inr (.inr rfl)

/-- The functions of the language. -/
inductive Builtin where
  /-- Prints a line. -/
  | println
  /-- Asks a question. -/
  | readInput
  /-- Reads a variable of the process. -/
  | readEnv
  deriving DecidableEq

namespace Builtin

def all : List Builtin := [println, readInput, readEnv]

def name : Builtin → String
  | println => "println"
  | readInput => "readInput"
  | readEnv => "readEnv"

def ofName? (s : String) : Option Builtin := all.find? fun b => b.name = s

/-- The feature without which a version does not have the function. -/
def feature? : Builtin → Option Feature
  | println => none
  | readInput => some .readInput
  | readEnv => some .readEnv

end Builtin

/-- Goes on only if there is a value. -/
def needValue (s : Span) : Option Value → Run Value
  | some v => .done v
  | none => .fail s .noValue

/-- Goes on only if the value is a text. -/
def needString (s : Span) : Value → Run String
  | .string text => .done text
  | v => .fail s (.expectedString v.type)

/-- Calls a function with the value of its argument. `place` is that of the argument. -/
def Builtin.apply (place : Span) (v : Value) : Builtin → Run (Option Value)
  | println => .say v.canonical (.done none)
  | readInput => do
    let prompt ← needString place v
    let answer ← .question prompt ⟨.inputUnavailable, place⟩
    return some (.ofInput answer)
  | readEnv => do
    let name ← needString place v
    match ← .processVariable name with
    | some text => return some (.ofInput text)
    | none => .fail place (.undefinedEnvVar name)

/-- The function that a call names, if the version has it and the call gives it one argument. -/
def Builtin.resolve (v : Version) (callee : Identifier) (arguments : Nat) (s : Span) :
    Run Builtin :=
  match ofName? callee.name with
  | none => .fail callee.span (.unknownFunction callee.name)
  | some b => do
    match b.feature? with
    | some feature => v.require feature s
    | none => .done ()
    if arguments = 1 then return b else .fail s (.argumentCount callee.name 1 arguments)

/-- Goes on only if the version has the function. -/
def Builtin.require (v : Version) (s : Span) (b : Builtin) : Run Unit :=
  match b.feature? with
  | some feature => v.require feature s
  | none => .done ()

theorem Builtin.resolve_eq (v : Version) (callee : Identifier) (arguments : Nat) (s : Span) :
    resolve v callee arguments s =
      match ofName? callee.name with
      | none => .fail callee.span (.unknownFunction callee.name)
      | some b => b.require v s >>= fun _ =>
        if arguments = 1 then .done b else .fail s (.argumentCount callee.name 1 arguments) := by
  unfold resolve
  cases ofName? callee.name with
  | none => rfl
  | some b => cases b <;> rfl

/-- The value of an expression, if it has one. -/
def Expr.eval (v : Version) (env : Env) : Expr → Run (Option Value)
  | .literal l => do return some (← l.eval v)
  | .identifier x => do return some (← x.eval v env)
  | .binary op left right s => do
    let a ← needValue left.span (← left.eval v env)
    let b ← needValue right.span (← right.eval v env)
    match op.apply a b with
    | .ok c => return some c
    | .error fault => .fail s fault
  | .call callee [argument] s => do
    let b ← Builtin.resolve v callee 1 s
    let a ← needValue argument.span (← argument.eval v env)
    b.apply argument.span a
  | .call callee arguments s => do
    let _ ← Builtin.resolve v callee arguments.length s
    return none
  | .assignment _ _ s => .fail s .noValue

/-- The value of an expression that has to have one. -/
def Expr.value (v : Version) (env : Env) (e : Expr) : Run Value := do
  needValue e.span (← e.eval v env)

/-! ### Statements -/

/-- Gives a variable a new value. -/
def assign (v : Version) (env : Env) (target : Identifier) (e : Expr) : Run Env :=
  match env.get? target.name with
  | none => .fail target.span (.variableNotFound target.name)
  | some b =>
    if b.isMutable then do
      let a ← e.value v env
      v.checkType target.name b.type a e.span
      match env.setValue? target.name a.canonical with
      | some env' => return env'
      | none => .fail target.span (.variableNotFound target.name)
    else .fail target.span (.immutableAssignment target.name)

/-- The text of the first value of a variable. Only a constant has to have one. -/
def Declarator.initial (v : Version) (kind : DeclarationKind) (d : Declarator) (env : Env) :
    Run (Option String) :=
  match d.init with
  | some e => do
    let a ← e.value v env
    v.checkType d.id.name d.type a e.span
    return some a.canonical
  | none =>
    if kind = .constant then .fail d.id.span (.constantWithoutInitializer d.id.name)
    else .done none

/-- Declares a variable. A name that is bound already is bound anew. -/
def Declarator.exec (v : Version) (kind : DeclarationKind) (d : Declarator) (env : Env) :
    Run Env := do
  v.requireType d.type d.span
  let value ← d.initial v kind env
  return env.insert d.id.name ⟨d.type, value, kind = .mutable⟩

/-- Declares variables, each one with those before it in sight. -/
def declareAll (v : Version) (kind : DeclarationKind) (env : Env) : List Declarator → Run Env
  | [] => .done env
  | d :: ds => do declareAll v kind (← d.exec v kind env) ds

/-- Runs an expression for what it does. An assignment changes its variable. -/
def Expr.exec (v : Version) (env : Env) : Expr → Run Env
  | .assignment target e _ => assign v env target e
  | e => do
    let _ ← e.eval v env
    return env

mutual

/-- Runs a statement. -/
def Stmt.exec (v : Version) (env : Env) : Stmt → Run Env
  | .declaration kind ds _ => declareAll v kind env ds
  | .expression e _ => e.exec v env
  | .conditional test consequent alternate _ => do
    let a ← test.eval v env
    if a.isTruthy then execAll v env consequent else execAll v env alternate

/-- Runs statements in order, each one from the environment that those before it left. -/
def execAll (v : Version) (env : Env) : List Stmt → Run Env
  | [] => .done env
  | s :: ss => do execAll v (← s.exec v env) ss

end

/-- Runs a program. -/
def Program.run (v : Version) (env : Env) (p : Program) : Run Env :=
  execAll v env p.statements

end Slate
