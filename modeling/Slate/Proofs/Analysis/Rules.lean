import Mathlib
import Slate.Proofs.Analysis.Names

/-!
# No rule hides the findings of another

All rules share one walk over a program and one list of diagnostics. What the list says of a rule is what the walk
finds with that rule alone:

    rules   ───walk──▶   diagnostics
      │                       │
    only one              of that one
      ▼                       ▼
    rules.only ──walk──▶ diagnostics of one rule

* `Stmt.filter_breaks` — the square, for each part of a program;
* `Stmt.diagnostics_nameless` — without the rule of names, the walk finds what each call breaks by itself;
* `rules_independent` — what an analysis says of each rule, and of which arguments it speaks.
-/

namespace Slate

/-! ## The calls in a program -/

/-- A call, wherever it stands. -/
structure Call where
  callee : Identifier
  arguments : List Expr
  span : Span

mutual

/-- The calls in an expression in the order of the text, each in front of those in its arguments. -/
def Expr.calls : Expr → List Call
  | .literal _ | .identifier _ => []
  | .binary _ left right _ => left.calls ++ right.calls
  | .call callee arguments s => ⟨callee, arguments, s⟩ :: callsOfExprs arguments
  | .assignment _ value _ => value.calls

def callsOfExprs : List Expr → List Call
  | [] => []
  | e :: es => e.calls ++ callsOfExprs es

end

/-- The calls in the declaration of a variable. -/
def Declarator.calls (d : Declarator) : List Call :=
  match d.init with
  | some e => e.calls
  | none => []

mutual

/-- The calls in a statement, with both blocks of a conditional. -/
def Stmt.calls : Stmt → List Call
  | .declaration _ ds _ => ds.flatMap Declarator.calls
  | .expression e _ => e.calls
  | .conditional _ consequent alternate _ => callsOfStmts consequent ++ callsOfStmts alternate

def callsOfStmts : List Stmt → List Call
  | [] => []
  | s :: ss => s.calls ++ callsOfStmts ss

end

/-- What calls of one function break, if its arguments have to be variables or literals: one diagnostic for each
argument that is neither. -/
def argumentFindings (finding : Finding) (callee : String) (calls : List Call) : List Diagnostic :=
  (((calls.filter fun c => c.callee.name = callee).flatMap Call.arguments).filter
    fun e => !e.isSimple).map fun e => ⟨finding, e.span⟩

/-! ## One rule alone -/

/-- The rules with all but one switched off. -/
def Rules.only : Rule → Rules → Rules
  | .identifierFormat, rules => ⟨rules.identifierFormat, false, false⟩
  | .printlnArgument, rules => ⟨none, rules.printlnArgument, false⟩
  | .readInputArgument, rules => ⟨none, false, rules.readInputArgument⟩

section

variable (rule : Rule) (rules : Rules)

theorem Identifier.filter_breaks (x : Identifier) :
    (x.diagnostics rules).filter (Diagnostic.breaks rule) = x.diagnostics (rules.only rule) := by
  cases rule with
  | identifierFormat => exact x.filter_diagnostics rules
  | printlnArgument | readInputArgument =>
    unfold diagnostics
    split
    · split <;> rfl
    · rfl

namespace Rules

theorem argumentFinding?_println :
    rules.argumentFinding? "println" = if rules.printlnArgument then some .printlnArgument else none := by
  simp [argumentFinding?]

theorem argumentFinding?_readInput :
    rules.argumentFinding? "readInput" =
      if rules.readInputArgument then some .readInputArgument else none := by
  simp [argumentFinding?]

theorem argumentFinding?_other {callee : String} (println : callee ≠ "println")
    (readInput : callee ≠ "readInput") : rules.argumentFinding? callee = none := by
  simp [argumentFinding?, println, readInput]

theorem argumentFinding?_only (callee : String) :
    (rules.only rule).argumentFinding? callee =
      (rules.argumentFinding? callee).filter fun finding => finding.rule = rule := by
  obtain ⟨format, onPrintln, onReadInput⟩ := rules
  by_cases println : callee = "println"
  · subst println
    rw [argumentFinding?_println, argumentFinding?_println]
    cases rule <;> cases onPrintln <;> rfl
  · by_cases readInput : callee = "readInput"
    · subst readInput
      rw [argumentFinding?_readInput, argumentFinding?_readInput]
      cases rule <;> cases onReadInput <;> rfl
    · rw [argumentFinding?_other _ println readInput, argumentFinding?_other _ println readInput]
      rfl

theorem filter_breaks (callee : String) (arguments : List Expr) :
    (rules.argumentDiagnostics callee arguments).filter (Diagnostic.breaks rule) =
      (rules.only rule).argumentDiagnostics callee arguments := by
  rw [argumentDiagnostics, argumentDiagnostics, argumentFinding?_only]
  cases rules.argumentFinding? callee with
  | none => rfl
  | some finding =>
    -- all diagnostics of a call are of one rule
    have breaks (e : Expr) : Diagnostic.breaks rule ⟨finding, e.span⟩ = decide (finding.rule = rule) := rfl
    rw [Option.filter_some, List.filter_map]
    by_cases h : finding.rule = rule
    · rw [if_pos (decide_eq_true h)]
      refine congrArg _ (List.filter_eq_self.2 fun e _ => ?_)
      exact (breaks e).trans (decide_eq_true h)
    · rw [if_neg (by simpa using h), List.map_eq_nil_iff]
      refine List.filter_eq_nil_iff.2 fun e _ => ?_
      rw [Function.comp_apply, breaks e]
      simpa using h

end Rules

mutual

theorem Expr.filter_breaks : ∀ e : Expr,
    (e.diagnostics rules).filter (Diagnostic.breaks rule) = e.diagnostics (rules.only rule)
  | .literal l => by
    rw [Expr.diagnostics, Expr.diagnostics]
    rfl
  | .identifier x => by
    rw [Expr.diagnostics, Expr.diagnostics, x.filter_breaks]
  | .binary op left right _ => by
    rw [Expr.diagnostics, Expr.diagnostics, List.filter_append, left.filter_breaks, right.filter_breaks]
  | .call callee arguments _ => by
    rw [Expr.diagnostics, Expr.diagnostics, List.filter_append, rules.filter_breaks,
      filter_breaksAll arguments]
  | .assignment target value _ => by
    rw [Expr.diagnostics, Expr.diagnostics, List.filter_append, target.filter_breaks,
      value.filter_breaks]

theorem filter_breaksAll : ∀ es : List Expr,
    (diagnosticsAll rules es).filter (Diagnostic.breaks rule) = diagnosticsAll (rules.only rule) es
  | [] => by
    rw [diagnosticsAll, diagnosticsAll]
    rfl
  | e :: es => by
    rw [diagnosticsAll, diagnosticsAll, List.filter_append, e.filter_breaks, filter_breaksAll es]

end

theorem Declarator.filter_breaks (d : Declarator) :
    (d.diagnostics rules).filter (Diagnostic.breaks rule) = d.diagnostics (rules.only rule) := by
  obtain ⟨x, type, init, span⟩ := d
  rw [diagnostics, diagnostics, List.filter_append, x.filter_breaks]
  cases init with
  | none => rfl
  | some e => exact congrArg _ (e.filter_breaks rule rules)

mutual

theorem Stmt.filter_breaks : ∀ s : Stmt,
    (s.diagnostics rules).filter (Diagnostic.breaks rule) = s.diagnostics (rules.only rule)
  | .declaration kind ds _ => by
    rw [Stmt.diagnostics, Stmt.diagnostics, List.filter_flatMap]
    exact List.flatMap_congr fun d _ => d.filter_breaks rule rules
  | .expression e _ => by
    rw [Stmt.diagnostics, Stmt.diagnostics, e.filter_breaks]
  | .conditional test consequent alternate _ => by
    rw [Stmt.diagnostics, Stmt.diagnostics, List.filter_append, List.filter_append, test.filter_breaks,
      filter_breaks_block consequent, filter_breaks_block alternate]

theorem filter_breaks_block : ∀ ss : List Stmt,
    (blockDiagnostics rules ss).filter (Diagnostic.breaks rule) = blockDiagnostics (rules.only rule) ss
  | [] => by
    rw [blockDiagnostics, blockDiagnostics]
    rfl
  | s :: ss => by
    rw [blockDiagnostics, blockDiagnostics, List.filter_append, s.filter_breaks, filter_breaks_block ss]

end

end

/-! ## Calls alone -/

/-- What a call breaks by itself. -/
def Call.diagnostics (rules : Rules) (c : Call) : List Diagnostic :=
  rules.argumentDiagnostics c.callee.name c.arguments

/-- The rules but for the one of names. -/
def Rules.nameless (rules : Rules) : Rules := { rules with identifierFormat := none }

section

variable (rules : Rules)

theorem Identifier.diagnostics_nameless (x : Identifier) : x.diagnostics rules.nameless = [] := rfl

theorem Rules.argumentDiagnostics_nameless :
    rules.nameless.argumentDiagnostics = rules.argumentDiagnostics := rfl

mutual

theorem Expr.diagnostics_nameless : ∀ e : Expr,
    e.diagnostics rules.nameless = e.calls.flatMap (Call.diagnostics rules)
  | .literal l => by
    rw [Expr.diagnostics, Expr.calls]
    rfl
  | .identifier x => by
    rw [Expr.diagnostics, Expr.calls, x.diagnostics_nameless]
    rfl
  | .binary op left right _ => by
    rw [Expr.diagnostics, Expr.calls, List.flatMap_append, left.diagnostics_nameless,
      right.diagnostics_nameless]
  | .call callee arguments _ => by
    rw [Expr.diagnostics, Expr.calls, List.flatMap_cons, rules.argumentDiagnostics_nameless,
      diagnosticsAll_nameless arguments, Call.diagnostics]
  | .assignment target value _ => by
    rw [Expr.diagnostics, Expr.calls, target.diagnostics_nameless, value.diagnostics_nameless,
      List.nil_append]

theorem diagnosticsAll_nameless : ∀ es : List Expr,
    diagnosticsAll rules.nameless es = (callsOfExprs es).flatMap (Call.diagnostics rules)
  | [] => by
    rw [diagnosticsAll, callsOfExprs]
    rfl
  | e :: es => by
    rw [diagnosticsAll, callsOfExprs, List.flatMap_append, e.diagnostics_nameless,
      diagnosticsAll_nameless es]

end

theorem Declarator.diagnostics_nameless (d : Declarator) :
    d.diagnostics rules.nameless = d.calls.flatMap (Call.diagnostics rules) := by
  obtain ⟨x, type, init, span⟩ := d
  rw [diagnostics, calls, x.diagnostics_nameless, List.nil_append]
  cases init with
  | none => rfl
  | some e => exact e.diagnostics_nameless rules

mutual

theorem Stmt.diagnostics_nameless : ∀ s : Stmt,
    s.diagnostics rules.nameless = s.calls.flatMap (Call.diagnostics rules)
  | .declaration kind ds _ => by
    rw [Stmt.diagnostics, Stmt.calls, List.flatMap_assoc]
    exact List.flatMap_congr fun d _ => d.diagnostics_nameless rules
  | .expression e _ => by
    rw [Stmt.diagnostics, Stmt.calls, e.diagnostics_nameless]
  | .conditional test consequent alternate _ => by
    rw [Stmt.diagnostics, Stmt.calls, List.flatMap_append, test.diagnostics_nameless,
      blockDiagnostics_nameless consequent, blockDiagnostics_nameless alternate, List.nil_append]

theorem blockDiagnostics_nameless : ∀ ss : List Stmt,
    blockDiagnostics rules.nameless ss = (callsOfStmts ss).flatMap (Call.diagnostics rules)
  | [] => by
    rw [blockDiagnostics, callsOfStmts]
    rfl
  | s :: ss => by
    rw [blockDiagnostics, callsOfStmts, List.flatMap_append, s.diagnostics_nameless,
      blockDiagnostics_nameless ss]

end

end

/-- Where a rule is about one function only, it is broken by the arguments of the calls of that function. -/
theorem flatMap_diagnostics_of_callee {rules : Rules} {finding : Finding} {callee : String} {on : Bool}
    (h : ∀ name, rules.argumentFinding? name = if name = callee ∧ on then some finding else none)
    (calls : List Call) :
    calls.flatMap (Call.diagnostics rules) = if on then argumentFindings finding callee calls else [] := by
  induction calls with
  | nil => cases on <;> rfl
  | cons c calls ih =>
    rw [List.flatMap_cons, ih, Call.diagnostics, Rules.argumentDiagnostics, h]
    cases on with
    | false => simp
    | true =>
      by_cases named : c.callee.name = callee
      · simp [argumentFindings, named]
      · simp [argumentFindings, named]

namespace Rules

variable (rules : Rules)

theorem argumentFinding?_onlyPrintln (name : String) :
    (rules.only .printlnArgument).argumentFinding? name =
      if name = "println" ∧ rules.printlnArgument then some .printlnArgument else none := by
  simp [argumentFinding?, only]

theorem argumentFinding?_onlyReadInput (name : String) :
    (rules.only .readInputArgument).argumentFinding? name =
      if name = "readInput" ∧ rules.readInputArgument then some .readInputArgument else none := by
  unfold argumentFinding?
  rw [if_neg (fun h => Bool.false_ne_true h.2)]
  rfl

end Rules

/-! ## Styles with fewer rules -/

theorem Json.field?_filter (p : String → Bool) (name : String) (fields : List (String × Json)) :
    field? name (fields.filter fun f => p f.1) = if p name then field? name fields else none := by
  induction fields with
  | nil => simp [field?]
  | cons f fields ih =>
    obtain ⟨key, v⟩ := f
    by_cases named : key = name
    · subst named
      cases h : p key <;> simp [field?, h, ih]
    · cases h : p key <;> simp [field?, h, ih, named]

theorem Rule.name_eq_iff {rule other : Rule} : other.name = rule.name ↔ other = rule := by
  cases rule <;> cases other <;> decide

namespace Style

/-- The style that has one rule of a style, and no other member. -/
def only (rule : Rule) (style : Style) : Style where
  rules := style.rules.filter fun member => member.1 = rule.name

/-- The style without one of its rules. -/
def without (rule : Rule) (style : Style) : Style :=
  { style with rules := Json.without rule.name style.rules }

variable (style : Style) (rule other : Rule)

theorem rule?_only :
    (style.only rule).rule? other.name = if other = rule then style.rule? other.name else none := by
  refine (Json.field?_filter (fun key => key = rule.name) other.name style.rules).trans ?_
  simp only [decide_eq_true_eq, Rule.name_eq_iff, rule?]

theorem rule?_without :
    (style.without rule).rule? other.name = if other = rule then none else style.rule? other.name := by
  refine (Json.field?_filter (fun key => key ≠ rule.name) other.name style.rules).trans ?_
  simp only [decide_eq_true_eq, ne_eq, Rule.name_eq_iff, ite_not, rule?]

end Style

namespace Rules

theorem ofStyle_only (style : Style) (rule : Rule) (version : Version) :
    ofStyle (style.only rule) version = (ofStyle style version).only rule := by
  cases rule <;> simp [ofStyle, only, Style.rule?_only, isOn]

theorem ofStyle_without (style : Style) {version : Version} (old : version.supports .readInput = false) :
    ofStyle (style.without .readInputArgument) version = ofStyle style version := by
  simp [ofStyle, Style.rule?_without, old]

end Rules

/-! ## The analysis -/

/-- What a program breaks of a rule that is about the calls of one function only. -/
theorem filter_breaks_of_callee {rules : Rules} {rule : Rule} {finding : Finding} {callee : String} {on : Bool}
    (nameless : (rules.only rule).nameless = rules.only rule)
    (h : ∀ name, (rules.only rule).argumentFinding? name =
      if name = callee ∧ on then some finding else none)
    (ss : List Stmt) :
    (blockDiagnostics rules ss).filter (Diagnostic.breaks rule) =
      if on then argumentFindings finding callee (callsOfStmts ss) else [] := by
  rw [filter_breaks_block, ← nameless, blockDiagnostics_nameless, flatMap_diagnostics_of_callee h]

/-- An analysis says of each rule what it says with that rule alone. `readInput` has no rule in front of 1.1.0. The
rules of arguments, where they are on, speak of each argument that is neither a variable nor a literal, once for each
and wherever the call stands. -/
theorem rules_independent (style : Style) (version : Version) (p : Program) :
    (∀ rule : Rule, (analyze style version p).filter (Diagnostic.breaks rule) =
      analyze (style.only rule) version p) ∧
    (version.isAtLeast ⟨1, 1, 0⟩ = false →
      analyze style version p = analyze (style.without .readInputArgument) version p) ∧
    ((analyze style version p).filter (Diagnostic.breaks .printlnArgument) =
      if Rules.isOn (style.rule? Rule.printlnArgument.name) then
        argumentFindings .printlnArgument "println" (callsOfStmts p.statements)
      else []) ∧
    ((analyze style version p).filter (Diagnostic.breaks .readInputArgument) =
      if version.isAtLeast ⟨1, 1, 0⟩ && Rules.isOn (style.rule? Rule.readInputArgument.name) then
        argumentFindings .readInputArgument "readInput" (callsOfStmts p.statements)
      else []) := by
  refine ⟨fun rule => ?_, fun old => ?_, ?_, ?_⟩
  · rw [analyze, analyze, Rules.ofStyle_only, filter_breaks_block]
  · rw [analyze, analyze, Rules.ofStyle_without style old]
  · exact filter_breaks_of_callee rfl (Rules.argumentFinding?_onlyPrintln _) p.statements
  · exact filter_breaks_of_callee rfl (Rules.argumentFinding?_onlyReadInput _) p.statements

/-- No operations for `println` and `readInput`, and names in camel case. -/
def argumentStyle : Style where
  rules := [("identifier_format", .string "camel case"),
    ("mandatory-variable-or-literal-in-println", .bool true),
    ("mandatory-variable-or-literal-in-readInput", .bool true)]

/-- The program `println(readInput(a_b + c));`. -/
def callInCall : Program where
  statements :=
    [.expression
      (.call ⟨"println", ⟨1, 1, 8⟩⟩
        [.call ⟨"readInput", ⟨1, 9, 18⟩⟩
          [.binary .add (.identifier ⟨"a_b", ⟨1, 19, 22⟩⟩) (.identifier ⟨"c", ⟨1, 25, 26⟩⟩) ⟨1, 19, 26⟩]
          ⟨1, 9, 27⟩]
        ⟨1, 1, 28⟩)
      ⟨1, 1, 29⟩]

/-- An argument that breaks the one rule holds the argument that breaks the other. -/
theorem rules_independent_callInCall :
    (analyze argumentStyle ⟨1, 0, 9⟩ callInCall =
      analyze (argumentStyle.without .readInputArgument) ⟨1, 0, 9⟩ callInCall) ∧
    ((analyze argumentStyle ⟨1, 1, 0⟩ callInCall).filter (Diagnostic.breaks .printlnArgument) =
      [⟨.printlnArgument, ⟨1, 9, 27⟩⟩]) ∧
    ((analyze argumentStyle ⟨1, 1, 0⟩ callInCall).filter (Diagnostic.breaks .readInputArgument) =
      [⟨.readInputArgument, ⟨1, 19, 26⟩⟩]) := by
  obtain ⟨-, old, -, -⟩ := rules_independent argumentStyle ⟨1, 0, 9⟩ callInCall
  obtain ⟨-, -, println, readInput⟩ := rules_independent argumentStyle ⟨1, 1, 0⟩ callInCall
  refine ⟨old (by decide), println.trans ?_, readInput.trans ?_⟩
  · decide +kernel
  · decide +kernel

end Slate
