import Mathlib
import Slate.Analysis
import Slate.Proofs.Grammar.Variables

/-!
# Every variable is checked against the format, once and in order

What an analysis says of names is what it says of each variable by itself, in the order of the text. The
findings about arguments of calls stand between these and take nothing away from them:

* `filter_diagnostics` — the diagnostics of the rule of names are those of the variables of a tree;
* `analyze_names` — so they are the names of a text that are not in the format, but for names of functions.
-/

namespace Slate

/-- Whether it is this rule that is broken. -/
def Diagnostic.breaks (rule : Rule) (d : Diagnostic) : Bool := d.rule = rule

variable (rules : Rules)

/-! ## What is said of names -/

namespace Identifier

/-- To check a name is to look at the rule of names only. -/
theorem filter_diagnostics (x : Identifier) :
    (x.diagnostics rules).filter (Diagnostic.breaks .identifierFormat) = x.diagnostics rules := by
  unfold diagnostics
  split
  · split <;> rfl
  · rfl

/-- A variable gives a diagnostic if it is not in the format, and no other one. -/
theorem diagnostics_eq {format : IdentifierFormat} (h : rules.identifierFormat = some format)
    (x : Identifier) : x.diagnostics rules =
      if format.admits x.name then [] else [⟨.misnamed x.name format, x.span⟩] := by
  rw [diagnostics, h]

/-- What is said of variables is said of those that are not in the format. -/
theorem flatMap_diagnostics {format : IdentifierFormat} (h : rules.identifierFormat = some format)
    (xs : List Identifier) : xs.flatMap (diagnostics rules) =
      (xs.filter fun x => !format.admits x.name).map fun x => ⟨.misnamed x.name format, x.span⟩ := by
  induction xs with
  | nil => rfl
  | cons x xs ih =>
    rw [List.flatMap_cons, ih, diagnostics_eq rules h, List.filter_cons]
    cases format.admits x.name <;> rfl

end Identifier

namespace Rules

/-- An argument breaks a rule of arguments. -/
theorem rule_argumentFinding? {callee : String} {finding : Finding}
    (h : rules.argumentFinding? callee = some finding) : finding.rule ≠ .identifierFormat := by
  unfold argumentFinding? at h
  split at h
  · cases h
    decide
  · split at h
    · cases h
      decide
    · cases h

theorem filter_argumentDiagnostics (callee : String) (arguments : List Expr) :
    (rules.argumentDiagnostics callee arguments).filter (Diagnostic.breaks .identifierFormat) = [] := by
  unfold argumentDiagnostics
  split
  next finding h =>
    rw [List.filter_map, List.map_eq_nil_iff, List.filter_eq_nil_iff]
    intro e _ names
    exact rules.rule_argumentFinding? h (of_decide_eq_true names)
  next => rfl

end Rules

/-! ## What is said of a tree -/

mutual

theorem Expr.filter_diagnostics : ∀ e : Expr,
    (e.diagnostics rules).filter (Diagnostic.breaks .identifierFormat) =
      e.occurrences.flatMap (Identifier.diagnostics rules)
  | .literal l => by
    rw [Expr.diagnostics, Expr.occurrences]
    rfl
  | .identifier x => by
    rw [Expr.diagnostics, Expr.occurrences, x.filter_diagnostics, List.flatMap_singleton]
  | .binary op left right _ => by
    rw [Expr.diagnostics, Expr.occurrences, List.filter_append, List.flatMap_append,
      left.filter_diagnostics, right.filter_diagnostics]
  | .call callee arguments _ => by
    rw [Expr.diagnostics, Expr.occurrences, List.filter_append, rules.filter_argumentDiagnostics,
      List.nil_append, filter_diagnosticsAll arguments]
  | .assignment target value _ => by
    rw [Expr.diagnostics, Expr.occurrences, List.filter_append, List.flatMap_cons,
      target.filter_diagnostics, value.filter_diagnostics]

theorem filter_diagnosticsAll : ∀ es : List Expr,
    (diagnosticsAll rules es).filter (Diagnostic.breaks .identifierFormat) =
      (occurrencesOfExprs es).flatMap (Identifier.diagnostics rules)
  | [] => by
    rw [diagnosticsAll, occurrencesOfExprs]
    rfl
  | e :: es => by
    rw [diagnosticsAll, occurrencesOfExprs, List.filter_append, List.flatMap_append,
      e.filter_diagnostics, filter_diagnosticsAll es]

end

theorem Declarator.filter_diagnostics (d : Declarator) :
    (d.diagnostics rules).filter (Diagnostic.breaks .identifierFormat) =
      d.occurrences.flatMap (Identifier.diagnostics rules) := by
  obtain ⟨x, type, init, span⟩ := d
  rw [diagnostics, occurrences, List.filter_append, List.flatMap_cons, x.filter_diagnostics]
  cases init with
  | none => rfl
  | some e => exact congrArg _ (e.filter_diagnostics rules)

mutual

theorem Stmt.filter_diagnostics : ∀ s : Stmt,
    (s.diagnostics rules).filter (Diagnostic.breaks .identifierFormat) =
      s.occurrences.flatMap (Identifier.diagnostics rules)
  | .declaration kind ds _ => by
    rw [Stmt.diagnostics, Stmt.occurrences, List.filter_flatMap, List.flatMap_assoc]
    exact List.flatMap_congr fun d _ => d.filter_diagnostics rules
  | .expression e _ => by
    rw [Stmt.diagnostics, Stmt.occurrences, e.filter_diagnostics]
  | .conditional test consequent alternate _ => by
    rw [Stmt.diagnostics, Stmt.occurrences, List.filter_append, List.filter_append, List.flatMap_cons,
      List.flatMap_append, test.filter_diagnostics, filter_blockDiagnostics consequent,
      filter_blockDiagnostics alternate, List.append_assoc]

theorem filter_blockDiagnostics : ∀ ss : List Stmt,
    (blockDiagnostics rules ss).filter (Diagnostic.breaks .identifierFormat) =
      (occurrencesOfStmts ss).flatMap (Identifier.diagnostics rules)
  | [] => by
    rw [blockDiagnostics, occurrencesOfStmts]
    rfl
  | s :: ss => by
    rw [blockDiagnostics, occurrencesOfStmts, List.filter_append, List.flatMap_append,
      s.filter_diagnostics, filter_blockDiagnostics ss]

end

/-! ## What is said of a text -/

open Slate.Parser Slate.Grammar

/-- Where a style gives a format, the names of a text that are not in it are said one by one, in the order of
the text and each at its place. A name with a parenthesis behind it is that of a function and left out. -/
theorem analyze_names {ts : List Token} {p : Program} (read : program ts = .ok p) {style : Style}
    {format : IdentifierFormat}
    (given : (style.rule? Rule.identifierFormat.name).bind Rules.format? = some format)
    (version : Version) :
    (analyze style version p).filter (Diagnostic.breaks .identifierFormat) =
      ((variableTokens ts).filter fun t => !format.admits t.text).map
        fun t => ⟨.misnamed t.text format, t.span⟩ := by
  rw [analyze, filter_blockDiagnostics, occurrences_of_program read, Identifier.flatMap_diagnostics _ given,
    variablesIn, List.filter_map, List.map_map]
  rfl

/-- Names in camel case, and no operations for `println`. -/
def misnamedStyle : Style where
  rules := [("identifier_format", .string "camel case"),
    ("mandatory-variable-or-literal-in-println", .bool true)]

/-- The tokens of `if (is_on) {println(read_it(a_b) + x);}`, the braces being those of a block. -/
def misnamedConditional : List Token :=
  [⟨⟨.ifKeyword, "if"⟩, ⟨1, 1, 3⟩⟩, ⟨⟨.openParen, "("⟩, ⟨1, 4, 5⟩⟩, ⟨⟨.identifier, "is_on"⟩, ⟨1, 5, 10⟩⟩,
   ⟨⟨.closeParen, ")"⟩, ⟨1, 10, 11⟩⟩, ⟨⟨.openBrace, "\x7b"⟩, ⟨1, 12, 13⟩⟩,
   ⟨⟨.identifier, "println"⟩, ⟨1, 13, 20⟩⟩, ⟨⟨.openParen, "("⟩, ⟨1, 20, 21⟩⟩,
   ⟨⟨.identifier, "read_it"⟩, ⟨1, 21, 28⟩⟩, ⟨⟨.openParen, "("⟩, ⟨1, 28, 29⟩⟩,
   ⟨⟨.identifier, "a_b"⟩, ⟨1, 29, 32⟩⟩, ⟨⟨.closeParen, ")"⟩, ⟨1, 32, 33⟩⟩, ⟨⟨.plus, "+"⟩, ⟨1, 34, 35⟩⟩,
   ⟨⟨.identifier, "x"⟩, ⟨1, 36, 37⟩⟩, ⟨⟨.closeParen, ")"⟩, ⟨1, 37, 38⟩⟩, ⟨⟨.semicolon, ";"⟩, ⟨1, 38, 39⟩⟩,
   ⟨⟨.closeBrace, "\x7d"⟩, ⟨1, 39, 40⟩⟩]

/-- With a rule for the argument of `println` that is broken between the two names. -/
theorem analyze_names_conditional :
    ∃ p, program misnamedConditional = .ok p ∧
      ((misnamedStyle.rule? Rule.identifierFormat.name).bind Rules.format? = some .camelCase) ∧
      ∀ version : Version,
        (analyze misnamedStyle version p).filter (Diagnostic.breaks .identifierFormat) =
          [⟨.misnamed "is_on" .camelCase, ⟨1, 5, 10⟩⟩, ⟨.misnamed "a_b" .camelCase, ⟨1, 29, 32⟩⟩] := by
  have read : ∃ p, program misnamedConditional = .ok p := ⟨_, by cbv⟩
  obtain ⟨p, hp⟩ := read
  have given : (misnamedStyle.rule? Rule.identifierFormat.name).bind Rules.format? = some .camelCase := by
    decide +kernel
  refine ⟨p, hp, given, fun version => (analyze_names hp given version).trans ?_⟩
  decide +kernel

end Slate
