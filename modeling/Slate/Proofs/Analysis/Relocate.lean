import Slate.Analysis
import Slate.Proofs.Tree.Relocate

/-!
# An analysis does not see places

Whether a part of a program breaks a rule does not depend on where it stands: the diagnostics of a tree whose
spans are all moved are the diagnostics of the tree itself, moved in the same way (`analyze_relocate`). So
programs that are equal but for their spans break the same rules, in the same order
(`findings_eq_of_erase_eq`).
-/

namespace Slate

/-- The same finding at another place. -/
def Diagnostic.relocate (f : Span → Span) (d : Diagnostic) : Diagnostic := { d with span := f d.span }

@[simp] theorem Diagnostic.finding_relocate (f : Span → Span) (d : Diagnostic) :
    (d.relocate f).finding = d.finding := rfl

variable (f : Span → Span) (rules : Rules)

/-! ## Expressions -/

theorem Identifier.diagnostics_relocate (x : Identifier) :
    (x.relocate f).diagnostics rules = (x.diagnostics rules).map (Diagnostic.relocate f) := by
  unfold diagnostics
  rw [name_relocate]
  split
  · split <;> rfl
  · rfl

@[simp] theorem Expr.isSimple_relocate (e : Expr) : (e.relocate f).isSimple = e.isSimple := by
  cases e <;> simp [relocate, isSimple]

theorem Rules.argumentDiagnostics_relocate (callee : String) (arguments : List Expr) :
    rules.argumentDiagnostics callee (arguments.map (Expr.relocate f)) =
      (rules.argumentDiagnostics callee arguments).map (Diagnostic.relocate f) := by
  unfold argumentDiagnostics
  split
  · simp [List.filter_map, Function.comp_def, Diagnostic.relocate]
  · rfl

mutual

theorem Expr.diagnostics_relocate : ∀ e : Expr,
    (e.relocate f).diagnostics rules = (e.diagnostics rules).map (Diagnostic.relocate f)
  | .literal l => by simp [Expr.relocate, Expr.diagnostics]
  | .identifier x => by
    simp only [Expr.relocate, Expr.diagnostics, x.diagnostics_relocate]
  | .binary op left right s => by
    simp only [Expr.relocate, Expr.diagnostics, left.diagnostics_relocate,
      right.diagnostics_relocate, List.map_append]
  | .call callee arguments s => by
    simp only [Expr.relocate, Expr.diagnostics, Identifier.name_relocate, relocateExprs_eq_map,
      rules.argumentDiagnostics_relocate, List.map_append]
    rw [← relocateExprs_eq_map, diagnosticsAll_relocate arguments]
  | .assignment target value s => by
    simp only [Expr.relocate, Expr.diagnostics, target.diagnostics_relocate,
      value.diagnostics_relocate, List.map_append]

theorem diagnosticsAll_relocate : ∀ es : List Expr,
    diagnosticsAll rules (relocateExprs f es) = (diagnosticsAll rules es).map (Diagnostic.relocate f)
  | [] => by simp [relocateExprs, diagnosticsAll]
  | e :: es => by
    simp only [relocateExprs, diagnosticsAll, e.diagnostics_relocate, diagnosticsAll_relocate es,
      List.map_append]

end

/-! ## Statements -/

theorem Declarator.diagnostics_relocate (d : Declarator) :
    (d.relocate f).diagnostics rules = (d.diagnostics rules).map (Diagnostic.relocate f) := by
  obtain ⟨x, type, init, s⟩ := d
  cases init <;>
    simp [relocate, diagnostics, Identifier.diagnostics_relocate, Expr.diagnostics_relocate]

mutual

theorem Stmt.diagnostics_relocate : ∀ s : Stmt,
    (s.relocate f).diagnostics rules = (s.diagnostics rules).map (Diagnostic.relocate f)
  | .declaration kind ds s => by
    simp only [Stmt.relocate, Stmt.diagnostics, List.flatMap_map, List.map_flatMap,
      Declarator.diagnostics_relocate]
  | .expression e s => by
    simp only [Stmt.relocate, Stmt.diagnostics, e.diagnostics_relocate]
  | .conditional test consequent alternate s => by
    simp only [Stmt.relocate, Stmt.diagnostics, test.diagnostics_relocate, List.map_append,
      blockDiagnostics_relocate consequent, blockDiagnostics_relocate alternate]

theorem blockDiagnostics_relocate : ∀ ss : List Stmt,
    blockDiagnostics rules (relocateStmts f ss) =
      (blockDiagnostics rules ss).map (Diagnostic.relocate f)
  | [] => by simp [relocateStmts, blockDiagnostics]
  | s :: ss => by
    simp only [relocateStmts, blockDiagnostics, s.diagnostics_relocate, blockDiagnostics_relocate ss,
      List.map_append]

end

/-! ## Programs -/

theorem analyze_relocate (style : Style) (v : Version) (p : Program) :
    analyze style v (p.relocate f) = (analyze style v p).map (Diagnostic.relocate f) :=
  blockDiagnostics_relocate f _ p.statements

/-- Programs that are equal but for their spans break the same rules in the same order. -/
theorem findings_eq_of_erase_eq (style : Style) (v : Version) {p q : Program} (h : p.erase = q.erase) :
    (analyze style v p).map Diagnostic.finding = (analyze style v q).map Diagnostic.finding := by
  have erased : ∀ p : Program, (analyze style v p).map Diagnostic.finding =
      (analyze style v p.erase).map Diagnostic.finding := by
    intro p
    rw [p.erase_eq_relocate, analyze_relocate, List.map_map]
    exact List.map_congr_left fun d _ => (d.finding_relocate _).symm
  rw [erased p, erased q, h]

/-- So what is said of them is the same, but for the places. -/
theorem messages_eq_of_erase_eq (style : Style) (v : Version) {p q : Program} (h : p.erase = q.erase) :
    ((analyze style v p).map fun d => (d.rule, d.message)) =
      (analyze style v q).map fun d => (d.rule, d.message) := by
  -- the rule and the message of a diagnostic are those of its finding
  have findings := congrArg (List.map fun finding : Finding => (finding.rule, finding.message))
    (findings_eq_of_erase_eq style v h)
  rw [List.map_map, List.map_map] at findings
  exact findings

end Slate
