import Slate.Format
import Slate.Proofs.Tree.Same

/-!
# What is written for trees that are the same

Of all the spans of a tree, writing it looks only at those that tell a sign from a subtraction. So trees that
are the same at other places are written the same, in every style (`Program.format_eq_of_same`).
-/

namespace Slate

variable (style : Style)

/-! ## Expressions -/

theorem Expr.Same.looseness_eq {e e' : Expr} (h : e.Same e') : e.looseness? = e'.looseness? := by
  cases e with
  | literal l =>
    obtain ⟨l', rfl, -⟩ := h.of_literal
    rfl
  | identifier x =>
    obtain ⟨x', rfl, -⟩ := h.of_identifier
    rfl
  | binary op left right s =>
    obtain ⟨left', right', s', rfl, -, -, sign⟩ := h.of_binary
    unfold looseness?
    rw [sign]
  | call callee arguments s =>
    obtain ⟨callee', arguments', s', rfl, -⟩ := h.of_call
    rfl
  | assignment target value s =>
    obtain ⟨target', value', s', rfl, -⟩ := h.of_assignment
    rfl

theorem Expr.Same.parenthesize_eq {e e' : Expr} (h : e.Same e') {text text' : String}
    (same : text = text') (needed : Nat → Bool) :
    parenthesize e needed text = parenthesize e' needed text' := by
  rw [parenthesize, parenthesize, h.looseness_eq, same]

mutual

theorem Expr.format_eq_of_same : ∀ (e : Expr) {e' : Expr}, e.Same e' → e.format style = e'.format style
  | .literal l, _, h => by
    obtain ⟨l', rfl, value⟩ := h.of_literal
    rw [Expr.format, Expr.format, value]
  | .identifier x, _, h => by
    obtain ⟨x', rfl, name⟩ := h.of_identifier
    rw [Expr.format, Expr.format, name]
  | .binary op left right s, _, h => by
    obtain ⟨left', right', s', rfl, hl, hr, sign⟩ := h.of_binary
    have first := left.format_eq_of_same hl
    have second := right.format_eq_of_same hr
    rw [Expr.format, Expr.format, sign, hl.parenthesize_eq first, hr.parenthesize_eq second,
      hr.parenthesize_eq second]
  | .call callee arguments s, _, h => by
    obtain ⟨callee', arguments', s', rfl, name, parts⟩ := h.of_call
    rw [Expr.format, Expr.format, name, formatAll_eq_of_same arguments parts]
  | .assignment target value s, _, h => by
    obtain ⟨target', value', s', rfl, name, part⟩ := h.of_assignment
    rw [Expr.format, Expr.format, name, value.format_eq_of_same part]

theorem formatAll_eq_of_same : ∀ (es : List Expr) {es' : List Expr}, SameExprs es es' →
    formatAll style es = formatAll style es'
  | [], _, h => by rw [h.eq_nil]
  | e :: es, _, h => by
    obtain ⟨e', rest, rfl, first, others⟩ := h.of_cons
    rw [formatAll, formatAll, e.format_eq_of_same first, formatAll_eq_of_same es others]

end

/-! ## Statements -/

theorem Declarator.format_eq_of_same {d d' : Declarator} (h : d.Same d') :
    d.format style = d'.format style := by
  unfold format
  rw [h.name_eq, h.type_eq]
  rcases h.init with ⟨none_, none_'⟩ | ⟨e, e', some_, some_', same⟩
  · rw [none_, none_']
  · rw [some_, some_']
    dsimp only
    rw [e.format_eq_of_same style same]

theorem map_format_eq_of_same (ds : List Declarator) {ds' : List Declarator}
    (h : SameDeclarators ds ds') :
    ds.map (Declarator.format style) = ds'.map (Declarator.format style) := by
  induction ds generalizing ds' with
  | nil => rw [h.eq_nil]
  | cons d ds ih =>
    obtain ⟨d', rest, rfl, first, others⟩ := h.of_cons
    rw [List.map_cons, List.map_cons, d.format_eq_of_same style first, ih others]

theorem Expr.Same.isPrintln_eq {e e' : Expr} (h : e.Same e') : e.isPrintln = e'.isPrintln := by
  cases e with
  | literal l =>
    obtain ⟨l', rfl, -⟩ := h.of_literal
    rfl
  | identifier x =>
    obtain ⟨x', rfl, -⟩ := h.of_identifier
    rfl
  | binary op left right s =>
    obtain ⟨left', right', s', rfl, -⟩ := h.of_binary
    rfl
  | call callee arguments s =>
    obtain ⟨callee', arguments', s', rfl, name, -⟩ := h.of_call
    simp only [isPrintln, name]
  | assignment target value s =>
    obtain ⟨target', value', s', rfl, -⟩ := h.of_assignment
    rfl

theorem SameStmts.isEmpty_eq {ss ss' : List Stmt} (h : SameStmts ss ss') : ss.isEmpty = ss'.isEmpty := by
  cases ss with
  | nil => rw [h.eq_nil]
  | cons s ss =>
    obtain ⟨s', rest, rfl, -⟩ := h.of_cons
    rfl

mutual

theorem Stmt.lines_eq_of_same : ∀ (s : Stmt) {s' : Stmt} (level : Nat), s.Same s' →
    s.lines style level = s'.lines style level
  | .declaration kind ds s, _, level, h => by
    obtain ⟨ds', place, rfl, parts⟩ := h.of_declaration
    rw [Stmt.lines, Stmt.lines, map_format_eq_of_same style ds parts]
  | .expression e s, _, level, h => by
    obtain ⟨e', place, rfl, part⟩ := h.of_expression
    rw [Stmt.lines, Stmt.lines, part.isPrintln_eq, e.format_eq_of_same style part]
  | .conditional test consequent alternate s, _, level, h => by
    obtain ⟨test', consequent', alternate', place, rfl, name, hc, ha⟩ := h.of_conditional
    rw [Stmt.lines, Stmt.lines, name, ha.isEmpty_eq, linesAll_eq_of_same consequent (level + 1) hc,
      linesAll_eq_of_same alternate (level + 1) ha]

theorem linesAll_eq_of_same : ∀ (ss : List Stmt) {ss' : List Stmt} (level : Nat), SameStmts ss ss' →
    linesAll style level ss = linesAll style level ss'
  | [], _, level, h => by rw [h.eq_nil]
  | s :: ss, _, level, h => by
    obtain ⟨s', rest, rfl, first, others⟩ := h.of_cons
    rw [linesAll, linesAll, s.lines_eq_of_same level first, linesAll_eq_of_same ss level others]

end

/-- Programs that are the same at other places are written the same. -/
theorem Program.format_eq_of_same {p q : Program} (h : SameStmts p.statements q.statements) :
    Slate.format style p = Slate.format style q := by
  rw [Slate.format, Slate.format, Program.lines, Program.lines,
    linesAll_eq_of_same style p.statements 0 h]

end Slate
