import Slate.Proofs.Tree.Erase

/-!
# The parts of trees that are the same

`Expr.Same` and `Stmt.Same` compare two trees as wholes: the trees without their spans, and the lists of
their signs. How long such a list is depends on the tree without its spans only (`Expr.length_negations`). So
the lists of two trees that are the same come apart at the same places, and the parts of the trees are the
same in turn: there is a lemma `of_…` for each kind of node.
-/

namespace Slate

/-! ## As many signs as operations -/

mutual

theorem Expr.length_negations : ∀ e : Expr, e.erase.negations.length = e.negations.length
  | .literal l => by rw [Expr.erase, Expr.negations, Expr.negations]
  | .identifier x => by rw [Expr.erase, Expr.negations, Expr.negations]
  | .binary op left right s => by
    simp only [Expr.erase, Expr.negations, List.length_cons, List.length_append, left.length_negations,
      right.length_negations]
  | .call callee arguments s => by
    rw [Expr.erase, Expr.negations, Expr.negations, length_negationsOfExprs arguments]
  | .assignment target value s => by
    rw [Expr.erase, Expr.negations, Expr.negations, value.length_negations]

theorem length_negationsOfExprs : ∀ es : List Expr,
    (negationsOfExprs (eraseExprs es)).length = (negationsOfExprs es).length
  | [] => by rw [eraseExprs]
  | e :: es => by
    rw [eraseExprs, negationsOfExprs, negationsOfExprs, List.length_append, List.length_append,
      e.length_negations, length_negationsOfExprs es]

end

theorem Declarator.length_negations (d : Declarator) :
    d.erase.negations.length = d.negations.length := by
  obtain ⟨id, type, init, s⟩ := d
  cases init with
  | none => rfl
  | some e => exact e.length_negations

mutual

theorem Stmt.length_negations : ∀ s : Stmt, s.erase.negations.length = s.negations.length
  | .declaration kind ds s => by
    rw [Stmt.erase, Stmt.negations, Stmt.negations, List.flatMap_map, List.length_flatMap, List.length_flatMap,
      funext Declarator.length_negations]
  | .expression e s => by rw [Stmt.erase, Stmt.negations, Stmt.negations, e.length_negations]
  | .conditional test consequent alternate s => by
    rw [Stmt.erase, Stmt.negations, Stmt.negations, List.length_append, List.length_append,
      length_negationsOfStmts consequent, length_negationsOfStmts alternate]

theorem length_negationsOfStmts : ∀ ss : List Stmt,
    (negationsOfStmts (eraseStmts ss)).length = (negationsOfStmts ss).length
  | [] => by rw [eraseStmts]
  | s :: ss => by
    rw [eraseStmts, negationsOfStmts, negationsOfStmts, List.length_append, List.length_append,
      s.length_negations, length_negationsOfStmts ss]

end

/-! ## Expressions -/

theorem Expr.length_negations_eq {e e' : Expr} (h : e.erase = e'.erase) :
    e.negations.length = e'.negations.length := by
  rw [← e.length_negations, ← e'.length_negations, h]

theorem Identifier.name_eq {x x' : Identifier} (h : x.erase = x'.erase) : x.name = x'.name :=
  (congrArg Identifier.name h :)

namespace Expr.Same

theorem of_literal {l : Literal} {e' : Expr} (h : Same (.literal l) e') :
    ∃ l', e' = .literal l' ∧ l.value = l'.value := by
  have erased := h.1
  cases e' <;> simp only [erase, literal.injEq, reduceCtorEq] at erased
  exact ⟨_, rfl, (congrArg Literal.value erased :)⟩

theorem of_identifier {x : Identifier} {e' : Expr} (h : Same (.identifier x) e') :
    ∃ x', e' = .identifier x' ∧ x.name = x'.name := by
  have erased := h.1
  cases e' <;> simp only [erase, identifier.injEq, reduceCtorEq] at erased
  exact ⟨_, rfl, Identifier.name_eq erased⟩

theorem of_binary {op : BinaryOp} {left right e' : Expr} {s : Span}
    (h : Same (.binary op left right s) e') :
    ∃ left' right' s', e' = .binary op left' right' s' ∧ Same left left' ∧ Same right right' ∧
      (Expr.binary op left right s).isNegation = (Expr.binary op left' right' s').isNegation := by
  obtain ⟨erased, signs⟩ := h
  cases e' <;> simp only [erase, binary.injEq, reduceCtorEq] at erased
  obtain ⟨rfl, hl, hr, -⟩ := erased
  simp only [negations, List.cons.injEq] at signs
  obtain ⟨sign, parts⟩ := signs
  obtain ⟨nl, nr⟩ := List.append_inj parts (length_negations_eq hl)
  exact ⟨_, _, _, rfl, ⟨hl, nl⟩, ⟨hr, nr⟩, sign⟩

theorem of_call {callee : Identifier} {arguments : List Expr} {e' : Expr} {s : Span}
    (h : Same (.call callee arguments s) e') :
    ∃ callee' arguments' s', e' = .call callee' arguments' s' ∧ callee.name = callee'.name ∧
      SameExprs arguments arguments' := by
  obtain ⟨erased, signs⟩ := h
  cases e' <;> simp only [erase, call.injEq, reduceCtorEq] at erased
  obtain ⟨name, parts, -⟩ := erased
  simp only [negations] at signs
  exact ⟨_, _, _, rfl, Identifier.name_eq name, parts, signs⟩

theorem of_assignment {target : Identifier} {value e' : Expr} {s : Span}
    (h : Same (.assignment target value s) e') :
    ∃ target' value' s', e' = .assignment target' value' s' ∧ target.name = target'.name ∧
      Same value value' := by
  obtain ⟨erased, signs⟩ := h
  cases e' <;> simp only [erase, assignment.injEq, reduceCtorEq] at erased
  obtain ⟨name, part, -⟩ := erased
  simp only [negations] at signs
  exact ⟨_, _, _, rfl, Identifier.name_eq name, part, signs⟩

end Expr.Same

theorem SameExprs.eq_nil {es : List Expr} (h : SameExprs [] es) : es = [] := by
  have erased := h.1
  cases es with
  | nil => rfl
  | cons e es => simp only [eraseExprs, reduceCtorEq] at erased

theorem SameExprs.of_cons {e : Expr} {es es' : List Expr} (h : SameExprs (e :: es) es') :
    ∃ e' rest, es' = e' :: rest ∧ e.Same e' ∧ SameExprs es rest := by
  obtain ⟨erased, signs⟩ := h
  cases es' <;> simp only [eraseExprs, List.cons.injEq, reduceCtorEq] at erased
  simp only [negationsOfExprs] at signs
  obtain ⟨first, rest⟩ := erased
  obtain ⟨signs, more⟩ := List.append_inj signs (Expr.length_negations_eq first)
  exact ⟨_, _, rfl, ⟨first, signs⟩, ⟨rest, more⟩⟩

/-! ## Declarations -/

namespace Declarator.Same

variable {d d' : Declarator}

theorem name_eq (h : d.Same d') : d.id.name = d'.id.name :=
  Identifier.name_eq (congrArg Declarator.id h.1 :)

theorem type_eq (h : d.Same d') : d.type = d'.type :=
  (congrArg Declarator.type h.1 :)

/-- Either both have a first value or none. -/
theorem init (h : d.Same d') :
    (d.init = none ∧ d'.init = none) ∨
      ∃ e e', d.init = some e ∧ d'.init = some e' ∧ e.Same e' := by
  obtain ⟨id, type, i, s⟩ := d
  obtain ⟨id', type', i', s'⟩ := d'
  obtain ⟨erased, signs⟩ := h
  have erased := congrArg Declarator.init erased
  cases i with
  | none =>
    cases i' with
    | none => exact .inl ⟨rfl, rfl⟩
    | some e' => cases erased
  | some e =>
    cases i' with
    | none => cases erased
    | some e' => exact .inr ⟨e, e', rfl, rfl, Option.some.inj erased, signs⟩

end Declarator.Same

theorem SameDeclarators.eq_nil {ds : List Declarator} (h : SameDeclarators [] ds) : ds = [] :=
  List.map_eq_nil_iff.1 h.1.symm

theorem SameDeclarators.of_cons {d : Declarator} {ds ds' : List Declarator}
    (h : SameDeclarators (d :: ds) ds') :
    ∃ d' rest, ds' = d' :: rest ∧ d.Same d' ∧ SameDeclarators ds rest := by
  obtain ⟨erased, signs⟩ := h
  rw [List.map_cons] at erased
  obtain ⟨d', rest, rfl, first, others⟩ := List.map_eq_cons_iff.1 erased.symm
  rw [List.flatMap_cons, List.flatMap_cons] at signs
  have length : d.negations.length = d'.negations.length := by
    rw [← d.length_negations, ← d'.length_negations, first]
  obtain ⟨signs, more⟩ := List.append_inj signs length
  exact ⟨d', rest, rfl, ⟨first.symm, signs⟩, ⟨others.symm, more⟩⟩

/-! ## Statements -/

namespace Stmt.Same

theorem of_declaration {kind : DeclarationKind} {ds : List Declarator} {s' : Stmt} {s : Span}
    (h : Same (.declaration kind ds s) s') :
    ∃ ds' place, s' = .declaration kind ds' place ∧ SameDeclarators ds ds' := by
  obtain ⟨erased, signs⟩ := h
  cases s' <;> simp only [erase, declaration.injEq, reduceCtorEq] at erased
  obtain ⟨rfl, parts, -⟩ := erased
  simp only [negations] at signs
  exact ⟨_, _, rfl, parts, signs⟩

theorem of_expression {e : Expr} {s' : Stmt} {s : Span} (h : Same (.expression e s) s') :
    ∃ e' place, s' = .expression e' place ∧ e.Same e' := by
  obtain ⟨erased, signs⟩ := h
  cases s' <;> simp only [erase, expression.injEq, reduceCtorEq] at erased
  simp only [negations] at signs
  exact ⟨_, _, rfl, erased.1, signs⟩

theorem of_conditional {test : Identifier} {consequent alternate : List Stmt} {s' : Stmt} {s : Span}
    (h : Same (.conditional test consequent alternate s) s') :
    ∃ test' consequent' alternate' place, s' = .conditional test' consequent' alternate' place ∧
      test.name = test'.name ∧ SameStmts consequent consequent' ∧ SameStmts alternate alternate' := by
  obtain ⟨erased, signs⟩ := h
  cases s' <;> simp only [erase, conditional.injEq, reduceCtorEq] at erased
  next test' consequent' alternate' place =>
  obtain ⟨name, hc, ha, -⟩ := erased
  simp only [negations] at signs
  have length : (negationsOfStmts consequent).length = (negationsOfStmts consequent').length := by
    rw [← length_negationsOfStmts, ← length_negationsOfStmts consequent', hc]
  obtain ⟨nc, na⟩ := List.append_inj signs length
  exact ⟨_, _, _, _, rfl, Identifier.name_eq name, ⟨hc, nc⟩, ⟨ha, na⟩⟩

end Stmt.Same

theorem SameStmts.eq_nil {ss : List Stmt} (h : SameStmts [] ss) : ss = [] := by
  have erased := h.1
  cases ss with
  | nil => rfl
  | cons s ss => simp only [eraseStmts, reduceCtorEq] at erased

theorem SameStmts.of_cons {s : Stmt} {ss ss' : List Stmt} (h : SameStmts (s :: ss) ss') :
    ∃ s' rest, ss' = s' :: rest ∧ s.Same s' ∧ SameStmts ss rest := by
  obtain ⟨erased, signs⟩ := h
  cases ss' <;> simp only [eraseStmts, List.cons.injEq, reduceCtorEq] at erased
  next s' rest =>
  simp only [negationsOfStmts] at signs
  obtain ⟨first, others⟩ := erased
  have length : s.negations.length = s'.negations.length := by
    rw [← s.length_negations, ← s'.length_negations, first]
  obtain ⟨signs, more⟩ := List.append_inj signs length
  exact ⟨s', rest, rfl, ⟨first, signs⟩, ⟨others, more⟩⟩

end Slate
