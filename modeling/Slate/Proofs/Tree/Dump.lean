import Mathlib
import Slate.Command
import Slate.Proofs.Decimal.Text
import Slate.Proofs.Json.Blanks
import Slate.Proofs.Json.Unique

/-!
# The dump of a tree loses nothing

    source ──parseSource──▶ program ──toJson──▶ value ──compact──▶ text
                                                      ──pretty───▶ text with blanks

* `Expr.toJson_inj`, `Stmt.toJson_inj`, `Program.toJson_inj` — a tree is known by its value, with all of its spans
  and with the scale of each decimal;
* `dump_loses_nothing` — so a program is known by its dump, in whatever layout.
-/

namespace Slate

/-! ## The parts of a node -/

/-- Two objects with a first member of one name. -/
theorem Json.object_cons_inj {k : String} {v w : Json} {fields others : List (String × Json)} :
    object ((k, v) :: fields) = object ((k, w) :: others) ↔ v = w ∧ object fields = object others := by
  simp only [object.injEq, List.cons.injEq, Prod.mk.injEq, true_and]

/-- Objects that start with members of different names. -/
theorem Json.object_cons_ne {k k' : String} (h : k ≠ k') {v w : Json} {fields others : List (String × Json)} :
    object ((k, v) :: fields) ≠ object ((k', w) :: others) := by
  intro e
  injection e with e
  injection e with first
  injection first with name
  exact h name

theorem Span.toJson_inj {s t : Span} (h : s.toJson = t.toJson) : s = t := by
  obtain ⟨line, start, stop⟩ := s
  obtain ⟨line', start', stop'⟩ := t
  simp only [toJson, Json.ofNat, Json.object_cons_inj, Json.number.injEq, Json.Number.whole.injEq,
    Int.natCast_inj, and_true] at h
  obtain ⟨rfl, rfl, rfl⟩ := h
  rfl

theorem Identifier.toJson_inj {x y : Identifier} (h : x.toJson = y.toJson) : x = y := by
  obtain ⟨name, span⟩ := x
  obtain ⟨name', span'⟩ := y
  simp only [toJson, Json.object_cons_inj, Json.string.injEq, and_true] at h
  obtain ⟨rfl, place⟩ := h
  rw [Span.toJson_inj place]

theorem LiteralValue.toJson_inj {v w : LiteralValue} (h : v.toJson = w.toJson) : v = w := by
  cases v with
  | number d =>
    cases w with
    | number e =>
      simp only [toJson, Json.object_cons_inj, Json.string.injEq, and_true] at h
      rw [Decimal.toString_inj h]
    | _ => exact (Json.object_cons_ne (by decide) h).elim
  | string s =>
    cases w with
    | string t =>
      simp only [toJson, Json.object_cons_inj, Json.string.injEq, and_true] at h
      rw [h]
    | _ => exact (Json.object_cons_ne (by decide) h).elim
  | boolean a =>
    cases w with
    | boolean b =>
      simp only [toJson, Json.object_cons_inj, Json.bool.injEq, and_true] at h
      rw [h]
    | _ => exact (Json.object_cons_ne (by decide) h).elim

theorem Literal.toJson_inj {l m : Literal} (h : l.toJson = m.toJson) : l = m := by
  obtain ⟨value, span⟩ := l
  obtain ⟨value', span'⟩ := m
  simp only [toJson, Json.object_cons_inj, and_true] at h
  rw [LiteralValue.toJson_inj h.1, Span.toJson_inj h.2]

theorem BinaryOp.name_inj {op op' : BinaryOp} (h : op.name = op'.name) : op = op' := by
  cases op <;> cases op' <;> first | rfl | exact absurd h (by decide)

theorem Ty.toJson_inj {t u : Ty} (h : t.toJson = u.toJson) : t = u := by
  cases t <;> cases u <;> first | rfl | exact absurd (Json.string.inj h) (by decide)

theorem DeclarationKind.toJson_inj {k k' : DeclarationKind} (h : k.toJson = k'.toJson) : k = k' := by
  cases k <;> cases k' <;> first | rfl | exact absurd (Json.string.inj h) (by decide)

/-! ## Expressions -/

theorem Expr.tag_eq {e f : Expr} (h : e.toJson = f.toJson) : e.tag = f.tag := by
  injection h with h
  injection h with h
  injection h

mutual

theorem Expr.toJson_inj {e f : Expr} (h : e.toJson = f.toJson) : e = f := by
  have tags := Expr.tag_eq h
  cases e with
  | literal l =>
    cases f with
    | literal m =>
      simp only [Expr.toJson, Expr.tag, Expr.node, Json.object_cons_inj, and_true] at h
      rw [Literal.toJson_inj h]
    | _ => simp [Expr.tag] at tags
  | identifier x =>
    cases f with
    | identifier y =>
      simp only [Expr.toJson, Expr.tag, Expr.node, Json.object_cons_inj, and_true] at h
      rw [Identifier.toJson_inj h]
    | _ => simp [Expr.tag] at tags
  | binary op left right s =>
    cases f with
    | binary op' left' right' s' =>
      simp only [Expr.toJson, Expr.tag, Expr.node, Json.object_cons_inj, Json.string.injEq, and_true] at h
      obtain ⟨name, l, r, place⟩ := h
      rw [BinaryOp.name_inj name, Expr.toJson_inj l, Expr.toJson_inj r, Span.toJson_inj place]
    | _ => simp [Expr.tag] at tags
  | call callee arguments s =>
    cases f with
    | call callee' arguments' s' =>
      simp only [Expr.toJson, Expr.tag, Expr.node, Json.object_cons_inj, Json.array.injEq, and_true] at h
      obtain ⟨name, items, place⟩ := h
      rw [Identifier.toJson_inj name, nodes_inj items, Span.toJson_inj place]
    | _ => simp [Expr.tag] at tags
  | assignment target value s =>
    cases f with
    | assignment target' value' s' =>
      simp only [Expr.toJson, Expr.tag, Expr.node, Json.object_cons_inj, and_true] at h
      obtain ⟨name, right, place⟩ := h
      rw [Identifier.toJson_inj name, Expr.toJson_inj right, Span.toJson_inj place]
    | _ => simp [Expr.tag] at tags

theorem nodes_inj {es fs : List Expr} (h : nodes es = nodes fs) : es = fs := by
  cases es with
  | nil =>
    cases fs with
    | nil => rfl
    | cons f fs =>
      rw [nodes, nodes] at h
      cases h
  | cons e es =>
    cases fs with
    | nil =>
      rw [nodes, nodes] at h
      cases h
    | cons f fs =>
      rw [nodes, nodes] at h
      obtain ⟨first, others⟩ := List.cons.inj h
      rw [Expr.toJson_inj first, nodes_inj others]

end

/-! ## Statements -/

theorem Declarator.toJson_inj {d d' : Declarator} (h : d.toJson = d'.toJson) : d = d' := by
  obtain ⟨id, type, init, s⟩ := d
  obtain ⟨id', type', init', s'⟩ := d'
  simp only [toJson, Json.object_cons_inj, and_true] at h
  obtain ⟨name, types, value, place⟩ := h
  have first : init = init' := by
    cases init with
    | none =>
      cases init' with
      | none => rfl
      | some f => cases value
    | some e =>
      cases init' with
      | none => cases value
      | some f => exact congrArg some (Expr.toJson_inj value)
  rw [Identifier.toJson_inj name, Ty.toJson_inj types, first, Span.toJson_inj place]

theorem Stmt.tag_eq {s t : Stmt} (h : s.toJson = t.toJson) : s.tag = t.tag := by
  injection h with h
  injection h with h
  injection h

mutual

theorem Stmt.toJson_inj {s t : Stmt} (h : s.toJson = t.toJson) : s = t := by
  have tags := Stmt.tag_eq h
  cases s with
  | declaration kind ds s =>
    cases t with
    | declaration kind' ds' s' =>
      simp only [Stmt.toJson, Stmt.tag, Stmt.node, Json.object_cons_inj, Json.array.injEq, and_true] at h
      obtain ⟨kinds, items, place⟩ := h
      have vars := (List.map_inj_right fun _ _ => Declarator.toJson_inj).1 items
      rw [DeclarationKind.toJson_inj kinds, vars, Span.toJson_inj place]
    | _ => simp [Stmt.tag] at tags
  | expression e s =>
    cases t with
    | expression e' s' =>
      simp only [Stmt.toJson, Stmt.tag, Stmt.node, Json.object_cons_inj, and_true] at h
      obtain ⟨value, place⟩ := h
      rw [Expr.toJson_inj value, Span.toJson_inj place]
    | _ => simp [Stmt.tag] at tags
  | conditional test consequent alternate s =>
    cases t with
    | conditional test' consequent' alternate' s' =>
      simp only [Stmt.toJson, Stmt.tag, Stmt.node, Json.object_cons_inj, Json.array.injEq, and_true] at h
      obtain ⟨name, first, second, place⟩ := h
      rw [Identifier.toJson_inj name, blockNodes_inj first, blockNodes_inj second, Span.toJson_inj place]
    | _ => simp [Stmt.tag] at tags

theorem blockNodes_inj {ss ts : List Stmt} (h : blockNodes ss = blockNodes ts) : ss = ts := by
  cases ss with
  | nil =>
    cases ts with
    | nil => rfl
    | cons t ts =>
      rw [blockNodes, blockNodes] at h
      cases h
  | cons s ss =>
    cases ts with
    | nil =>
      rw [blockNodes, blockNodes] at h
      cases h
    | cons t ts =>
      rw [blockNodes, blockNodes] at h
      obtain ⟨first, others⟩ := List.cons.inj h
      rw [Stmt.toJson_inj first, blockNodes_inj others]

end

theorem Program.toJson_inj {p q : Program} (h : p.toJson = q.toJson) : p = q := by
  obtain ⟨ss⟩ := p
  obtain ⟨ts⟩ := q
  simp only [toJson, Json.object_cons_inj, Json.array.injEq, and_true] at h
  rw [blockNodes_inj h]

/-! ## The dump -/

theorem dumpSource_eq_ok {source : String} {p : Program} (read : parseSource source = .ok p) (pretty : Bool) :
    dumpSource pretty source = .ok (if pretty then p.toJson.pretty else p.toJson.compact) := by
  rw [dumpSource, read]
  rfl

/-- Two programs with one compact dump are the same, with all of their spans and with the scale of each decimal. And
the pretty dump of a program is the compact one with blanks outside the strings. -/
theorem dump_loses_nothing :
    (∀ (source source' : String) (p p' : Program), parseSource source = .ok p → parseSource source' = .ok p' →
      dumpSource false source = dumpSource false source' → p = p') ∧
    ∀ (source : String) (p : Program), parseSource source = .ok p →
      ∃ pretty compact, dumpSource true source = .ok pretty ∧ dumpSource false source = .ok compact ∧
        Json.unspaced .outside pretty.toList = compact.toList := by
  constructor
  · intro source source' p p' read read' same
    rw [dumpSource_eq_ok read, dumpSource_eq_ok read'] at same
    exact Program.toJson_inj (Json.compact_inj (Except.ok.inj same))
  · intro source p read
    exact ⟨_, _, dumpSource_eq_ok read true, dumpSource_eq_ok read false, Json.unspaced_pretty p.toJson⟩

/-- The tokens of `f('"', 1.50);`. -/
def quotedCall : List Token :=
  [⟨⟨.identifier, "f"⟩, ⟨1, 1, 2⟩⟩, ⟨⟨.openParen, "("⟩, ⟨1, 2, 3⟩⟩, ⟨⟨.string, "\""⟩, ⟨1, 3, 6⟩⟩,
   ⟨⟨.comma, ","⟩, ⟨1, 6, 7⟩⟩, ⟨⟨.number, "1.50"⟩, ⟨1, 8, 12⟩⟩, ⟨⟨.closeParen, ")"⟩, ⟨1, 12, 13⟩⟩,
   ⟨⟨.semicolon, ";"⟩, ⟨1, 13, 14⟩⟩]

/-- A call with a quote in a string, and the same with a comment behind it. -/
theorem dump_loses_nothing_quotedCall :
    ∃ p p', parseSource "f('\"', 1.50);" = .ok p ∧ parseSource "f('\"', 1.50); // call" = .ok p' ∧
      dumpSource false "f('\"', 1.50);" = dumpSource false "f('\"', 1.50); // call" ∧ p = p' ∧
      ∃ pretty compact, dumpSource true "f('\"', 1.50);" = .ok pretty ∧
        dumpSource false "f('\"', 1.50);" = .ok compact ∧
        Json.unspaced .outside pretty.toList = compact.toList := by
  have tokens : tokenize "f('\"', 1.50);" = .ok quotedCall := by decide +kernel
  have tokens' : tokenize "f('\"', 1.50); // call" = .ok quotedCall := by decide +kernel
  have parsed : ∃ p, Parser.program quotedCall = .ok p := ⟨_, by cbv⟩
  obtain ⟨p, hp⟩ := parsed
  have read : parseSource "f('\"', 1.50);" = .ok p := by
    rw [parseSource, tokens]
    exact congrArg (Except.mapError CommandError.parse) hp
  have read' : parseSource "f('\"', 1.50); // call" = .ok p := by
    rw [parseSource, tokens']
    exact congrArg (Except.mapError CommandError.parse) hp
  have same : dumpSource false "f('\"', 1.50);" = dumpSource false "f('\"', 1.50); // call" := by
    rw [dumpSource_eq_ok read, dumpSource_eq_ok read']
  exact ⟨p, p, read, read', same, dump_loses_nothing.1 _ _ p p read read' same, dump_loses_nothing.2 _ p read⟩

end Slate
