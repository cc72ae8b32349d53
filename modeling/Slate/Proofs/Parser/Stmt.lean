import Slate.Parser.Stmt
import Slate.Proofs.Parser.Body

/-!
# When a statement is read

One law for each part of the parser of statements, which says exactly when the part succeeds. None of
them looks into a slice.

* `statement_eq_ok` — a statement is what one of the three constructs reads, and
  `statement_of_declaration`, `statement_of_expressionStatement`, `statement_of_conditional` are the
  converse;
* `head_eq_ok` — the five tokens at the start of a conditional;
* `blocks_eq_complete` — the two forms that the blocks of a conditional can have;
* `conditional_eq_ok`, `program_eq_ok` — all slices are read, and the ending is the right one.
-/

namespace Slate.Parser

/-! ## The choice of a construct -/

theorem answerOf_eq_ok {α : Type} {otherwise : Failure} {answers : List (Parsed α)} {a : α} :
    answerOf otherwise answers = .ok a ↔ answers.findSome? Except.toOption = some a := by
  rw [answerOf]
  cases answers.findSome? Except.toOption <;> simp

theorem toOption_eq_some {ε α : Type} {x : Except ε α} {a : α} :
    x.toOption = some a ↔ x = .ok a := by
  cases x <;> simp [Except.toOption]

theorem statement_of_declaration {ts : List Token} {s : Stmt} (h : declaration ts = .ok s) :
    statement ts = .ok s := by
  rw [statement, answerOf_eq_ok, List.findSome?, h]
  rfl

/-- What cannot start a declaration is left to the other constructs. -/
theorem declaration_toOption {t : Token} (h : declarationKind? t.kind = none) (ts : List Token) :
    (declaration (t :: ts)).toOption = none := by
  rw [declaration, h]
  rfl

theorem statement_of_expressionStatement {t : Token} {ts : List Token} {s : Stmt}
    (hk : startsOther t.kind = false) (h : expressionStatement (t :: ts) = .ok s) :
    statement (t :: ts) = .ok s := by
  have noKeyword : declarationKind? t.kind = none := by
    revert hk
    cases t.kind <;> simp [startsOther, declarationKind?]
  rw [statement, answerOf_eq_ok, List.findSome?, declaration_toOption noKeyword]
  dsimp only
  rw [List.findSome?, h]
  rfl

theorem statement_of_conditional {t : Token} {ts : List Token} {s : Stmt}
    (hk : t.kind = .ifKeyword) (h : conditional (t :: ts) = .ok s) :
    statement (t :: ts) = .ok s := by
  have noExpression : (expressionStatement (t :: ts)).toOption = none := by
    rw [expressionStatement, if_pos (by rw [hk]; rfl)]
    rfl
  rw [statement, answerOf_eq_ok, List.findSome?, declaration_toOption (by rw [hk]; rfl)]
  dsimp only
  rw [List.findSome?, noExpression]
  dsimp only
  rw [List.findSome?, h]
  rfl

theorem statement_eq_ok {ts : List Token} {s : Stmt} (h : statement ts = .ok s) :
    declaration ts = .ok s ∨ expressionStatement ts = .ok s ∨ conditional ts = .ok s := by
  rw [statement, answerOf_eq_ok] at h
  obtain ⟨r, hr, hs⟩ := List.exists_of_findSome?_eq_some h
  rw [toOption_eq_some] at hs
  simp only [List.mem_cons, List.not_mem_nil, or_false] at hr
  rcases hr with rfl | rfl | rfl
  · exact .inl hs
  · exact .inr (.inl hs)
  · exact .inr (.inr hs)

/-! ## Conditionals -/

theorem head_eq_ok {ts : List Token} {h : Head} :
    head ts = .ok h ↔ ∃ opening closing brace : Token,
      ts = h.first :: opening :: h.test :: closing :: brace :: h.body ∧ h.body ≠ [] ∧
      h.first.kind = .ifKeyword ∧ opening.kind = .openParen ∧ h.test.kind = .identifier ∧
      closing.kind = .closeParen ∧ brace.kind = .openBrace := by
  constructor
  · intro e
    unfold head at e
    split at e
    · cases e
    · next first rest =>
      split at e
      · next hk =>
        obtain ⟨⟨a, r₁⟩, h₁, e⟩ := bind_eq_ok e
        obtain ⟨⟨b, r₂⟩, h₂, e⟩ := bind_eq_ok e
        obtain ⟨⟨c, r₃⟩, h₃, e⟩ := bind_eq_ok e
        obtain ⟨⟨d, r₄⟩, h₄, e⟩ := bind_eq_ok e
        dsimp only at e
        split at e <;> cases e
        · obtain ⟨rfl, ha⟩ := expect_eq_ok.1 h₁
          obtain ⟨rfl, hb⟩ := expect_eq_ok.1 h₂
          obtain ⟨rfl, hc⟩ := expect_eq_ok.1 h₃
          obtain ⟨rfl, hd⟩ := expect_eq_ok.1 h₄
          exact ⟨a, c, d, rfl, ‹_›, hk, ha, hb, hc, hd⟩
      · cases e
  · rintro ⟨opening, closing, brace, rfl, hne, hf, ho, ht, hc, hb⟩
    simp only [head, hf, ho, ht, hc, hb, hne, expect, if_true, if_false, bind, Except.bind]

/-- The blocks of a conditional are complete in two forms: one body, or two with an `else` and a
brace between them. Each body ends behind a statement. -/
theorem blocks_eq_complete {last : Span} {body : List Token}
    {consequent alternate : List (List Token)} :
    blocks last body = ⟨consequent, alternate, .complete⟩ ↔
      (cut {} body).slices = consequent ∧
      ((∃ brace, (cut {} body).ending = .closed [] brace [] ∧ alternate = []) ∨
        ∃ brace word opening inner closing,
          (cut {} body).ending = .closed [] brace (word :: opening :: inner) ∧
          word.kind = .elseKeyword ∧ opening.kind = .openBrace ∧
          (cut {} inner).ending = .closed [] closing [] ∧ (cut {} inner).slices = alternate) := by
  have ofLast {e : Ending} (h : BlockEnding.ofLast last e = .complete) :
      ∃ b, e = .closed [] b [] := by
    unfold BlockEnding.ofLast at h
    split at h <;> cases h
    exact ⟨_, rfl⟩
  constructor
  · intro h
    unfold blocks at h
    dsimp only at h
    split at h
    · next brace t rest he =>
      split at h
      · next hk =>
        simp only [Blocks.mk.injEq] at h
        obtain ⟨hc, ha, h⟩ := h
        unfold alternateBlock at h ha
        split at h
        · cases h
        · next o inner =>
          split at h
          · next ho =>
            obtain ⟨closing, hcl⟩ := ofLast h
            dsimp only at ha
            rw [if_pos ho] at ha
            exact ⟨hc, .inr ⟨brace, t, o, inner, closing, he, hk, ho, hcl, ha⟩⟩
          · cases h
      · simp only [Blocks.mk.injEq] at h
        obtain ⟨b, hb⟩ := ofLast h.2.2
        cases hb
    · simp only [Blocks.mk.injEq] at h
      obtain ⟨brace, he⟩ := ofLast h.2.2
      exact ⟨h.1, .inl ⟨brace, he, h.2.1.symm⟩⟩
  · rintro ⟨rfl, ⟨brace, h, rfl⟩ | ⟨brace, word, opening, inner, closing, h, hw, ho, hc, rfl⟩⟩
    · simp only [blocks, h, BlockEnding.ofLast]
    · simp only [blocks, h, if_pos hw, alternateBlock, if_pos ho, hc, BlockEnding.ofLast]

theorem conditional_eq (ts : List Token) :
    conditional ts = (do
      let h ← head ts
      let parts := blocks h.last h.body
      let consequent ← inOrder (parts.consequent.map statement)
      let alternate ← inOrder (parts.alternate.map statement)
      match parts.ending with
      | .complete =>
        .ok (.conditional ⟨h.test.text, h.test.span⟩ consequent alternate
          (Span.cover h.first.span h.last))
      | .failed f => .error f
      | .insideStatement pending brace =>
        match statement pending with
        | .error f => .error f
        | .ok _ =>
          failAt (pending.getLastD brace).span.after
            (.expected (.token .semicolon) (some (.before .closeBrace)) none)) := by
  rw [conditional]
  cases head ts with
  | error f => rfl
  | ok h =>
    simp only [List.map_attach_eq_pmap, List.pmap_eq_map, bind, Except.bind]
    generalize blocks h.last h.body = parts
    obtain ⟨_, _, ending⟩ := parts
    cases ending <;> rfl

/-- A conditional is read if its head is, its blocks are complete, and all their slices are read. -/
theorem conditional_eq_ok {ts : List Token} {s : Stmt} :
    conditional ts = .ok s ↔ ∃ h slices slices' consequent alternate,
      head ts = .ok h ∧ blocks h.last h.body = ⟨slices, slices', .complete⟩ ∧
      slices.map statement = consequent.map .ok ∧ slices'.map statement = alternate.map .ok ∧
      s = .conditional ⟨h.test.text, h.test.span⟩ consequent alternate
        (Span.cover h.first.span h.last) := by
  rw [conditional_eq]
  constructor
  · intro e
    obtain ⟨h, hh, e⟩ := bind_eq_ok e
    obtain ⟨consequent, hc, e⟩ := bind_eq_ok e
    obtain ⟨alternate, ha, e⟩ := bind_eq_ok e
    cases hb : blocks h.last h.body with
    | mk slices slices' ending =>
      rw [hb] at hc ha e
      cases ending with
      | complete =>
        cases e
        exact ⟨h, slices, slices', consequent, alternate, hh, hb, inOrder_eq_ok.1 hc,
          inOrder_eq_ok.1 ha, rfl⟩
      | insideStatement pending brace => dsimp only at e; split at e <;> cases e
      | failed f => cases e
  · rintro ⟨h, slices, slices', consequent, alternate, hh, hb, hc, ha, rfl⟩
    simp only [hh, hb, inOrder_eq_ok.2 hc, inOrder_eq_ok.2 ha, bind, Except.bind]

/-! ## Programs -/

/-- A program is read if nothing is left behind its last slice, and all slices are read. -/
theorem program_eq_ok {ts : List Token} {ss : List Stmt} :
    program ts = .ok ⟨ss⟩ ↔
      (cut {} ts).ending = .exhausted [] ∧ (cut {} ts).slices.map statement = ss.map .ok := by
  rw [program]
  constructor
  · intro e
    obtain ⟨statements, hs, e⟩ := bind_eq_ok e
    split at e
    · next he => cases e; exact ⟨he, inOrder_eq_ok.1 hs⟩
    · split at e <;> cases e
    · cases e
  · rintro ⟨he, hs⟩
    simp only [he, inOrder_eq_ok.2 hs, bind, Except.bind]

end Slate.Parser
