import Slate.Proofs.Parser.Places

/-!
# The construct that answers

A statement is tried as three constructs, and the first token says which of them it is meant to be: a declaration
starts with `let` or `const`, a conditional with `if`, and an expression statement with neither. So only one of them
can answer, and none waits for another one to fail.

* `isMismatch_declaration`, `isMismatch_expressionStatement`, `isMismatch_conditional` — who has the tokens;
* `answerOf_perm` — where at most one answers, the order does not matter;
* `one_construct_answers` — so a statement is what that one says, and a mismatch never gets out.
-/

namespace Slate.Parser

/-- Whether the tokens are not the construct at all. -/
def isMismatch {α : Type} : Parsed α → Bool
  | .ok _ => false
  | .error f => f.kind = .mismatch

/-- What a statement is tried as. -/
def statementReaders : List (List Token → Parsed Stmt) := [declaration, expressionStatement, conditional]

/-! ## Who has the tokens -/

section

variable {α : Type} {all : List Token}

theorem MalformedIn.isMismatch_eq {r : Parsed α} (h : MalformedIn all r) : isMismatch r = false := by
  cases r with
  | ok a => rfl
  | error f => rw [isMismatch, (h f rfl).1]; rfl

end

theorem isMismatch_declaration (t : Token) (ts : List Token) :
    isMismatch (declaration (t :: ts)) = (declarationKind? t.kind).isNone := by
  cases hk : declarationKind? t.kind with
  | none => rw [declaration, hk]; rfl
  | some kind => exact (declaration_malformedIn hk (List.Subset.refl _)).isMismatch_eq

theorem isMismatch_expressionStatement (t : Token) (ts : List Token) :
    isMismatch (expressionStatement (t :: ts)) = startsOther t.kind := by
  cases hk : startsOther t.kind with
  | true => rw [expressionStatement, if_pos hk]; rfl
  | false => exact (expressionStatement_malformedIn hk (List.Subset.refl _)).isMismatch_eq

theorem isMismatch_conditional (t : Token) (ts : List Token) :
    isMismatch (conditional (t :: ts)) = !decide (t.kind = .ifKeyword) := by
  by_cases hk : t.kind = .ifKeyword
  · rw [decide_eq_true hk]
    exact (conditional_malformedIn hk (List.Subset.refl _) fun us _ => statement_malformedIn us).isMismatch_eq
  · rw [decide_eq_false hk, conditional_eq, head, if_neg hk]
    rfl

/-- Of the three, one. -/
theorem countP_statementReaders (t : Token) (ts : List Token) :
    statementReaders.countP (fun read => !isMismatch (read (t :: ts))) = 1 := by
  simp only [statementReaders, List.countP_cons, List.countP_nil, isMismatch_declaration,
    isMismatch_expressionStatement, isMismatch_conditional]
  cases t.kind <;> rfl

theorem countP_statementReaders_le (ts : List Token) :
    statementReaders.countP (fun read => !isMismatch (read ts)) ≤ 1 := by
  cases ts with
  | nil =>
    have third : isMismatch (conditional []) = true := by rw [conditional_eq]; rfl
    rw [statementReaders, List.countP_cons, List.countP_cons, List.countP_cons, third]
    exact Nat.zero_le 1
  | cons t ts => exact Nat.le_of_eq (countP_statementReaders t ts)

/-! ## The order of the constructs -/

section

variable {α : Type} {otherwise : Failure} {answers others : List (Parsed α)}

/-- An item without an answer may be left out. -/
theorem findSome?_filter {β γ : Type} {p : β → Bool} {f : β → Option γ} (h : ∀ b, p b = false → f b = none)
    (l : List β) : (l.filter p).findSome? f = l.findSome? f := by
  induction l with
  | nil => rfl
  | cons b l ih =>
    cases hb : p b with
    | true => rw [List.filter_cons_of_pos hb, List.findSome?_cons, List.findSome?_cons, ih]
    | false => rw [List.filter_cons_of_neg (by simp [hb]), List.findSome?_cons, h b hb, ih]

/-- A mismatch has no say. -/
theorem answerOf_filter (otherwise : Failure) (answers : List (Parsed α)) :
    answerOf otherwise (answers.filter (!isMismatch ·)) = answerOf otherwise answers := by
  have silent {r : Parsed α} (h : (!isMismatch r) = false) : ∃ f, r = .error f ∧ f.kind = .mismatch := by
    cases r with
    | ok a => cases h
    | error f => exact ⟨f, rfl, by simpa [isMismatch] using h⟩
  rw [answerOf, answerOf, findSome?_filter, findSome?_filter]
  · intro r h
    obtain ⟨f, rfl, hk⟩ := silent h
    dsimp only
    rw [hk]
    rfl
  · intro r h
    obtain ⟨f, rfl, -⟩ := silent h
    rfl

theorem answerOf_singleton {r : Parsed α} (h : isMismatch r = false) : answerOf otherwise [r] = r := by
  cases r with
  | ok a => rfl
  | error f =>
    have malformed : f.kind = .malformed := by
      cases hk : f.kind with
      | mismatch => rw [isMismatch, hk] at h; cases h
      | malformed => rfl
    simp [answerOf, Except.toOption, malformed]

/-- Where at most one answers, they may be asked in any order. -/
theorem answerOf_perm (perm : others.Perm answers) (one : answers.countP (!isMismatch ·) ≤ 1) :
    answerOf otherwise others = answerOf otherwise answers := by
  have kept := perm.filter (!isMismatch ·)
  rw [List.countP_eq_length_filter] at one
  rw [← answerOf_filter, ← answerOf_filter otherwise answers]
  rcases h : answers.filter (!isMismatch ·) with _ | ⟨r, _ | ⟨r', rs⟩⟩
  · rw [h] at kept
    rw [List.perm_nil.1 kept]
  · rw [h] at kept
    rw [List.perm_singleton.1 kept]
  · rw [h] at one
    simp at one

/-- Where only one answers, it is that one's answer. -/
theorem answerOf_eq {r : Parsed α} (mem : r ∈ answers) (own : isMismatch r = false)
    (one : answers.countP (!isMismatch ·) ≤ 1) : answerOf otherwise answers = r := by
  have kept : r ∈ answers.filter (!isMismatch ·) := List.mem_filter.2 ⟨mem, by rw [own]; rfl⟩
  rw [List.countP_eq_length_filter] at one
  rw [← answerOf_filter]
  rcases h : answers.filter (!isMismatch ·) with _ | ⟨s, _ | ⟨s', rs⟩⟩
  · rw [h] at kept
    cases kept
  · rw [h, List.mem_singleton] at kept
    rw [← kept, answerOf_singleton own]
  · rw [h] at one
    simp at one

end

theorem malformed_of_expression {ts : List Token} {f : Failure} (h : expression ts = .error f) :
    f.kind = .malformed := by
  cases ts with
  | nil =>
    rw [expression] at h
    cases h
    rfl
  | cons t ts => exact (expression_malformedIn _ (List.cons_ne_nil t ts) (List.Subset.refl _) f h).1

/-- Of any tokens exactly one of the three constructs does not say that they are another one, and a statement is
what that one says, in whatever order they are asked. Nothing else ends with a mismatch: no expression, no
statement and no program. -/
theorem one_construct_answers (ts : List Token) :
    (ts ≠ [] → statementReaders.countP (fun read => !isMismatch (read ts)) = 1) ∧
    (∀ read ∈ statementReaders, isMismatch (read ts) = false → statement ts = read ts) ∧
    (∀ order : List (List Token → Parsed Stmt), order.Perm statementReaders →
      answerOf ⟨.unrecognised, ts.head?.map (·.span)⟩ (order.map fun read => read ts) = statement ts) ∧
    (∀ f, expression ts = .error f → f.kind = .malformed) ∧
    (∀ f, statement ts = .error f → f.kind = .malformed) ∧
    (∀ f, program ts = .error f → f.kind = .malformed) := by
  have answers : statement ts = answerOf ⟨.unrecognised, ts.head?.map (·.span)⟩
      (statementReaders.map fun read => read ts) := by rw [statement]; rfl
  have one : (statementReaders.map fun read => read ts).countP (!isMismatch ·) ≤ 1 := by
    rw [List.countP_map]
    exact countP_statementReaders_le ts
  refine ⟨fun ne => ?_, fun read mem own => ?_, fun order perm => ?_, fun f => malformed_of_expression,
    fun f => malformed_of_statement, fun f h => (malformed_of_program h).1⟩
  · obtain ⟨t, rest, rfl⟩ := List.exists_cons_of_ne_nil ne
    exact countP_statementReaders t rest
  · rw [answers]
    exact answerOf_eq (List.mem_map.2 ⟨read, mem, rfl⟩) own one
  · rw [answers]
    exact answerOf_perm (perm.map _) one

/-- The word `if`, and nothing behind it. -/
def bareIf : Token := ⟨⟨.ifKeyword, "if"⟩, ⟨1, 1, 3⟩⟩

theorem one_construct_answers_bareIf :
    let missing : Failure := ⟨.expected (.token .openParen) (some (.after .ifKeyword)) none, some ⟨1, 3, 3⟩⟩
    [bareIf] ≠ [] ∧ statementReaders.countP (fun read => !isMismatch (read [bareIf])) = 1 ∧
      isMismatch (conditional [bareIf]) = false ∧ statement [bareIf] = .error missing ∧
      answerOf ⟨.unrecognised, some bareIf.span⟩
        ([conditional, declaration, expressionStatement].map fun read => read [bareIf]) = .error missing ∧
      missing.kind = .malformed ∧
      ∃ f, expression [bareIf] = .error f ∧ f.kind = .malformed := by
  obtain ⟨one, own, order, ofExpression, ofStatement, -⟩ := one_construct_answers [bareIf]
  have conditional_ : conditional [bareIf] =
      .error ⟨.expected (.token .openParen) (some (.after .ifKeyword)) none, some ⟨1, 3, 3⟩⟩ := by
    rw [conditional_eq]
    rfl
  have answers : isMismatch (conditional [bareIf]) = false := by rw [conditional_]; rfl
  have statement_ := (own conditional (by simp [statementReaders]) answers).trans conditional_
  have expression_ : expression [bareIf] =
      .error ⟨.unexpected bareIf.toLexeme (some .inExpression), some bareIf.span⟩ := by
    rw [Grammar.expression_singleton (by rfl)]
    rfl
  refine ⟨by simp, one (by simp), answers, statement_, ?_, ofStatement _ statement_, _, expression_,
    ofExpression _ expression_⟩
  refine (order [conditional, declaration, expressionStatement] ?_).trans statement_
  show ([conditional] ++ [declaration, expressionStatement]).Perm ([declaration, expressionStatement] ++ [conditional])
  exact List.perm_append_comm

end Slate.Parser
