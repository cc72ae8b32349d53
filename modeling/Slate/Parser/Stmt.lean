import Slate.Parser.Body
import Slate.Parser.Declaration

/-!
# Statements and programs

    program     ::= {statement}
    statement   ::= declaration | action ; | conditional
    conditional ::= if ( name ) block [else block]
    block       ::= OPEN {statement} CLOSE          -- in braces

A statement is tried as a declaration, as an expression statement and as a conditional. At most one
of them has the tokens as its construct, and its answer counts (`answerOf`).

A conditional cuts the bodies of its blocks, and the program cuts its whole text
(`Slate.Parser.Body`). The slices are read in order, and only when all of them are statements does
the ending count. So of two errors the one further left wins.

    tokens ──cut──▶ slices, ending ──statement──▶ Stmt

* `statement`, `program` read a statement and a program;
* `blocks` cuts the blocks of a conditional; its slices are shorter than the conditional
  (`length_le_of_mem_consequent`, `length_le_of_mem_alternate`), so reading them comes to an end.
-/

namespace Slate.Parser

/-! ### The blocks of a conditional -/

/-- What is wrong with a body that does not end as it should. `last` is the last token of the text,
and `setting` says where a stray brace stands. -/
def Ending.failure (last : Option Span) (setting : Option Setting) : Ending → Failure
  | exhausted _ | unclosed _ => ⟨.neverClosed, last.map Span.after⟩
  | closed _ brace _ => ⟨.unmatched .closeBrace, some brace.span⟩
  | strayBrace _ brace _ => ⟨.unexpected brace.toLexeme setting, some brace.span⟩
  | strayElse _ token _ => ⟨.unexpected token.toLexeme none, some token.span⟩
  | unfinished _ previous token _ =>
    ⟨.expected (.token .semicolon) (some (.before token.kind)) none, some previous.span.after⟩

/-- How the blocks of a conditional end. -/
inductive BlockEnding where
  | complete
  /-- A block is closed in the middle of a statement. -/
  | insideStatement (pending : List Token) (brace : Token)
  | failed (f : Failure)

/-- The blocks of a conditional, not read yet. -/
structure Blocks where
  consequent : List (List Token)
  alternate : List (List Token)
  ending : BlockEnding

/-- The failure at a token that stands outside the blocks. Most tokens have the fault `other`. -/
def stray (other : Lexeme → Fault) (t : Token) : Failure :=
  match t.kind with
  | .openBrace | .ifKeyword | .elseKeyword => ⟨.unexpected t.toLexeme none, some t.span⟩
  | .closeBrace => ⟨.unmatched .closeBrace, some t.span⟩
  | _ => ⟨other t.toLexeme, some t.span⟩

/-- The failure at a token behind the last block. -/
def behindBlocks (t : Token) : Failure :=
  stray (fun x => .unexpected x (some .afterConditional)) t

/-- How the last block of a conditional ends. -/
def BlockEnding.ofLast (last : Span) : Ending → BlockEnding
  | .closed [] _ [] => complete
  | .closed [] _ (t :: _) => failed (behindBlocks t)
  | .closed (p :: ps) brace _ => insideStatement (p :: ps) brace
  | ending => failed (ending.failure (some last) (some .insideBlock))

/-- Cuts what follows the `else`: the slices of its block, and how that ends. -/
def alternateBlock (last : Span) : List Token → List (List Token) × BlockEnding
  | [] =>
    ([], .failed ⟨.expected (.token .openBrace) (some (.after .elseKeyword)) none,
      some last.after⟩)
  | t :: ts =>
    if t.kind = .openBrace then ((cut {} ts).slices, .ofLast last (cut {} ts).ending)
    else
      ([], .failed (stray
        (fun x => .expected (.token .openBrace) (some (.after .elseKeyword)) (some x)) t))

/-- Cuts the blocks of a conditional, from behind the brace that opens the first one. `last` is the
last token of the conditional. -/
def blocks (last : Span) (body : List Token) : Blocks :=
  let first := cut {} body
  match first.ending with
  | .closed [] brace (t :: rest) =>
    if t.kind = .elseKeyword then
      let second := alternateBlock last rest
      ⟨first.slices, second.1, second.2⟩
    else ⟨first.slices, [], .ofLast last (.closed [] brace (t :: rest))⟩
  | ending => ⟨first.slices, [], .ofLast last ending⟩

/-! ### Slices are shorter than the conditional -/

theorem length_le_of_ofLast_eq {last : Span} {e : Ending} {pending : List Token} {brace : Token}
    (h : BlockEnding.ofLast last e = .insideStatement pending brace) :
    pending.length ≤ e.tokens.length := by
  unfold BlockEnding.ofLast at h
  split at h <;> cases h
  simp [Ending.tokens]

theorem length_ending_cut_le (body : List Token) :
    (cut {} body).ending.tokens.length ≤ body.length := by
  have := congrArg List.length (tokens_cut {} body)
  simp only [Cut.tokens, List.length_append, List.reverse_nil, List.nil_append] at this
  omega

theorem length_le_of_mem_alternateBlock {last : Span} {body slice : List Token}
    (h : slice ∈ (alternateBlock last body).1) : slice.length ≤ body.length := by
  unfold alternateBlock at h
  split at h
  · cases h
  · split at h
    · have := length_le_of_mem_cut h
      simp only [List.length_nil, List.length_cons] at this ⊢
      omega
    · cases h

theorem length_le_of_alternateBlock_eq {last : Span} {body pending : List Token} {brace : Token}
    (h : (alternateBlock last body).2 = .insideStatement pending brace) :
    pending.length ≤ body.length := by
  unfold alternateBlock at h
  split at h
  · cases h
  · next t ts =>
    split at h
    · have := length_le_of_ofLast_eq h
      have := length_ending_cut_le ts
      simp only [List.length_cons]
      omega
    · cases h

/-- The tokens behind an `else` are fewer than those of the blocks. -/
theorem length_le_of_ending_eq {body pending rest : List Token} {brace t : Token}
    (h : (cut {} body).ending = .closed pending brace (t :: rest)) :
    rest.length ≤ body.length := by
  have := length_ending_cut_le body
  rw [h] at this
  simp only [Ending.tokens, List.length_append, List.length_cons] at this
  omega

theorem length_le_of_mem_consequent {last : Span} {body slice : List Token}
    (h : slice ∈ (blocks last body).consequent) : slice.length ≤ body.length := by
  have cases : (blocks last body).consequent = (cut {} body).slices := by
    unfold blocks
    dsimp only
    split
    · split <;> rfl
    · rfl
  rw [cases] at h
  simpa using length_le_of_mem_cut h

theorem length_le_of_mem_alternate {last : Span} {body slice : List Token}
    (h : slice ∈ (blocks last body).alternate) : slice.length ≤ body.length := by
  unfold blocks at h
  dsimp only at h
  split at h
  · next he =>
    split at h
    · exact Nat.le_trans (length_le_of_mem_alternateBlock h) (length_le_of_ending_eq he)
    · cases h
  · cases h

theorem length_le_of_blocks_eq {last : Span} {body pending : List Token} {brace : Token}
    (h : (blocks last body).ending = .insideStatement pending brace) :
    pending.length ≤ body.length := by
  unfold blocks at h
  dsimp only at h
  split at h
  · next he =>
    split at h
    · exact Nat.le_trans (length_le_of_alternateBlock_eq h) (length_le_of_ending_eq he)
    · dsimp only at h
      rw [← he] at h
      exact Nat.le_trans (length_le_of_ofLast_eq h) (length_ending_cut_le body)
  · exact Nat.le_trans (length_le_of_ofLast_eq h) (length_ending_cut_le body)

/-! ### The head of a conditional -/

/-- A conditional up to the brace that opens its first block, and the tokens behind that. -/
structure Head where
  first : Token
  test : Token
  body : List Token

/-- The place of the last token. -/
def Head.last (h : Head) : Span := (h.body.getLastD h.first).span

/-- Reads the head of a conditional. -/
def head : List Token → Parsed Head
  | [] => .error ⟨.nothingFor .conditional, none⟩
  | first :: rest =>
    if first.kind = .ifKeyword then do
      let (opening, rest) ← expect .openParen (.after .ifKeyword) (some first.span) rest
      let (test, rest) ← expect .identifier (.after .openParen) (some opening.span) rest
      let (closing, rest) ← expect .closeParen .afterCondition (some test.span) rest
      let (brace, body) ← expect .openBrace (.after .closeParen) (some closing.span) rest
      if body = [] then failAt brace.span .unclosedBlock else .ok ⟨first, test, body⟩
    else mismatch .conditional (first :: rest)

theorem length_lt_of_head_eq_ok {ts : List Token} {h : Head} (e : head ts = .ok h) :
    h.body.length < ts.length := by
  unfold head at e
  split at e
  · cases e
  · next first rest =>
    split at e
    · obtain ⟨⟨a, r₁⟩, h₁, e⟩ := bind_eq_ok e
      obtain ⟨⟨b, r₂⟩, h₂, e⟩ := bind_eq_ok e
      obtain ⟨⟨c, r₃⟩, h₃, e⟩ := bind_eq_ok e
      obtain ⟨⟨d, r₄⟩, h₄, e⟩ := bind_eq_ok e
      rw [(expect_eq_ok.1 h₁).1, (expect_eq_ok.1 h₂).1, (expect_eq_ok.1 h₃).1,
        (expect_eq_ok.1 h₄).1]
      dsimp only at e
      split at e <;> cases e
      simp only [List.length_cons]
      omega
    · cases e

/-! ### Statements -/

/-- The answer of the construct that has the tokens: a result, else a failure that is no mismatch,
else the failure given. -/
def answerOf {α : Type} (otherwise : Failure) (answers : List (Parsed α)) : Parsed α :=
  match answers.findSome? Except.toOption with
  | some a => .ok a
  | none =>
    let own := answers.findSome? fun
      | .error f => if f.kind = .malformed then some f else none
      | .ok _ => none
    .error (own.getD otherwise)

mutual

/-- Reads a statement. -/
def statement (ts : List Token) : Parsed Stmt :=
  answerOf ⟨.unrecognised, ts.head?.map (·.span)⟩
    [declaration ts, expressionStatement ts, conditional ts]
termination_by (ts.length, 1)
decreasing_by simp [Prod.lex_def]

/-- Reads a conditional. -/
def conditional (ts : List Token) : Parsed Stmt :=
  match _head : head ts with
  | .error f => .error f
  | .ok h => do
    let parts := blocks h.last h.body
    let consequent ← inOrder (parts.consequent.attach.map fun ⟨slice, _⟩ => statement slice)
    let alternate ← inOrder (parts.alternate.attach.map fun ⟨slice, _⟩ => statement slice)
    match _ending : parts.ending with
    | .complete =>
      .ok (.conditional ⟨h.test.text, h.test.span⟩ consequent alternate
        (Span.cover h.first.span h.last))
    | .failed f => .error f
    | .insideStatement pending brace =>
      match statement pending with
      | .error f => .error f
      | .ok _ =>
        failAt (pending.getLastD brace).span.after
          (.expected (.token .semicolon) (some (.before .closeBrace)) none)
termination_by (ts.length, 0)
decreasing_by
  all_goals
    have shorter := length_lt_of_head_eq_ok _head
    simp only [Prod.lex_def]
    left
  · have := length_le_of_mem_consequent ‹_ ∈ _›
    omega
  · have := length_le_of_mem_alternate ‹_ ∈ _›
    omega
  · have := length_le_of_blocks_eq _ending
    omega

end

/-- Reads a program. -/
def program (ts : List Token) : Parsed Program := do
  let body := cut {} ts
  let statements ← inOrder (body.slices.map statement)
  match body.ending with
  | .exhausted [] => .ok ⟨statements⟩
  | .exhausted (p :: ps) =>
    match statement (p :: ps) with
    | .error f => .error f
    | .ok _ =>
      failAt (ps.getLastD p).span.after
        (.expected (.token .semicolon) (some .atEndOfStatement) none)
  | ending => .error (ending.failure (ts.getLast?.map (·.span)) none)

end Slate.Parser
