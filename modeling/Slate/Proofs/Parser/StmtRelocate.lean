import Slate.Proofs.Parser.ExprRelocate
import Slate.Proofs.Parser.Stmt
import Slate.Parser.Stmt

/-!
# The parser of programs does not see places

What holds of expressions (`expression_relocate`) holds of declarations, of the cut of a body into
statements, and so of programs: a move of the tokens moves the tree or the failure and changes nothing else
(`program_relocate`).
-/

namespace Slate.Parser

variable (f : Span → Span)

/-! ## Declarations -/

/-- A token that was asked for and those behind it, all moved. -/
def relocateRest {α : Type} (g : α → α) (r : α × List Token) : α × List Token :=
  (g r.1, r.2.map (Token.relocate f))

section

variable {f} (hf : Span.Coherent f)
include hf

theorem map_after_relocate (s : Option Span) :
    (s.map f).map Span.after = (s.map Span.after).map f := by
  cases s with
  | none => rfl
  | some s => exact congrArg some (hf.after s).symm

theorem expect_relocate (kind : TokenKind) (setting : Setting) (previous : Option Span)
    (ts : List Token) :
    expect kind setting (previous.map f) (ts.map (Token.relocate f)) =
      Parsed.relocate f (relocateRest f (Token.relocate f)) (expect kind setting previous ts) := by
  cases ts with
  | nil =>
    rw [List.map_nil, expect, expect, map_after_relocate hf]
    rfl
  | cons t ts => exact ite_eq_relocate Iff.rfl rfl rfl

theorem typeName_relocate (colon : Token) (ts : List Token) :
    typeName (colon.relocate f) (ts.map (Token.relocate f)) =
      Parsed.relocate f (relocateRest f id) (typeName colon ts) := by
  cases ts with
  | nil => exact failAt_after_relocate hf _ _
  | cons t ts =>
    rw [List.map_cons, typeName, typeName, Token.kind_relocate]
    cases type? t.kind <;> rfl

theorem initializer_relocate (ts : List Token) :
    initializer (ts.map (Token.relocate f)) =
      Parsed.relocate f (Option.map (Expr.relocate f)) (initializer ts) := by
  cases ts with
  | nil => rfl
  | cons t ts =>
    rw [List.map_cons, initializer, initializer]
    refine ite_eq_relocate Iff.rfl (ite_eq_relocate List.map_eq_nil_iff ?_ ?_) rfl
    · exact failAt_after_relocate hf _ _
    · rw [expression_relocate hf]
      cases expression ts <;> rfl

theorem declarator_relocate (ts : List Token) :
    declarator (ts.map (Token.relocate f)) =
      Parsed.relocate f (Declarator.relocate f) (declarator ts) := by
  refine bind_eq_relocate (expect_relocate hf _ _ none ts) fun id => ?_
  refine bind_eq_relocate (expect_relocate hf _ _ (some id.1.span) id.2) fun colon => ?_
  refine bind_eq_relocate (typeName_relocate hf colon.1 colon.2) fun type => ?_
  refine bind_eq_relocate (initializer_relocate hf type.2) fun init => congrArg Except.ok ?_
  rw [Declarator.relocate, ← coverFrom_relocate hf]
  rfl

theorem declarators_relocate (last : Token) (body : List Token) :
    declarators (last.relocate f) (body.map (Token.relocate f)) =
      Parsed.relocate f (List.map (Declarator.relocate f)) (declarators last body) := by
  rw [declarators, declarators, commaParts_relocate]
  exact inOrder_relocate fun part _ =>
    ite_eq_relocate List.map_eq_nil_iff rfl (declarator_relocate hf part)

theorem declaration_relocate (ts : List Token) :
    declaration (ts.map (Token.relocate f)) =
      Parsed.relocate f (Stmt.relocate f) (declaration ts) := by
  cases ts with
  | nil => rfl
  | cons keyword rest =>
    rw [List.map_cons, declaration, declaration, Token.kind_relocate]
    cases declarationKind? keyword.kind with
    | none => exact mismatch_relocate hf .declaration (keyword :: rest)
    | some kind =>
      dsimp only
      rw [getLastD_relocate, ← List.map_dropLast]
      refine ite_eq_relocate (and_congr (not_congr List.map_eq_nil_iff) Iff.rfl) ?_ ?_
      · exact failAt_after_relocate hf _ _
      · refine ite_eq_relocate List.map_eq_nil_iff ?_ ?_
        · exact failAt_after_relocate hf _ _
        · refine bind_eq_relocate (declarators_relocate hf _ _) fun ds => congrArg Except.ok ?_
          rw [Stmt.relocate, coverFrom_relocate hf]

/-! ## Actions -/

theorem assignment_relocate (ts : List Token) :
    assignment (ts.map (Token.relocate f)) =
      Parsed.relocate f (Expr.relocate f) (assignment ts) := by
  rcases ts with _ | ⟨target, _ | ⟨assign, value⟩⟩
  · rfl
  · exact mismatch_relocate hf .assignment [target]
  · simp only [List.map_cons]
    rw [assignment, assignment]
    refine ite_eq_relocate Iff.rfl (ite_eq_relocate List.map_eq_nil_iff ?_ ?_) ?_
    · exact failAt_after_relocate hf _ _
    · refine bind_eq_relocate (expression_relocate hf value) fun right => congrArg Except.ok ?_
      rw [Expr.relocate, coverFrom_relocate hf]
      rfl
    · exact mismatch_relocate hf .assignment (target :: assign :: value)

theorem action_relocate (ts : List Token) :
    action (ts.map (Token.relocate f)) = Parsed.relocate f (Expr.relocate f) (action ts) := by
  rcases ts with _ | ⟨target, _ | ⟨assign, value⟩⟩
  · exact expression_relocate hf []
  · exact expression_relocate hf [target]
  · simp only [List.map_cons]
    rw [action, action]
    refine ite_eq_relocate Iff.rfl (ite_eq_relocate Iff.rfl ?_ rfl) ?_
    · exact assignment_relocate hf (target :: assign :: value)
    · exact expression_relocate hf (target :: assign :: value)

theorem expressionStatement_relocate (ts : List Token) :
    expressionStatement (ts.map (Token.relocate f)) =
      Parsed.relocate f (Stmt.relocate f) (expressionStatement ts) := by
  cases ts with
  | nil => rfl
  | cons first rest =>
    rw [List.map_cons, expressionStatement, expressionStatement, getLastD_relocate, ← List.map_cons,
      ← List.map_dropLast]
    refine ite_eq_relocate Iff.rfl (mismatch_relocate hf _ _) ?_
    refine ite_eq_relocate Iff.rfl ?_ (ite_eq_relocate List.map_eq_nil_iff rfl ?_)
    · exact failAt_after_relocate hf _ _
    · refine bind_eq_relocate (action_relocate hf _) fun e => congrArg Except.ok ?_
      rw [Stmt.relocate, coverFrom_relocate hf]

end

/-! ## Bodies -/

/-- The tokens of an ending, all moved. -/
def Ending.relocate : Ending → Ending
  | exhausted pending => exhausted (pending.map (Token.relocate f))
  | unclosed pending => unclosed (pending.map (Token.relocate f))
  | closed pending brace rest =>
    closed (pending.map (Token.relocate f)) (brace.relocate f) (rest.map (Token.relocate f))
  | strayBrace pending brace rest =>
    strayBrace (pending.map (Token.relocate f)) (brace.relocate f) (rest.map (Token.relocate f))
  | strayElse pending token rest =>
    strayElse (pending.map (Token.relocate f)) (token.relocate f) (rest.map (Token.relocate f))
  | unfinished pending previous token rest =>
    unfinished (pending.map (Token.relocate f)) (previous.relocate f) (token.relocate f)
      (rest.map (Token.relocate f))

/-- The tokens of a cut, all moved. -/
def Cut.relocate (c : Cut) : Cut :=
  ⟨c.slices.map (List.map (Token.relocate f)), c.ending.relocate f⟩

/-- The tokens that a scanner went over, all moved. -/
def Scanner.relocate (s : Scanner) : Scanner :=
  { s with pending := s.pending.map (Token.relocate f) }

theorem cut_relocate (s : Scanner) (ts : List Token) :
    cut (s.relocate f) (ts.map (Token.relocate f)) = (cut s ts).relocate f := by
  fun_induction cut s ts with
  | case1 s =>
    simp only [Scanner.relocate, cut, Cut.stop, Cut.relocate, List.map_nil]
    split <;> simp [Ending.relocate]
  | _ =>
    simp_all [cut, Scanner.relocate, Scanner.take, Scanner.between, Cut.relocate, Cut.push, Cut.stop,
      Ending.relocate]

/-! ## Blocks -/

/-- How the blocks end, all tokens moved. -/
def BlockEnding.relocate : BlockEnding → BlockEnding
  | complete => complete
  | insideStatement pending brace =>
    insideStatement (pending.map (Token.relocate f)) (brace.relocate f)
  | failed e => failed (e.relocate f)

/-- The tokens of blocks, all moved. -/
def Blocks.relocate (b : Blocks) : Blocks :=
  ⟨b.consequent.map (List.map (Token.relocate f)), b.alternate.map (List.map (Token.relocate f)),
    b.ending.relocate f⟩

theorem stray_relocate (other : Lexeme → Fault) (t : Token) :
    stray other (t.relocate f) = (stray other t).relocate f := by
  unfold stray
  rw [Token.kind_relocate]
  split <;> rfl

section

variable {f} (hf : Span.Coherent f)
include hf

theorem Ending.failure_relocate (last : Option Span) (setting : Option Setting) (e : Ending) :
    (e.relocate f).failure (last.map f) setting = (e.failure last setting).relocate f := by
  cases e with
  | exhausted | unclosed =>
    simp only [failure, relocate, map_after_relocate hf]
    rfl
  | closed | strayBrace | strayElse => rfl
  | unfinished pending previous token rest =>
    simp only [failure, relocate, Failure.relocate, Token.span_relocate, Option.map_some, hf.after]
    rfl

theorem BlockEnding.ofLast_relocate (last : Span) (e : Ending) :
    ofLast (f last) (e.relocate f) = (ofLast last e).relocate f := by
  have failing (e : Ending) : failed ((e.relocate f).failure (some (f last)) (some .insideBlock)) =
      (failed (e.failure (some last) (some .insideBlock))).relocate f :=
    congrArg failed (e.failure_relocate hf (some last) _)
  rcases e with p | p | ⟨_ | ⟨p, ps⟩, brace, _ | ⟨t, rest⟩⟩ | _ | _ | _
  case closed.nil.cons => exact congrArg failed (stray_relocate f _ t)
  case closed.nil.nil | closed.cons.nil | closed.cons.cons => rfl
  all_goals exact failing _

theorem alternateBlock_relocate (last : Span) (ts : List Token) :
    alternateBlock (f last) (ts.map (Token.relocate f)) =
      ((alternateBlock last ts).1.map (List.map (Token.relocate f)),
        (alternateBlock last ts).2.relocate f) := by
  cases ts with
  | nil =>
    simp only [alternateBlock, List.map_nil, BlockEnding.relocate, Failure.relocate, Option.map_some,
      hf.after]
  | cons t ts =>
    have same : cut {} (ts.map (Token.relocate f)) = (cut {} ts).relocate f := cut_relocate f {} ts
    rw [List.map_cons, alternateBlock, alternateBlock, Token.kind_relocate, same, stray_relocate]
    split
    · exact Prod.ext rfl (BlockEnding.ofLast_relocate hf last _)
    · rfl

theorem blocks_relocate (last : Span) (body : List Token) :
    blocks (f last) (body.map (Token.relocate f)) = (blocks last body).relocate f := by
  have same : cut {} (body.map (Token.relocate f)) = (cut {} body).relocate f :=
    cut_relocate f {} body
  -- no `else` follows the first block
  have one (slices : List (List Token)) (e : Ending) :
      Blocks.mk (slices.map (List.map (Token.relocate f))) [] (.ofLast (f last) (e.relocate f)) =
        (Blocks.mk slices [] (.ofLast last e)).relocate f :=
    congrArg (Blocks.mk _ []) (BlockEnding.ofLast_relocate hf last e)
  unfold blocks
  rw [same]
  obtain ⟨slices, ending⟩ := cut {} body
  cases ending with
  | exhausted p => exact one slices (.exhausted p)
  | unclosed p => exact one slices (.unclosed p)
  | strayBrace p t rest => exact one slices (.strayBrace p t rest)
  | strayElse p t rest => exact one slices (.strayElse p t rest)
  | unfinished p previous t rest => exact one slices (.unfinished p previous t rest)
  | closed pending brace rest =>
    rcases pending with _ | ⟨p, ps⟩ <;> rcases rest with _ | ⟨t, rest⟩
    case cons.nil => exact one slices (.closed (p :: ps) brace [])
    case cons.cons => exact one slices (.closed (p :: ps) brace (t :: rest))
    case nil.nil => exact one slices (.closed [] brace [])
    case nil.cons =>
      show (if t.kind = .elseKeyword then _ else _) =
        Blocks.relocate f (if t.kind = .elseKeyword then _ else _)
      rw [alternateBlock_relocate hf]
      split
      · rfl
      · exact one slices (.closed [] brace (t :: rest))

end

/-! ## Conditionals -/

/-- The tokens of a head, all moved. -/
def Head.relocate (h : Head) : Head :=
  ⟨h.first.relocate f, h.test.relocate f, h.body.map (Token.relocate f)⟩

theorem Head.last_relocate (h : Head) : (h.relocate f).last = f h.last :=
  congrArg Token.span (getLastD_relocate f h.first h.body)

/-- To read the statements of moved tokens is to move what is read from the tokens. -/
def StatementRelocates (ts : List Token) : Prop :=
  statement (ts.map (Token.relocate f)) = Parsed.relocate f (Stmt.relocate f) (statement ts)

theorem answerOf_relocate {α β : Type} {g : α → β} (otherwise : Failure) (answers : List (Parsed α)) :
    answerOf (otherwise.relocate f) (answers.map (Parsed.relocate f g)) =
      Parsed.relocate f g (answerOf otherwise answers) := by
  have result : (answers.map (Parsed.relocate f g)).findSome? Except.toOption =
      (answers.findSome? Except.toOption).map g := by
    induction answers with
    | nil => rfl
    | cons a answers ih =>
      cases a with
      | ok a => rfl
      | error e => exact ih
  rw [answerOf, answerOf, result]
  cases answers.findSome? Except.toOption with
  | some a => rfl
  | none =>
    refine congrArg Except.error ?_
    clear result
    induction answers with
    | nil => rfl
    | cons a answers ih =>
      cases a with
      | ok a => exact ih
      | error e =>
        have same : (e.relocate f).kind = e.kind := rfl
        by_cases hk : e.kind = .malformed
        · simp [Parsed.relocate, same, hk]
        · simpa [Parsed.relocate, same, hk] using ih

section

variable {f} (hf : Span.Coherent f)
include hf

theorem head_relocate (ts : List Token) :
    head (ts.map (Token.relocate f)) = Parsed.relocate f (Head.relocate f) (head ts) := by
  cases ts with
  | nil => rfl
  | cons first rest =>
    rw [List.map_cons, head, head]
    refine ite_eq_relocate Iff.rfl ?_ (mismatch_relocate hf .conditional (first :: rest))
    refine bind_eq_relocate (expect_relocate hf _ _ (some first.span) rest) fun opening => ?_
    refine bind_eq_relocate (expect_relocate hf _ _ (some opening.1.span) opening.2) fun test => ?_
    refine bind_eq_relocate (expect_relocate hf _ _ (some test.1.span) test.2) fun closing => ?_
    refine bind_eq_relocate (expect_relocate hf _ _ (some closing.1.span) closing.2) fun brace => ?_
    exact ite_eq_relocate List.map_eq_nil_iff rfl rfl

/-- A conditional is read from moved tokens as from the tokens themselves, if the statements in it are. -/
theorem conditional_relocate {ts : List Token}
    (below : ∀ us : List Token, us.length < ts.length → StatementRelocates f us) :
    conditional (ts.map (Token.relocate f)) =
      Parsed.relocate f (Stmt.relocate f) (conditional ts) := by
  rw [conditional_eq, conditional_eq]
  refine bind_eq_relocate_of_ok (head_relocate hf ts) fun h hh => ?_
  have shorter := length_lt_of_head_eq_ok hh
  have parts : blocks (h.relocate f).last (h.relocate f).body = (blocks h.last h.body).relocate f := by
    rw [Head.last_relocate]
    exact blocks_relocate hf _ _
  dsimp only
  rw [parts]
  refine bind_eq_relocate (inOrder_relocate fun slice hs => below slice ?_) fun consequent => ?_
  · exact Nat.lt_of_le_of_lt (length_le_of_mem_consequent hs) shorter
  refine bind_eq_relocate (inOrder_relocate fun slice hs => below slice ?_) fun alternate => ?_
  · exact Nat.lt_of_le_of_lt (length_le_of_mem_alternate hs) shorter
  dsimp only [Blocks.relocate]
  cases he : (blocks h.last h.body).ending with
  | complete =>
    refine congrArg Except.ok ?_
    rw [Stmt.relocate, relocateStmts_eq_map, relocateStmts_eq_map, hf.cover, Head.last_relocate]
    rfl
  | failed e => rfl
  | insideStatement pending brace =>
    have inner : StatementRelocates f pending :=
      below pending (Nat.lt_of_le_of_lt (length_le_of_blocks_eq he) shorter)
    dsimp only [BlockEnding.relocate]
    rw [inner, getLastD_relocate]
    cases statement pending with
    | error e => rfl
    | ok s => exact failAt_after_relocate hf _ _

/-- To read a statement from moved tokens is to move what is read from the tokens themselves. -/
theorem statement_relocate (ts : List Token) :
    statement (ts.map (Token.relocate f)) =
      Parsed.relocate f (Stmt.relocate f) (statement ts) := by
  induction hn : ts.length using Nat.strongRecOn generalizing ts with
  | ind n ih =>
    have below : ∀ us : List Token, us.length < ts.length → StatementRelocates f us :=
      fun us hus => ih us.length (hn ▸ hus) us rfl
    have place : (ts.map (Token.relocate f)).head?.map (·.span) =
        (ts.head?.map (·.span)).map f := by
      cases ts <;> rfl
    rw [statement, statement, declaration_relocate hf, expressionStatement_relocate hf,
      conditional_relocate hf below, place]
    exact answerOf_relocate f ⟨.unrecognised, ts.head?.map (·.span)⟩
      [declaration ts, expressionStatement ts, conditional ts]

/-- To read a program from moved tokens is to move what is read from the tokens themselves. -/
theorem program_relocate (ts : List Token) :
    program (ts.map (Token.relocate f)) = Parsed.relocate f (Program.relocate f) (program ts) := by
  have same : cut {} (ts.map (Token.relocate f)) = (cut {} ts).relocate f := cut_relocate f {} ts
  rw [program, program, same]
  refine bind_eq_relocate (inOrder_relocate fun slice _ => statement_relocate hf slice)
    fun statements => ?_
  have last : (ts.map (Token.relocate f)).getLast?.map (·.span) =
      (ts.getLast?.map (·.span)).map f := by
    rw [List.getLast?_map]
    cases ts.getLast? <;> rfl
  have failing (e : Ending) : (e.relocate f).failure ((ts.map (Token.relocate f)).getLast?.map (·.span))
      none = (e.failure (ts.getLast?.map (·.span)) none).relocate f := by
    rw [last, e.failure_relocate hf]
  dsimp only [Cut.relocate]
  cases (cut {} ts).ending with
  | exhausted pending =>
    cases pending with
    | nil =>
      refine congrArg Except.ok ?_
      rw [Program.relocate, relocateStmts_eq_map]
    | cons p ps =>
      simp only [Ending.relocate, List.map_cons]
      rw [← List.map_cons, statement_relocate hf, getLastD_relocate]
      cases statement (p :: ps) with
      | error e => rfl
      | ok s => exact failAt_after_relocate hf _ _
  | unclosed p => exact congrArg Except.error (failing (.unclosed p))
  | closed p brace rest => exact congrArg Except.error (failing (.closed p brace rest))
  | strayBrace p brace rest => exact congrArg Except.error (failing (.strayBrace p brace rest))
  | strayElse p token rest => exact congrArg Except.error (failing (.strayElse p token rest))
  | unfinished p previous token rest =>
    exact congrArg Except.error (failing (.unfinished p previous token rest))

end

end Slate.Parser
