import Slate.Proofs.Format.Parser
import Slate.Proofs.Text.Split

/-!
# How a formatted program is laid out

Each line of a formatted program holds one declaration, one expression with its semicolon, or one of the brace
lines of a conditional, and stands as deep as the blocks around it. `Program.rows` says what the lines hold and
how deep they are, without a word on any text:

    Program ──Program.rows──▶ rows ──Fills──▶ lines ◀──split── text

* `Nests` — the depth of a row is the number of blocks that are open there;
* `IsInline`, `Expr.Writable.isInline` — what is written for a statement starts with no space and goes over no
  line feed, whatever its strings hold;
* `format_lines` — the lines of the text are those of the rows, with empty lines in front of those that print.
-/

namespace Slate

open Slate.Text Slate.Parser Slate.Grammar

/-! ## Rows -/

/-- What a line of a program holds. -/
inductive RowContent where
  /-- A declaration, or an expression with its semicolon. -/
  | statement (s : Stmt)
  | opening (test : String)
  | otherwise
  | closing

/-- A line of a program: how many blocks are around it, and what it holds. -/
structure Row where
  depth : Nat
  content : RowContent

mutual

/-- The rows of a statement inside `depth` blocks. The brace lines of a conditional stand outside its blocks. -/
def Stmt.rows (depth : Nat) : Stmt → List Row
  | .declaration kind ds s => [⟨depth, .statement (.declaration kind ds s)⟩]
  | .expression e s => [⟨depth, .statement (.expression e s)⟩]
  | .conditional test consequent alternate _ =>
    ⟨depth, .opening test.name⟩ :: rowsAll (depth + 1) consequent ++
      (if alternate.isEmpty then [] else ⟨depth, .otherwise⟩ :: rowsAll (depth + 1) alternate) ++
      [⟨depth, .closing⟩]

def rowsAll (depth : Nat) : List Stmt → List Row
  | [] => []
  | s :: ss => s.rows depth ++ rowsAll depth ss

end

def Program.rows (p : Program) : List Row := rowsAll 0 p.statements

namespace RowContent

/-- How many blocks end where the line starts. -/
def closes : RowContent → Nat
  | otherwise | closing => 1
  | statement _ | opening _ => 0

/-- How many blocks start where the line ends. -/
def opens : RowContent → Nat
  | opening _ | otherwise => 1
  | statement _ | closing => 0

end RowContent

/-- In front of the rows `d` blocks are open, behind them `d'`, and the depth of each row is the number of blocks
that are open around it. -/
inductive Nests : Nat → List Row → Nat → Prop
  | nil {d : Nat} : Nests d [] d
  | cons {d d' : Nat} {row : Row} {rows : List Row} (hd : row.depth + row.content.closes = d)
      (h : Nests (row.depth + row.content.opens) rows d') : Nests d (row :: rows) d'

theorem Nests.append {d e f : Nat} {xs ys : List Row} (h : Nests d xs e) (h' : Nests e ys f) :
    Nests d (xs ++ ys) f := by
  induction h with
  | nil => exact h'
  | cons hd _ ih => exact .cons hd (ih h')

theorem Nests.single (depth : Nat) (s : Stmt) : Nests depth [⟨depth, .statement s⟩] depth :=
  .cons rfl .nil

mutual

theorem Stmt.nests_rows (depth : Nat) : ∀ s : Stmt, Nests depth (s.rows depth) depth
  | .declaration kind ds s => by
    rw [Stmt.rows]
    exact .single depth _
  | .expression e s => by
    rw [Stmt.rows]
    exact .single depth _
  | .conditional test consequent alternate s => by
    have first : Nests depth (⟨depth, .opening test.name⟩ :: rowsAll (depth + 1) consequent) (depth + 1) :=
      .cons rfl (nests_rowsAll (depth + 1) consequent)
    have last : Nests (depth + 1) [⟨depth, .closing⟩] depth := .cons rfl .nil
    rw [Stmt.rows]
    refine (first.append ?_).append last
    split
    · exact .nil
    · exact .cons rfl (nests_rowsAll (depth + 1) alternate)

theorem nests_rowsAll (depth : Nat) : ∀ ss : List Stmt, Nests depth (rowsAll depth ss) depth
  | [] => by
    rw [rowsAll]
    exact .nil
  | s :: ss => by
    rw [rowsAll]
    exact (s.nests_rows depth).append (nests_rowsAll depth ss)

end

/-! ## Lines -/

/-- The text is what a row holds. That of a statement is read as this statement and nothing else, up to the
places where things stand. -/
inductive RowContent.Holds : RowContent → List Char → Prop
  | declaration {kind : DeclarationKind} {ds : List Declarator} {place : Span} {s : Stmt} {text : String}
      {ts : List Token} (hts : tokenize text = .ok ts) (hp : program ts = .ok ⟨[s]⟩)
      (same : (Stmt.declaration kind ds place).Same s) :
      Holds (.statement (.declaration kind ds place)) text.toList
  | expression {e : Expr} {place : Span} {s : Stmt} {text : String} {ts : List Token}
      (hts : tokenize text = .ok ts) (hp : program ts = .ok ⟨[s]⟩) (same : (Stmt.expression e place).Same s) :
      Holds (.statement (.expression e place)) text.toList
  | opening (name : String) : Holds (.opening name) ("if (" ++ name ++ ") \x7b").toList
  | otherwise : Holds .otherwise "\x7d else \x7b".toList
  | closing : Holds .closing "\x7d".toList

/-- A text on one line that starts with no space. -/
structure IsInline (text : List Char) : Prop where
  first : ∃ c cs, text = c :: cs ∧ c ≠ ' '
  newline : '\n' ∉ text

namespace Row

variable (style : Style)

/-- The line of a row: what it holds, behind as many spaces as its depth asks for. -/
def IsLine (row : Row) (line : List Char) : Prop :=
  ∃ text, IsInline text ∧ row.content.Holds text ∧
    line = List.replicate (row.depth * style.blockIndent) ' ' ++ text

/-- The empty lines in front of the line of a row. -/
def emptyLines (row : Row) : Nat :=
  match row.content with
  | .statement (.expression e _) => if e.isPrintln then style.emptyLinesBeforePrintln else 0
  | _ => 0

end Row

/-- The lines are those of the rows, one for each row, and the empty lines in front of them. -/
inductive Fills (style : Style) : List Row → List (List Char) → Prop
  | nil : Fills style [] []
  | cons {row : Row} {rows : List Row} {line : List Char} {lines : List (List Char)}
      (h : row.IsLine style line) (hs : Fills style rows lines) :
      Fills style (row :: rows) (List.replicate (row.emptyLines style) [] ++ line :: lines)

namespace Fills

variable {style : Style} {rows rows' : List Row} {lines lines' : List (List Char)}

theorem single {row : Row} {line : List Char} (h : row.IsLine style line) (hr : row.emptyLines style = 0) :
    Fills style [row] [line] := by
  have filled := Fills.cons h .nil
  rwa [hr] at filled

theorem append (h : Fills style rows lines) (h' : Fills style rows' lines') :
    Fills style (rows ++ rows') (lines ++ lines') := by
  induction h with
  | nil => exact h'
  | cons h _ ih =>
    rw [List.append_assoc]
    exact .cons h ih

theorem notMem_newline (h : Fills style rows lines) : ∀ line ∈ lines, '\n' ∉ line := by
  induction h with
  | nil => exact fun _ hl => by cases hl
  | cons h _ ih =>
    obtain ⟨text, inline_, -, rfl⟩ := h
    intro line hl
    rcases List.mem_append.1 hl with hl | hl
    · rw [List.eq_of_mem_replicate hl]
      exact List.not_mem_nil
    · rcases List.mem_cons.1 hl with rfl | hl
      · simp [inline_.newline, List.mem_replicate]
      · exact ih line hl

/-- The last line is the line of a row, so it is not empty. -/
theorem exists_last (h : Fills style rows lines) (hne : rows ≠ []) :
    ∃ front last, lines = front ++ [last] ∧ last ≠ [] := by
  induction h with
  | nil => exact absurd rfl hne
  | @cons row rows line lines h hs ih =>
    cases hs with
    | nil =>
      obtain ⟨text, ⟨⟨c, cs, rfl, -⟩, -⟩, -, rfl⟩ := h
      exact ⟨_, _, rfl, by simp⟩
    | cons h' hs' =>
      obtain ⟨front, last, e, full⟩ := ih (List.cons_ne_nil _ _)
      rw [e]
      exact ⟨List.replicate (row.emptyLines style) [] ++ line :: front, last, by simp, full⟩

/-- Written one after the other, each with a line feed behind it, the lines end with one line feed. -/
theorem exists_end (h : Fills style rows lines) (hne : rows ≠ []) :
    ∃ text c, lines.flatMap (· ++ ['\n']) = text ++ [c, '\n'] ∧ c ≠ '\n' := by
  have newline := h.notMem_newline
  obtain ⟨front, last, rfl, full⟩ := h.exists_last hne
  obtain ⟨start, c, rfl⟩ := List.eq_nil_or_concat last |>.resolve_left full
  refine ⟨front.flatMap (· ++ ['\n']) ++ start, c, by simp, ?_⟩
  rintro rfl
  exact newline (start ++ ['\n']) (by simp) (by simp)

end Fills

/-! ## What is written goes over no line feed -/

theorem SpelledAs.isInline {x : Lexeme} {spelling : List Char} (h : SpelledAs x spelling) :
    IsInline spelling := by
  obtain ⟨c, cs, rfl, noBlank⟩ := h.exists_cons
  refine ⟨⟨c, cs, rfl, ?_⟩, h.notMem_newline⟩
  rintro rfl
  exact absurd noBlank (by decide)

theorem IsName.isInline {s : String} (h : IsName s) : IsInline s.toList := (SpelledAs.word h.1).isInline

theorem IsWord.isInline {s : String} (h : IsWord s) : IsInline s.toList := (SpelledAs.word h).isInline

namespace IsInline

theorem append {a b : List Char} (h : IsInline a) (hb : '\n' ∉ b) : IsInline (a ++ b) := by
  obtain ⟨⟨c, cs, rfl, hc⟩, newline⟩ := h
  refine ⟨⟨c, cs ++ b, rfl, hc⟩, ?_⟩
  rw [List.mem_append]
  exact not_or.2 ⟨newline, hb⟩

theorem parenthesize {text : String} (h : IsInline text.toList) (e : Expr) (needed : Nat → Bool) :
    IsInline (Slate.parenthesize e needed text).toList := by
  rw [Slate.parenthesize]
  split
  · refine ⟨⟨'(', text.toList ++ [')'], by simp, by decide⟩, ?_⟩
    simp [h.newline]
  · exact h

end IsInline

theorem notMem_intercalate {α : Type} {text : α → String} {as : List α}
    (h : ∀ a ∈ as, IsInline (text a).toList) : '\n' ∉ (", ".intercalate (as.map text)).toList := by
  rw [toList_intercalate_comma]
  induction as with
  | nil => simp
  | cons a as ih =>
    obtain ⟨first, others⟩ := List.forall_mem_cons.1 h
    cases as with
    | nil => simpa using first.newline
    | cons b bs =>
      rw [List.map_cons, List.map_cons, List.intercalate_cons_cons]
      have rest := ih others
      rw [List.map_cons] at rest
      simp [first.newline, rest]

theorem notMem_spaces (n : Nat) : '\n' ∉ (Style.spaces n).toList := by
  rw [toList_spaces]
  intro h
  cases List.eq_of_mem_replicate h

theorem notMem_assignSign (style : Style) : '\n' ∉ style.assignSign.toList := by
  simp [Style.assignSign, notMem_spaces]

theorem notMem_colonSign (style : Style) : '\n' ∉ style.colonSign.toList := by
  rw [Style.colonSign]
  cases style.spaceBeforeColon <;> cases style.spaceAfterColon <;> decide

theorem notMem_operator (op : BinaryOp) : '\n' ∉ (" " ++ op.symbol ++ " ").toList := by
  cases op <;> decide

theorem Expr.Writable.isInline {e : Expr} (h : e.Writable) (style : Style) :
    IsInline (e.format style).toList := by
  induction h with
  | number d s h _ =>
    rw [Expr.format]
    exact (Decimal.spelledAs_toString h).isInline
  | string text s =>
    rw [Expr.format]
    exact (spelledAs_quoteString text).isInline
  | boolean b s =>
    rw [Expr.format]
    exact (isWord_booleanText b).isInline
  | name x h =>
    rw [Expr.format]
    exact h.isInline
  | @sign operand h place s ih =>
    have inner := (ih.parenthesize operand fun _ => true).newline
    rw [format_negation, String.toList_append]
    exact ⟨⟨'-', _, rfl, by decide⟩, by simp [inner]⟩
  | @operation op left right hl hr s ihl ihr =>
    have right_ := (ihr.parenthesize right fun p => p ≤ op.precedence).newline
    rw [Expr.format, hl.not_isNegation op right s, if_neg Bool.false_ne_true, String.toList_append,
      String.toList_append]
    exact ((ihl.parenthesize _ _).append (notMem_operator op)).append right_
  | call callee h ha s ih =>
    have arguments := notMem_intercalate ih
    rw [Expr.format, formatAll_eq_map, String.append_assoc, String.append_assoc, String.toList_append]
    refine h.isInline.append ?_
    simp [arguments, -String.toList_intercalate]

theorem Expr.WritableAction.isInline {e : Expr} (h : e.WritableAction) (style : Style) :
    IsInline (e.format style).toList := by
  cases h with
  | expression h => exact h.isInline style
  | assignment target h hv s =>
    have value := (hv.isInline style).newline
    rw [Expr.format, String.append_assoc, String.toList_append]
    refine h.isInline.append ?_
    simp [value, notMem_assignSign]

theorem Declarator.Writable.isInline {d : Declarator} (h : d.Writable) (style : Style) :
    IsInline (d.format style).toList := by
  have init : '\n' ∉ (initText style d.init).toList := by
    cases hi : d.init with
    | none => simp [initText]
    | some e => simp [initText, notMem_assignSign, ((h.init e hi).isInline style).newline]
  have text : d.format style =
      d.id.name ++ style.colonSign ++ d.type.keyword ++ initText style d.init :=
    rfl
  rw [text, String.toList_append, String.toList_append, String.toList_append]
  exact ((h.name.isInline.append (notMem_colonSign style)).append
    (isWord_keyword d.type).isInline.newline).append init

/-! ## Statements and their lines -/

/-- A text that is read as the lexemes of a statement is read as the statement and nothing else. -/
theorem exists_statement_of_readsAs {s : Stmt} (h : s.Writable) {text : String}
    (reads : ReadsAs text.toList s.lexemes) :
    ∃ ts s', tokenize text = .ok ts ∧ program ts = .ok ⟨[s']⟩ ∧ s.Same s' := by
  obtain ⟨ts, hts, lexemes⟩ := reads {}
  obtain ⟨p, hp, same⟩ := exists_phrase_of_writable h ts ⟨isLexed_of_tokenize hts, lexemes⟩
  have body := program_tokens (.more p .done)
  rw [Phrase.tokens, Phrase.tokens, List.append_nil, hp] at body
  exact ⟨ts, p.result, hts, body, same⟩

theorem Spells.readsAs_semicolon {text : String} {xs : List Lexeme} (h : Spells text.toList xs) :
    ReadsAs (text ++ ";").toList (xs ++ [.semicolon]) := by
  have marked : ReadsAs [';'] [.semicolon] := ReadsAs.nil.mark rfl (by decide) (.inl (by decide))
  have read := h _ _ (endsWord_cons (by decide) _) marked
  rw [String.toList_append]
  exact read

theorem isLine_of_eq {style : Style} {row : Row} {text line : String} (inline_ : IsInline text.toList)
    (holds : row.content.Holds text.toList) (hl : line = style.indent row.depth ++ text) :
    row.IsLine style line.toList := by
  refine ⟨text.toList, inline_, holds, ?_⟩
  rw [hl, String.toList_append, Style.indent, toList_spaces]

theorem fills_declaration {kind : DeclarationKind} {ds : List Declarator} (hne : ds ≠ [])
    (h : ∀ d ∈ ds, d.Writable) (s : Span) (style : Style) (level : Nat) :
    Fills style ((Stmt.declaration kind ds s).rows level)
      (((Stmt.declaration kind ds s).lines style level).map String.toList) := by
  have reads := (Spells.declaration h style kind).readsAs_semicolon
  obtain ⟨ts, s', hts, hp, same⟩ := exists_statement_of_readsAs (.declaration kind hne h s)
    (by rw [Stmt.lexemes]; exact reads)
  have variables_ := notMem_intercalate fun d hd => (h d hd).isInline style
  rw [Stmt.rows, Stmt.lines, List.map_singleton]
  refine .single (isLine_of_eq ?_ (.declaration hts hp same) ?_) rfl
  · rw [String.append_assoc, String.append_assoc, String.toList_append]
    refine (isWord_declarationKeyword kind).isInline.append ?_
    simp [variables_, -String.toList_intercalate]
  · simp only [String.append_assoc]

theorem fills_expression {e : Expr} (h : e.WritableAction) (s : Span) (style : Style) (level : Nat) :
    Fills style ((Stmt.expression e s).rows level)
      (((Stmt.expression e s).lines style level).map String.toList) := by
  obtain ⟨ts, s', hts, hp, same⟩ := exists_statement_of_readsAs (.action h s)
    (by rw [Stmt.lexemes]; exact (h.spells style).readsAs_semicolon)
  have line : Row.IsLine style ⟨level, .statement (.expression e s)⟩
      (style.indent level ++ e.format style ++ ";").toList := by
    refine isLine_of_eq ?_ (.expression hts hp same) String.append_assoc
    rw [String.toList_append]
    exact (h.isInline style).append (by decide)
  have filled := Fills.cons line .nil
  rw [Stmt.rows, Stmt.lines, List.map_append, List.map_replicate, List.map_singleton]
  exact filled

theorem fills_rowsAll {style : Style} {level : Nat} {ss : List Stmt}
    (h : ∀ s ∈ ss, Fills style (s.rows level) ((s.lines style level).map String.toList)) :
    Fills style (rowsAll level ss) ((linesAll style level ss).map String.toList) := by
  induction ss with
  | nil =>
    rw [rowsAll, linesAll]
    exact .nil
  | cons s ss ih =>
    obtain ⟨first, others⟩ := List.forall_mem_cons.1 h
    rw [rowsAll, linesAll, List.map_append]
    exact first.append (ih others)

theorem Stmt.Writable.fills {s : Stmt} (h : s.Writable) (style : Style) (level : Nat) :
    Fills style (s.rows level) ((s.lines style level).map String.toList) := by
  -- blocks are written one level deeper
  induction h generalizing level with
  | declaration kind hne h s => exact fills_declaration hne h s style level
  | action h s => exact fills_expression h s style level
  | @conditional test h consequent alternate hc ha s ihc iha =>
    have opening : Fills style [⟨level, .opening test.name⟩]
        [(style.indent level ++ "if (" ++ test.name ++ ") \x7b").toList] := by
      have word : IsInline "if (".toList := ⟨⟨'i', _, rfl, by decide⟩, by decide⟩
      refine .single (isLine_of_eq ?_ (.opening test.name) ?_) rfl
      · rw [String.append_assoc, String.toList_append]
        exact word.append (by simp [h.isInline.newline])
      · simp only [String.append_assoc]
    have closing : Fills style [⟨level, .closing⟩] [(style.indent level ++ "\x7d").toList] :=
      .single (isLine_of_eq ⟨⟨'\x7d', [], rfl, by decide⟩, by decide⟩ .closing rfl) rfl
    have otherwise : Fills style [⟨level, .otherwise⟩] [(style.indent level ++ "\x7d else \x7b").toList] :=
      .single (isLine_of_eq ⟨⟨'\x7d', _, rfl, by decide⟩, by decide⟩ .otherwise rfl) rfl
    have first := opening.append (fills_rowsAll fun s hs => ihc s hs (level + 1))
    rw [Stmt.rows, Stmt.lines, List.map_append, List.map_append, List.map_append]
    refine (first.append ?_).append closing
    split
    · exact .nil
    · rw [List.map_append]
      exact otherwise.append (fills_rowsAll fun s hs => iha s hs (level + 1))

/-! ## The text -/

theorem split_joinLines {lines : List String} (h : ∀ line ∈ lines, '\n' ∉ line.toList) :
    split '\n' (joinLines lines).toList = lines.map String.toList ++ [[]] := by
  rw [toList_joinLines]
  induction lines with
  | nil => rfl
  | cons line lines ih =>
    obtain ⟨first, others⟩ := List.forall_mem_cons.1 h
    rw [List.flatMap_cons, List.append_assoc, List.singleton_append, split_append first, ih others]
    rfl

theorem Stmt.rows_ne_nil (depth : Nat) (s : Stmt) : s.rows depth ≠ [] := by
  cases s <;> simp [Stmt.rows]

/-- The lines of a formatted program are those of its rows, each as deep as the blocks around it, and behind as
many empty lines as the style asks for if it prints. The text of a program without statements is empty; any other
ends with one line feed. -/
theorem format_lines (style : Style) {source : String} {ts : List Token} {p : Program}
    (hts : tokenize source = .ok ts) (hp : program ts = .ok p) :
    (∃ lines, split '\n' (format style p).toList = lines ++ [[]] ∧ Fills style p.rows lines) ∧
      Nests 0 p.rows 0 ∧
      (p.statements = [] → format style p = "") ∧
      (p.statements ≠ [] → ∃ text c, (format style p).toList = text ++ [c, '\n'] ∧ c ≠ '\n') := by
  have writable := writable_of_program (isLexed_of_tokenize hts) hp
  have filled : Fills style p.rows ((p.lines style).map String.toList) :=
    fills_rowsAll fun s hs => (writable s hs).fills style 0
  have newline := filled.notMem_newline
  refine ⟨⟨_, split_joinLines ?_, filled⟩, nests_rowsAll 0 p.statements, ?_, ?_⟩
  · exact fun line hl => newline _ (List.mem_map_of_mem hl)
  · intro none
    rw [format, Program.lines, none, linesAll]
    rfl
  · intro some
    have hrows : p.rows ≠ [] := by
      obtain ⟨s, ss, e⟩ := List.exists_cons_of_ne_nil some
      rw [Program.rows, e, rowsAll]
      exact List.append_ne_nil_of_left_ne_nil (s.rows_ne_nil 0) _
    obtain ⟨text, c, e, other⟩ := filled.exists_end hrows
    refine ⟨text, c, ?_, other⟩
    rw [format, toList_joinLines, ← e, List.flatMap_map]

/-- The tokens of a conditional in a conditional. Its string holds a line feed, spaces and a brace. -/
def nestedPrint : List Token :=
  [⟨⟨.ifKeyword, "if"⟩, ⟨1, 1, 3⟩⟩, ⟨⟨.openParen, "("⟩, ⟨1, 4, 5⟩⟩, ⟨⟨.identifier, "a"⟩, ⟨1, 5, 6⟩⟩,
   ⟨⟨.closeParen, ")"⟩, ⟨1, 6, 7⟩⟩, ⟨⟨.openBrace, "\x7b"⟩, ⟨1, 8, 9⟩⟩, ⟨⟨.ifKeyword, "if"⟩, ⟨1, 9, 11⟩⟩,
   ⟨⟨.openParen, "("⟩, ⟨1, 12, 13⟩⟩, ⟨⟨.identifier, "b"⟩, ⟨1, 13, 14⟩⟩, ⟨⟨.closeParen, ")"⟩, ⟨1, 14, 15⟩⟩,
   ⟨⟨.openBrace, "\x7b"⟩, ⟨1, 16, 17⟩⟩, ⟨⟨.identifier, "println"⟩, ⟨1, 17, 24⟩⟩,
   ⟨⟨.openParen, "("⟩, ⟨1, 24, 25⟩⟩, ⟨⟨.string, "\n \x7d"⟩, ⟨1, 25, 31⟩⟩, ⟨⟨.closeParen, ")"⟩, ⟨1, 31, 32⟩⟩,
   ⟨⟨.semicolon, ";"⟩, ⟨1, 32, 33⟩⟩, ⟨⟨.closeBrace, "\x7d"⟩, ⟨1, 33, 34⟩⟩,
   ⟨⟨.closeBrace, "\x7d"⟩, ⟨1, 34, 35⟩⟩]

/-- Two spaces for each block, and an empty line in front of what prints. -/
def airy : Style := { blockIndent := 2, emptyLinesBeforePrintln := 1 }

theorem format_lines_nestedPrint :
    ∃ p, tokenize "if (a) \x7bif (b) \x7bprintln('\\n \x7d');\x7d\x7d" = .ok nestedPrint ∧
      program nestedPrint = .ok p ∧
      (∃ lines, split '\n' (format airy p).toList = lines ++ [[]] ∧ Fills airy p.rows lines) ∧
      Nests 0 p.rows 0 ∧ (p.statements = [] → format airy p = "") ∧
      (p.statements ≠ [] → ∃ text c, (format airy p).toList = text ++ [c, '\n'] ∧ c ≠ '\n') := by
  have tokens_ : (tokenize "if (a) \x7bif (b) \x7bprintln('\\n \x7d');\x7d\x7d").toOption =
      some nestedPrint := by decide +kernel
  have read : ∃ p, program nestedPrint = .ok p := ⟨_, by cbv⟩
  have hts := toOption_eq_some.1 tokens_
  obtain ⟨p, hp⟩ := read
  exact ⟨p, hts, hp, format_lines airy hts hp⟩

end Slate
