import Slate.Proofs.Format.Lexeme
import Slate.Proofs.Format.Writable

/-!
# What the written text is read as

The lexemes of a tree are what the formatter writes, without any spacing: `Expr.lexemes` has a clause
for each clause of `Expr.format` and no style. The text of a tree is read as them (`Spells`), so no
style changes what a program means.

* `Expr.Writable.spells`, `Stmt.Writable.reads` — the texts of an expression and of a statement;
* `tokenize_format` — the text of a program.
-/

namespace Slate

open Slate.Text

/-! ## Lexemes -/

namespace Lexeme

def openParen : Lexeme := ⟨.openParen, "("⟩
def closeParen : Lexeme := ⟨.closeParen, ")"⟩
def openBrace : Lexeme := ⟨.openBrace, "\x7b"⟩
def closeBrace : Lexeme := ⟨.closeBrace, "\x7d"⟩
def comma : Lexeme := ⟨.comma, ","⟩
def colon : Lexeme := ⟨.colon, ":"⟩
def semicolon : Lexeme := ⟨.semicolon, ";"⟩
def assign : Lexeme := ⟨.assign, "="⟩
def minus : Lexeme := ⟨.minus, "-"⟩

/-- The lexeme of a word. -/
def ofWord (word : String) : Lexeme := ⟨TokenKind.ofWord word, word⟩

end Lexeme

def LiteralValue.lexeme : LiteralValue → Lexeme
  | number d => ⟨.number, d.toString⟩
  | string s => ⟨.string, s⟩
  | boolean b => .ofWord (Value.booleanText b)

/-- The kind of token that writes the operator. -/
def BinaryOp.kind : BinaryOp → TokenKind
  | add => .plus
  | subtract => .minus
  | multiply => .times
  | divide => .divide

def BinaryOp.lexeme (op : BinaryOp) : Lexeme := ⟨op.kind, op.symbol⟩

/-- As `parenthesize`, for lexemes. -/
def parenthesizeLexemes (e : Expr) (needed : Nat → Bool) (xs : List Lexeme) : List Lexeme :=
  if e.looseness?.any needed then .openParen :: xs ++ [.closeParen] else xs

mutual

/-- What the formatter writes for an expression. -/
def Expr.lexemes : Expr → List Lexeme
  | .literal l => [l.value.lexeme]
  | .identifier x => [.ofWord x.name]
  | .binary op left right s =>
    if (Expr.binary op left right s).isNegation then
      .minus :: parenthesizeLexemes right (fun _ => true) right.lexemes
    else
      parenthesizeLexemes left (fun p => p < op.precedence) left.lexemes ++
        op.lexeme :: parenthesizeLexemes right (fun p => p ≤ op.precedence) right.lexemes
  | .call callee arguments _ =>
    .ofWord callee.name :: .openParen ::
      ([Lexeme.comma].intercalate (lexemesOfExprs arguments) ++ [.closeParen])
  | .assignment target value _ => .ofWord target.name :: .assign :: value.lexemes

def lexemesOfExprs : List Expr → List (List Lexeme)
  | [] => []
  | e :: es => e.lexemes :: lexemesOfExprs es

end

/-- What the formatter writes behind the type. -/
def initLexemes : Option Expr → List Lexeme
  | some e => .assign :: e.lexemes
  | none => []

def Declarator.lexemes (d : Declarator) : List Lexeme :=
  .ofWord d.id.name :: .colon :: .ofWord d.type.keyword :: initLexemes d.init

mutual

/-- What the formatter writes for a statement. -/
def Stmt.lexemes : Stmt → List Lexeme
  | .declaration kind ds _ =>
    .ofWord kind.keyword :: ([Lexeme.comma].intercalate (ds.map Declarator.lexemes) ++ [.semicolon])
  | .expression e _ => e.lexemes ++ [.semicolon]
  | .conditional test consequent alternate _ =>
    .ofWord "if" :: .openParen :: .ofWord test.name :: .closeParen :: .openBrace ::
      (lexemesOfStmts consequent ++ .closeBrace ::
        if alternate.isEmpty then []
        else .ofWord "else" :: .openBrace :: (lexemesOfStmts alternate ++ [.closeBrace]))

def lexemesOfStmts : List Stmt → List Lexeme
  | [] => []
  | s :: ss => s.lexemes ++ lexemesOfStmts ss

end

/-! ## Spellings -/

/-- The text is read as the lexemes in front of whatever ends a word. -/
def Spells (text : List Char) (xs : List Lexeme) : Prop :=
  ∀ (rest : List Char) (ys : List Lexeme), EndsWord rest → ReadsAs rest ys →
    ReadsAs (text ++ rest) (xs ++ ys)

/-- The marks that stand behind a word, and the blanks. -/
def wordEnds : List Char := [' ', '\n', '(', ')', ',', ';', ':', '=']

theorem endsWord_cons {c : Char} (h : c ∈ wordEnds) (cs : List Char) : EndsWord (c :: cs) := by
  have table : ∀ c ∈ wordEnds, c.toNat < 128 ∧ c.isAlpha = false ∧ c.isDigit = false ∧
      c ≠ '_' ∧ c ≠ '.' := by
    simp [wordEnds]
  intro x hx
  cases hx
  obtain ⟨ascii, alpha, digit, line, point⟩ := table c h
  exact ⟨not_isNamePart_of_ascii ascii alpha digit line, point⟩

theorem ReadsAs.blanks {bs cs : List Char} {xs : List Lexeme} (h : ReadsAs cs xs)
    (hb : ∀ b ∈ bs, isBlank b = true) : ReadsAs (bs ++ cs) xs := by
  induction bs with
  | nil => exact h
  | cons b bs ih =>
    exact (ih fun b hm => hb b (List.mem_cons_of_mem _ hm)).blank (hb b List.mem_cons_self)

/-- What ends a word ends any lexeme. -/
theorem EndsWord.stops {rest : List Char} (h : EndsWord rest) (kind : TokenKind) (spelling : List Char) :
    Stops kind spelling rest where
  word _ c hc := (h c hc).1
  digit _ := h.not_isDigit
  point _ _ d more e := by
    rw [e] at h
    exact absurd rfl (h '.' rfl).2

/-- A slash is left out, for a second one could follow. -/
theorem Spells.of_spelledAs {x : Lexeme} {spelling : List Char} (h : SpelledAs x spelling)
    (hk : x.kind ≠ .divide) : Spells spelling [x] :=
  fun _ _ hr hread => hread.spelled h (hr.stops _ _) fun divide => absurd divide hk

theorem ofWord_ne_divide (s : String) : TokenKind.ofWord s ≠ .divide := by
  intro divide
  have word := isWord_ofWord s
  rw [divide] at word
  cases word

theorem Spells.word {s : String} (h : IsWord s) : Spells s.toList [.ofWord s] :=
  .of_spelledAs (.word h) (ofWord_ne_divide s)

theorem Spells.name {s : String} (h : IsName s) : Spells s.toList [.ofWord s] :=
  Spells.word h.1

/-- Texts with commas between them are read as their lexemes with commas between them. -/
theorem Spells.intercalate {α : Type} {text : α → List Char} {xs : α → List Lexeme} {as : List α}
    (h : ∀ a ∈ as, Spells (text a) (xs a)) :
    Spells ([',', ' '].intercalate (as.map text)) ([Lexeme.comma].intercalate (as.map xs)) := by
  induction as with
  | nil => exact fun _ _ _ hread => hread
  | cons a as ih =>
    have first := h a List.mem_cons_self
    have others := ih fun b hb => h b (List.mem_cons_of_mem _ hb)
    cases as with
    | nil => simpa using first
    | cons b bs =>
      intro rest ys hr hread
      rw [List.map_cons, List.map_cons] at others ⊢
      rw [List.map_cons, List.map_cons, List.intercalate_cons_cons, List.intercalate_cons_cons,
        List.append_assoc, List.append_assoc, List.append_assoc, List.append_assoc]
      apply first
      · exact endsWord_cons (by decide) _
      · apply ReadsAs.mark _ rfl (by decide) (.inl (by decide))
        exact (others rest ys hr hread).blank (by decide)

/-! ## Literals -/

theorem Spells.string (s : String) : Spells (quoteString s).toList [⟨.string, s⟩] :=
  .of_spelledAs (spelledAs_quoteString s) (fun e => by cases e)

theorem Decimal.spelledAs_toString {d : Decimal} (h : d.negative = false) :
    SpelledAs ⟨.number, d.toString⟩ d.toString.toList := by
  obtain ⟨whole, fraction, text, nonempty, -, digits, -⟩ :=
    Decimal.exists_unsignedChars d.magnitude d.scale
  obtain ⟨hw, hf⟩ := List.forall_mem_append.1 digits
  have chars : d.toString.toList = whole ++ Decimal.fractionChars fraction := by
    rw [Decimal.toString, String.toList_ofList, Decimal.toChars, h, text]
    rfl
  refine (spelledAs_iff (fun e => by cases e)).2 ⟨.number ?_, rfl⟩
  rw [chars, Decimal.fractionChars]
  split
  · rw [List.append_nil]
    exact .whole ⟨nonempty, hw⟩
  · next more => exact .fraction ⟨nonempty, hw⟩ ⟨more, hf⟩

theorem Spells.decimal {d : Decimal} (h : d.negative = false) :
    Spells d.toString.toList [⟨.number, d.toString⟩] :=
  .of_spelledAs (Decimal.spelledAs_toString h) (fun e => by cases e)

/-! ## Expressions -/

theorem Spells.boolean (b : Bool) :
    Spells (Value.booleanText b).toList [.ofWord (Value.booleanText b)] :=
  Spells.word (isWord_booleanText b)

theorem Spells.parenthesize {e : Expr} {needed : Nat → Bool} {text : String} {xs : List Lexeme}
    (h : Spells text.toList xs) :
    Spells (parenthesize e needed text).toList (parenthesizeLexemes e needed xs) := by
  rw [Slate.parenthesize, parenthesizeLexemes]
  split
  · intro rest ys hr hread
    have inner := h _ _ (endsWord_cons (by decide) _)
      (hread.mark (c := ')') rfl (by decide) (.inl (by decide)))
    have whole := inner.mark (c := '(') rfl (by decide) (.inl (by decide))
    simpa [String.toList_append, Lexeme.openParen, Lexeme.closeParen] using whole
  · exact h

theorem formatAll_eq_map (style : Style) (es : List Expr) :
    formatAll style es = es.map (Expr.format style) := by
  induction es with
  | nil => rw [formatAll, List.map_nil]
  | cons e es ih => rw [formatAll, ih, List.map_cons]

theorem lexemesOfExprs_eq_map (es : List Expr) : lexemesOfExprs es = es.map Expr.lexemes := by
  induction es with
  | nil => rw [lexemesOfExprs, List.map_nil]
  | cons e es ih => rw [lexemesOfExprs, ih, List.map_cons]

theorem toList_intercalate_comma {α : Type} (text : α → String) (as : List α) :
    (", ".intercalate (as.map text)).toList =
      [',', ' '].intercalate (as.map fun a => (text a).toList) := by
  rw [String.toList_intercalate, List.map_map]
  rfl

/-- An operator stands between two blanks, so a slash never starts a comment. -/
theorem ReadsAs.operator {rest : List Char} {ys : List Lexeme} (h : ReadsAs rest ys)
    (op : BinaryOp) : ReadsAs ((" " ++ op.symbol ++ " ").toList ++ rest) (op.lexeme :: ys) := by
  have behind : ReadsAs (' ' :: rest) ys := h.blank (by decide)
  cases op with
  | add => exact (behind.mark (c := '+') rfl (by decide) (.inl (by decide))).blank (by decide)
  | subtract => exact (behind.mark (c := '-') rfl (by decide) (.inl (by decide))).blank (by decide)
  | multiply => exact (behind.mark (c := '*') rfl (by decide) (.inl (by decide))).blank (by decide)
  | divide => exact (behind.mark (c := '/') rfl (by decide) (.inr (by simp))).blank (by decide)

theorem format_negation (style : Style) (place s : Span) (e : Expr) :
    (Expr.negation place e s).format style =
      "-" ++ Slate.parenthesize e (fun _ => true) (e.format style) := by
  have sign := Expr.isNegation_negation place s e
  rw [Expr.negation] at sign ⊢
  rw [Expr.format, if_pos sign]

/-- An operand with a sign never stands in parentheses. -/
theorem looseness?_negation (place s : Span) (e : Expr) : (Expr.negation place e s).looseness? = none := by
  have sign := Expr.isNegation_negation place s e
  rw [Expr.negation] at sign ⊢
  rw [Expr.looseness?, if_pos sign]

theorem lexemes_negation (place s : Span) (e : Expr) :
    (Expr.negation place e s).lexemes =
      .minus :: parenthesizeLexemes e (fun _ => true) e.lexemes := by
  have sign := Expr.isNegation_negation place s e
  rw [Expr.negation] at sign ⊢
  rw [Expr.lexemes, if_pos sign]

theorem Expr.Writable.spells {e : Expr} (h : e.Writable) (style : Style) :
    Spells (e.format style).toList e.lexemes := by
  induction h with
  | number d s h _ =>
    rw [Expr.format, Expr.lexemes]
    exact Spells.decimal h
  | string text s =>
    rw [Expr.format, Expr.lexemes]
    exact Spells.string text
  | boolean b s =>
    rw [Expr.format, Expr.lexemes]
    exact Spells.boolean b
  | name x h =>
    rw [Expr.format, Expr.lexemes]
    exact Spells.name h
  | sign h place s ih =>
    intro rest ys hr hread
    rw [format_negation, lexemes_negation, String.toList_append]
    exact (ih.parenthesize rest ys hr hread).mark rfl (by decide) (.inl (by decide))
  | @operation op left right hl hr s ihl ihr =>
    have binary := hl.not_isNegation op right s
    intro rest ys hr hread
    rw [Expr.format, Expr.lexemes, binary, if_neg Bool.false_ne_true, if_neg Bool.false_ne_true,
      String.toList_append, String.toList_append, List.append_assoc, List.append_assoc,
      List.append_assoc]
    apply ihl.parenthesize
    · cases op <;> exact endsWord_cons (by decide) _
    · exact (ihr.parenthesize rest ys hr hread).operator op
  | call callee h ha s ih =>
    intro rest ys hr hread
    -- from the right: what stands behind a piece is known before the piece is read
    have close := hread.mark (c := ')') rfl (by decide) (.inl (by decide))
    have inner := Spells.intercalate ih _ _ (endsWord_cons (by decide) _) close
    have opened := inner.mark (c := '(') rfl (by decide) (.inl (by decide))
    have named := Spells.name h _ _ (endsWord_cons (by decide) _) opened
    rw [Expr.format, Expr.lexemes, formatAll_eq_map, lexemesOfExprs_eq_map]
    simpa [String.toList_append, toList_intercalate_comma, Lexeme.openParen, Lexeme.closeParen,
      -String.toList_intercalate] using named

/-! ## Statements -/

theorem toList_spaces (n : Nat) : (Style.spaces n).toList = List.replicate n ' ' :=
  String.toList_ofList

theorem ReadsAs.spaces {cs : List Char} {xs : List Lexeme} (h : ReadsAs cs xs) (n : Nat) :
    ReadsAs ((Style.spaces n).toList ++ cs) xs := by
  apply h.blanks
  rw [toList_spaces]
  intro b hb
  rw [List.eq_of_mem_replicate hb]
  decide

/-- Behind a word, blanks and a mark end it, however many blanks there are. -/
theorem endsWord_spaces (n : Nat) {c : Char} (h : c ∈ wordEnds) (cs : List Char) :
    EndsWord ((Style.spaces n).toList ++ c :: cs) := by
  rw [toList_spaces]
  cases n with
  | zero => exact endsWord_cons h cs
  | succ n =>
    rw [List.replicate_succ, List.cons_append]
    exact endsWord_cons (by decide) _

theorem ReadsAs.assignSign {cs : List Char} {xs : List Lexeme} (h : ReadsAs cs xs)
    (style : Style) :
    ReadsAs (style.assignSign.toList ++ cs) (.assign :: xs) ∧
      EndsWord (style.assignSign.toList ++ cs) := by
  have text : style.assignSign.toList ++ cs =
      (Style.spaces style.spacesAroundAssign).toList ++
        '=' :: ((Style.spaces style.spacesAroundAssign).toList ++ cs) := by
    simp [Style.assignSign]
  rw [text]
  constructor
  · apply ReadsAs.spaces
    exact (h.spaces _).mark rfl (by decide) (.inl (by decide))
  · exact endsWord_spaces _ (by decide) _

theorem ReadsAs.colonSign {cs : List Char} {xs : List Lexeme} (h : ReadsAs cs xs)
    (style : Style) :
    ReadsAs (style.colonSign.toList ++ cs) (.colon :: xs) ∧
      EndsWord (style.colonSign.toList ++ cs) := by
  have marked (cs : List Char) (h : ReadsAs cs xs) : ReadsAs (':' :: cs) (.colon :: xs) :=
    h.mark rfl (by decide) (.inl (by decide))
  rw [Style.colonSign]
  cases style.spaceBeforeColon <;> cases style.spaceAfterColon
  · exact ⟨marked _ h, endsWord_cons (by decide) _⟩
  · exact ⟨marked _ (h.blank (by decide)), endsWord_cons (by decide) _⟩
  · exact ⟨(marked _ h).blank (by decide), endsWord_cons (by decide) _⟩
  · exact ⟨(marked _ (h.blank (by decide))).blank (by decide), endsWord_cons (by decide) _⟩

theorem isWord_keyword (t : Ty) : IsWord t.keyword := by
  cases t
  · exact .of_isAlpha (by decide)
  · exact .of_isAlpha (by decide)
  · exact .of_isAlpha (by decide)

theorem isWord_declarationKeyword (kind : DeclarationKind) : IsWord kind.keyword := by
  cases kind
  · exact .of_isAlpha (by decide)
  · exact .of_isAlpha (by decide)

/-- What a declarator has behind its type. -/
def initText (style : Style) : Option Expr → String
  | some e => style.assignSign ++ e.format style
  | none => ""

theorem Spells.init {i : Option Expr} (h : ∀ e ∈ i, e.Writable) (style : Style)
    {rest : List Char} {ys : List Lexeme} (hr : EndsWord rest) (hread : ReadsAs rest ys) :
    ReadsAs ((initText style i).toList ++ rest) (initLexemes i ++ ys) ∧
      EndsWord ((initText style i).toList ++ rest) := by
  cases i with
  | none => exact ⟨hread, hr⟩
  | some e =>
    have value := (h e rfl).spells style rest ys hr hread
    rw [initText, initLexemes, String.toList_append, List.append_assoc]
    exact value.assignSign style

theorem Declarator.Writable.spells {d : Declarator} (h : d.Writable) (style : Style) :
    Spells (d.format style).toList d.lexemes := by
  intro rest ys hr hread
  obtain ⟨init, ends⟩ := Spells.init h.init style hr hread
  have typed := Spells.word (isWord_keyword d.type) _ _ ends init
  obtain ⟨marked, ends⟩ := typed.colonSign style
  have named := Spells.name h.name _ _ ends marked
  have text : d.format style =
      d.id.name ++ style.colonSign ++ d.type.keyword ++ initText style d.init :=
    rfl
  rw [text]
  simpa [Declarator.lexemes] using named

theorem Expr.WritableAction.spells {e : Expr} (h : e.WritableAction) (style : Style) :
    Spells (e.format style).toList e.lexemes := by
  cases h with
  | expression h => exact h.spells style
  | assignment target h hv s =>
    intro rest ys hr hread
    obtain ⟨marked, ends⟩ := (hv.spells style rest ys hr hread).assignSign style
    have named := Spells.name h _ _ ends marked
    rw [Expr.format, Expr.lexemes]
    simpa using named

/-! ## Lines -/

theorem toList_joinLines (lines : List String) :
    (joinLines lines).toList = lines.flatMap fun line => line.toList ++ ['\n'] := by
  rw [joinLines, String.toList_join, List.flatMap_map]
  simp

/-- The lines are read as the lexemes, whatever follows. -/
def LinesSpell (lines : List String) (xs : List Lexeme) : Prop :=
  ∀ (rest : List Char) (ys : List Lexeme), ReadsAs rest ys →
    ReadsAs ((joinLines lines).toList ++ rest) (xs ++ ys)

theorem LinesSpell.nil : LinesSpell [] [] := fun _ _ hread => hread

theorem LinesSpell.append {a b : List String} {xs ys : List Lexeme} (ha : LinesSpell a xs)
    (hb : LinesSpell b ys) : LinesSpell (a ++ b) (xs ++ ys) := by
  intro rest zs hread
  have both := ha _ _ (hb rest zs hread)
  rw [toList_joinLines] at both ⊢
  rw [toList_joinLines] at both
  simpa using both

/-- A line stands behind its indentation and in front of a line feed. -/
theorem LinesSpell.line {text : List Char} {xs : List Lexeme} {line : String} (style : Style)
    (level : Nat) (hl : line.toList = (style.indent level).toList ++ text)
    (h : ∀ rest ys, ReadsAs ('\n' :: rest) ys → ReadsAs (text ++ '\n' :: rest) (xs ++ ys)) :
    LinesSpell [line] xs := by
  intro rest ys hread
  have indented := (h rest ys (hread.blank (by decide))).spaces (level * style.blockIndent)
  rw [toList_joinLines]
  simpa [hl, Style.indent] using indented

theorem LinesSpell.empty (n : Nat) : LinesSpell (List.replicate n "") [] := by
  intro rest ys hread
  apply hread.blanks
  rw [toList_joinLines]
  intro b hb
  obtain ⟨line, hl, hb⟩ := List.mem_flatMap.1 hb
  rw [List.eq_of_mem_replicate hl] at hb
  rw [List.mem_singleton.1 hb]
  decide

theorem LinesSpell.linesAll {style : Style} {level : Nat} {ss : List Stmt}
    (h : ∀ s ∈ ss, LinesSpell (s.lines style level) s.lexemes) :
    LinesSpell (linesAll style level ss) (lexemesOfStmts ss) := by
  induction ss with
  | nil =>
    rw [Slate.linesAll, lexemesOfStmts]
    exact .nil
  | cons s ss ih =>
    rw [Slate.linesAll, lexemesOfStmts]
    exact (h s List.mem_cons_self).append (ih fun t ht => h t (List.mem_cons_of_mem _ ht))

/-! ## Statements -/

theorem isWord_if : IsWord "if" := .of_isAlpha (by decide)

theorem isWord_else : IsWord "else" := .of_isAlpha (by decide)

theorem LinesSpell.ifLine {name : String} (h : IsName name) (style : Style) (level : Nat) :
    LinesSpell [style.indent level ++ "if (" ++ name ++ ") \x7b"]
      [.ofWord "if", .openParen, .ofWord name, .closeParen, .openBrace] := by
  have text : (style.indent level ++ "if (" ++ name ++ ") \x7b").toList =
      (style.indent level).toList ++
        ("if".toList ++ ' ' :: '(' :: (name.toList ++ [')', ' ', '\x7b'])) := by
    simp
  apply LinesSpell.line style level text
  intro rest ys hread
  have brace : ReadsAs (' ' :: '\x7b' :: '\n' :: rest) (.openBrace :: ys) :=
    (hread.mark rfl (by decide) (.inl (by decide))).blank (by decide)
  have close : ReadsAs (')' :: ' ' :: '\x7b' :: '\n' :: rest) (.closeParen :: .openBrace :: ys) :=
    brace.mark rfl (by decide) (.inl (by decide))
  have named := Spells.name h _ _ (endsWord_cons (by decide) _) close
  have opened : ReadsAs (' ' :: '(' :: _) (.openParen :: _) :=
    (named.mark rfl (by decide) (.inl (by decide))).blank (by decide)
  have whole := Spells.word isWord_if _ _ (endsWord_cons (by decide) _) opened
  simpa using whole

theorem LinesSpell.elseLine (style : Style) (level : Nat) :
    LinesSpell [style.indent level ++ "\x7d else \x7b"]
      [.closeBrace, .ofWord "else", .openBrace] := by
  have text : (style.indent level ++ "\x7d else \x7b").toList =
      (style.indent level).toList ++ ('\x7d' :: ' ' :: ("else".toList ++ [' ', '\x7b'])) := by
    simp
  apply LinesSpell.line style level text
  intro rest ys hread
  have brace : ReadsAs (' ' :: '\x7b' :: '\n' :: rest) (.openBrace :: ys) :=
    (hread.mark rfl (by decide) (.inl (by decide))).blank (by decide)
  have word := Spells.word isWord_else _ _ (endsWord_cons (by decide) _) brace
  have whole : ReadsAs ('\x7d' :: ' ' :: _) (.closeBrace :: _) :=
    (word.blank (by decide)).mark rfl (by decide) (.inl (by decide))
  simpa using whole

theorem LinesSpell.closeLine (style : Style) (level : Nat) :
    LinesSpell [style.indent level ++ "\x7d"] [.closeBrace] := by
  have text : (style.indent level ++ "\x7d").toList =
      (style.indent level).toList ++ ['\x7d'] := by
    simp
  apply LinesSpell.line style level text
  intro rest ys hread
  exact hread.mark rfl (by decide) (.inl (by decide))

/-- A statement without blocks: a text with a semicolon behind it. -/
theorem LinesSpell.simple {text line : String} {xs : List Lexeme} (h : Spells text.toList xs)
    (style : Style) (level : Nat) (hl : line = style.indent level ++ text ++ ";") :
    LinesSpell [line] (xs ++ [.semicolon]) := by
  have chars : line.toList = (style.indent level).toList ++ (text.toList ++ [';']) := by
    simp [hl]
  apply LinesSpell.line style level chars
  intro rest ys hread
  have marked : ReadsAs (';' :: '\n' :: rest) (.semicolon :: ys) :=
    hread.mark rfl (by decide) (.inl (by decide))
  have whole := h _ _ (endsWord_cons (by decide) _) marked
  simpa using whole

/-- A declaration up to its semicolon. -/
theorem Spells.declaration {ds : List Declarator} (h : ∀ d ∈ ds, d.Writable) (style : Style)
    (kind : DeclarationKind) :
    Spells (kind.keyword ++ " " ++ ", ".intercalate (ds.map (Declarator.format style))).toList
      (.ofWord kind.keyword :: [Lexeme.comma].intercalate (ds.map Declarator.lexemes)) := by
  intro rest ys hr hread
  have variables_ := Spells.intercalate (fun d hd => (h d hd).spells style) rest ys hr hread
  have whole := Spells.word (isWord_declarationKeyword kind) _ _ (endsWord_cons (by decide) _)
    (variables_.blank (c := ' ') (by decide))
  simpa [toList_intercalate_comma, -String.toList_intercalate] using whole

theorem Stmt.Writable.reads {s : Stmt} (h : s.Writable) (style : Style) (level : Nat) :
    LinesSpell (s.lines style level) s.lexemes := by
  -- blocks are written one level deeper
  induction h generalizing level with
  | declaration kind hne h s =>
    rw [Stmt.lines, Stmt.lexemes, ← List.cons_append]
    apply LinesSpell.simple (Spells.declaration h style kind) style level
    simp [String.append_assoc]
  | action h s =>
    rw [Stmt.lines, Stmt.lexemes]
    exact (LinesSpell.empty _).append (.simple (h.spells style) style level rfl)
  | @conditional test h consequent alternate hc ha s ihc iha =>
    have first := (LinesSpell.ifLine h style level).append
      (LinesSpell.linesAll fun s hs => ihc s hs (level + 1))
    rw [Stmt.lines, Stmt.lexemes]
    cases hempty : alternate.isEmpty with
    | true => simpa using first.append (.closeLine style level)
    | false =>
      have second := (LinesSpell.elseLine style level).append
        (LinesSpell.linesAll fun s hs => iha s hs (level + 1))
      simpa using first.append (second.append (.closeLine style level))

/-- The text of a program is read as its lexemes, whatever the style. -/
theorem tokenize_format {p : Program} (h : ∀ s ∈ p.statements, s.Writable) (style : Style) :
    ∃ ts, tokenize (format style p) = .ok ts ∧
      ts.map Token.toLexeme = lexemesOfStmts p.statements := by
  have lines := LinesSpell.linesAll fun s hs => (h s hs).reads style 0
  obtain ⟨ts, hts, hx⟩ := lines [] [] .nil {}
  rw [List.append_nil] at hts hx
  exact ⟨ts, hts, hx⟩

end Slate
