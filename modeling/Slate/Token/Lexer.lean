import Slate.Token
import Slate.Text.Blank
import Slate.Text.Letter
import Slate.Text.Numeral

/-!
# From text to tokens

The reader stands at a `Cursor`: a `Place` in the text and the characters that follow. `Cursor.next`
skips a *gap* (blanks and comments) and reads one *spelling*, the longest that makes a token.

    text (List Char) ──gap──▶ spelling ──Scan──▶ Lexeme ──place──▶ Token

A text that is no token gives a `LexError`, and the cursor stays where reading stopped: before an
unexpected character, at the end of an unfinished string, behind the backslash of a wrong escape.

* `gap_prefix`, `Scan.ofChars_spelling`: what is read is the front of what was there;
* `Scan.spelling_ne_nil`: a token has at least one character, so reading a text comes to an end
  (`Cursor.next_shorter`).
-/

namespace Slate

open Text

/-! ### Places -/

/-- A place in a text: how many characters stand before it, its line, its column. -/
structure Place where
  offset : Nat := 0
  line : Nat := 1
  column : Nat := 1
  deriving DecidableEq

namespace Place

/-- The place behind one character. Only a line feed starts a new line. -/
def step (p : Place) (c : Char) : Place :=
  if c = '\n' then ⟨p.offset + 1, p.line + 1, 1⟩ else ⟨p.offset + 1, p.line, p.column + 1⟩

/-- The place behind a text. -/
def past (p : Place) (text : List Char) : Place := text.foldl step p

@[simp] theorem past_nil (p : Place) : p.past [] = p := rfl

@[simp] theorem past_cons (p : Place) (c : Char) (cs : List Char) :
    p.past (c :: cs) = (p.step c).past cs := rfl

theorem past_append (p : Place) (a b : List Char) : p.past (a ++ b) = (p.past a).past b :=
  List.foldl_append

/-- The span of `length` characters of one line. -/
def span (p : Place) (length : Nat) : Span := ⟨p.line, p.column, p.column + length⟩

end Place

/-! ### Gaps -/

/-- The gap in front of the next token: blanks, and comments from `//` to the end of the line.
`comment` says whether the text starts inside a comment. -/
def gap (comment : Bool) : List Char → List Char
  | [] => []
  | c :: cs =>
    if comment && c ≠ '\n' then c :: gap true cs
    else if isBlank c then c :: gap false cs
    else if c = '/' ∧ cs.head? = some '/' then c :: gap true cs
    else []

theorem gap_prefix (comment : Bool) (cs : List Char) : gap comment cs <+: cs := by
  fun_induction gap comment cs <;> simp_all [List.nil_prefix]

/-! ### Words -/

/-- What a name starts with. -/
def isNameStart (c : Char) : Bool := isLetter c || c = '_'

/-- What a name goes on with. -/
def isNamePart (c : Char) : Bool := isLetter c || isNumeral c || c = '_'

/-- The kind of a word: eight of them are reserved, all others are names. -/
def TokenKind.ofWord (word : String) : TokenKind :=
  match word with
  | "let" => .letKeyword
  | "const" => .constKeyword
  | "if" => .ifKeyword
  | "else" => .elseKeyword
  | "number" => .numberType
  | "string" => .stringType
  | "boolean" => .booleanType
  | "true" | "false" => .boolean
  | _ => .identifier

/-- The kind that a single character makes by itself. -/
def TokenKind.ofMark : Char → Option TokenKind
  | ':' => some .colon
  | ';' => some .semicolon
  | ',' => some .comma
  | '=' => some .assign
  | '+' => some .plus
  | '-' => some .minus
  | '*' => some .times
  | '/' => some .divide
  | '(' => some .openParen
  | ')' => some .closeParen
  | '{' => some .openBrace
  | '}' => some .closeBrace
  | _ => none

/-- The spelling of a number: digits, and at most one point with digits on both sides. -/
def numeral (cs : List Char) : List Char :=
  let whole := cs.takeWhile Char.isDigit
  match cs.dropWhile Char.isDigit with
  | '.' :: d :: rest =>
    if d.isDigit then whole ++ '.' :: (d :: rest).takeWhile Char.isDigit else whole
  | _ => whole

/-! ### Strings -/

/-- What an escaped character stands for. -/
def unescape : Char → Option Char
  | 'n' => some '\n'
  | 't' => some '\t'
  | 'r' => some '\r'
  | '"' => some '"'
  | '\'' => some '\''
  | '\\' => some '\\'
  | _ => none

/-- How reading a string ends, from behind its opening quote on. -/
inductive StringScan where
  /-- The quote came: what the string holds, and its spelling up to the closing quote. -/
  | closed (value spelling : List Char)
  /-- The line or the text ended: what stood before that end. -/
  | unterminated (body : List Char)
  /-- A backslash before a character that cannot be escaped, and what stood before the backslash. -/
  | invalidEscape (escaped : Char) (body : List Char)

/-- Puts characters in front of what was read. -/
def StringScan.prepend (value spelling : List Char) : StringScan → StringScan
  | closed v s => closed (value ++ v) (spelling ++ s)
  | unterminated b => unterminated (spelling ++ b)
  | invalidEscape c b => invalidEscape c (spelling ++ b)

theorem StringScan.prepend_eq_closed {v s value spelling : List Char} {x : StringScan} :
    x.prepend v s = closed value spelling ↔
      ∃ v' s', x = closed v' s' ∧ value = v ++ v' ∧ spelling = s ++ s' := by
  cases x with
  | closed a b =>
    simp only [prepend, closed.injEq]
    exact ⟨fun h => ⟨a, b, ⟨rfl, rfl⟩, h.1.symm, h.2.symm⟩,
      fun ⟨_, _, h, hv, hs⟩ => by rw [hv, hs, h.1, h.2]; exact ⟨rfl, rfl⟩⟩
  | _ => simp [prepend]

/-- Reads a string up to the quote that opened it. -/
def scanString (quote : Char) : List Char → StringScan
  | [] => .unterminated []
  | c :: cs =>
    if c = quote then .closed [] [c]
    else if c = '\n' then .unterminated []
    else if c = '\\' then
      match cs with
      | [] => .unterminated [c]
      | e :: rest =>
        match unescape e with
        | some v => (scanString quote rest).prepend [v] [c, e]
        | none => .invalidEscape e []
    else (scanString quote cs).prepend [c] [c]

/-! ### One token -/

/-- How reading one token ends. -/
inductive Scan where
  /-- A lexeme and its spelling. -/
  | found (lexeme : Lexeme) (spelling : List Char)
  /-- A character that starts no token. -/
  | unexpected (c : Char)
  /-- A string without an end: its spelling up to there. -/
  | unterminated (spelling : List Char)
  /-- A wrong escape: the escaped character, and the spelling up to the backslash. -/
  | invalidEscape (escaped : Char) (spelling : List Char)

namespace Scan

/-- A lexeme whose text is its spelling. -/
def verbatim (kind : TokenKind) (spelling : List Char) : Scan :=
  found ⟨kind, String.ofList spelling⟩ spelling

/-- Reads a string that `quote` opens. -/
def ofString (quote : Char) (cs : List Char) : Scan :=
  match scanString quote cs with
  | .closed value spelling => found ⟨.string, String.ofList value⟩ (quote :: spelling)
  | .unterminated body => unterminated (quote :: body)
  | .invalidEscape e body => invalidEscape e (quote :: body)

/-- Reads the token that starts with `c` and goes on in `cs`. -/
def ofChars (c : Char) (cs : List Char) : Scan :=
  match TokenKind.ofMark c with
  | some kind => verbatim kind [c]
  | none =>
    if c = '"' ∨ c = '\'' then ofString c cs
    else if isNameStart c then
      let word := (c :: cs).takeWhile isNamePart
      verbatim (TokenKind.ofWord (String.ofList word)) word
    else if c.isDigit then verbatim .number (numeral (c :: cs))
    else unexpected c

end Scan

/-! ### Errors -/

/-- Why a text is not made of tokens, and where. -/
inductive LexError where
  | unexpectedCharacter (c : Char) (span : Span)
  | unterminatedString (span : Span)
  | invalidEscape (c : Char) (span : Span)
  deriving DecidableEq

namespace LexError

def span : LexError → Span
  | unexpectedCharacter _ s | unterminatedString s | invalidEscape _ s => s

def message : LexError → String
  | unexpectedCharacter c s => "Unexpected character '" ++ c.toString ++ "' at " ++ s.toString
  | unterminatedString s => "Unterminated string starting at " ++ s.toString
  | invalidEscape c s => "Invalid escape sequence '\\" ++ c.toString ++ "' at " ++ s.toString

end LexError

/-! ### The cursor -/

/-- A reader of a text: where it stands and what follows. -/
structure Cursor where
  place : Place := {}
  rest : List Char

namespace Cursor

/-- A reader at the start of a text. -/
def ofString (text : String) : Cursor := { rest := text.toList }

/-- Goes over `text`, the front of what follows. -/
def skip (r : Cursor) (text : List Char) : Cursor :=
  ⟨r.place.past text, r.rest.drop text.length⟩

/-- Goes over blanks and comments. -/
def skipGap (r : Cursor) : Cursor := r.skip (gap false r.rest)

/-- The next token, if the text has one more, and the reader behind it. -/
def next (r : Cursor) : Except LexError (Option Token) × Cursor :=
  let start := r.skipGap
  match start.rest with
  | [] => (.ok none, start)
  | c :: cs =>
    match Scan.ofChars c cs with
    | .found lexeme spelling =>
      (.ok (some ⟨lexeme, start.place.span spelling.length⟩), start.skip spelling)
    | .unexpected c => (.error (.unexpectedCharacter c (start.place.span 1)), start)
    | .unterminated spelling =>
      (.error (.unterminatedString (start.place.span 1)), start.skip spelling)
    | .invalidEscape e spelling =>
      (.error (.invalidEscape e ((start.place.past spelling).span 2)),
        start.skip (spelling ++ ['\\']))

end Cursor

/-! ### What is read is the front of the text -/

theorem numeral_prefix (cs : List Char) : numeral cs <+: cs := by
  have split : cs.takeWhile Char.isDigit ++ cs.dropWhile Char.isDigit = cs :=
    List.takeWhile_append_dropWhile
  unfold numeral
  split
  · next d rest h =>
    split
    · refine ⟨(d :: rest).dropWhile Char.isDigit, ?_⟩
      rw [List.append_assoc, List.cons_append, List.takeWhile_append_dropWhile, ← h, split]
    · exact ⟨_, split⟩
  · exact ⟨_, split⟩

theorem numeral_ne_nil {c : Char} (h : c.isDigit = true) (cs : List Char) :
    numeral (c :: cs) ≠ [] := by
  unfold numeral
  have : (c :: cs).takeWhile Char.isDigit ≠ [] := by simp [h]
  split
  · split <;> simp_all
  · exact this

theorem scanString_closed_prefix {quote : Char} {cs value spelling : List Char}
    (h : scanString quote cs = .closed value spelling) : spelling <+: cs := by
  fun_induction scanString quote cs generalizing value spelling with
  | case1 => simp at h
  | case2 cs => cases h; simp
  | case3 => simp at h
  | case4 => simp at h
  | case5 _ _ _ _ _ _ ih =>
    obtain ⟨v', s', hs, -, rfl⟩ := StringScan.prepend_eq_closed.1 h
    simpa using ih hs
  | case6 => simp at h
  | case7 _ _ _ _ _ ih =>
    obtain ⟨v', s', hs, -, rfl⟩ := StringScan.prepend_eq_closed.1 h
    simpa using ih hs

theorem Scan.ofChars_spelling {c : Char} {cs : List Char} {lexeme : Lexeme}
    {spelling : List Char} (h : Scan.ofChars c cs = .found lexeme spelling) :
    spelling <+: c :: cs := by
  unfold Scan.ofChars at h
  split at h
  · cases h; simp
  · split at h
    · unfold Scan.ofString at h
      split at h <;> cases h
      next hs => simpa using scanString_closed_prefix hs
    · split at h
      · cases h; exact List.takeWhile_prefix _
      · split at h <;> cases h
        exact numeral_prefix _

theorem isNamePart_of_isNameStart {c : Char} (h : isNameStart c = true) : isNamePart c = true := by
  simp only [isNameStart, isNamePart, Bool.or_eq_true] at *
  exact h.imp_left Or.inl

theorem Scan.spelling_ne_nil {c : Char} {cs : List Char} {lexeme : Lexeme}
    {spelling : List Char} (h : Scan.ofChars c cs = .found lexeme spelling) : spelling ≠ [] := by
  unfold Scan.ofChars at h
  split at h
  · cases h; simp
  · split at h
    · unfold Scan.ofString at h
      split at h <;> cases h
      simp
    · split at h
      · next hc => cases h; simp [isNamePart_of_isNameStart hc]
      · split at h
        · next hd => cases h; exact numeral_ne_nil hd cs
        · cases h

/-! ### All tokens -/

namespace Cursor

theorem length_rest_skip (r : Cursor) (text : List Char) :
    (r.skip text).rest.length = r.rest.length - text.length := by
  simp [skip]

/-- A token takes at least one character. -/
theorem next_shorter {r s : Cursor} {t : Token} (h : r.next = (.ok (some t), s)) :
    s.rest.length < r.rest.length := by
  have gapped : r.skipGap.rest.length ≤ r.rest.length := by
    simp [skipGap, length_rest_skip]
  dsimp only [next] at h
  split at h
  · cases h
  · next c cs hr =>
    split at h <;> cases h
    next spelling hs =>
    have pos := List.length_pos_iff.2 (Scan.spelling_ne_nil hs)
    rw [length_rest_skip]
    have : 0 < r.skipGap.rest.length := by simp [hr]
    omega

/-- The tokens up to the end of the text, or the first error. -/
def tokens (r : Cursor) : Except LexError (List Token) :=
  match _read : r.next with
  | (.error e, _) => .error e
  | (.ok none, _) => .ok []
  | (.ok (some t), s) => (s.tokens).map (t :: ·)
termination_by r.rest.length
decreasing_by exact next_shorter _read

end Cursor

/-- The tokens of a text. -/
def tokenize (text : String) : Except LexError (List Token) := (Cursor.ofString text).tokens

end Slate
