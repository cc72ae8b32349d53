import Slate.Proofs.Token.Lexer

/-!
# How tokens are spelled

A lexeme is a mark, a word, a number or a string, and each of the four is spelled in its own way. `SpelledAs`
says how, without a word on how a spelling is looked for:

* `isSpelled_of_found` — what the reader finds is spelled so, and nothing behind it would have gone on with it;
* `found_of_isSpelled` — where a lexeme is spelled and ends, the reader finds it;
* `spellsNothing_of_not_found` — where the reader finds none, none is spelled.
-/

namespace Slate

open Slate.Text

/-! ## Spellings -/

/-- The kinds that are written as a word: names, and the words that are reserved. -/
def TokenKind.isWord : TokenKind → Bool
  | letKeyword | constKeyword | ifKeyword | elseKeyword | numberType | stringType | booleanType
  | identifier | boolean => true
  | _ => false

/-- At least one digit, and nothing else. -/
def AreDigits (ds : List Char) : Prop := ds ≠ [] ∧ ∀ d ∈ ds, d.isDigit = true

/-- A number is digits, or digits on both sides of a point. -/
inductive IsNumber : List Char → Prop
  | whole {ds : List Char} (h : AreDigits ds) : IsNumber ds
  | fraction {ds fs : List Char} (h : AreDigits ds) (hf : AreDigits fs) : IsNumber (ds ++ '.' :: fs)

/-- What stands between two quotes, and what it stands for: each character for itself, but for the backslash,
which stands for nothing and gives the character behind it another meaning. -/
inductive Denotes (quote : Char) : List Char → List Char → Prop
  | nil : Denotes quote [] []
  | plain {c : Char} {body value : List Char} (hq : c ≠ quote) (hn : c ≠ '\n') (hb : c ≠ '\\')
      (h : Denotes quote body value) : Denotes quote (c :: body) (c :: value)
  | escape {e v : Char} {body value : List Char} (he : unescape e = some v)
      (h : Denotes quote body value) : Denotes quote ('\\' :: e :: body) (v :: value)

/-- What a string starts and ends with. -/
def IsQuote (c : Char) : Prop := c = '"' ∨ c = '\''

/-- How a lexeme is spelled. All but strings are spelled as their text. -/
inductive SpelledAs : Lexeme → List Char → Prop
  | mark {c : Char} {kind : TokenKind} (h : TokenKind.ofMark c = some kind) :
      SpelledAs ⟨kind, String.ofList [c]⟩ [c]
  | word {s : String} (h : IsWord s) : SpelledAs ⟨TokenKind.ofWord s, s⟩ s.toList
  | number {cs : List Char} (h : IsNumber cs) : SpelledAs ⟨.number, String.ofList cs⟩ cs
  | string {quote : Char} {body value : List Char} (hq : IsQuote quote) (h : Denotes quote body value) :
      SpelledAs ⟨.string, String.ofList value⟩ (quote :: (body ++ [quote]))

/-- What stands behind a lexeme does not go on with it. -/
structure Stops (kind : TokenKind) (spelling rest : List Char) : Prop where
  word : kind.isWord = true → ∀ c ∈ rest.head?, isNamePart c = false
  digit : kind = .number → ∀ c ∈ rest.head?, c.isDigit = false
  /-- A point is part of a number if it is the first one and a digit follows. -/
  point : kind = .number → '.' ∉ spelling → ∀ d more, rest = '.' :: d :: more → d.isDigit = false

theorem isWord_ofWord (s : String) : (TokenKind.ofWord s).isWord = true := by
  unfold TokenKind.ofWord
  split <;> rfl

theorem ofMark_eq_some {c : Char} {kind : TokenKind} (h : TokenKind.ofMark c = some kind) :
    c ≠ '\n' ∧ isBlank c = false ∧ kind.isWord = false ∧ kind ≠ .number ∧ kind ≠ .string := by
  unfold TokenKind.ofMark at h
  split at h <;> cases h <;> decide

/-- The text of all lexemes of a kind, if they have the same one. -/
def TokenKind.onlyText? : TokenKind → Option String
  | letKeyword => some "let"
  | constKeyword => some "const"
  | ifKeyword => some "if"
  | elseKeyword => some "else"
  | numberType => some "number"
  | stringType => some "string"
  | booleanType => some "boolean"
  | identifier | number | string | boolean => none
  | colon => some ":"
  | semicolon => some ";"
  | comma => some ","
  | assign => some "="
  | plus => some "+"
  | minus => some "-"
  | times => some "*"
  | divide => some "/"
  | openParen => some "("
  | closeParen => some ")"
  | openBrace => some "\x7b"
  | closeBrace => some "\x7d"

theorem SpelledAs.onlyText {x : Lexeme} {spelling : List Char} (h : SpelledAs x spelling) :
    ∀ s ∈ x.kind.onlyText?, x.text = s := by
  intro s hs
  cases h with
  | mark h =>
    unfold TokenKind.ofMark at h
    split at h <;> cases h <;> cases hs <;> rfl
  | word =>
    dsimp only at hs
    unfold TokenKind.ofWord at hs
    split at hs <;> cases hs <;> rfl
  | number | string => cases hs

/-- A lexeme that is no word and no number ends anywhere. -/
theorem Stops.of_other {kind : TokenKind} (hw : kind.isWord = false) (hn : kind ≠ .number)
    (spelling rest : List Char) : Stops kind spelling rest where
  word h := by rw [hw] at h; cases h
  digit h := absurd h hn
  point h := absurd h hn

/-- No lexeme goes on with a blank. -/
theorem Stops.of_blank {rest : List Char} (h : ∀ c ∈ rest.head?, isBlank c = true) (kind : TokenKind)
    (spelling : List Char) : Stops kind spelling rest where
  word _ c hc := not_isNamePart_of_isBlank (h c hc)
  digit _ c hc := by
    rw [Bool.eq_false_iff]
    intro digit
    have blank := h c hc
    rw [not_isBlank_of_isDigit digit] at blank
    cases blank
  point _ _ d more e := by
    rw [e] at h
    exact absurd (h '.' rfl) (by decide)

/-! ## Numbers -/

theorem AreDigits.notMem_point {ds : List Char} (h : AreDigits ds) : '.' ∉ ds :=
  fun hm => absurd (h.2 '.' hm) (by decide)

/-- A number starts with a digit. -/
theorem IsNumber.exists_cons {cs : List Char} (h : IsNumber cs) :
    ∃ d ds, cs = d :: ds ∧ d.isDigit = true := by
  cases h with
  | whole h =>
    obtain ⟨d, ds, rfl⟩ := List.exists_cons_of_ne_nil h.1
    exact ⟨d, ds, rfl, h.2 d List.mem_cons_self⟩
  | fraction h hf =>
    obtain ⟨d, ds, rfl⟩ := List.exists_cons_of_ne_nil h.1
    exact ⟨d, _, rfl, h.2 d List.mem_cons_self⟩

theorem areDigits_takeWhile {c : Char} (h : c.isDigit = true) (cs : List Char) :
    AreDigits ((c :: cs).takeWhile Char.isDigit) := by
  refine ⟨?_, fun d hd => of_mem_takeWhile hd⟩
  rw [List.takeWhile_cons_of_pos h]
  exact List.cons_ne_nil _ _

/-- Where taking the characters that fit stops, none is next. -/
theorem head?_dropWhile {p : Char → Bool} (cs : List Char) :
    ∀ c ∈ (cs.dropWhile p).head?, p c = false := by
  intro c hc
  have := List.head?_dropWhile_not p cs
  rw [Option.mem_def.1 hc] at this
  simpa using this

/-- The digits at the start of a text are read as a number, with a point and further digits if there are some. -/
theorem isNumber_numeral {c : Char} (h : c.isDigit = true) (cs : List Char) :
    ∃ rest, c :: cs = numeral (c :: cs) ++ rest ∧ IsNumber (numeral (c :: cs)) ∧
      Stops .number (numeral (c :: cs)) rest := by
  have digits := areDigits_takeWhile h cs
  have whole := List.takeWhile_append_dropWhile (p := Char.isDigit) (l := c :: cs)
  have stop := head?_dropWhile (p := Char.isDigit) (c :: cs)
  have noWord (h : TokenKind.number.isWord = true) {P : Prop} : P := by cases h
  unfold numeral
  generalize (c :: cs).takeWhile Char.isDigit = ds at *
  generalize (c :: cs).dropWhile Char.isDigit = rest at *
  dsimp only
  split
  · next d more =>
    split
    · next digit =>
      have fraction := areDigits_takeWhile digit more
      refine ⟨(d :: more).dropWhile Char.isDigit, ?_, .fraction digits fraction, ?_⟩
      · rw [List.append_assoc, List.cons_append, List.takeWhile_append_dropWhile, whole]
      · refine ⟨fun hw => noWord hw, fun _ => head?_dropWhile _, fun _ hp => ?_⟩
        exact absurd (List.mem_append_right _ List.mem_cons_self) hp
    · next noDigit =>
      refine ⟨_, whole.symm, .whole digits, fun hw => noWord hw, fun _ => stop, ?_⟩
      intro _ _ e more' he
      cases he
      simpa using noDigit
  · next other =>
    refine ⟨_, whole.symm, .whole digits, fun hw => noWord hw, fun _ => stop, ?_⟩
    intro _ _ d more he
    exact absurd he (other d more)

theorem numeral_of_isNumber {cs rest : List Char} (h : IsNumber cs) (stops : Stops .number cs rest) :
    numeral (cs ++ rest) = cs := by
  cases h with
  | whole h =>
    obtain ⟨taken, left⟩ := takeWhile_append_stop h.2 (stops.digit rfl)
    rw [numeral, taken, left]
    split
    · next d more => rw [if_neg (by simp [stops.point rfl h.notMem_point d more rfl])]
    · rfl
  | @fraction ds fs h hf =>
    have point : ∀ c ∈ ('.' :: fs ++ rest).head?, c.isDigit = false := by
      intro c hc
      cases hc
      decide
    obtain ⟨taken, left⟩ := takeWhile_append_stop h.2 point
    have more := (takeWhile_append_stop hf.2 (stops.digit rfl)).1
    obtain ⟨f, fs, rfl⟩ := List.exists_cons_of_ne_nil hf.1
    rw [List.append_assoc, numeral, taken, left]
    show (if f.isDigit = true then ds ++ '.' :: (f :: fs ++ rest).takeWhile Char.isDigit else ds) = _
    rw [if_pos (hf.2 f List.mem_cons_self), more]

/-! ## Strings -/

theorem denotes_of_closed {quote : Char} {cs value spelling : List Char}
    (h : scanString quote cs = .closed value spelling) :
    ∃ body rest, spelling = body ++ [quote] ∧ cs = spelling ++ rest ∧ Denotes quote body value := by
  fun_induction scanString quote cs generalizing value spelling with
  | case1 => cases h
  | case2 cs =>
    cases h
    exact ⟨[], cs, rfl, rfl, .nil⟩
  | case3 => cases h
  | case4 => cases h
  | case5 e rest v hv hq hn ih =>
    obtain ⟨v', s', hs, rfl, rfl⟩ := StringScan.prepend_eq_closed.1 h
    obtain ⟨body, rest', rfl, rfl, denotes⟩ := ih hs
    exact ⟨'\\' :: e :: body, rest', rfl, rfl, .escape hv denotes⟩
  | case6 => cases h
  | case7 c cs hq hn hb ih =>
    obtain ⟨v', s', hs, rfl, rfl⟩ := StringScan.prepend_eq_closed.1 h
    obtain ⟨body, rest', rfl, rfl, denotes⟩ := ih hs
    exact ⟨c :: body, rest', rfl, rfl, .plain hq hn hb denotes⟩

/-- What a body denotes is read, whatever comes behind it. -/
theorem scanString_of_denotes {quote : Char} (hq : IsQuote quote) {body value : List Char}
    (h : Denotes quote body value) (rest : List Char) :
    scanString quote (body ++ rest) = (scanString quote rest).prepend value body := by
  have other : '\\' ≠ quote := by rcases hq with rfl | rfl <;> decide
  induction h with
  | nil => cases h : scanString quote rest <;> simp [StringScan.prepend, h]
  | plain hq hn hb _ ih =>
    rw [List.cons_append, scanString.eq_def]
    simp only [hq, hn, hb, if_false, ih]
    cases scanString quote rest <;> simp [StringScan.prepend]
  | escape he _ ih =>
    rw [List.cons_append, List.cons_append, scanString.eq_def]
    simp only [other, if_false, he, ih]
    cases scanString quote rest <;> simp [StringScan.prepend]

theorem scanString_quote (quote : Char) (rest : List Char) :
    scanString quote (quote :: rest) = .closed [] [quote] := by
  rw [scanString.eq_def]
  simp

theorem Denotes.notMem_newline {quote : Char} {body value : List Char} (h : Denotes quote body value) :
    '\n' ∉ body := by
  induction h with
  | nil => exact List.not_mem_nil
  | plain _ hn _ _ ih => simp [Ne.symm hn, ih]
  | @escape e v body value he _ ih =>
    have other : '\n' ≠ e := by
      rintro rfl
      cases he
    simp [other, ih]

/-! ## All lexemes -/

theorem IsQuote.ne_newline {quote : Char} (h : IsQuote quote) : quote ≠ '\n' ∧ isBlank quote = false := by
  rcases h with rfl | rfl <;> decide

theorem not_isNamePart_newline : isNamePart '\n' = false :=
  not_isNamePart_of_ascii (by decide) rfl rfl (by decide)

namespace SpelledAs

variable {x : Lexeme} {spelling : List Char}

/-- A spelling has a first character, which is no blank. -/
theorem exists_cons (h : SpelledAs x spelling) : ∃ c cs, spelling = c :: cs ∧ isBlank c = false := by
  cases h with
  | mark h => exact ⟨_, _, rfl, (ofMark_eq_some h).2.1⟩
  | word h =>
    obtain ⟨c, cs, text, start, -⟩ := h
    exact ⟨c, cs, text, not_isBlank_of_isNameStart start⟩
  | number h =>
    obtain ⟨d, ds, rfl, digit⟩ := h.exists_cons
    exact ⟨d, ds, rfl, not_isBlank_of_isDigit digit⟩
  | string hq h => exact ⟨_, _, rfl, hq.ne_newline.2⟩

/-- No spelling goes over a line feed. -/
theorem notMem_newline (h : SpelledAs x spelling) : '\n' ∉ spelling := by
  cases h with
  | mark h => simpa using (ofMark_eq_some h).1.symm
  | word h =>
    obtain ⟨c, cs, text, start, parts⟩ := h
    rw [text]
    intro hm
    have part : isNamePart '\n' = true := by
      rcases List.mem_cons.1 hm with rfl | hm
      · exact isNamePart_of_isNameStart start
      · exact parts _ hm
    rw [not_isNamePart_newline] at part
    cases part
  | number h =>
    have digits {ds : List Char} (h : AreDigits ds) : '\n' ∉ ds :=
      fun hm => absurd (h.2 _ hm) (by decide)
    cases h with
    | whole h => exact digits h
    | fraction h hf => simp [digits h, digits hf]
  | string hq h => simp [hq.ne_newline.1.symm, h.notMem_newline]

end SpelledAs

/-- What is found is a spelling of the lexeme, and ends where nothing goes on with it. -/
theorem isSpelled_of_found {c : Char} {cs spelling : List Char} {x : Lexeme}
    (h : Scan.ofChars c cs = .found x spelling) :
    SpelledAs x spelling ∧ ∃ rest, c :: cs = spelling ++ rest ∧ Stops x.kind spelling rest := by
  unfold Scan.ofChars at h
  split at h
  · next kind hk =>
    cases h
    obtain ⟨-, -, word, number, -⟩ := ofMark_eq_some hk
    exact ⟨.mark hk, cs, rfl, .of_other word number _ _⟩
  · split at h
    · next quoted =>
      unfold Scan.ofString at h
      split at h <;> cases h
      next value spelling hs =>
      obtain ⟨body, rest, rfl, rfl, denotes⟩ := denotes_of_closed hs
      exact ⟨.string quoted denotes, rest, rfl, .of_other rfl (fun e => by cases e) _ _⟩
    · split at h
      · next start =>
        cases h
        have whole := List.takeWhile_append_dropWhile (p := isNamePart) (l := c :: cs)
        have word : IsWord (String.ofList ((c :: cs).takeWhile isNamePart)) := by
          refine ⟨c, cs.takeWhile isNamePart, ?_, start, fun _ => of_mem_takeWhile⟩
          rw [String.toList_ofList, List.takeWhile_cons_of_pos (isNamePart_of_isNameStart start)]
        refine ⟨?_, _, whole.symm, fun _ => head?_dropWhile _, fun hn => ?_, fun hn => ?_⟩
        · simpa using SpelledAs.word word
        · exact absurd hn (ofWord_ne_number _)
        · exact absurd hn (ofWord_ne_number _)
      · split at h <;> cases h
        next digit =>
        obtain ⟨rest, whole, number, stops⟩ := isNumber_numeral digit cs
        exact ⟨.number number, rest, whole, stops⟩

theorem ofChars_of_isNameStart {c : Char} (h : isNameStart c = true) (cs : List Char) :
    Scan.ofChars c cs = .verbatim (TokenKind.ofWord (String.ofList ((c :: cs).takeWhile isNamePart)))
      ((c :: cs).takeWhile isNamePart) := by
  obtain ⟨noMark, noQuote⟩ := ofMark_of_isNameStart h
  rw [Scan.ofChars, noMark]
  dsimp only
  rw [if_neg noQuote, if_pos h]

theorem ofChars_of_isDigit {c : Char} (h : c.isDigit = true) (cs : List Char) :
    Scan.ofChars c cs = .verbatim .number (numeral (c :: cs)) := by
  obtain ⟨noMark, noQuote⟩ := ofMark_of_isDigit h
  rw [Scan.ofChars, noMark]
  dsimp only
  rw [if_neg noQuote, if_neg (by simp [not_isNameStart_of_isDigit h]), if_pos h]

theorem ofChars_of_isQuote {c : Char} (h : IsQuote c) (cs : List Char) :
    Scan.ofChars c cs = .ofString c cs := by
  have noMark : TokenKind.ofMark c = none := by rcases h with rfl | rfl <;> rfl
  unfold IsQuote at h
  rw [Scan.ofChars, noMark]
  dsimp only
  rw [if_pos h]

/-- A lexeme that is spelled and ends is found. -/
theorem found_of_isSpelled {c : Char} {cs rest : List Char} {x : Lexeme} (h : SpelledAs x (c :: cs))
    (stops : Stops x.kind (c :: cs) rest) : Scan.ofChars c (cs ++ rest) = .found x (c :: cs) := by
  generalize spelled : c :: cs = spelling at h stops
  cases h with
  | mark hk =>
    cases spelled
    rw [Scan.ofChars, hk]
    rfl
  | @word s h =>
    obtain ⟨d, ds, text, start, parts⟩ := h
    rw [text] at spelled
    cases spelled
    have whole : (c :: (cs ++ rest)).takeWhile isNamePart = c :: cs :=
      (takeWhile_append_stop (List.forall_mem_cons.2 ⟨isNamePart_of_isNameStart start, parts⟩)
        (stops.word (isWord_ofWord s))).1
    have back : String.ofList (c :: cs) = s := by rw [← text, String.ofList_toList]
    rw [ofChars_of_isNameStart start, whole, Scan.verbatim, back, text]
  | number h =>
    subst spelled
    obtain ⟨d, ds, e, digit⟩ := h.exists_cons
    cases e
    rw [ofChars_of_isDigit digit, ← List.cons_append, numeral_of_isNumber h stops]
    rfl
  | @string quote body value hq h =>
    cases spelled
    rw [ofChars_of_isQuote hq, Scan.ofString, List.append_assoc, scanString_of_denotes hq h,
      List.singleton_append, scanString_quote]
    simp [StringScan.prepend]

/-- Where a lexeme is spelled, the reader finds one, if only a longer one. -/
theorem exists_found_of_isSpelled {c : Char} {cs : List Char} {x : Lexeme} (h : SpelledAs x (c :: cs))
    (rest : List Char) : ∃ y spelling, Scan.ofChars c (cs ++ rest) = .found y spelling := by
  by_cases stops : Stops x.kind (c :: cs) rest
  · exact ⟨x, _, found_of_isSpelled h stops⟩
  · generalize spelled : c :: cs = spelling at h stops
    cases h with
    | mark hk =>
      obtain ⟨-, -, word, number, -⟩ := ofMark_eq_some hk
      exact absurd (.of_other word number _ _) stops
    | word h =>
      obtain ⟨d, ds, text, start, -⟩ := h
      rw [text] at spelled
      cases spelled
      exact ⟨_, _, ofChars_of_isNameStart start _⟩
    | number h =>
      obtain ⟨d, ds, rfl, digit⟩ := h.exists_cons
      cases spelled
      exact ⟨_, _, ofChars_of_isDigit digit _⟩
    | string => exact absurd (.of_other rfl (fun e => by cases e) _ _) stops

/-! ## What is not spelled -/

/-- The text does not start with a lexeme. -/
def SpellsNothing (text : List Char) : Prop :=
  ∀ x spelling rest, SpelledAs x spelling → text ≠ spelling ++ rest

/-- Where the reader finds nothing, nothing is spelled. -/
theorem spellsNothing_of_not_found {c : Char} {cs : List Char}
    (h : ∀ x spelling, Scan.ofChars c cs ≠ .found x spelling) : SpellsNothing (c :: cs) := by
  intro x spelling rest hs e
  obtain ⟨d, ds, rfl, -⟩ := hs.exists_cons
  cases e
  obtain ⟨y, found, hf⟩ := exists_found_of_isSpelled hs rest
  exact h y found hf

theorem denotes_of_invalidEscape {quote e : Char} {cs body : List Char}
    (h : scanString quote cs = .invalidEscape e body) :
    ∃ value rest, Denotes quote body value ∧ cs = body ++ '\\' :: e :: rest := by
  fun_induction scanString quote cs generalizing body with
  | case1 => cases h
  | case2 => cases h
  | case3 => cases h
  | case4 => cases h
  | case5 d rest v hv hq hn ih =>
    cases hs : scanString quote rest with
    | closed | unterminated => rw [hs] at h; cases h
    | invalidEscape e' body' =>
      rw [hs] at h
      cases h
      obtain ⟨value, more, denotes, rfl⟩ := ih hs
      exact ⟨v :: value, more, .escape hv denotes, rfl⟩
  | case6 d rest hv hq hn =>
    cases h
    exact ⟨[], rest, .nil, rfl⟩
  | case7 c cs hq hn hb ih =>
    cases hs : scanString quote cs with
    | closed | unterminated => rw [hs] at h; cases h
    | invalidEscape e' body' =>
      rw [hs] at h
      cases h
      obtain ⟨value, more, denotes, rfl⟩ := ih hs
      exact ⟨c :: value, more, .plain hq hn hb denotes, rfl⟩

/-- Where no lexeme is read: a string goes wrong behind its quote, any other character by itself. -/
theorem ofChars_not_found {c : Char} {cs : List Char} {scan : Scan} (h : Scan.ofChars c cs = scan)
    (hf : ∀ x spelling, scan ≠ .found x spelling) :
    scan = .unexpected c ∨ (IsQuote c ∧
      ((∃ spelling, scan = .unterminated spelling) ∨
        ∃ e body, scan = .invalidEscape e (c :: body) ∧ scanString c cs = .invalidEscape e body)) := by
  unfold Scan.ofChars at h
  split at h
  · exact absurd h.symm (hf _ _)
  · split at h
    · next quoted =>
      unfold Scan.ofString at h
      split at h
      · exact absurd h.symm (hf _ _)
      · exact .inr ⟨quoted, .inl ⟨_, h.symm⟩⟩
      · next hs => exact .inr ⟨quoted, .inr ⟨_, _, h.symm, hs⟩⟩
    · split at h
      · exact absurd h.symm (hf _ _)
      · split at h
        · exact absurd h.symm (hf _ _)
        · exact .inl h.symm

end Slate
