import Slate.Proofs.Token.Join
import Slate.Proofs.Token.Spelling

/-!
# What a text is made of

A text that is read is nothing but its tokens and the gaps around them:

    gap token gap token ... token gap

* `LaidOut` — the tokens stand in the text in this way, each of them spelled out where its span says;
* `tokenize_eq_ok_iff` — a text is read as some tokens exactly if they stand in it so;
* `laidOut_of_tokenize_eq_error` — a text that is not read is laid out up to the place of the error.

Lines and columns are counted in the text here (`lineBehind`, `columnBehind`), and not character by character as
the reader does it.
-/

namespace Slate

open Slate.Text

/-! ## Places -/

/-- The line of what stands behind a text: one more than there are line feeds in it. -/
def lineBehind (text : List Char) : Nat := 1 + text.count '\n'

/-- The column of what stands behind a text: one more than there are characters since its last line feed. -/
def columnBehind (text : List Char) : Nat := 1 + (text.reverse.takeWhile (· ≠ '\n')).length

/-- The span starts right behind the text. -/
structure Span.StartsBehind (s : Span) (text : List Char) : Prop where
  line : s.line = lineBehind text
  start : s.start = columnBehind text

theorem columnBehind_concat (text : List Char) (c : Char) :
    columnBehind (text ++ [c]) = if c = '\n' then 1 else columnBehind text + 1 := by
  unfold columnBehind
  rw [List.reverse_append, List.reverse_singleton, List.singleton_append, List.takeWhile_cons]
  by_cases h : c = '\n'
  · simp [h]
  · simp [h]
    omega

theorem Place.column_past (text : List Char) : (({} : Place).past text).column = columnBehind text := by
  -- over the text from its end: each character is behind all others
  obtain ⟨reversed, rfl⟩ : ∃ reversed : List Char, text = reversed.reverse := ⟨text.reverse, by simp⟩
  induction reversed with
  | nil => rfl
  | cons c reversed ih =>
    rw [List.reverse_cons, past_append, columnBehind_concat, ← ih]
    unfold past step
    simp only [List.foldl_cons, List.foldl_nil]
    split <;> rfl

theorem Place.startsBehind_span (text : List Char) (length : Nat) :
    ((({} : Place).past text).span length).StartsBehind text where
  line := line_past {} text
  start := column_past text

/-! ## Gaps -/

/-- Blanks and comments in front of `rest`. A comment ends with its line, or where the text ends. -/
inductive IsGap : List Char → List Char → Prop
  | nil {rest : List Char} : IsGap rest []
  | blank {rest gap : List Char} {c : Char} (hc : isBlank c = true) (h : IsGap rest gap) :
      IsGap rest (c :: gap)
  | comment {rest gap body : List Char} (hb : '\n' ∉ body) (h : IsGap rest gap) :
      IsGap rest ('/' :: '/' :: (body ++ '\n' :: gap))
  | lastComment {body : List Char} (hb : '\n' ∉ body) : IsGap [] ('/' :: '/' :: body)

/-- The rest of a comment, and the gap behind it. -/
def EndsComment (rest text : List Char) : Prop :=
  ('\n' ∉ text ∧ rest = []) ∨
    ∃ body gap, '\n' ∉ body ∧ text = body ++ '\n' :: gap ∧ IsGap rest gap

theorem EndsComment.cons {rest text : List Char} {c : Char} (h : EndsComment rest text)
    (hc : c ≠ '\n') : EndsComment rest (c :: text) := by
  rcases h with ⟨hb, rfl⟩ | ⟨body, gap, hb, rfl, hg⟩
  · exact .inl ⟨by simp [hc.symm, hb], rfl⟩
  · exact .inr ⟨c :: body, gap, by simp [hc.symm, hb], rfl, hg⟩

/-- Behind two slashes the rest of a comment makes a gap. The second one is part of the text here. -/
theorem EndsComment.isGap {rest text : List Char} (h : EndsComment rest ('/' :: text)) :
    IsGap rest ('/' :: '/' :: text) := by
  rcases h with ⟨hb, rfl⟩ | ⟨body, gap, hb, he, hg⟩
  · exact .lastComment fun hm => hb (List.mem_cons_of_mem _ hm)
  · cases body with
    | nil => cases he
    | cons c body =>
      cases he
      exact .comment (fun hm => hb (List.mem_cons_of_mem _ hm)) hg

/-- What is skipped is a gap, from inside a comment on as well. -/
theorem gap_shape (comment : Bool) (cs : List Char) : ∀ rest, cs = gap comment cs ++ rest →
    if comment then EndsComment rest (gap comment cs) else IsGap rest (gap comment cs) := by
  fun_induction gap comment cs with
  | case1 comment =>
    rintro rest rfl
    cases comment
    · exact .nil
    · exact .inl ⟨List.not_mem_nil, rfl⟩
  | case2 comment c cs inside ih =>
    intro rest h
    rw [List.cons_append, List.cons_inj_right] at h
    obtain ⟨rfl, hc⟩ : comment = true ∧ c ≠ '\n' := by simpa using inside
    exact (ih rest h).cons hc
  | case3 comment c cs inside blank ih =>
    intro rest h
    rw [List.cons_append, List.cons_inj_right] at h
    have gap_ : IsGap rest (gap false cs) := ih rest h
    cases comment with
    | false => exact .blank blank gap_
    | true =>
      obtain rfl : c = '\n' := by simpa using inside
      exact .inr ⟨[], _, List.not_mem_nil, rfl, gap_⟩
  | case4 comment c cs inside noBlank slashes ih =>
    intro rest h
    rw [List.cons_append, List.cons_inj_right] at h
    have noComment : comment = false := by
      cases comment with
      | false => rfl
      | true =>
        obtain rfl : c = '\n' := by simpa using inside
        exact absurd slashes.1 (by decide)
    obtain ⟨rfl, second⟩ := slashes
    obtain ⟨cs, rfl⟩ : ∃ more, cs = '/' :: more := by
      cases cs with
      | nil => cases second
      | cons d more =>
        cases second
        exact ⟨more, rfl⟩
    have ends : EndsComment rest (gap true ('/' :: cs)) := ih rest h
    have taken : gap true ('/' :: cs) = '/' :: gap true cs := by
      rw [gap, if_pos (by decide)]
    rw [noComment, taken] at *
    exact ends.isGap
  | case5 comment c cs inside noBlank noSlashes =>
    rintro rest -
    cases comment with
    | false => exact .nil
    | true =>
      obtain rfl : c = '\n' := by simpa using inside
      exact absurd (by decide) noBlank

/-- Neither a blank nor a comment comes first. -/
def StartsNoGap (text : List Char) : Prop :=
  ∀ c rest, text = c :: rest → isBlank c = false ∧ ¬ (c = '/' ∧ rest.head? = some '/')

/-- What stands behind a gap is no blank, and starts no comment. -/
theorem startsNoGap_behind (comment : Bool) (cs : List Char) :
    ∀ rest, cs = gap comment cs ++ rest → StartsNoGap rest := by
  fun_induction gap comment cs with
  | case1 =>
    rintro rest rfl c more h
    cases h
  | case2 _ c cs _ ih | case3 _ c cs _ _ ih | case4 _ c cs _ _ _ ih =>
    intro rest h
    rw [List.cons_append, List.cons_inj_right] at h
    exact ih rest h
  | case5 _ c cs _ noBlank noSlashes =>
    rintro rest rfl d more h
    cases h
    exact ⟨by simpa using noBlank, noSlashes⟩

theorem gap_slashes (text : List Char) : gap false ('/' :: '/' :: text) = '/' :: '/' :: gap true text := by
  have noBlank : ¬ isBlank '/' = true := by decide
  rw [gap, if_neg (by simp), if_neg noBlank, if_pos ⟨rfl, rfl⟩, gap, if_pos (by decide)]

theorem gap_true_append {body : List Char} (h : '\n' ∉ body) (text : List Char) :
    gap true (body ++ text) = body ++ gap true text := by
  induction body with
  | nil => rfl
  | cons c body ih =>
    have other : c ≠ '\n' := fun e => h (by simp [e])
    rw [List.cons_append, gap, if_pos (by simpa using other),
      ih fun hm => h (List.mem_cons_of_mem _ hm), List.cons_append]

theorem gap_true_newline (text : List Char) : gap true ('\n' :: text) = '\n' :: gap false text := by
  have blank : isBlank '\n' = true := by decide
  rw [gap, if_neg (by simp), if_pos blank]

/-- A gap is skipped whole, and nothing behind it. -/
theorem gap_append {gap_ rest : List Char} (h : IsGap rest gap_) (hr : StartsNoGap rest) :
    gap false (gap_ ++ rest) = gap_ := by
  induction h with
  | @nil rest =>
    cases rest with
    | nil => rfl
    | cons c rest => exact Cursor.gap_nil (hr c rest rfl).1 (hr c rest rfl).2
  | blank hc _ ih => rw [List.cons_append, Cursor.gap_blank hc, ih hr]
  | comment hb _ ih =>
    simp only [List.cons_append, List.append_assoc]
    rw [gap_slashes, gap_true_append hb, gap_true_newline, ih hr]
  | lastComment hb =>
    have whole := gap_true_append hb []
    rw [List.append_nil] at whole
    rw [List.append_nil, gap_slashes, whole, gap, List.append_nil]

/-! ## Tokens in a text -/

/-- A token stands between two texts: it is spelled out there, all of it, and its span says where. -/
structure Token.Stands (t : Token) (before spelling behind : List Char) : Prop where
  nonempty : spelling ≠ []
  oneLine : '\n' ∉ spelling
  spelled : SpelledAs t.toLexeme spelling
  ends : Stops t.kind spelling behind
  /-- Two slashes start a comment. -/
  slash : t.kind = .divide → behind.head? ≠ some '/'
  place : t.span.StartsBehind before
  length : t.span.stop = t.span.start + spelling.length

/-- The third text is made of the tokens, each of them behind a gap, and of a last gap. It stands between the
first one and `behind`. -/
inductive LaidOut (behind : List Char) : List Char → List Token → List Char → Prop
  | done {before gap : List Char} (hg : IsGap behind gap) : LaidOut behind before [] gap
  | more {before gap spelling text : List Char} {t : Token} {ts : List Token}
      (hg : IsGap (spelling ++ (text ++ behind)) gap)
      (ht : t.Stands (before ++ gap) spelling (text ++ behind))
      (h : LaidOut behind (before ++ gap ++ spelling) ts text) :
      LaidOut behind before (t :: ts) (gap ++ spelling ++ text)

theorem SpelledAs.divide {x : Lexeme} {spelling : List Char} (h : SpelledAs x spelling)
    (hk : x.kind = .divide) : spelling = ['/'] := by
  cases h with
  | mark h =>
    dsimp only at hk
    rw [hk] at h
    unfold TokenKind.ofMark at h
    split at h <;> cases h
    rfl
  | @word s _ =>
    have word := isWord_ofWord s
    dsimp only at hk
    rw [hk] at word
    cases word
  | number | string => cases hk

theorem SpelledAs.of_slash {x : Lexeme} {cs : List Char} (h : SpelledAs x ('/' :: cs)) :
    x.kind = .divide := by
  generalize spelled : '/' :: cs = spelling at h
  cases h with
  | mark h =>
    cases spelled
    cases h
    rfl
  | word h =>
    obtain ⟨c, cs, text, start, -⟩ := h
    rw [text] at spelled
    cases spelled
    cases (ofMark_of_isNameStart start).1
  | number h =>
    obtain ⟨d, ds, rfl, digit⟩ := h.exists_cons
    cases spelled
    exact absurd digit (by decide)
  | string hq _ =>
    cases spelled
    rcases hq with hq | hq <;> cases hq

theorem Token.Stands.span_eq {t : Token} {before spelling behind : List Char}
    (h : t.Stands before spelling behind) : t.span = (({} : Place).past before).span spelling.length := by
  have same := Place.startsBehind_span before spelling.length
  have line := h.place.line.trans same.line.symm
  have start := h.place.start.trans same.start.symm
  have stop : t.span.stop = ((({} : Place).past before).span spelling.length).stop := by
    rw [h.length, start]
    rfl
  obtain ⟨x, l, a, b⟩ := t
  exact congr (congr (congrArg Span.mk line) start) stop

namespace Cursor

/-- The reader stands behind a text. -/
def StandsBehind (r : Cursor) (before : List Char) : Prop := r.place = ({} : Place).past before

theorem isGap_gap (r : Cursor) : r.rest = gap false r.rest ++ r.skipGap.rest ∧
    IsGap r.skipGap.rest (gap false r.rest) ∧ StartsNoGap r.skipGap.rest := by
  have front := gap_prefix false r.rest
  have whole : r.rest = gap false r.rest ++ r.skipGap.rest :=
    (List.prefix_iff_eq_append.1 front).symm
  exact ⟨whole, gap_shape false r.rest _ whole, startsNoGap_behind false r.rest _ whole⟩

theorem StandsBehind.skip {r : Cursor} {before : List Char} (h : r.StandsBehind before)
    (text : List Char) : (r.skip text).StandsBehind (before ++ text) := by
  rw [StandsBehind, Place.past_append, ← h]
  rfl

/-- A token is read: a gap, then its spelling. -/
theorem stands_of_next {r s : Cursor} {t : Token} {before : List Char} (h : r.next = (.ok (some t), s))
    (hr : r.StandsBehind before) :
    ∃ gap spelling, r.rest = gap ++ spelling ++ s.rest ∧ IsGap (spelling ++ s.rest) gap ∧
      t.Stands (before ++ gap) spelling s.rest ∧ s.StandsBehind (before ++ gap ++ spelling) := by
  obtain ⟨c, cs, x, spelling, start, found, rfl, rfl⟩ := next_eq_some.1 h
  obtain ⟨whole, isGap, stops⟩ := r.isGap_gap
  obtain ⟨spelled, rest, text, ends⟩ := isSpelled_of_found found
  have behind : (r.skipGap.skip spelling).rest = rest := by
    rw [skip, start, text, List.drop_left]
  have place : r.skipGap.StandsBehind (before ++ gap false r.rest) := hr.skip _
  rw [start] at whole isGap stops
  refine ⟨gap false r.rest, spelling, ?_, ?_, ?_, place.skip spelling⟩
  · rw [behind, List.append_assoc, ← text]
    exact whole
  · rw [behind, ← text]
    exact isGap
  · rw [behind]
    refine ⟨Scan.spelling_ne_nil found, spelled.notMem_newline, spelled, ends, ?_, ?_, rfl⟩
    · intro divide slash
      rw [spelled.divide divide] at text
      cases text
      exact (stops '/' _ rfl).2 ⟨rfl, slash⟩
    · rw [place]
      exact Place.startsBehind_span _ _

/-- Where a token stands behind a gap, it is read. -/
theorem next_of_stands {r : Cursor} {t : Token} {before gap_ spelling rest : List Char}
    (hr : r.StandsBehind before) (text : r.rest = gap_ ++ (spelling ++ rest))
    (hg : IsGap (spelling ++ rest) gap_) (ht : t.Stands (before ++ gap_) spelling rest) :
    ∃ s, r.next = (.ok (some t), s) ∧ s.rest = rest ∧ s.StandsBehind (before ++ gap_ ++ spelling) := by
  obtain ⟨c, cs, rfl, noBlank⟩ := ht.spelled.exists_cons
  have noGap : StartsNoGap (c :: cs ++ rest) := by
    rintro d more h
    cases h
    refine ⟨noBlank, ?_⟩
    rintro ⟨rfl, slash⟩
    have divide := ht.spelled.of_slash
    obtain rfl : cs = [] := (List.cons.inj (ht.spelled.divide divide)).2
    exact ht.slash divide slash
  have skipped : gap false r.rest = gap_ := by
    rw [text]
    exact gap_append hg noGap
  have start : r.skipGap.rest = c :: (cs ++ rest) := by
    rw [skipGap, skip, skipped, text, List.drop_left]
    rfl
  have place : r.skipGap.StandsBehind (before ++ gap_) := by
    rw [skipGap, skipped]
    exact hr.skip gap_
  refine ⟨r.skipGap.skip (c :: cs), ?_, ?_, place.skip _⟩
  · refine next_eq_some.2 ⟨c, cs ++ rest, t.toLexeme, c :: cs, start,
      found_of_isSpelled ht.spelled ht.ends, ?_, rfl⟩
    rw [place, ← ht.span_eq]
  · rw [skip, start, ← List.cons_append, List.drop_left]

end Cursor

theorem laidOut_of_tokens {r : Cursor} {ts : List Token} (h : r.tokens = .ok ts) :
    ∀ before, r.StandsBehind before → LaidOut [] before ts r.rest := by
  refine Cursor.tokens_induction
    (motive := fun r ts => ∀ before, r.StandsBehind before → LaidOut [] before ts r.rest) ?_ ?_ h
  · intro r gap_ before _
    obtain ⟨whole, isGap, -⟩ := r.isGap_gap
    rw [gap_] at whole isGap
    rw [whole, List.append_nil]
    exact .done isGap
  · intro r s t ts read ih before hr
    obtain ⟨gap_, spelling, text, isGap, stands, behind⟩ := Cursor.stands_of_next read hr
    rw [text]
    refine .more ?_ ?_ (ih _ behind)
    · rw [List.append_nil]
      exact isGap
    · rw [List.append_nil]
      exact stands

theorem tokens_of_laidOut {before text : List Char} {ts : List Token} (h : LaidOut [] before ts text) :
    ∀ r : Cursor, r.StandsBehind before → r.rest = text → r.tokens = .ok ts := by
  induction h with
  | done hg =>
    intro r hr text
    have skipped : gap false (_ ++ []) = _ := gap_append hg fun c rest h => by cases h
    rw [List.append_nil, ← text] at skipped
    exact Cursor.tokens_of_gap (Cursor.gap_eq_rest_iff.1 skipped)
  | more hg ht _ ih =>
    intro r hr text
    rw [List.append_nil] at hg ht
    obtain ⟨s, read, rest, behind⟩ := Cursor.next_of_stands hr (by rw [text, List.append_assoc]) hg ht
    rw [Cursor.tokens_of_next read, ih s behind rest]
    rfl

theorem LaidOut.onlyText {behind before text : List Char} {ts : List Token}
    (h : LaidOut behind before ts text) : ∀ t ∈ ts, ∀ s ∈ t.kind.onlyText?, t.text = s := by
  induction h with
  | done => exact fun _ ht => by cases ht
  | more _ ht _ ih => exact List.forall_mem_cons.2 ⟨ht.spelled.onlyText, ih⟩

/-- A text is read as some tokens exactly if they stand in it, with gaps between them and around them. -/
theorem tokenize_eq_ok_iff {source : String} {ts : List Token} :
    tokenize source = .ok ts ↔ LaidOut [] [] ts source.toList :=
  ⟨fun h => laidOut_of_tokens h [] rfl, fun h => tokens_of_laidOut h _ rfl rfl⟩

/-! ## Texts that are not read -/

/-- What the error says of a text that goes on in `behind`: nothing is spelled there, and the span starts at the
character that comes next, be it any character or the quote that opens a string. Of a wrong escape the span
starts at the backslash. -/
def LexError.Stands (before behind : List Char) : LexError → Prop
  | unexpectedCharacter c s => ∃ rest, behind = c :: rest ∧ s.StartsBehind before
  | unterminatedString s => ∃ quote rest, IsQuote quote ∧ behind = quote :: rest ∧ s.StartsBehind before
  | invalidEscape e s => ∃ quote body value rest, IsQuote quote ∧ Denotes quote body value ∧
      behind = quote :: (body ++ '\\' :: e :: rest) ∧ s.StartsBehind (before ++ quote :: body)

namespace Cursor

/-- An error is found behind a gap. -/
theorem stands_of_next_error {r s : Cursor} {e : LexError} {before : List Char}
    (h : r.next = (.error e, s)) (hr : r.StandsBehind before) :
    ∃ gap behind, r.rest = gap ++ behind ∧ IsGap behind gap ∧ SpellsNothing behind ∧
      e.Stands (before ++ gap) behind := by
  obtain ⟨whole, isGap, -⟩ := r.isGap_gap
  have place : r.skipGap.StandsBehind (before ++ gap false r.rest) := hr.skip _
  refine ⟨_, _, whole, isGap, ?_⟩
  dsimp only [next] at h
  cases start : r.skipGap.rest with
  | nil =>
    rw [start] at h
    cases h
  | cons c cs =>
    rw [start] at h
    dsimp only at h
    have starts (text : List Char) (length : Nat) : ((r.skipGap.place.past text).span length).StartsBehind
        (before ++ gap false r.rest ++ text) := by
      rw [place, ← Place.past_append]
      exact Place.startsBehind_span _ _
    have here := starts [] 1
    rw [List.append_nil, Place.past_nil] at here
    generalize scanned : Scan.ofChars c cs = scan at h
    have noFound : ∀ x spelling, scan ≠ .found x spelling := by
      rintro x spelling rfl
      cases h
    refine ⟨spellsNothing_of_not_found (by rw [scanned]; exact noFound), ?_⟩
    rcases ofChars_not_found scanned noFound with rfl | ⟨quoted, ⟨spelling, rfl⟩ | ⟨escaped, body, rfl, hs⟩⟩
    · cases h
      exact ⟨cs, rfl, here⟩
    · cases h
      exact ⟨c, cs, quoted, rfl, here⟩
    · cases h
      obtain ⟨value, rest, denotes, rfl⟩ := denotes_of_invalidEscape hs
      exact ⟨c, body, value, rest, quoted, denotes, rfl, starts (c :: body) 2⟩

end Cursor

/-- A text that is not read is laid out as tokens up to the place of the error, where nothing is spelled. -/
theorem laidOut_of_tokens_eq_error {r : Cursor} {e : LexError} (h : r.tokens = .error e) :
    ∀ before, r.StandsBehind before → ∃ text behind ts, r.rest = text ++ behind ∧
      LaidOut behind before ts text ∧ SpellsNothing behind ∧ e.Stands (before ++ text) behind := by
  induction hn : r.rest.length using Nat.strongRecOn generalizing r with
  | ind n ih =>
    intro before hr
    rw [Cursor.tokens_eq] at h
    split at h
    · next e' s read =>
      cases h
      obtain ⟨gap, behind, text, isGap, nothing, stands⟩ := Cursor.stands_of_next_error read hr
      exact ⟨gap, behind, [], text, .done isGap, nothing, stands⟩
    · cases h
    · next t s read =>
      cases hs : s.tokens with
      | ok ts => rw [hs] at h; cases h
      | error e' =>
        rw [hs] at h
        cases h
        obtain ⟨gap, spelling, text, isGap, token, behind⟩ := Cursor.stands_of_next read hr
        obtain ⟨more, left, ts, rest, laidOut, nothing, stands⟩ :=
          ih _ (hn ▸ Cursor.next_shorter read) hs rfl _ behind
        rw [rest] at text isGap token
        refine ⟨gap ++ spelling ++ more, left, t :: ts, ?_, .more isGap token laidOut, nothing, ?_⟩
        · rw [text, List.append_assoc _ more]
        · simpa only [List.append_assoc] using stands

theorem laidOut_of_tokenize_eq_error {source : String} {e : LexError} (h : tokenize source = .error e) :
    ∃ text behind ts, source.toList = text ++ behind ∧ LaidOut behind [] ts text ∧
      SpellsNothing behind ∧ e.Stands text behind := by
  obtain ⟨text, behind, ts, h⟩ := laidOut_of_tokens_eq_error h [] rfl
  exact ⟨text, behind, ts, h⟩

end Slate
