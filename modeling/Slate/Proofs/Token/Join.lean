import Slate.Proofs.Token.Lexer
import Slate.Proofs.Tree.Relocate

/-!
# The tokens of two texts, one below the other

A line feed ends every gap, comments included, and every spelling. So the reader of a text that goes on
behind a line feed reads the tokens of that text first (`Cursor.tokens_join`), and then the text behind, as
if it stood at the start but for the number of its lines (`Cursor.tokens_down`):

    tokenize (s ++ "\n" ++ t)  =  tokenize s  ++  tokenize t, so many lines lower
-/

namespace Slate

open Slate.Text

/-! ## Lower lines -/

/-- The span so many lines lower. -/
def Span.down (lines : Nat) (s : Span) : Span := { s with line := s.line + lines }

theorem Span.coherent_down (lines : Nat) : Coherent (down lines) where
  cover _ _ := rfl
  after _ := rfl
  before _ := rfl

namespace Place

/-- The place so many lines lower, with so many more characters in front of it. -/
def down (lines chars : Nat) (p : Place) : Place := ⟨p.offset + chars, p.line + lines, p.column⟩

theorem past_down (lines chars : Nat) (p : Place) (text : List Char) :
    (p.down lines chars).past text = (p.past text).down lines chars := by
  induction text generalizing p with
  | nil => rfl
  | cons c text ih =>
    have step : (p.down lines chars).step c = (p.step c).down lines chars := by
      unfold step down
      split <;> simp <;> omega
    rw [past_cons, past_cons, step, ih]

theorem line_past (p : Place) (text : List Char) : (p.past text).line = p.line + text.count '\n' := by
  induction text generalizing p with
  | nil => rfl
  | cons c text ih =>
    rw [past_cons, ih]
    by_cases h : c = '\n'
    · simp [step, h]
      omega
    · simp [step, h]

theorem offset_past (p : Place) (text : List Char) : (p.past text).offset = p.offset + text.length := by
  induction text generalizing p with
  | nil => rfl
  | cons c text ih =>
    have step : (p.step c).offset = p.offset + 1 := by
      unfold step
      split <;> rfl
    rw [past_cons, ih, step, List.length_cons]
    omega

/-- Behind a text and a line feed, the reader stands as at the start, but lower. -/
theorem past_newline (text : List Char) :
    (({} : Place).past text).step '\n' = ({} : Place).down (1 + text.count '\n') (1 + text.length) := by
  have line := line_past {} text
  have offset := offset_past {} text
  simp only [step, if_pos, down, line, offset]
  congr 1 <;> omega

end Place

/-! ## A line feed behind a text -/

/-- A line feed ends the gap of a text only if the gap does not end in it. -/
theorem gap_append_newline (comment : Bool) (cs rest : List Char) :
    gap comment (cs ++ '\n' :: rest) =
      if gap comment cs = cs then cs ++ '\n' :: gap false rest else gap comment cs := by
  induction cs generalizing comment with
  | nil =>
    have blank : isBlank '\n' = true := by decide
    simp [gap, blank]
  | cons c cs ih =>
    have head : (cs ++ '\n' :: rest).head? = some '/' ↔ cs.head? = some '/' := by
      cases cs <;> simp
    rw [List.cons_append, gap, gap]
    simp only [head, ih]
    split
    · split <;> simp_all
    · split
      · split <;> simp_all
      · split
        · split <;> simp_all
        · simp

theorem takeWhile_append_newline {p : Char → Bool} (h : p '\n' = false) (cs rest : List Char) :
    (cs ++ '\n' :: rest).takeWhile p = cs.takeWhile p := by
  induction cs with
  | nil => simp [h]
  | cons c cs ih => simp [List.takeWhile_cons, ih]

theorem dropWhile_append_newline {p : Char → Bool} (h : p '\n' = false) (cs rest : List Char) :
    (cs ++ '\n' :: rest).dropWhile p = cs.dropWhile p ++ '\n' :: rest := by
  induction cs with
  | nil => simp [h]
  | cons c cs ih =>
    rw [List.cons_append, List.dropWhile_cons, List.dropWhile_cons, ih]
    split <;> rfl

theorem numeral_append_newline (cs rest : List Char) : numeral (cs ++ '\n' :: rest) = numeral cs := by
  have stop : Char.isDigit '\n' = false := by decide
  unfold numeral
  rw [takeWhile_append_newline stop, dropWhile_append_newline stop]
  -- behind the digits: nothing, a point at the end, a point before more, or no point
  rcases cs.dropWhile Char.isDigit with _ | ⟨c, _ | ⟨d, more⟩⟩
  · rfl
  · by_cases hc : c = '.'
    · subst hc
      simp [stop]
    · simp [hc]
  · by_cases hc : c = '.'
    · subst hc
      simp only [List.cons_append]
      rw [← List.cons_append, takeWhile_append_newline stop]
    · simp [hc]

theorem scanString_append {quote : Char} {cs value spelling : List Char}
    (h : scanString quote cs = .closed value spelling) (more : List Char) :
    scanString quote (cs ++ more) = .closed value spelling := by
  fun_induction scanString quote cs generalizing value spelling with
  | case1 => cases h
  | case2 cs => rw [← h, List.cons_append, scanString.eq_def]; simp
  | case3 => cases h
  | case4 => cases h
  | case5 e rest v hv hq hn ih =>
    obtain ⟨v', s', hs, rfl, rfl⟩ := StringScan.prepend_eq_closed.1 h
    simp [scanString, hq, hv, ih hs, StringScan.prepend]
  | case6 => cases h
  | case7 c cs hq hn hb ih =>
    obtain ⟨v', s', hs, rfl, rfl⟩ := StringScan.prepend_eq_closed.1 h
    rw [List.cons_append, scanString.eq_def]
    simp [hq, hn, hb, ih hs, StringScan.prepend]

/-- No spelling goes over a line feed. -/
theorem Scan.ofChars_append_newline {c : Char} {cs spelling : List Char} {x : Lexeme}
    (h : ofChars c cs = .found x spelling) (rest : List Char) :
    ofChars c (cs ++ '\n' :: rest) = .found x spelling := by
  have part : isNamePart '\n' = false := not_isNamePart_of_ascii (by decide) rfl rfl (by decide)
  unfold ofChars at h ⊢
  split at h
  · next kind hk => simpa [hk] using h
  · next hk =>
    split at h
    · next quoted =>
      rw [if_pos quoted]
      unfold ofString at h ⊢
      split at h <;> cases h
      next value spelling hs => rw [scanString_append hs]
    · next notQuoted =>
      rw [if_neg notQuoted]
      split at h
      · next start =>
        cases h
        rw [if_pos start, ← List.cons_append, takeWhile_append_newline part]
        rfl
      · next notStart =>
        rw [if_neg notStart]
        split at h <;> cases h
        next digit =>
          rw [if_pos digit, ← List.cons_append, numeral_append_newline]
          rfl

/-! ## Readers -/

namespace Cursor

/-! ### The same text on lower lines -/

/-- The reader of the same text, so many lines lower. -/
def down (lines chars : Nat) (r : Cursor) : Cursor := ⟨r.place.down lines chars, r.rest⟩

theorem skip_down (lines chars : Nat) (r : Cursor) (text : List Char) :
    (r.down lines chars).skip text = (r.skip text).down lines chars := by
  rw [skip, down, Place.past_down]
  rfl

/-- A text has the same tokens on lower lines. -/
theorem tokens_down (lines chars : Nat) {r : Cursor} {ts : List Token} (h : r.tokens = .ok ts) :
    (r.down lines chars).tokens = .ok (ts.map (Token.relocate (Span.down lines))) := by
  refine tokens_induction (motive := fun r ts => (r.down lines chars).tokens =
    .ok (ts.map (Token.relocate (Span.down lines)))) ?_ ?_ h
  · intro r gap_
    refine tokens_of_gap ?_
    rw [skipGap, skip_down]
    exact gap_
  · intro r s t ts read ih
    obtain ⟨c, cs, x, spelling, hr, hs, rfl, rfl⟩ := next_eq_some.1 read
    have start : (r.down lines chars).skipGap = r.skipGap.down lines chars := skip_down ..
    have lower : (r.down lines chars).next =
        (.ok (some (Token.relocate (Span.down lines) ⟨x, r.skipGap.place.span spelling.length⟩)),
          (r.skipGap.skip spelling).down lines chars) := by
      refine next_eq_some.2 ⟨c, cs, x, spelling, ?_, hs, ?_, ?_⟩
      · rw [start]
        exact hr
      · rw [start]
        rfl
      · rw [start, skip_down]
    rw [tokens_of_next lower, ih]
    rfl

/-! ### A text that goes on behind a line feed -/

/-- The reader of a text that goes on with a line feed and `rest`. -/
def join (r : Cursor) (rest : List Char) : Cursor := ⟨r.place, r.rest ++ '\n' :: rest⟩

/-- The place behind the text. -/
def finish (r : Cursor) : Place := r.place.past r.rest

theorem skip_join {r : Cursor} {text : List Char} (h : text <+: r.rest) (rest : List Char) :
    (r.join rest).skip text = (r.skip text).join rest := by
  simp only [skip, join, List.drop_append_of_le_length h.length_le]

theorem finish_skip {r : Cursor} {text : List Char} (h : text <+: r.rest) :
    (r.skip text).finish = r.finish := by
  obtain ⟨behind, whole⟩ := h
  simp only [skip, finish, ← whole, List.drop_left, Place.past_append]

theorem gap_eq_rest_iff {r : Cursor} : gap false r.rest = r.rest ↔ r.skipGap.rest = [] := by
  have front : gap false r.rest <+: r.rest := gap_prefix false r.rest
  rw [skipGap, skip, List.drop_eq_nil_iff]
  exact ⟨fun whole => Nat.le_of_eq (congrArg List.length whole).symm, front.eq_of_length_le⟩

/-- The gap at the end of the first text goes on in the second one. -/
theorem skipGap_join_of_gap {r : Cursor} (h : r.skipGap.rest = []) (rest : List Char) :
    (r.join rest).skipGap = (Cursor.mk (r.finish.step '\n') rest).skipGap := by
  have joined : gap false (r.join rest).rest = r.rest ++ '\n' :: gap false rest := by
    rw [join, gap_append_newline, if_pos (gap_eq_rest_iff.2 h)]
  rw [skipGap, joined]
  simp [skipGap, skip, join, finish, Place.past_append]

theorem skipGap_join {r : Cursor} (h : r.skipGap.rest ≠ []) (rest : List Char) :
    (r.join rest).skipGap = r.skipGap.join rest := by
  have front : gap false r.rest <+: r.rest := gap_prefix false r.rest
  have joined : gap false (r.join rest).rest = gap false r.rest := by
    rw [join, gap_append_newline, if_neg (mt gap_eq_rest_iff.1 h)]
  rw [skipGap, joined]
  exact skip_join front rest

/-- The tokens of the text in front of the line feed come first. -/
theorem tokens_join {r : Cursor} {ts : List Token} (h : r.tokens = .ok ts) (rest : List Char) :
    (r.join rest).tokens = (Cursor.mk (r.finish.step '\n') rest).tokens.map (ts ++ ·) := by
  -- over the tokens: each is read as before, and the gap behind the last one goes on in the second text
  refine tokens_induction (motive := fun r ts => (r.join rest).tokens =
    (Cursor.mk (r.finish.step '\n') rest).tokens.map (ts ++ ·)) ?_ ?_ h
  · intro r gap_
    rw [tokens_of_skipGap (skipGap_join_of_gap gap_ rest)]
    cases (Cursor.mk (r.finish.step '\n') rest).tokens <;> rfl
  · intro r s t ts read ih
    obtain ⟨c, cs, x, spelling, hr, hs, rfl, rfl⟩ := next_eq_some.1 read
    have gapped : gap false r.rest <+: r.rest := gap_prefix false r.rest
    have front : spelling <+: r.skipGap.rest := by
      rw [hr]
      exact Scan.ofChars_spelling hs
    have start : (r.join rest).skipGap = r.skipGap.join rest := skipGap_join (by simp [hr]) rest
    have longer : (r.join rest).next =
        (.ok (some ⟨x, r.skipGap.place.span spelling.length⟩), (r.skipGap.skip spelling).join rest) := by
      refine next_eq_some.2 ⟨c, cs ++ '\n' :: rest, x, spelling, ?_,
        Scan.ofChars_append_newline hs rest, ?_, ?_⟩
      · rw [start, join, hr]
        rfl
      · rw [start]
        rfl
      · rw [start, skip_join front]
    have finish_ : (r.skipGap.skip spelling).finish = r.finish := by
      rw [finish_skip front]
      exact finish_skip gapped
    rw [tokens_of_next longer, ih, finish_]
    cases (Cursor.mk (r.finish.step '\n') rest).tokens <;> rfl

end Cursor

/-! ## Two texts -/

/-- The tokens of two texts, one below the other, are those of the first and, on lower lines, those of the
second. -/
theorem tokenize_join {s t : String} {ts us : List Token} (hs : tokenize s = .ok ts)
    (ht : tokenize t = .ok us) :
    tokenize (s ++ "\n" ++ t) =
      .ok (ts ++ us.map (Token.relocate (Span.down (1 + s.toList.count '\n')))) := by
  have text : (s ++ "\n" ++ t).toList = s.toList ++ '\n' :: t.toList := by simp
  have below := Cursor.tokens_down (1 + s.toList.count '\n') (1 + s.toList.length) ht
  rw [tokenize, Cursor.ofString, text]
  show ((Cursor.ofString s).join t.toList).tokens = _
  rw [Cursor.tokens_join hs]
  show (Cursor.mk ((({} : Place).past s.toList).step '\n') t.toList).tokens.map _ = _
  rw [Place.past_newline]
  exact congrArg (Except.map (ts ++ ·)) below

end Slate
