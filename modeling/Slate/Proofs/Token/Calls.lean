import Mathlib.Order.Monotone.Basic
import Slate.Proofs.Token.Text

/-!
# Readers that go on after errors

An error leaves the reader at some place, and from there it can be called again, as often as one likes. Whatever
the calls gave, it has gone over a front of the text, and its place is the one behind that front:

    text  =  gone over  ++  rest

* `Call`, `call_next` — all that a call can do: what it gives, and what it goes over;
* `Call.goesOver`, `standsIn_called` — one call keeps the reader in the text, and so does any number of them;
* `next_of_stays` — a reader that has gone over a gap only is answered in the same way again;
* `calls_consistent` — what is known of a reader in front of each call and behind it.
-/

namespace Slate

/-! ## Strings without an end -/

theorem StringScan.prepend_eq_unterminated {v s body : List Char} {x : StringScan} :
    x.prepend v s = unterminated body ↔ ∃ body', x = unterminated body' ∧ body = s ++ body' := by
  cases x with
  | unterminated b =>
    rw [prepend, unterminated.injEq]
    constructor
    · intro h
      exact ⟨b, rfl, h.symm⟩
    · rintro ⟨_, h, hb⟩
      cases h
      exact hb.symm
  | closed | invalidEscape => simp [prepend]

/-- A string without an end is read up to the end of its line. -/
theorem exists_of_unterminated {quote : Char} {cs body : List Char}
    (h : scanString quote cs = .unterminated body) :
    ∃ rest, cs = body ++ rest ∧ ∀ c ∈ rest.head?, c = '\n' := by
  fun_induction scanString quote cs generalizing body with
  | case1 =>
    cases h
    exact ⟨[], rfl, by simp⟩
  | case2 => cases h
  | case3 cs =>
    cases h
    exact ⟨'\n' :: cs, rfl, by simp⟩
  | case4 =>
    cases h
    exact ⟨[], rfl, by simp⟩
  | case5 e rest v hv hq hn ih =>
    obtain ⟨body', hs, rfl⟩ := StringScan.prepend_eq_unterminated.1 h
    obtain ⟨more, rfl, stops⟩ := ih hs
    exact ⟨more, rfl, stops⟩
  | case6 => cases h
  | case7 c cs hq hn hb ih =>
    obtain ⟨body', hs, rfl⟩ := StringScan.prepend_eq_unterminated.1 h
    obtain ⟨more, rfl, stops⟩ := ih hs
    exact ⟨more, rfl, stops⟩

theorem exists_of_ofChars_unterminated {c : Char} {cs spelling : List Char}
    (h : Scan.ofChars c cs = .unterminated spelling) :
    ∃ body, spelling = c :: body ∧ scanString c cs = .unterminated body := by
  rcases ofChars_not_found h (by simp) with h' | ⟨quoted, -⟩
  · cases h'
  · rw [ofChars_of_isQuote quoted, Scan.ofString] at h
    split at h <;> cases h
    exact ⟨_, rfl, ‹_›⟩

namespace Cursor

/-! ## One call -/

/-- What a call gives and where it leaves the reader. First it goes over a gap. Then it stays, or goes over a token
or over the part of a string that comes before the fault. -/
inductive Call (r : Cursor) : Except LexError (Option Token) → Cursor → Prop
  | ended : Call r (.ok none) r.skipGap
  | token (t : Token) {spelling rest : List Char} (text : r.skipGap.rest = spelling ++ rest)
      (nonempty : spelling ≠ []) : Call r (.ok (some t)) (r.skipGap.skip spelling)
  | unexpected (c : Char) (s : Span) : Call r (.error (.unexpectedCharacter c s)) r.skipGap
  | unterminated (s : Span) {body rest : List Char} (text : r.skipGap.rest = body ++ rest)
      (stops : ∀ c ∈ rest.head?, c = '\n') :
      Call r (.error (.unterminatedString s)) (r.skipGap.skip body)
  | invalidEscape (s : Span) {e : Char} {body rest : List Char}
      (text : r.skipGap.rest = body ++ '\\' :: e :: rest) :
      Call r (.error (.invalidEscape e s)) (r.skipGap.skip (body ++ ['\\']))

theorem call_next (r : Cursor) : r.Call r.next.1 r.next.2 := by
  cases start : r.skipGap.rest with
  | nil =>
    simp only [next, start]
    exact .ended
  | cons c cs =>
    cases scanned : Scan.ofChars c cs with
    | found x spelling =>
      obtain ⟨rest, whole⟩ := Scan.ofChars_spelling scanned
      simp only [next, start, scanned]
      exact .token _ (start.trans whole.symm) (Scan.spelling_ne_nil scanned)
    | unexpected d =>
      simp only [next, start, scanned]
      exact .unexpected d _
    | unterminated spelling =>
      obtain ⟨body, rfl, hs⟩ := exists_of_ofChars_unterminated scanned
      obtain ⟨rest, whole, stops⟩ := exists_of_unterminated hs
      simp only [next, start, scanned]
      exact .unterminated _ (start.trans (congrArg (c :: ·) whole)) stops
    | invalidEscape e spelling =>
      simp only [next, start, scanned]
      rcases ofChars_not_found scanned (by simp) with h | ⟨-, ⟨_, h⟩ | ⟨e', body, h, hs⟩⟩ <;> cases h
      obtain ⟨value, rest, -, whole⟩ := denotes_of_invalidEscape hs
      have text : r.skipGap.rest = c :: body ++ '\\' :: e :: rest :=
        start.trans (congrArg (c :: ·) whole)
      exact .invalidEscape _ text

/-! ## What is gone over -/

/-- Behind a piece of the text, the first reader is the second one. -/
structure GoesOver (r s : Cursor) (piece : List Char) : Prop where
  text : r.rest = piece ++ s.rest
  place : s.place = r.place.past piece

namespace GoesOver

variable {r s t : Cursor} {piece piece' : List Char}

theorem refl (r : Cursor) : r.GoesOver r [] := ⟨rfl, rfl⟩

theorem trans (h : r.GoesOver s piece) (h' : s.GoesOver t piece') : r.GoesOver t (piece ++ piece') where
  text := by rw [h.text, h'.text, List.append_assoc]
  place := by rw [h'.place, h.place, Place.past_append]

theorem skip {rest : List Char} (h : r.rest = piece ++ rest) : r.GoesOver (r.skip piece) piece where
  text := by rw [Cursor.skip, h, List.drop_left]
  place := rfl

theorem skipGap (r : Cursor) : r.GoesOver r.skipGap (gap false r.rest) := skip r.isGap_gap.1

theorem offset (h : r.GoesOver s piece) : s.place.offset = r.place.offset + piece.length := by
  rw [h.place, Place.offset_past]

end GoesOver

section

variable {r s : Cursor} {given : Except LexError (Option Token)}

/-- Every call goes over a piece of the text, if only an empty one. -/
theorem Call.goesOver (h : r.Call given s) : ∃ piece, r.GoesOver s piece := by
  cases h with
  | ended | unexpected => exact ⟨_, .skipGap r⟩
  | token _ text => exact ⟨_, (GoesOver.skipGap r).trans (.skip text)⟩
  | unterminated _ text => exact ⟨_, (GoesOver.skipGap r).trans (.skip text)⟩
  | invalidEscape _ text =>
    exact ⟨_, (GoesOver.skipGap r).trans (.skip (text.trans (List.append_cons ..)))⟩

/-- A token takes a character. -/
theorem Call.offset_lt {t : Token} (h : r.Call (.ok (some t)) s) : r.place.offset < s.place.offset := by
  cases h with
  | token _ text nonempty =>
    have offset := ((GoesOver.skipGap r).trans (.skip text)).offset
    have := List.length_pos_iff.2 nonempty
    rw [List.length_append] at offset
    omega

/-- Behind a string without an end the line ends, or the text. -/
theorem Call.unterminated_rest {p : Span} (h : r.Call (.error (.unterminatedString p)) s) :
    s.rest = [] ∨ ∃ rest, s.rest = '\n' :: rest := by
  cases h with
  | @unterminated _ body rest text stops =>
    rw [← List.append_cancel_left (text.symm.trans (GoesOver.skip text).text)]
    cases rest with
    | nil => exact .inl rfl
    | cons c rest =>
      rw [stops c rfl]
      exact .inr ⟨rest, rfl⟩

/-- Behind the backslash of a wrong escape there is the character that cannot be escaped. -/
theorem Call.invalidEscape_rest {e : Char} {p : Span} (h : r.Call (.error (.invalidEscape e p)) s) :
    ∃ before rest, r.rest = before ++ '\\' :: e :: rest ∧ s.rest = e :: rest := by
  cases h with
  | @invalidEscape _ _ body rest text =>
    have behind : r.skipGap.rest = body ++ ['\\'] ++ e :: rest := text.trans (List.append_cons ..)
    refine ⟨gap false r.rest ++ body, rest, ?_, ?_⟩
    · rw [List.append_assoc, ← text]
      exact (GoesOver.skipGap r).text
    · exact (List.append_cancel_left (behind.symm.trans (GoesOver.skip behind).text)).symm

end

/-! ## Answers that stay -/

/-- Behind a gap there is no further gap. -/
theorem skipGap_skipGap (r : Cursor) : r.skipGap.skipGap = r.skipGap := by
  have none_ : gap false r.skipGap.rest = [] := gap_append .nil r.isGap_gap.2.2
  rw [skipGap, none_]
  rfl

theorem next_skipGap (r : Cursor) : r.skipGap.next = r.next := by
  rw [next, next, skipGap_skipGap]

/-- The calls give this for ever: at the end of the text, and at a character that starts no token. -/
def Stays : Except LexError (Option Token) → Prop
  | .ok none | .error (.unexpectedCharacter ..) => True
  | _ => False

theorem Call.eq_skipGap {r s : Cursor} {given : Except LexError (Option Token)} (h : r.Call given s)
    (stays : Stays given) : s = r.skipGap := by
  cases h with
  | ended | unexpected => rfl
  | token | unterminated | invalidEscape => exact stays.elim

theorem next_of_stays {r : Cursor} (stays : Stays r.next.1) : r.next.2.next = r.next := by
  rw [r.call_next.eq_skipGap stays, next_skipGap]

/-! ## Readers in a text -/

/-- The reader has gone over a front of the text, and its place is the one behind that front. -/
structure StandsIn (r : Cursor) (text : List Char) : Prop where
  offset_le : r.place.offset ≤ text.length
  rest : r.rest = text.drop r.place.offset
  line : r.place.line = lineBehind (text.take r.place.offset)
  column : r.place.column = columnBehind (text.take r.place.offset)

theorem StandsIn.of_append {r : Cursor} {before : List Char} (h : r.StandsBehind before) :
    r.StandsIn (before ++ r.rest) := by
  have offset : r.place.offset = before.length := by
    rw [h, Place.offset_past, Nat.zero_add]
  refine ⟨?_, ?_, ?_, ?_⟩
  · rw [offset, List.length_append]
    exact Nat.le_add_right _ _
  · rw [offset, List.drop_left]
  · rw [offset, List.take_left, h]
    exact Place.line_past {} before
  · rw [offset, List.take_left, h]
    exact Place.column_past before

/-! ## Any number of calls -/

/-- The reader behind so many calls, whatever they gave. -/
def called (r : Cursor) : Nat → Cursor
  | 0 => r
  | n + 1 => (r.called n).next.2

theorem exists_goesOver_called (r : Cursor) (n : Nat) : ∃ piece, r.GoesOver (r.called n) piece := by
  induction n with
  | zero => exact ⟨[], .refl r⟩
  | succ n ih =>
    obtain ⟨piece, before⟩ := ih
    obtain ⟨more, last⟩ := (r.called n).call_next.goesOver
    exact ⟨piece ++ more, before.trans last⟩

theorem standsIn_called (source : String) (n : Nat) :
    ((ofString source).called n).StandsIn source.toList := by
  obtain ⟨piece, gone⟩ := (ofString source).exists_goesOver_called n
  have text : source.toList = piece ++ ((ofString source).called n).rest := gone.text
  rw [text]
  exact .of_append gone.place

theorem monotone_offset (r : Cursor) : Monotone fun n => (r.called n).place.offset := by
  refine monotone_nat_of_le_succ fun n => ?_
  obtain ⟨piece, gone⟩ := (r.called n).call_next.goesOver
  exact Nat.le.intro gone.offset.symm

theorem next_called_of_stays (r : Cursor) {m n : Nat} (h : n ≤ m) (stays : Stays (r.called n).next.1) :
    (r.called m).next = (r.called n).next := by
  induction h with
  | refl => rfl
  | @step m _ ih =>
    show (r.called m).next.2.next = (r.called n).next
    rw [ih, next_of_stays stays]

/-- What the call with that number leaves behind, by what it gave. A token takes a character. At the end of the
text, and at a character that starts no token, all later calls give the same. A string without an end leaves the
reader at the end of a line or of the text, and a wrong escape in front of the character behind the backslash. -/
def Leaves (text : List Char) (reader : Nat → Cursor) (n : Nat) : Except LexError (Option Token) → Prop
  | .ok (some _) => (reader n).place.offset < (reader (n + 1)).place.offset
  | .ok none => ∀ m ≥ n, (reader m).next.1 = .ok none
  | .error (.unexpectedCharacter c s) =>
    ∀ m ≥ n, (reader m).next.1 = .error (.unexpectedCharacter c s)
  | .error (.unterminatedString _) =>
    (reader (n + 1)).rest = [] ∨ ∃ rest, (reader (n + 1)).rest = '\n' :: rest
  | .error (.invalidEscape e _) =>
    ∃ before rest, text = before ++ '\\' :: e :: rest ∧ (reader (n + 1)).rest = e :: rest

theorem leaves_called (source : String) (n : Nat) :
    Leaves source.toList (ofString source).called n ((ofString source).called n).next.1 := by
  have call := ((ofString source).called n).call_next
  have later {m : Nat} (h : n ≤ m) := (ofString source).next_called_of_stays h
  obtain ⟨front, gone⟩ := (ofString source).exists_goesOver_called n
  have text : source.toList = front ++ ((ofString source).called n).rest := gone.text
  generalize given : ((ofString source).called n).next.1 = result at call later
  rcases result with e | _ | t
  · cases e with
    | unexpectedCharacter c s =>
      intro m h
      rw [later h trivial, given]
    | unterminatedString s => exact call.unterminated_rest
    | invalidEscape e s =>
      obtain ⟨before, rest, whole, left⟩ := call.invalidEscape_rest
      exact ⟨front ++ before, rest, by rw [text, whole, List.append_assoc], left⟩
  · intro m h
    rw [later h trivial, given]
  · exact call.offset_lt

/-- However often a reader is called, and whatever the calls gave: it stands in the text, with the line and the
column of what is behind it, it never goes back, and each call leaves behind what `Leaves` says. -/
theorem calls_consistent (source : String) :
    let reader := (ofString source).called
    (Monotone fun n => (reader n).place.offset) ∧
      ∀ n, (reader n).StandsIn source.toList ∧ Leaves source.toList reader n (reader n).next.1 :=
  ⟨(ofString source).monotone_offset, fun n => ⟨standsIn_called source n, leaves_called source n⟩⟩

/-- Behind the backslash of `'\q'` a name is read, and then a string without an end. -/
example :
    let reader := (ofString "'\\q'").called
    (reader 0).next.1 = .error (.invalidEscape 'q' ⟨1, 2, 4⟩) ∧
      (reader 1).next.1 = .ok (some ⟨⟨.identifier, "q"⟩, ⟨1, 3, 4⟩⟩) ∧
      (reader 2).next.1 = .error (.unterminatedString ⟨1, 4, 5⟩) ∧ (reader 3).next.1 = .ok none := by
  decide +kernel

end Cursor
end Slate
