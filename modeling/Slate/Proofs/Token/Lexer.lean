import Slate.Token.Lexer

/-!
# What texts are read as

* `ReadsAs` — a text is read as some lexemes, wherever it stands. The laws below put one blank or one
  spelling in front of such a text, and need of it only that it does not go on with the spelling
  (`EndsWord`);
* `Token.IsLexed` — what is known of each token of a text, and `isLexed_of_tokenize`.
-/

namespace Slate

open Slate.Text

/-! ## Characters -/

/-- Two tables of ranges have no character in common. -/
def Apart (xs ys : List Range) : Prop := ∀ x ∈ xs, ∀ y ∈ ys, x.2 < y.1 ∨ y.2 < x.1

instance (xs ys : List Range) : Decidable (Apart xs ys) :=
  inferInstanceAs (Decidable (∀ x ∈ xs, ∀ y ∈ ys, x.2 < y.1 ∨ y.2 < x.1))

theorem not_within_of_apart {xs ys : List Range} {c : Char} (h : Apart xs ys)
    (hc : within ys c = true) : within xs c = false := by
  rw [Bool.eq_false_iff]
  intro hx
  obtain ⟨x, hxm, hx₁, hx₂⟩ := within_iff.1 hx
  obtain ⟨y, hym, hy₁, hy₂⟩ := within_iff.1 hc
  have := h x hxm y hym
  omega

theorem within_of_isAlpha {c : Char} (h : c.isAlpha = true) :
    within [(65, 90), (97, 122)] c = true := by
  unfold Char.isAlpha Char.isUpper Char.isLower at h
  simp only [Bool.or_eq_true, Bool.and_eq_true, decide_eq_true_eq, ge_iff_le,
    UInt32.le_iff_toNat_le] at h
  exact within_iff.2 (by simpa using h)

theorem within_of_isDigit {c : Char} (h : c.isDigit = true) : within [(48, 57)] c = true := by
  simp only [Char.isDigit, Bool.and_eq_true, decide_eq_true_eq, ge_iff_le,
    UInt32.le_iff_toNat_le] at h
  exact within_iff.2 (by simpa using h)

/-- What there is to compute of the tables: no blank is a letter or a numeral, and letters and numerals begin behind
ASCII. -/
theorem tables_apart : Apart blanks letters ∧ Apart numerals blanks ∧ Apart letters [(0, 127)] ∧
    Apart numerals [(0, 127)] := by
  decide +kernel

theorem not_isBlank_of_isNameStart {c : Char} (h : isNameStart c = true) : isBlank c = false := by
  have alphaApart : Apart blanks [(65, 90), (97, 122)] := by decide
  obtain ⟨lettersApart, -⟩ := tables_apart
  simp only [isNameStart, isLetter, Bool.or_eq_true, decide_eq_true_eq] at h
  rcases h with (h | h) | rfl
  · exact not_within_of_apart alphaApart (within_of_isAlpha h)
  · exact not_within_of_apart lettersApart h
  · decide

theorem not_isBlank_of_isDigit {c : Char} (h : c.isDigit = true) : isBlank c = false := by
  have digitsApart : Apart blanks [(48, 57)] := by decide
  exact not_within_of_apart digitsApart (within_of_isDigit h)

theorem not_isNamePart_of_isBlank {c : Char} (h : isBlank c = true) : isNamePart c = false := by
  obtain ⟨-, numeralsApart, -⟩ := tables_apart
  have noStart : isNameStart c = false := by
    rw [Bool.eq_false_iff]
    intro start
    rw [not_isBlank_of_isNameStart start] at h
    cases h
  have noDigit : c.isDigit = false := by
    rw [Bool.eq_false_iff]
    intro digit
    rw [not_isBlank_of_isDigit digit] at h
    cases h
  have noNumeral : isNumeral c = false := by
    rw [isNumeral, noDigit, not_within_of_apart numeralsApart h]
    rfl
  rw [isNameStart, Bool.or_eq_false_iff] at noStart
  rw [isNamePart, noStart.1, noStart.2, noNumeral]
  rfl

/-- The two tables begin behind ASCII. -/
theorem not_within_of_ascii {c : Char} (h : c.toNat < 128) :
    within letters c = false ∧ within numerals c = false := by
  obtain ⟨-, -, lettersApart, numeralsApart⟩ := tables_apart
  have ascii : within [(0, 127)] c = true := within_iff.2 ⟨_, List.mem_singleton_self _, by simp; omega⟩
  exact ⟨not_within_of_apart lettersApart ascii, not_within_of_apart numeralsApart ascii⟩

theorem not_isNameStart_of_ascii {c : Char} (h : c.toNat < 128) (ha : c.isAlpha = false)
    (hl : c ≠ '_') : isNameStart c = false := by
  simp [isNameStart, isLetter, ha, hl, (not_within_of_ascii h).1]

theorem not_isNamePart_of_ascii {c : Char} (h : c.toNat < 128) (ha : c.isAlpha = false)
    (hd : c.isDigit = false) (hl : c ≠ '_') : isNamePart c = false := by
  simp [isNamePart, isLetter, isNumeral, ha, hd, hl, not_within_of_ascii h]

/-- A mark is of ASCII, and nothing that a name is made of. -/
theorem ascii_of_ofMark {c : Char} {kind : TokenKind} (h : TokenKind.ofMark c = some kind) :
    c.toNat < 128 ∧ c.isAlpha = false ∧ c.isDigit = false ∧ c ≠ '_' := by
  unfold TokenKind.ofMark at h
  split at h <;> first | decide | cases h

/-- Neither a mark nor a quote starts a name. -/
theorem ofMark_of_isNameStart {c : Char} (h : isNameStart c = true) :
    TokenKind.ofMark c = none ∧ ¬ (c = '"' ∨ c = '\'') := by
  have other {d : Char} (hd : d.toNat < 128) (ha : d.isAlpha = false) (hl : d ≠ '_') : c ≠ d := by
    rintro rfl
    rw [not_isNameStart_of_ascii hd ha hl] at h
    cases h
  constructor
  · refine Option.eq_none_iff_forall_ne_some.2 fun kind mark => ?_
    obtain ⟨ascii, alpha, -, line⟩ := ascii_of_ofMark mark
    exact other ascii alpha line rfl
  · rintro (hc | hc) <;> exact absurd hc (other (by decide) (by decide) (by decide))

/-- Nor does one start a number, nor does a name. -/
theorem ofMark_of_isDigit {c : Char} (h : c.isDigit = true) :
    TokenKind.ofMark c = none ∧ ¬ (c = '"' ∨ c = '\'') := by
  constructor
  · refine Option.eq_none_iff_forall_ne_some.2 fun kind mark => ?_
    obtain ⟨-, -, digit, -⟩ := ascii_of_ofMark mark
    rw [digit] at h
    cases h
  · rintro (rfl | rfl) <;> exact absurd h (by decide)

theorem not_isNameStart_of_isDigit {c : Char} (h : c.isDigit = true) : isNameStart c = false := by
  have alphaApart : Apart [(65, 90), (97, 122)] [(48, 57)] := by decide
  have digit := within_of_isDigit h
  refine not_isNameStart_of_ascii ?_ ?_ ?_
  · obtain ⟨range, mem, -, le⟩ := within_iff.1 digit
    cases List.mem_singleton.1 mem
    exact Nat.lt_of_le_of_lt le (by decide)
  · rw [Bool.eq_false_iff]
    intro alpha
    have letter := within_of_isAlpha alpha
    rw [not_within_of_apart alphaApart digit] at letter
    cases letter
  · rintro rfl
    exact absurd h (by decide)

/-! ## One blank, one spelling -/

namespace Cursor

theorem tokens_eq (r : Cursor) :
    r.tokens = match r.next with
      | (.error e, _) => .error e
      | (.ok none, _) => .ok []
      | (.ok (some t), s) => s.tokens.map (t :: ·) := by
  rw [tokens]
  split <;> simp_all

/-- What is known of a reader that found one more token. -/
theorem next_eq_some {r s : Cursor} {t : Token} :
    r.next = (.ok (some t), s) ↔ ∃ c cs x spelling, r.skipGap.rest = c :: cs ∧
      Scan.ofChars c cs = .found x spelling ∧ t = ⟨x, r.skipGap.place.span spelling.length⟩ ∧
      s = r.skipGap.skip spelling := by
  constructor
  · intro h
    dsimp only [next] at h
    split at h
    · cases h
    · next c cs hr =>
      split at h <;> cases h
      next x spelling hs => exact ⟨c, cs, x, spelling, hr, hs, rfl, rfl⟩
  · rintro ⟨c, cs, x, spelling, hr, hs, rfl, rfl⟩
    simp only [next, hr, hs]

theorem tokens_of_gap {r : Cursor} (h : r.skipGap.rest = []) : r.tokens = .ok [] := by
  rw [tokens_eq]
  simp only [next, h]

theorem tokens_of_next {r s : Cursor} {t : Token} (h : r.next = (.ok (some t), s)) :
    r.tokens = s.tokens.map (t :: ·) := by
  rw [tokens_eq, h]

/-- The tokens of a text are read one after the other, each before those behind it. -/
theorem tokens_induction {motive : Cursor → List Token → Prop}
    (done : ∀ r : Cursor, r.skipGap.rest = [] → motive r [])
    (more : ∀ (r s : Cursor) (t : Token) (ts : List Token),
      r.next = (.ok (some t), s) → motive s ts → motive r (t :: ts))
    {r : Cursor} {ts : List Token} (h : r.tokens = .ok ts) : motive r ts := by
  induction hn : r.rest.length using Nat.strongRecOn generalizing r ts with
  | ind n ih =>
    rw [tokens_eq] at h
    split at h
    · cases h
    · next s read =>
      cases h
      refine done r ?_
      dsimp only [next] at read
      split at read
      · assumption
      · split at read <;> cases read
    · next t s read =>
      cases hs : s.tokens with
      | error e => rw [hs] at h; cases h
      | ok us =>
        rw [hs] at h
        cases h
        exact more r s t us read (ih _ (hn ▸ next_shorter read) hs rfl)

/-- Nothing is read of a gap. -/
theorem tokens_of_skipGap {r s : Cursor} (h : r.skipGap = s.skipGap) : r.tokens = s.tokens := by
  have same : r.next = s.next := by rw [next, next, h]
  rw [tokens_eq, tokens_eq, same]

theorem gap_blank {c : Char} (h : isBlank c = true) (cs : List Char) :
    gap false (c :: cs) = c :: gap false cs := by
  rw [gap, if_neg (by simp), if_pos h]

theorem gap_nil {c : Char} {cs : List Char} (h : isBlank c = false)
    (hc : ¬ (c = '/' ∧ cs.head? = some '/')) : gap false (c :: cs) = [] := by
  rw [gap, if_neg (by simp), if_neg (by simp [h]), if_neg hc]

/-- A blank only moves the place. -/
theorem tokens_blank {c : Char} (h : isBlank c = true) (place : Place) (cs : List Char) :
    (Cursor.mk place (c :: cs)).tokens = (Cursor.mk (place.step c) cs).tokens := by
  apply tokens_of_skipGap
  rw [skipGap, skipGap, gap_blank h]
  rfl

/-- A spelling is read as its lexeme, and what stands behind it as before. -/
theorem tokens_found {c : Char} {cs rest : List Char} {x : Lexeme} (hb : isBlank c = false)
    (hc : ¬ (c = '/' ∧ (cs ++ rest).head? = some '/'))
    (h : Scan.ofChars c (cs ++ rest) = .found x (c :: cs)) (place : Place) :
    (Cursor.mk place (c :: cs ++ rest)).tokens =
      (Cursor.mk (place.past (c :: cs)) rest).tokens.map
        (⟨x, place.span (c :: cs).length⟩ :: ·) := by
  have start : (Cursor.mk place (c :: cs ++ rest)).skipGap = ⟨place, c :: cs ++ rest⟩ := by
    rw [skipGap, List.cons_append, gap_nil hb hc]
    rfl
  apply tokens_of_next
  refine next_eq_some.2 ⟨c, cs ++ rest, x, c :: cs, ?_, h, ?_, ?_⟩
  · rw [start]
    rfl
  · rw [start]
  · rw [start, skip, List.drop_left]

end Cursor

/-! ## Texts and lexemes -/

/-- Wherever the text stands, it is read as the lexemes. -/
def ReadsAs (cs : List Char) (xs : List Lexeme) : Prop :=
  ∀ place, ∃ ts, (Cursor.mk place cs).tokens = .ok ts ∧ ts.map Token.toLexeme = xs

/-- A word or a number in front of the text ends there. -/
def EndsWord (cs : List Char) : Prop := ∀ c ∈ cs.head?, isNamePart c = false ∧ c ≠ '.'

namespace ReadsAs

theorem nil : ReadsAs [] [] := by
  intro place
  refine ⟨[], ?_, rfl⟩
  rw [Cursor.tokens_eq, Cursor.next]
  rfl

theorem blank {c : Char} {cs : List Char} {xs : List Lexeme} (h : ReadsAs cs xs)
    (hc : isBlank c = true) : ReadsAs (c :: cs) xs := by
  intro place
  rw [Cursor.tokens_blank hc]
  exact h _

theorem found {c : Char} {cs rest : List Char} {x : Lexeme} {xs : List Lexeme}
    (h : ReadsAs rest xs) (hb : isBlank c = false)
    (hc : ¬ (c = '/' ∧ (cs ++ rest).head? = some '/'))
    (hs : Scan.ofChars c (cs ++ rest) = .found x (c :: cs)) :
    ReadsAs (c :: cs ++ rest) (x :: xs) := by
  intro place
  obtain ⟨ts, hts, rfl⟩ := h (place.past (c :: cs))
  exact ⟨_, by rw [Cursor.tokens_found hb hc hs, hts]; rfl, rfl⟩

/-- A mark is read by itself. Only a second slash makes a slash a comment. -/
theorem mark {c : Char} {rest : List Char} {kind : TokenKind} {xs : List Lexeme}
    (h : ReadsAs rest xs) (hk : TokenKind.ofMark c = some kind) (hb : isBlank c = false)
    (hc : c ≠ '/' ∨ rest.head? ≠ some '/') :
    ReadsAs (c :: rest) (⟨kind, String.ofList [c]⟩ :: xs) := by
  show ReadsAs ([c] ++ rest) _
  apply found h hb
  · rintro ⟨rfl, hr⟩
    exact hc.elim (absurd rfl) (absurd hr)
  · rw [Scan.ofChars, hk]
    rfl

end ReadsAs

/-- What a name or a keyword is made of. -/
def IsWord (s : String) : Prop :=
  ∃ c cs, s.toList = c :: cs ∧ isNameStart c = true ∧ ∀ c ∈ cs, isNamePart c = true

/-- A word that is not reserved. -/
def IsName (s : String) : Prop := IsWord s ∧ TokenKind.ofWord s = .identifier

theorem IsWord.of_isAlpha {s : String} (h : s.toList ≠ [] ∧ s.toList.all Char.isAlpha = true) : IsWord s := by
  obtain ⟨hne, h⟩ := h
  obtain ⟨c, cs, hs⟩ := List.exists_cons_of_ne_nil hne
  rw [hs, List.all_eq_true] at h
  have letter (x : Char) (hx : x ∈ c :: cs) : isLetter x = true := by simp [isLetter, h x hx]
  refine ⟨c, cs, hs, by simp [isNameStart, letter c List.mem_cons_self], fun x hx => ?_⟩
  simp [isNamePart, letter x (List.mem_cons_of_mem _ hx)]

/-- Where the characters that fit end, taking them ends too. -/
theorem takeWhile_append_stop {p : Char → Bool} {cs rest : List Char} (h : ∀ c ∈ cs, p c = true)
    (hr : ∀ c ∈ rest.head?, p c = false) :
    (cs ++ rest).takeWhile p = cs ∧ (cs ++ rest).dropWhile p = rest := by
  rw [List.takeWhile_append_of_pos h, List.dropWhile_append_of_pos h]
  cases rest with
  | nil => simp
  | cons r rest =>
    have stops : ¬ p r = true := by simp [hr r rfl]
    rw [List.takeWhile_cons_of_neg stops, List.dropWhile_cons_of_neg stops]
    simp

/-! ## Numbers -/

/-- What the spelling of a number is made of. -/
def IsNumeralText (s : String) : Prop :=
  ∃ c cs, s.toList = c :: cs ∧ c.isDigit = true ∧ ∀ c ∈ cs, c.isDigit = true ∨ c = '.'

theorem isNamePart_of_isDigit {c : Char} (h : c.isDigit = true) : isNamePart c = true := by
  simp [isNamePart, isNumeral, h]

theorem EndsWord.not_isDigit {cs : List Char} (h : EndsWord cs) :
    ∀ c ∈ cs.head?, c.isDigit = false := by
  intro c hc
  rw [Bool.eq_false_iff]
  intro digit
  have part := (h c hc).1
  rw [isNamePart_of_isDigit digit] at part
  cases part

/-! ## The tokens of a text -/

/-- What is known of each token of a text. -/
structure Token.IsLexed (t : Token) : Prop where
  span : t.span.start < t.span.stop
  name : t.kind = .identifier → IsName t.text
  number : t.kind = .number → IsNumeralText t.text

theorem of_mem_takeWhile {p : Char → Bool} {cs : List Char} {c : Char} (h : c ∈ cs.takeWhile p) :
    p c = true :=
  List.all_eq_true.1 List.all_takeWhile c h

theorem mem_numeral {cs : List Char} {x : Char} (h : x ∈ numeral cs) :
    x.isDigit = true ∨ x = '.' := by
  have taken {ds : List Char} (h : x ∈ ds.takeWhile Char.isDigit) : x.isDigit = true :=
    of_mem_takeWhile h
  unfold numeral at h
  split at h
  · split at h
    · rcases List.mem_append.1 h with h | h
      · exact .inl (taken h)
      · rcases List.mem_cons.1 h with rfl | h
        · exact .inr rfl
        · exact .inl (taken h)
    · exact .inl (taken h)
  · exact .inl (taken h)

theorem isNumeralText_numeral {c : Char} (h : c.isDigit = true) (cs : List Char) :
    IsNumeralText (String.ofList (numeral (c :: cs))) := by
  obtain ⟨d, ds, hds⟩ := List.exists_cons_of_ne_nil (numeral_ne_nil h cs)
  obtain ⟨behind, whole⟩ := numeral_prefix (c :: cs)
  have first : d = c := by
    rw [hds] at whole
    exact (List.cons.inj whole).1
  rw [first] at hds
  refine ⟨c, ds, by rw [String.toList_ofList, hds], h, fun x hx => ?_⟩
  have mem : x ∈ numeral (c :: cs) := by
    rw [hds]
    exact List.mem_cons_of_mem _ hx
  exact mem_numeral mem

theorem ofWord_ne_number (w : String) : TokenKind.ofWord w ≠ .number := by
  unfold TokenKind.ofWord
  split <;> simp

theorem isLexed_of_found {c : Char} {cs spelling : List Char} {x : Lexeme}
    (h : Scan.ofChars c cs = .found x spelling) :
    (x.kind = .identifier → IsName x.text) ∧ (x.kind = .number → IsNumeralText x.text) := by
  unfold Scan.ofChars at h
  split at h
  · next kind hk =>
    cases h
    unfold TokenKind.ofMark at hk
    split at hk <;> cases hk <;> constructor <;> intro e <;> cases e
  · split at h
    · unfold Scan.ofString at h
      split at h <;> cases h
      constructor <;> intro e <;> cases e
    · split at h
      · next hs =>
        cases h
        constructor
        · intro hk
          refine ⟨⟨c, cs.takeWhile isNamePart, ?_, hs, fun _ => of_mem_takeWhile⟩, hk⟩
          rw [String.toList_ofList, List.takeWhile_cons_of_pos (isNamePart_of_isNameStart hs)]
        · intro hk
          exact absurd hk (ofWord_ne_number _)
      · split at h
        · next hd =>
          cases h
          constructor
          · intro e
            cases e
          · intro _
            exact isNumeralText_numeral hd cs
        · cases h

theorem isLexed_of_tokens {r : Cursor} {ts : List Token} (h : r.tokens = .ok ts) :
    ∀ t ∈ ts, t.IsLexed := by
  refine Cursor.tokens_induction (motive := fun _ ts => ∀ t ∈ ts, t.IsLexed) ?_ ?_ h
  · intro r _ t ht
    cases ht
  · intro r s t ts read ih
    obtain ⟨c, cs, x, spelling, -, found, rfl, rfl⟩ := Cursor.next_eq_some.1 read
    have nonempty := List.length_pos_iff.2 (Scan.spelling_ne_nil found)
    obtain ⟨name, number⟩ := isLexed_of_found found
    exact List.forall_mem_cons.2 ⟨⟨by simp only [Place.span]; omega, name, number⟩, ih⟩

theorem isLexed_of_tokenize {source : String} {ts : List Token} (h : tokenize source = .ok ts) :
    ∀ t ∈ ts, t.IsLexed := isLexed_of_tokens h

end Slate
