import Slate.Json.Printer
import Slate.Json.Reader

/-!
# Strings in JSON

A character of a string stands for itself, or behind a backslash: as one other character, or as its code.

    plain    a        short    \"   \n        code    \u001b

* `Escape` — these three forms;
* `takeKey_quote` — a string in quotes is read back, whatever stands behind it;
* `quote_append_inj` — so two quoted strings that start one text are one string.
-/

namespace Slate.Json

/-- The ways to write a character in a string. -/
inductive Escape : Char → List Char → Prop where
  | plain {c : Char} (quote : c ≠ '"') (backslash : c ≠ '\\') (control : ¬ c.toNat < 0x20) : Escape c [c]
  | short {c e : Char} (code : e ≠ 'u') (h : unescape? e = some c) : Escape c ['\\', e]
  | code {c : Char} (control : c.toNat < 0x20) :
      Escape c ['\\', 'u', '0', '0', hexDigit (c.toNat / 16), hexDigit c.toNat]

theorem escape_escapeChar (c : Char) : Escape c (escapeChar c) := by
  unfold escapeChar
  split
  case h_8 quote backslash _ _ _ _ _ =>
    split
    · next control => exact .code control
    · next control => exact .plain quote backslash control
  all_goals exact .short (by decide) rfl

/-! ## Reading a string back -/

theorem hexValue?_digitChar : ∀ n < 16, hexValue? (Nat.digitChar n) = some n := by decide

theorem hexValue?_hexDigit (n : Nat) : hexValue? (hexDigit n) = some (n % 16) :=
  hexValue?_digitChar _ (Nat.mod_lt _ (by decide))

section

variable {more : List Char}

/-- The step takes `a` off, and `rest` is left. -/
def Takes {α : Type} {s : List Char} (step : Take α s) (a : α) (rest : List Char) : Prop :=
  ∃ shorter, step = .ok ⟨a, rest, shorter⟩

theorem takeHex_code {n : Nat} (h : n < 0x20) :
    Takes (takeHex ('0' :: '0' :: hexDigit (n / 16) :: hexDigit n :: more)) n more := by
  have nought : hexValue? '0' = some 0 := rfl
  have value : ((0 * 16 + 0) * 16 + n / 16 % 16) * 16 + n % 16 = n := by omega
  refine ⟨by simp only [List.length_cons]; omega, ?_⟩
  simp only [takeHex, nought, hexValue?_hexDigit, value]

theorem takeEscape_short {e c : Char} (code : e ≠ 'u') (h : unescape? e = some c) :
    Takes (takeEscape (e :: more)) c more := by
  refine ⟨Nat.lt_succ_self _, ?_⟩
  rw [takeEscape, if_neg code, h]

theorem takeEscape_code {c : Char} (h : c.toNat < 0x20) :
    Takes (takeEscape ('u' :: '0' :: '0' :: hexDigit (c.toNat / 16) :: hexDigit c.toNat :: more)) c more := by
  obtain ⟨shorter, read⟩ : Takes (takeHex ('0' :: '0' :: _ :: _ :: more)) c.toNat more := takeHex_code h
  refine ⟨Nat.lt_succ_of_lt shorter, ?_⟩
  rw [takeEscape, if_pos rfl, takeUnicode, read]
  simp only [bind, Except.bind]
  -- such a code is no half of a pair
  rw [if_neg (by omega), if_neg (by omega)]
  simp only [Except.map, Taken.map, Taken.widen, Char.ofNat_toNat]

theorem takeString_escaped {es : List Char} {c : Char} {cs rest : List Char}
    (he : Takes (takeEscape es) c more) (h : Takes (takeString more) cs rest) :
    Takes (takeString ('\\' :: es)) (c :: cs) rest := by
  obtain ⟨shorter, read⟩ := he
  obtain ⟨shorterMore, readMore⟩ := h
  refine ⟨Nat.lt_succ_of_lt (Nat.lt_trans shorterMore shorter), ?_⟩
  rw [takeString, if_neg (by decide), if_pos rfl, read]
  simp only [bind, Except.bind, readMore]

theorem takeString_plain {c : Char} {cs rest : List Char} (quote : c ≠ '"') (backslash : c ≠ '\\')
    (control : ¬ c.toNat < 0x20) (h : Takes (takeString more) cs rest) :
    Takes (takeString (c :: more)) (c :: cs) rest := by
  obtain ⟨shorter, read⟩ := h
  refine ⟨Nat.lt_succ_of_lt shorter, ?_⟩
  rw [takeString, if_neg quote, if_neg backslash, if_neg control, read]
  rfl

/-- A character that is written is read, and the rest as without it. -/
theorem takeString_escapeChar (c : Char) {cs rest : List Char} (h : Takes (takeString more) cs rest) :
    Takes (takeString (escapeChar c ++ more)) (c :: cs) rest := by
  have escape := escape_escapeChar c
  generalize escapeChar c = text at escape ⊢
  cases escape with
  | plain quote backslash control => exact takeString_plain quote backslash control h
  | short code he => exact takeString_escaped (takeEscape_short code he) h
  | code control => exact takeString_escaped (takeEscape_code control) h

theorem takeString_flatMap (cs rest : List Char) :
    Takes (takeString (cs.flatMap escapeChar ++ '"' :: rest)) cs rest := by
  induction cs with
  | nil =>
    refine ⟨Nat.lt_succ_self _, ?_⟩
    show takeString ('"' :: rest) = _
    rw [takeString, if_pos rfl]
  | cons c cs ih =>
    rw [List.flatMap_cons, List.append_assoc]
    exact takeString_escapeChar c ih

end

theorem toList_quote (s : String) : (quote s).toList = '"' :: (s.toList.flatMap escapeChar ++ ['"']) := by
  simp [quote]

/-- A string in quotes is read back, whatever stands behind it. -/
theorem takeKey_quote (s : String) (rest : List Char) : Takes (takeKey ((quote s).toList ++ rest)) s rest := by
  obtain ⟨shorter, read⟩ := takeString_flatMap s.toList rest
  rw [toList_quote, List.cons_append, List.append_assoc, List.singleton_append]
  refine ⟨Nat.lt_succ_of_lt shorter, ?_⟩
  simp only [takeKey, takeName, read, Except.map, Taken.map, Taken.widen, String.ofList_toList]

/-- A text starts with one quoted string at most. -/
theorem quote_append_inj {s t : String} {rest more : List Char}
    (h : (quote s).toList ++ rest = (quote t).toList ++ more) : s = t ∧ rest = more := by
  have first := takeKey_quote s rest
  rw [h] at first
  obtain ⟨_, read⟩ := first
  obtain ⟨_, same⟩ := takeKey_quote t more
  cases read.symm.trans same
  exact ⟨rfl, rfl⟩

end Slate.Json
