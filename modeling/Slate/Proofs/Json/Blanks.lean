import Slate.Proofs.Json.Text

/-!
# A text without its blanks

The layouts differ in blanks that stand outside the strings, and in nothing else. What is inside a string and what
is not is told from left to right, with an eye on the backslashes:

    outside ──quote──▶ inside ──quote──▶ outside
                       inside ──backslash──▶ escaped ──any──▶ inside

* `unspaced` — a text without the spaces and the line feeds outside its strings;
* `Leaves` — what is left of a text when it stands outside the strings, whatever comes behind it;
* `leaves_write` — of a value in any layout its compact text is left, and so of `pretty` (`unspaced_pretty`).
-/

namespace Slate.Json

/-- Where a character of a text stands. -/
inductive Quoting where
  | outside
  | inside
  /-- In a string, behind a backslash. -/
  | escaped
  deriving DecidableEq

/-- Where the next character stands. -/
def Quoting.behind : Quoting → Char → Quoting
  | outside, c => if c = '"' then inside else outside
  | inside, c => if c = '"' then outside else if c = '\\' then escaped else inside
  | escaped, _ => inside

/-- The blanks of a layout. -/
def isBlank (c : Char) : Bool := c = ' ' || c = '\n'

/-- The text without the blanks that stand outside strings. -/
def unspaced (q : Quoting) : List Char → List Char
  | [] => []
  | c :: cs => if q = .outside ∧ isBlank c then unspaced q cs else c :: unspaced (q.behind c) cs

/-! ## Texts outside strings -/

/-- Neither a blank nor a quote: outside strings the character is left, and the next one is outside as well. -/
def isPlain (c : Char) : Bool := c ≠ '"' && !isBlank c

/-- Of the first text the second one is left, and it neither starts in a string nor ends in one. -/
def Leaves (text left : List Char) : Prop :=
  ∀ rest, unspaced .outside (text ++ rest) = left ++ unspaced .outside rest

namespace Leaves

variable {text text' left left' : List Char}

theorem nil : Leaves [] [] := fun _ => rfl

theorem append (h : Leaves text left) (h' : Leaves text' left') : Leaves (text ++ text') (left ++ left') := by
  intro rest
  rw [List.append_assoc, h, h', List.append_assoc]

theorem blanks (h : ∀ c ∈ text, isBlank c = true) : Leaves text [] := by
  induction text with
  | nil => exact nil
  | cons c text ih =>
    obtain ⟨blank, others⟩ := List.forall_mem_cons.1 h
    intro rest
    rw [List.cons_append, unspaced, if_pos ⟨rfl, blank⟩]
    exact ih others rest

theorem cons {c : Char} (plain : isPlain c = true) (h : Leaves text left) : Leaves (c :: text) (c :: left) := by
  obtain ⟨quote, noBlank⟩ : c ≠ '"' ∧ isBlank c = false := by simpa [isPlain] using plain
  intro rest
  rw [List.cons_append, unspaced, if_neg (by simp [noBlank]), Quoting.behind, if_neg quote, h]
  rfl

/-- A mark between two parts. -/
theorem mark {c : Char} (plain : isPlain c = true) : Leaves [c] [c] := cons plain nil

/-- Blanks in front of a text. -/
theorem skip (hb : ∀ c ∈ text', isBlank c = true) (h : Leaves text left) : Leaves (text' ++ text) left :=
  (blanks hb).append h

/-- A text without quotes and blanks. -/
theorem plain (h : text.all isPlain = true) : Leaves text text := by
  induction text with
  | nil => exact nil
  | cons c text ih =>
    rw [List.all_cons, Bool.and_eq_true] at h
    exact cons h.1 (ih h.2)

end Leaves

/-! ## Strings -/

/-- Inside a string everything is left. -/
theorem unspaced_inside (c : Char) (cs : List Char) :
    unspaced .inside (c :: cs) = c :: unspaced (Quoting.inside.behind c) cs := by
  rw [unspaced, if_neg (by simp)]

theorem unspaced_escaped (c : Char) (cs : List Char) : unspaced .escaped (c :: cs) = c :: unspaced .inside cs := by
  rw [unspaced, if_neg (by simp)]
  rfl

theorem unspaced_plain {c : Char} (quote : c ≠ '"') (backslash : c ≠ '\\') (cs : List Char) :
    unspaced .inside (c :: cs) = c :: unspaced .inside cs := by
  rw [unspaced_inside, Quoting.behind, if_neg quote, if_neg backslash]

theorem hexDigit_plain (n : Nat) : hexDigit n ≠ '"' ∧ hexDigit n ≠ '\\' := by
  have all : ∀ m < 16, Nat.digitChar m ≠ '"' ∧ Nat.digitChar m ≠ '\\' := by decide
  exact all _ (Nat.mod_lt _ (by decide))

/-- Behind a character that is written in a string the string goes on. -/
theorem unspaced_escapeChar (c : Char) (rest : List Char) :
    unspaced .inside (escapeChar c ++ rest) = escapeChar c ++ unspaced .inside rest := by
  have escape := escape_escapeChar c
  generalize escapeChar c = text at escape ⊢
  cases escape with
  | plain quote backslash control => exact unspaced_plain quote backslash rest
  | short code he =>
    show unspaced .inside ('\\' :: _ :: rest) = _
    rw [unspaced_inside]
    exact congrArg _ (unspaced_escaped _ rest)
  | code control =>
    show unspaced .inside ('\\' :: 'u' :: '0' :: '0' :: hexDigit _ :: hexDigit _ :: rest) = _
    obtain ⟨quote, backslash⟩ := hexDigit_plain (c.toNat / 16)
    obtain ⟨quote', backslash'⟩ := hexDigit_plain c.toNat
    rw [unspaced_inside]
    show '\\' :: unspaced .escaped _ = _
    rw [unspaced_escaped, unspaced_plain (by decide) (by decide), unspaced_plain (by decide) (by decide),
      unspaced_plain quote backslash, unspaced_plain quote' backslash']
    rfl

theorem leaves_quote (s : String) : Leaves (quote s).toList (quote s).toList := by
  have inside (cs rest : List Char) : unspaced .inside (cs.flatMap escapeChar ++ '"' :: rest) =
      cs.flatMap escapeChar ++ '"' :: unspaced .outside rest := by
    induction cs with
    | nil => exact unspaced_inside '"' rest
    | cons c cs ih => rw [List.flatMap_cons, List.append_assoc, unspaced_escapeChar, ih, List.append_assoc]
  intro rest
  rw [toList_quote, List.cons_append, List.append_assoc, List.singleton_append, List.cons_append,
    List.append_assoc, List.singleton_append, ← inside]
  rfl

/-! ## Values -/

/-- The layout puts nothing but blanks between the parts. -/
structure Layout.IsBlank (l : Layout) : Prop where
  lineBreak : ∀ depth, ∀ c ∈ (l.lineBreak depth).toList, isBlank c = true
  gap : ∀ c ∈ l.gap.toList, isBlank c = true

theorem eq_of_mem_pushn {n : Nat} {c : Char} (h : c ∈ ("".pushn ' ' n).toList) : c = ' ' := by
  induction n with
  | zero => exact (List.not_mem_nil h).elim
  | succ n ih =>
    have last : ("".pushn ' ' (n + 1)).toList = ("".pushn ' ' n).toList ++ [' '] := String.toList_push _
    rw [last] at h
    rcases List.mem_append.1 h with h | h
    · exact ih h
    · exact List.mem_singleton.1 h

theorem Layout.isBlank_pretty : pretty.IsBlank where
  lineBreak depth c hc := by
    have front : (pretty.lineBreak depth).toList = ['\n'] ++ ("".pushn ' ' (2 * depth)).toList :=
      String.toList_append
    rw [front] at hc
    rcases List.mem_append.1 hc with hc | hc
    · cases List.mem_singleton.1 hc
      rfl
    · rw [eq_of_mem_pushn hc]
      rfl
  gap c hc := by
    cases List.mem_singleton.1 (hc : c ∈ [' '])
    rfl

theorem leaves_number (n : Number) : Leaves n.text.toList n.text.toList := by
  refine .plain (List.all_eq_true.2 fun c hc => ?_)
  have numeral := Number.isNumberChar_of_mem_text hc
  simp only [isPlain, isBlank, Bool.and_eq_true, Bool.not_eq_true', Bool.or_eq_false_iff, decide_eq_true_eq,
    decide_eq_false_iff_not]
  refine ⟨?_, ?_, ?_⟩
  all_goals
    rintro rfl
    cases numeral

section

variable {l : Layout} (hl : l.IsBlank)

include hl

theorem leaves_member (k : String) {text left : List Char} (h : Leaves text left) :
    Leaves ((quote k).toList ++ (':' :: (l.gap.toList ++ text))) ((quote k).toList ++ (':' :: left)) :=
  (leaves_quote k).append (.cons rfl (h.skip hl.gap))

theorem leaves_items {vs : List Json}
    (h : ∀ v ∈ vs, ∀ depth depth', Leaves (write l depth v).toList (write .compact depth' v).toList)
    (depth depth' : Nat) : Leaves (writeItems l depth vs).toList (writeItems .compact depth' vs).toList := by
  induction vs with
  | nil => exact .nil
  | cons v vs ih =>
    obtain ⟨first, others⟩ := List.forall_mem_cons.1 h
    rw [toList_writeItems, compact_items]
    have items := (first depth depth').append (ih others)
    exact .cons rfl (.skip (hl.lineBreak depth) items)

theorem leaves_fields {fields : List (String × Json)}
    (h : ∀ f ∈ fields, ∀ depth depth', Leaves (write l depth f.2).toList (write .compact depth' f.2).toList)
    (depth depth' : Nat) :
    Leaves (writeFields l depth fields).toList (writeFields .compact depth' fields).toList := by
  induction fields with
  | nil => exact .nil
  | cons f fields ih =>
    obtain ⟨k, v⟩ := f
    obtain ⟨first, others⟩ := List.forall_mem_cons.1 h
    rw [toList_writeFields, compact_fields]
    have values := (first depth depth').append (ih others)
    exact .cons rfl (.skip (hl.lineBreak depth) (leaves_member hl k values))

/-- Without blanks, a value has one text in all layouts. -/
theorem leaves_write (v : Json) :
    ∀ depth depth', Leaves (write l depth v).toList (write .compact depth' v).toList := by
  induction v using Json.induction with
  | null =>
    intro depth depth'
    rw [toList_write_null, toList_write_null]
    exact .plain rfl
  | bool b =>
    intro depth depth'
    cases b with
    | true =>
      rw [toList_write_true, toList_write_true]
      exact .plain rfl
    | false =>
      rw [toList_write_false, toList_write_false]
      exact .plain rfl
  | number n =>
    intro depth depth'
    rw [write, write]
    exact leaves_number n
  | string s =>
    intro depth depth'
    rw [write, write]
    exact leaves_quote s
  | array vs ih =>
    intro depth depth'
    rcases vs with _ | ⟨v, vs⟩
    · rw [toList_write_array_nil, toList_write_array_nil]
      exact .plain rfl
    · obtain ⟨first, others⟩ := List.forall_mem_cons.1 ih
      have closing : Leaves ((l.lineBreak depth).toList ++ [']']) [']'] :=
        .skip (hl.lineBreak depth) (.mark rfl)
      have items := leaves_items hl others (depth + 1) (depth' + 1)
      rw [toList_write_array, compact_array]
      exact .cons rfl
        (.skip (hl.lineBreak _) ((first (depth + 1) (depth' + 1)).append (items.append closing)))
  | object fields ih =>
    intro depth depth'
    rcases fields with _ | ⟨⟨k, v⟩, fields⟩
    · rw [toList_write_object_nil, toList_write_object_nil]
      exact .plain rfl
    · obtain ⟨first, others⟩ := List.forall_mem_cons.1 ih
      have closing : Leaves ((l.lineBreak depth).toList ++ ['}']) ['}'] :=
        .skip (hl.lineBreak depth) (.mark rfl)
      have fields := leaves_fields hl others (depth + 1) (depth' + 1)
      have values := (first (depth + 1) (depth' + 1)).append (fields.append closing)
      rw [toList_write_object, compact_object]
      exact .cons rfl (.skip (hl.lineBreak _) (leaves_member hl k values))

end

/-- The pretty text without its blanks is the compact text. -/
theorem unspaced_pretty (v : Json) : unspaced .outside v.pretty.toList = v.compact.toList := by
  have left := leaves_write Layout.isBlank_pretty v 0 0 []
  rw [List.append_nil] at left
  exact left.trans (List.append_nil _)

end Slate.Json
