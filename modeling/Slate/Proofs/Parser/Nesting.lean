import Slate.Parser.Delimiter

/-!
# How parentheses nest

`balanced`, `closingParen?` and `commaParts` each go over a list of tokens and count parentheses in
their own way. `depthBehind?` is the count by itself, as a partial function, and the three are
described by it:

* `balanced_eq_ok_iff` — the check succeeds exactly if every parenthesis has its partner;
* `closingParen?_append`, `nested_of_closingParen?` — the parenthesis that is found closes a nested
  list;
* `commaParts_append`, `commaParts_eq_cons` — cutting at commas and joining with commas are inverse;
* `Nested.whole` — a nested list that has its commas in parentheses is not cut.
-/

namespace Slate.Parser

/-! ## Depth -/

/-- The depth of parentheses behind tokens, if none of them closes what was never opened. -/
def depthBehind? (depth : Nat) : List Token → Option Nat
  | [] => some depth
  | t :: ts =>
    if t.kind = .closeParen ∧ depth = 0 then none else depthBehind? (depthAfter t depth) ts

/-- Each parenthesis of a nested list has its partner in the list. -/
def Nested (ts : List Token) : Prop := depthBehind? 0 ts = some 0

instance (ts : List Token) : Decidable (Nested ts) :=
  inferInstanceAs (Decidable (depthBehind? 0 ts = some 0))

@[simp] theorem depthBehind?_nil (depth : Nat) : depthBehind? depth [] = some depth := rfl

theorem depthBehind?_append (depth : Nat) (xs ys : List Token) :
    depthBehind? depth (xs ++ ys) = (depthBehind? depth xs).bind (depthBehind? · ys) := by
  induction xs generalizing depth with
  | nil => rfl
  | cons x xs ih =>
    rw [List.cons_append, depthBehind?, depthBehind?]
    split
    · rfl
    · exact ih _

/-- What a token does to the depth it does to every greater one. -/
theorem depthAfter_add {t : Token} {depth : Nat} (h : ¬ (t.kind = .closeParen ∧ depth = 0))
    (more : Nat) : depthAfter t (depth + more) = depthAfter t depth + more := by
  unfold depthAfter
  split
  · omega
  · next hk =>
    have : depth ≠ 0 := fun e => h ⟨hk, e⟩
    omega
  · rfl

/-- What happens at some depth happens at every greater one. -/
theorem depthBehind?_add {depth below : Nat} {ts : List Token} (more : Nat)
    (h : depthBehind? depth ts = some below) :
    depthBehind? (depth + more) ts = some (below + more) := by
  induction ts generalizing depth with
  | nil =>
    rw [depthBehind?_nil, Option.some.injEq] at h ⊢
    rw [h]
  | cons t ts ih =>
    rw [depthBehind?] at h ⊢
    split at h
    · cases h
    · next inside =>
      rw [if_neg (fun c => inside ⟨c.1, by omega⟩), depthAfter_add inside]
      exact ih h

theorem Nested.depthBehind? {ts : List Token} (h : Nested ts) (depth : Nat) :
    depthBehind? depth ts = some depth := by
  have := depthBehind?_add depth h
  rwa [Nat.zero_add] at this

theorem Nested.append {xs ys : List Token} (hx : Nested xs) (hy : Nested ys) :
    Nested (xs ++ ys) := by
  rw [Nested, depthBehind?_append, hx]
  exact hy

theorem nested_nil : Nested [] := rfl

/-- A kind that is no parenthesis. -/
def isPlain : TokenKind → Bool
  | .openParen | .closeParen => false
  | _ => true

theorem depthAfter_of_isPlain {t : Token} (h : isPlain t.kind = true) (depth : Nat) :
    depthAfter t depth = depth := by
  unfold depthAfter
  split <;> simp_all [isPlain]

theorem depthBehind?_cons_of_isPlain {t : Token} (h : isPlain t.kind = true) (depth : Nat)
    (ts : List Token) : depthBehind? depth (t :: ts) = depthBehind? depth ts := by
  rw [depthBehind?, depthAfter_of_isPlain h, if_neg]
  rintro ⟨hk, -⟩
  rw [hk] at h
  cases h

theorem nested_singleton {t : Token} (h : isPlain t.kind = true) : Nested [t] := by
  rw [Nested, depthBehind?_cons_of_isPlain h]
  rfl

theorem Nested.cons {t : Token} {ts : List Token} (h : Nested ts) (ht : isPlain t.kind = true) :
    Nested (t :: ts) :=
  (nested_singleton ht).append h

/-- Behind its opening parenthesis a nested list goes on one deeper, up to the closing one. -/
theorem nested_group {o c : Token} {inner : List Token} (ho : o.kind = .openParen)
    (hc : c.kind = .closeParen) (h : Nested inner) : Nested (o :: inner ++ [c]) := by
  have opened : depthAfter o 0 = 1 := by rw [depthAfter, ho]
  have closed : depthAfter c 1 = 0 := by rw [depthAfter, hc]
  rw [Nested, List.cons_append, Slate.Parser.depthBehind?, opened, depthBehind?_append,
    h.depthBehind? 1, if_neg (by rw [ho]; simp)]
  show Slate.Parser.depthBehind? 1 [c] = some 0
  rw [Slate.Parser.depthBehind?, closed, if_neg (by simp)]
  rfl

/-! ## The check for balance -/

theorem balanced_eq_ok_iff {opened ts : List Token} :
    balanced opened ts = .ok () ↔ depthBehind? opened.length ts = some 0 := by
  induction ts generalizing opened with
  | nil => cases opened <;> simp [balanced, failAt]
  | cons t ts ih =>
    rw [depthBehind?]
    unfold balanced depthAfter
    split
    · next hk => rw [ih, if_neg (by rw [hk]; simp)]; rfl
    · next hk =>
      cases opened with
      | nil => rw [if_pos ⟨hk, rfl⟩]; simp [failAt]
      | cons o opened => rw [ih, if_neg (by simp)]; rfl
    · next _ hk => rw [ih, if_neg (fun h => hk h.1)]

theorem Nested.balanced {ts : List Token} (h : Nested ts) : balanced [] ts = .ok () :=
  balanced_eq_ok_iff.2 h

/-! ## The closing parenthesis -/

theorem closingParen?_append {depth : Nat} {xs ys : List Token} {c : Token}
    (h : depthBehind? depth xs = some 0) (hc : c.kind = .closeParen) :
    closingParen? depth (xs ++ c :: ys) = some ⟨xs, c, ys⟩ := by
  induction xs generalizing depth with
  | nil =>
    cases h
    rw [List.nil_append, closingParen?, if_pos ⟨hc, rfl⟩]
  | cons x xs ih =>
    rw [depthBehind?] at h
    split at h
    · cases h
    · next inside => rw [List.cons_append, closingParen?, if_neg inside, ih h]; rfl

theorem nested_of_closingParen? {depth : Nat} {ts : List Token} {e : Enclosed}
    (h : closingParen? depth ts = some e) :
    depthBehind? depth e.inner = some 0 ∧ e.close.kind = .closeParen := by
  induction ts generalizing depth e with
  | nil => cases h
  | cons t ts ih =>
    rw [closingParen?] at h
    split at h
    · next hk => cases h; exact ⟨by rw [hk.2]; rfl, hk.1⟩
    · next inside =>
      obtain ⟨e', he', rfl⟩ := Option.map_eq_some_iff.1 h
      rw [depthBehind?, if_neg inside]
      exact ih he'

/-! ## Commas -/

/-- No comma of the list stands outside parentheses. -/
def Whole (ts : List Token) : Prop := commaParts 0 ts = [ts]

theorem commaParts_ne_nil (depth : Nat) (ts : List Token) : commaParts depth ts ≠ [] := by
  cases ts with
  | nil => simp [commaParts]
  | cons t ts =>
    rw [commaParts]
    split
    · simp
    · cases commaParts (depthAfter t depth) ts <;> simp [consFirst]

/-- Tokens without a comma of their own lengthen the first part. -/
theorem commaParts_append {depth below : Nat} {xs : List Token} (ys : List Token)
    (h : depthBehind? depth xs = some below) (hw : commaParts depth xs = [xs]) :
    commaParts depth (xs ++ ys) = (commaParts below ys).modifyHead (xs ++ ·) := by
  induction xs generalizing depth with
  | nil =>
    cases h
    cases hp : commaParts below ys with
    | nil => exact absurd hp (commaParts_ne_nil _ _)
    | cons p ps => rw [List.nil_append, hp]; rfl
  | cons x xs ih =>
    rw [depthBehind?] at h
    rw [List.cons_append, commaParts]
    rw [commaParts] at hw
    split at h
    · cases h
    · split at hw
      · simp at hw
      · next inside =>
        -- the rest has no comma of its own either, or the whole would have had two parts
        have own : commaParts (depthAfter x depth) xs = [xs] := by
          cases hp : commaParts (depthAfter x depth) xs with
          | nil => exact absurd hp (commaParts_ne_nil _ _)
          | cons p ps => rw [hp] at hw; simp_all [consFirst]
        rw [if_neg inside, ih h own]
        cases hp : commaParts below ys with
        | nil => exact absurd hp (commaParts_ne_nil _ _)
        | cons p ps => simp [consFirst]

/-- Inside parentheses there are no parts. -/
theorem commaParts_succ {depth below : Nat} {xs : List Token}
    (h : depthBehind? depth xs = some below) : commaParts (depth + 1) xs = [xs] := by
  induction xs generalizing depth with
  | nil => rfl
  | cons x xs ih =>
    rw [depthBehind?] at h
    split at h
    · cases h
    · next inside =>
      rw [commaParts, if_neg (by simp), depthAfter_add inside, ih h]
      rfl

theorem Whole.append {xs ys : List Token} (hx : Whole xs) (hn : Nested xs) (hy : Whole ys) :
    Whole (xs ++ ys) := by
  rw [Whole, commaParts_append ys hn hx, hy]
  rfl

/-- A comma behind a nested list without commas ends its first part. -/
theorem commaParts_append_comma {xs ys : List Token} {c : Token} (hn : Nested xs) (hx : Whole xs)
    (hc : c.kind = .comma) : commaParts 0 (xs ++ c :: ys) = xs :: commaParts 0 ys := by
  rw [commaParts_append _ hn hx, commaParts, if_pos ⟨hc, rfl⟩]
  simp

theorem whole_singleton {t : Token} (h : t.kind ≠ .comma) : Whole [t] := by
  rw [Whole, commaParts, if_neg (fun c => h c.1)]
  rfl

theorem Whole.cons {t : Token} {ts : List Token} (h : Whole ts) (hp : isPlain t.kind = true)
    (hc : t.kind ≠ .comma) : Whole (t :: ts) :=
  (whole_singleton hc).append (nested_singleton hp) h

theorem whole_group {o c : Token} {inner : List Token} (ho : o.kind = .openParen)
    (hc : c.kind = .closeParen) (h : Nested inner) : Whole (o :: inner ++ [c]) := by
  have opened : depthAfter o 0 = 1 := by rw [depthAfter, ho]
  have closed : depthAfter c 1 = 0 := by rw [depthAfter, hc]
  have last : commaParts 1 [c] = [[c]] := by
    rw [commaParts, if_neg (by simp)]
    rfl
  rw [Whole, List.cons_append, commaParts, if_neg (by rw [ho]; simp), opened,
    commaParts_append [c] (h.depthBehind? 1) (commaParts_succ h), last]
  rfl

/-- In front of each comma some parenthesis is still open. -/
def CommasEnclosed (ts : List Token) : Prop :=
  ∀ front comma behind, ts = front ++ comma :: behind → comma.kind = .comma → ¬ Nested front

theorem commasEnclosed_iff {ts : List Token} : CommasEnclosed ts ↔
    ∀ i : Fin ts.length, ts[i].kind = .comma → ¬ Nested (ts.take i) := by
  constructor
  · intro h i comma
    refine h (ts.take i) ts[i] (ts.drop (i + 1)) ?_ comma
    rw [Fin.getElem_fin, List.getElem_cons_drop, List.take_append_drop]
  · rintro h front comma behind rfl kind
    have here := h ⟨front.length, by simp⟩
    rw [Fin.getElem_fin, List.getElem_append_right (Nat.le_refl _)] at here
    simp only [Nat.sub_self, List.getElem_cons_zero, List.take_left] at here
    exact here kind

instance (ts : List Token) : Decidable (CommasEnclosed ts) := decidable_of_iff' _ commasEnclosed_iff

/-- Where each comma stands deeper than nought, there is only one part. -/
theorem commaParts_of_deep {depth below : Nat} {ts : List Token}
    (h : depthBehind? depth ts = some below)
    (deep : ∀ front comma behind, ts = front ++ comma :: behind → comma.kind = .comma →
      depthBehind? depth front ≠ some 0) : commaParts depth ts = [ts] := by
  induction ts generalizing depth with
  | nil => rfl
  | cons t ts ih =>
    rw [depthBehind?] at h
    split at h
    · cases h
    · next inside =>
      have here : ¬ (t.kind = .comma ∧ depth = 0) := by
        rintro ⟨comma, rfl⟩
        exact deep [] t ts rfl comma rfl
      have later : commaParts (depthAfter t depth) ts = [ts] := by
        refine ih h fun front comma behind split kind => ?_
        have := deep (t :: front) comma behind (by rw [split]; rfl) kind
        rwa [depthBehind?, if_neg inside] at this
      rw [commaParts, if_neg here, later, consFirst]

theorem Nested.whole {ts : List Token} (h : Nested ts) (commas : CommasEnclosed ts) : Whole ts :=
  commaParts_of_deep h commas

/-- The first part is all there is, or a comma stands behind it and the other parts are those of
what follows. -/
theorem commaParts_eq_cons {depth : Nat} {ts p : List Token} {ps : List (List Token)}
    (h : commaParts depth ts = p :: ps) :
    (ts = p ∧ ps = []) ∨
      ∃ c rest, ts = p ++ c :: rest ∧ c.kind = .comma ∧ commaParts 0 rest = ps := by
  induction ts generalizing depth p with
  | nil => cases h; exact .inl ⟨rfl, rfl⟩
  | cons t ts ih =>
    rw [commaParts] at h
    split at h
    · next hk => cases h; exact .inr ⟨t, ts, rfl, hk.1, rfl⟩
    · cases hp : commaParts (depthAfter t depth) ts with
      | nil => exact absurd hp (commaParts_ne_nil _ _)
      | cons q qs =>
        rw [hp, consFirst] at h
        cases h
        rcases ih hp with ⟨rfl, rfl⟩ | ⟨c, rest, rfl, hc, hr⟩
        · exact .inl ⟨rfl, rfl⟩
        · exact .inr ⟨c, rest, rfl, hc, hr⟩

end Slate.Parser
