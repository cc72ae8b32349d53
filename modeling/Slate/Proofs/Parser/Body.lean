import Slate.Parser.Body

/-!
# How a body is cut

`cut` keeps a depth of braces, an open conditional and the tokens of the slice so far. What it does
to whole stretches of tokens is said here, one law for each kind of stretch:

* `cut_passive` — tokens that neither end nor open anything join the slice, wherever they stand;
* `cut_inside` — inside a block, so do all tokens whose braces have their partners;
* `cut_block` — the block of a conditional ends the slice, unless an `else` follows that is still
  allowed.
-/

namespace Slate.Parser

/-! ## Single tokens -/

/-- A kind that a cut passes over. -/
def isPassive : TokenKind → Bool
  | .ifKeyword | .elseKeyword | .openBrace | .closeBrace | .semicolon => false
  | _ => true

/-- A kind that is no brace. -/
def isOutsideBraces : TokenKind → Bool
  | .openBrace | .closeBrace => false
  | _ => true

theorem cut_cons_passive {t : Token} (h : isPassive t.kind = true) (s : Scanner)
    (ts : List Token) : cut s (t :: ts) = cut (s.take t) ts := by
  rw [cut]
  split <;> simp_all [isPassive]

theorem cut_passive {xs : List Token} (h : ∀ t ∈ xs, isPassive t.kind = true) (s : Scanner)
    (ts : List Token) : cut s (xs ++ ts) = cut { s with pending := xs.reverse ++ s.pending } ts := by
  induction xs generalizing s with
  | nil => rfl
  | cons x xs ih =>
    rw [List.cons_append, cut_cons_passive (h x List.mem_cons_self),
      ih fun t ht => h t (List.mem_cons_of_mem _ ht), List.reverse_cons, List.append_assoc]
    rfl

/-- Between statements a semicolon ends a slice. -/
theorem cut_semicolon {t : Token} (h : t.kind = .semicolon) (pending ts : List Token) :
    cut ⟨0, none, pending⟩ (t :: ts) = (cut {} ts).push (t :: pending).reverse := by
  rw [cut, h]
  rfl

/-- Between statements an `if` starts a conditional. -/
theorem cut_if {t : Token} (h : t.kind = .ifKeyword) (ts : List Token) :
    cut {} (t :: ts) = cut ⟨0, some ⟨false⟩, [t]⟩ ts := by
  rw [cut, h]
  rfl

/-- A brace that has no partner ends the body. -/
theorem cut_closed {t : Token} (h : t.kind = .closeBrace) (ts : List Token) :
    cut {} (t :: ts) = .stop (.closed [] t ts) := by
  rw [cut, h]
  rfl

/-! ## Blocks -/

/-- Each brace has its partner in the list. -/
inductive Braced : List Token → Prop where
  | nil : Braced []
  | cons {t : Token} {ts : List Token} (ht : isOutsideBraces t.kind = true) (h : Braced ts) :
      Braced (t :: ts)
  | block {o c : Token} {inner ts : List Token} (ho : o.kind = .openBrace)
      (hc : c.kind = .closeBrace) (hi : Braced inner) (h : Braced ts) :
      Braced (o :: inner ++ c :: ts)

theorem Braced.append {xs ys : List Token} (hx : Braced xs) (hy : Braced ys) :
    Braced (xs ++ ys) := by
  induction hx with
  | nil => exact hy
  | cons ht _ ih => exact ih.cons ht
  | block ho hc hi _ _ ih =>
    rw [List.append_assoc]
    exact .block ho hc hi ih

theorem braced_of_passive {ts : List Token} (h : ∀ t ∈ ts, isPassive t.kind = true) :
    Braced ts := by
  induction ts with
  | nil => exact .nil
  | cons t ts ih =>
    refine .cons ?_ (ih fun u hu => h u (List.mem_cons_of_mem _ hu))
    have passive := h t List.mem_cons_self
    cases hk : t.kind <;> simp_all [isPassive, isOutsideBraces]

theorem cut_cons_inside {t : Token} (h : isOutsideBraces t.kind = true) (depth : Nat)
    (c : Option OpenConditional) (pending ts : List Token) :
    cut ⟨depth + 1, c, pending⟩ (t :: ts) = cut ⟨depth + 1, c, t :: pending⟩ ts := by
  rw [cut]
  split <;> simp_all [isOutsideBraces, Scanner.between, Scanner.take]

theorem cut_openBrace {t : Token} (h : t.kind = .openBrace) {s : Scanner}
    (hs : s.between = false) (ts : List Token) :
    cut s (t :: ts) = cut ⟨s.depth + 1, s.conditional, t :: s.pending⟩ ts := by
  rw [cut, h]
  simp only [hs, Bool.false_eq_true, if_false]
  rfl

theorem cut_closeBrace {t : Token} (h : t.kind = .closeBrace) (depth : Nat)
    (c : Option OpenConditional) (pending ts : List Token) :
    cut ⟨depth + 2, c, pending⟩ (t :: ts) = cut ⟨depth + 1, c, t :: pending⟩ ts := by
  rw [cut, h]
  rfl

/-- Inside a block nothing ends the slice that has its partner there. -/
theorem cut_inside {xs : List Token} (h : Braced xs) (depth : Nat) (c : Option OpenConditional)
    (pending ts : List Token) :
    cut ⟨depth + 1, c, pending⟩ (xs ++ ts) = cut ⟨depth + 1, c, xs.reverse ++ pending⟩ ts := by
  induction h generalizing depth pending ts with
  | nil => rfl
  | cons ht _ ih => rw [List.cons_append, cut_cons_inside ht, ih, List.reverse_cons]; simp
  | @block o cl inner rest ho hc _ _ ihi ih =>
    -- a brace goes one deeper, and its partner comes back
    rw [List.cons_append, List.cons_append, cut_openBrace ho (by simp [Scanner.between]),
      List.append_assoc, ihi, List.cons_append, cut_closeBrace hc, ih]
    simp

/-- Behind an `if` or `else` a block ends the slice, if no `else` follows that belongs to it. -/
theorem cut_block {o c : Token} {inner : List Token} (ho : o.kind = .openBrace)
    (hc : c.kind = .closeBrace) (hi : Braced inner) (open_ : OpenConditional)
    (pending : List Token) {ts : List Token} (hts : ∀ e ∈ ts.head?, e.kind ≠ .elseKeyword) :
    cut ⟨0, some open_, pending⟩ (o :: inner ++ c :: ts) =
      (cut {} ts).push (pending.reverse ++ (o :: inner ++ [c])) := by
  rw [List.cons_append, cut_openBrace ho rfl, cut_inside hi, cut, hc]
  cases ts with
  | nil => simp [Scanner.take]
  | cons e rest =>
    have other : e.kind ≠ .elseKeyword := hts e rfl
    simp [Scanner.take, other]

/-- With an `else` behind its first block a conditional goes on. -/
theorem cut_block_else {o c e : Token} {inner : List Token} (ho : o.kind = .openBrace)
    (hc : c.kind = .closeBrace) (he : e.kind = .elseKeyword) (hi : Braced inner)
    (pending ts : List Token) :
    cut ⟨0, some ⟨false⟩, pending⟩ (o :: inner ++ c :: e :: ts) =
      cut ⟨0, some ⟨true⟩, (o :: inner ++ [c, e]).reverse ++ pending⟩ ts := by
  rw [List.cons_append, cut_openBrace ho rfl, cut_inside hi, cut, hc]
  simp [he]

/-! ## The end of a body -/

/-- Only a closing brace closes a body. -/
theorem kind_of_closed {s : Scanner} {ts pending rest : List Token} {brace : Token}
    (h : (cut s ts).ending = .closed pending brace rest) : brace.kind = .closeBrace := by
  fun_induction cut s ts with
  | case1 s => rw [Cut.stop] at h; dsimp only at h; split at h <;> cases h
  | _ => simp_all [Cut.push, Cut.stop]

theorem tokens_of_closed {ts pending rest : List Token} {brace : Token}
    (h : (cut {} ts).ending = .closed pending brace rest) :
    ts = (cut {} ts).slices.flatten ++ (pending ++ brace :: rest) := by
  have := tokens_cut {} ts
  rw [Cut.tokens, h] at this
  exact this.symm

end Slate.Parser
