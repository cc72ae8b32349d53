import Slate.Parser.Expr
import Slate.Proofs.Parser.Nesting

/-!
# The weakest operator

`outerOperators` lists the operators of some tokens that stand outside parentheses, each behind an
operand. `weakest` takes one of them, and which one is said by two statements that are converse to
each other:

* `weakest_append` — an operator is found if those in front of it bind no less and those behind it
  bind more;
* `weakest_left`, `weakest_right` — of the operator that is found both are true.
-/

namespace Slate.Parser

/-- The operators outside parentheses, in order. -/
def outerOperators (previous : Option Token) (depth : Nat) : List Token → List BinaryOp
  | [] => []
  | t :: ts =>
    (operatorAt? previous depth t).toList ++ outerOperators (some t) (depthAfter t depth) ts

/-- Whether an operand can end with the token. -/
def EndsOperand (t : Option Token) : Prop := t.any (endsOperand ·.kind) = true

instance (t : Option Token) : Decidable (EndsOperand t) := inferInstanceAs (Decidable (_ = _))

/-! ## Signs and operators -/

theorem operatorAt?_of_endsOperand {previous : Option Token} (h : EndsOperand previous)
    (t : Token) : operatorAt? previous 0 t = operator? t.kind := by
  rw [operatorAt?, if_pos ⟨rfl, h⟩]

/-- Behind no operand there is no operator. -/
theorem operatorAt?_of_not_endsOperand {previous : Option Token} (h : ¬ EndsOperand previous)
    (depth : Nat) (t : Token) : operatorAt? previous depth t = none := by
  rw [operatorAt?, if_neg fun c => h c.2]

/-- Inside parentheses there is no operator. -/
theorem operatorAt?_succ (previous : Option Token) (depth : Nat) (t : Token) :
    operatorAt? previous (depth + 1) t = none := by
  rw [operatorAt?, if_neg]
  rintro ⟨h, -⟩
  cases h

theorem operatorAt?_eq_none {t : Token} (h : operator? t.kind = none) (previous : Option Token)
    (depth : Nat) : operatorAt? previous depth t = none := by
  rw [operatorAt?, h, ite_self]

theorem operatorAt?_eq_some {previous : Option Token} {depth : Nat} {t : Token} {op : BinaryOp}
    (h : operatorAt? previous depth t = some op) : depth = 0 ∧ operator? t.kind = some op := by
  rw [operatorAt?] at h
  split at h
  · next c => exact ⟨c.1, h⟩
  · cases h

/-- An operator neither ends an operand nor is a parenthesis. -/
theorem not_endsOperand_of_operator? {t : Token} {op : BinaryOp} (h : operator? t.kind = some op) :
    ¬ EndsOperand (some t) := by
  revert h
  cases hk : t.kind <;> simp [operator?, EndsOperand, endsOperand, hk]

theorem isPlain_of_operator? {t : Token} {op : BinaryOp} (h : operator? t.kind = some op) :
    isPlain t.kind = true := by
  revert h
  cases t.kind <;> simp [operator?, isPlain]

theorem endsOperand_getLast?_append {us : List Token} (ts : List Token) (hne : us ≠ [])
    (h : EndsOperand us.getLast?) : EndsOperand (ts ++ us).getLast? := by
  rw [List.getLast?_append, List.getLast?_eq_some_getLast hne, Option.some_or,
    ← List.getLast?_eq_some_getLast hne]
  exact h

/-! ## Outer operators -/

/-- What stands in front of the last of some tokens does not matter to it. -/
theorem getLast?_cons_or (t : Token) (ts : List Token) (previous : Option Token) :
    (t :: ts).getLast?.or previous = ts.getLast?.or (some t) := by
  cases ts with
  | nil => rfl
  | cons u us => rw [List.getLast?_cons_cons, List.getLast?_cons]; rfl

theorem outerOperators_append {depth below : Nat} {xs : List Token} (previous : Option Token)
    (ys : List Token) (h : depthBehind? depth xs = some below) :
    outerOperators previous depth (xs ++ ys) =
      outerOperators previous depth xs ++ outerOperators (xs.getLast?.or previous) below ys := by
  induction xs generalizing depth previous with
  | nil => cases h; rfl
  | cons x xs ih =>
    rw [depthBehind?] at h
    split at h
    · cases h
    · rw [List.cons_append, outerOperators, outerOperators, ih _ h, getLast?_cons_or,
        List.append_assoc]

/-- Behind a sign the same operators stand as at the start. -/
theorem outerOperators_of_not_endsOperand {previous : Option Token} (h : ¬ EndsOperand previous)
    (depth : Nat) (ts : List Token) :
    outerOperators previous depth ts = outerOperators none depth ts := by
  cases ts with
  | nil => rfl
  | cons t ts =>
    rw [outerOperators, outerOperators, operatorAt?_of_not_endsOperand h,
      operatorAt?_of_not_endsOperand (by simp [EndsOperand])]

/-- Inside parentheses no operator is an outer one. -/
theorem outerOperators_succ {depth below : Nat} {ts : List Token} (previous : Option Token)
    (h : depthBehind? depth ts = some below) : outerOperators previous (depth + 1) ts = [] := by
  induction ts generalizing depth previous with
  | nil => rfl
  | cons t ts ih =>
    rw [depthBehind?] at h
    split at h
    · cases h
    · next inside =>
      rw [outerOperators, operatorAt?_succ, depthAfter_add inside, ih _ h]
      rfl

/-- An operator between two lists is an outer one, behind an operand. -/
theorem outerOperators_operation {left right : List Token} {sign : Token} {op : BinaryOp}
    (hn : Nested left) (he : EndsOperand left.getLast?) (hs : operator? sign.kind = some op) :
    outerOperators none 0 (left ++ sign :: right) =
      outerOperators none 0 left ++ op :: outerOperators none 0 right := by
  rw [outerOperators_append none _ hn, Option.or_none, outerOperators,
    operatorAt?_of_endsOperand he, hs, depthAfter_of_isPlain (isPlain_of_operator? hs),
    outerOperators_of_not_endsOperand (not_endsOperand_of_operator? hs)]
  rfl

/-- A pair of parentheses has no outer operators. -/
theorem outerOperators_group {o : Token} {inner : List Token} (c : Token)
    (ho : o.kind = .openParen) (h : Nested inner) (previous : Option Token) :
    outerOperators previous 0 (o :: inner ++ [c]) = [] := by
  have opened : depthAfter o 0 = 1 := by rw [depthAfter, ho]
  have first : operatorAt? previous 0 o = none := operatorAt?_eq_none (by rw [ho]; rfl) _ _
  have last (t : Option Token) : operatorAt? t 1 c = none := operatorAt?_succ _ _ _
  rw [List.cons_append, outerOperators, first, opened,
    outerOperators_append _ _ (h.depthBehind? 1), outerOperators_succ _ h, outerOperators, last]
  rfl

/-- The first token is no operator. -/
theorem outerOperators_cons_of_isPlain {t : Token} (h : isPlain t.kind = true) (ts : List Token) :
    outerOperators none 0 (t :: ts) = outerOperators (some t) 0 ts := by
  rw [outerOperators, depthAfter_of_isPlain h,
    operatorAt?_of_not_endsOperand (by simp [EndsOperand])]
  rfl

/-- Nor has a call. -/
theorem outerOperators_call {callee o : Token} {inner : List Token} (c : Token)
    (hn : callee.kind = .identifier) (ho : o.kind = .openParen) (h : Nested inner) :
    outerOperators none 0 (callee :: o :: inner ++ [c]) = [] := by
  have group_ := outerOperators_group c ho h (some callee)
  rw [List.cons_append, outerOperators_cons_of_isPlain (by rw [hn]; rfl)]
  exact group_

/-! ## The weakest of them -/

theorem weakest_eq_none_iff {previous : Option Token} {depth : Nat} {ts : List Token} :
    weakest previous depth ts = none ↔ outerOperators previous depth ts = [] := by
  induction ts generalizing previous depth with
  | nil => exact ⟨fun _ => rfl, fun _ => rfl⟩
  | cons t ts ih =>
    unfold weakest outerOperators
    dsimp only
    split
    · next h => rw [Option.map_eq_none_iff, ih, h]; rfl
    · next op h =>
      rw [h]
      constructor
      · intro none_
        split at none_
        · cases none_
        · split at none_ <;> cases none_
      · intro nil_
        cases nil_

/-- The operator that is found is an outer one, and none binds less. -/
theorem weakest_least {previous : Option Token} {depth : Nat} {ts : List Token} {s : Split}
    (h : weakest previous depth ts = some s) :
    s.op ∈ outerOperators previous depth ts ∧
      ∀ op ∈ outerOperators previous depth ts, s.op.precedence ≤ op.precedence := by
  induction ts generalizing previous depth s with
  | nil => cases h
  | cons t ts ih =>
    unfold weakest at h
    dsimp only at h
    rw [outerOperators]
    split at h
    · next hat =>
      obtain ⟨s', hs', rfl⟩ := Option.map_eq_some_iff.1 h
      have found := ih hs'
      rw [hat]
      exact found
    · next op hat =>
      rw [hat, Option.toList_some, List.singleton_append]
      split at h
      · next hnone =>
        cases h
        rw [weakest_eq_none_iff.1 (Option.map_eq_none_iff.1 hnone)]
        simp
      · next later hlater =>
        obtain ⟨s', hs', rfl⟩ := Option.map_eq_some_iff.1 hlater
        obtain ⟨mem, below⟩ := ih hs'
        split at h <;> cases h
        · next hle =>
          refine ⟨List.mem_cons_of_mem _ mem, fun o ho => ?_⟩
          rcases List.mem_cons.1 ho with rfl | ho
          · exact hle
          · exact below o ho
        · next hlt =>
          refine ⟨List.mem_cons_self, fun o ho => ?_⟩
          rcases List.mem_cons.1 ho with rfl | ho
          · exact Nat.le_refl _
          · exact Nat.le_trans (Nat.le_of_lt (Nat.lt_of_not_le hlt)) (below o ho)

/-- What is found stands behind the operators that bind no less. -/
theorem weakest_left {previous : Option Token} {depth : Nat} {ts : List Token} {s : Split}
    (h : weakest previous depth ts = some s) :
    operator? s.sign.kind = some s.op ∧
      ∀ op ∈ outerOperators previous depth s.left, s.op.precedence ≤ op.precedence := by
  induction ts generalizing previous depth s with
  | nil => cases h
  | cons t ts ih =>
    have least := (weakest_least h).2
    rw [outerOperators] at least
    -- where the operator is found later, `t` is the first token in front of it
    have later {s' : Split} (hs' : weakest (some t) (depthAfter t depth) ts = some s')
        (first : ∀ op ∈ (operatorAt? previous depth t).toList,
          s'.op.precedence ≤ op.precedence) :
        operator? (s'.prepend t).sign.kind = some (s'.prepend t).op ∧
          ∀ op ∈ outerOperators previous depth (s'.prepend t).left,
            (s'.prepend t).op.precedence ≤ op.precedence := by
      refine ⟨(ih hs').1, fun op hop => ?_⟩
      rw [Split.prepend, outerOperators] at hop
      rcases List.mem_append.1 hop with hop | hop
      · exact first op hop
      · exact (ih hs').2 op hop
    unfold weakest at h
    dsimp only at h
    split at h
    · next hat =>
      obtain ⟨s', hs', rfl⟩ := Option.map_eq_some_iff.1 h
      exact later hs' (by rw [hat]; simp)
    · next op hat =>
      have own : operator? t.kind = some op := (operatorAt?_eq_some hat).2
      split at h
      · cases h; exact ⟨own, fun _ hop => by cases hop⟩
      · next s'' hlater =>
        obtain ⟨s', hs', rfl⟩ := Option.map_eq_some_iff.1 hlater
        split at h <;> cases h
        · exact later hs' fun o ho => least o (List.mem_append_left _ ho)
        · exact ⟨own, fun _ hop => by cases hop⟩

/-- What is found stands in front of the operators that bind more. -/
theorem weakest_right {previous : Option Token} {depth : Nat} {ts : List Token} {s : Split}
    (h : weakest previous depth ts = some s) :
    ∀ op ∈ outerOperators none 0 s.right, s.op.precedence < op.precedence := by
  induction ts generalizing previous depth s with
  | nil => cases h
  | cons t ts ih =>
    unfold weakest at h
    dsimp only at h
    split at h
    · obtain ⟨s', hs', rfl⟩ := Option.map_eq_some_iff.1 h
      have behind := ih hs'
      exact behind
    · next op hat =>
      obtain ⟨rfl, hop⟩ := operatorAt?_eq_some hat
      -- `weakest` looks behind the sign, where the same operators stand as at a start
      have behind := outerOperators_of_not_endsOperand (not_endsOperand_of_operator? hop) 0 ts
      rw [depthAfter_of_isPlain (isPlain_of_operator? hop)] at h
      split at h
      · next hnone =>
        cases h
        rw [← behind, weakest_eq_none_iff.1 (Option.map_eq_none_iff.1 hnone)]
        exact fun _ ho => by cases ho
      · next s'' hlater =>
        obtain ⟨s', hs', rfl⟩ := Option.map_eq_some_iff.1 hlater
        split at h <;> cases h
        · have later := ih hs'
          exact later
        · next hlt =>
          rw [← behind]
          exact fun o ho =>
            Nat.lt_of_lt_of_le (Nat.lt_of_not_le hlt) ((weakest_least hs').2 o ho)

/-- An operator is found if those in front of it bind no less and those behind it bind more. -/
theorem weakest_append {previous : Option Token} {depth : Nat} {left right : List Token}
    {sign : Token} {op : BinaryOp} (hd : depthBehind? depth left = some 0)
    (he : EndsOperand (left.getLast?.or previous)) (hs : operator? sign.kind = some op)
    (hl : ∀ o ∈ outerOperators previous depth left, op.precedence ≤ o.precedence)
    (hr : ∀ o ∈ outerOperators none 0 right, op.precedence < o.precedence) :
    weakest previous depth (left ++ sign :: right) = some ⟨left, sign, op, right⟩ := by
  -- from the left: every operator in front gives way to the one that is found behind it
  induction left generalizing previous depth with
  | nil =>
    cases hd
    have hat : operatorAt? previous 0 sign = some op :=
      (operatorAt?_of_endsOperand he sign).trans hs
    rw [← outerOperators_of_not_endsOperand (not_endsOperand_of_operator? hs)] at hr
    rw [List.nil_append, weakest, hat, depthAfter_of_isPlain (isPlain_of_operator? hs)]
    cases hlater : weakest (some sign) 0 right with
    | none => rfl
    | some s =>
      have more : ¬ s.op.precedence ≤ op.precedence :=
        Nat.not_le_of_lt (hr _ (weakest_least hlater).1)
      exact if_neg more
  | cons t ts ih =>
    rw [depthBehind?] at hd
    split at hd
    · cases hd
    · rw [getLast?_cons_or] at he
      rw [outerOperators] at hl
      have later := ih hd he fun o ho => hl o (List.mem_append_right _ ho)
      rw [List.cons_append, weakest, later]
      cases hat : operatorAt? previous depth t with
      | none => rfl
      | some own =>
        have less : op.precedence ≤ own.precedence := hl own (by rw [hat]; simp)
        exact if_pos less

end Slate.Parser
