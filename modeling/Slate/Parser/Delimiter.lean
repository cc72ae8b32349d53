import Slate.Parser.Failure

/-!
# Parentheses and commas

What the parser has to know of a list of tokens before it takes it apart.

* `balanced` finds the first parenthesis that closes nothing, else the last one that stays open;
* `closingParen?` cuts a list behind the parenthesis that closes one opened before it;
* `commaParts` cuts a list at the commas outside parentheses.

Each gives back the tokens it was given: `closingParen?_eq_some` and `commaParts_length`.
-/

namespace Slate.Parser

/-- Whether each parenthesis has its partner. `opened` are those still open, the last one first. -/
def balanced (opened : List Token) : List Token → Parsed Unit
  | [] =>
    match opened with
    | [] => .ok ()
    | o :: _ => failAt o.span .unclosedParen
  | t :: ts =>
    match t.kind with
    | .openParen => balanced (t :: opened) ts
    | .closeParen =>
      match opened with
      | [] => failAt t.span (.unmatched .closeParen)
      | _ :: opened => balanced opened ts
    | _ => balanced opened ts

/-- The depth of parentheses behind a token. -/
def depthAfter (t : Token) (depth : Nat) : Nat :=
  match t.kind with
  | .openParen => depth + 1
  | .closeParen => depth - 1
  | _ => depth

/-- Tokens up to a closing parenthesis, that parenthesis, and the tokens behind it. -/
structure Enclosed where
  inner : List Token
  close : Token
  rest : List Token

/-- Cuts the tokens at the parenthesis that closes one opened just before them. `depth` counts those
opened since. -/
def closingParen? (depth : Nat) : List Token → Option Enclosed
  | [] => none
  | t :: ts =>
    if t.kind = .closeParen ∧ depth = 0 then some ⟨[], t, ts⟩
    else (closingParen? (depthAfter t depth) ts).map fun e => { e with inner := t :: e.inner }

theorem closingParen?_eq_some {depth : Nat} {ts : List Token} {e : Enclosed}
    (h : closingParen? depth ts = some e) : ts = e.inner ++ e.close :: e.rest := by
  induction ts generalizing depth e with
  | nil => simp [closingParen?] at h
  | cons t ts ih =>
    unfold closingParen? at h
    split at h
    · cases h; rfl
    · obtain ⟨e', he', rfl⟩ := Option.map_eq_some_iff.1 h
      simpa using ih he'

/-- Puts a token in front of the first part. -/
def consFirst {α : Type} (a : α) : List (List α) → List (List α)
  | [] => [[a]]
  | p :: ps => (a :: p) :: ps

/-- The parts between the commas outside parentheses. There is always one, which may be empty. -/
def commaParts (depth : Nat) : List Token → List (List Token)
  | [] => [[]]
  | t :: ts =>
    if t.kind = .comma ∧ depth = 0 then [] :: commaParts 0 ts
    else consFirst t (commaParts (depthAfter t depth) ts)

theorem length_le_of_mem_consFirst {α : Type} {a : α} {ps : List (List α)} {n : Nat}
    (h : ∀ p ∈ ps, p.length ≤ n) : ∀ p ∈ consFirst a ps, p.length ≤ n + 1 := by
  cases ps with
  | nil => simp [consFirst]
  | cons q qs =>
    simp only [consFirst, List.mem_cons, forall_eq_or_imp, List.length_cons] at h ⊢
    exact ⟨Nat.succ_le_succ h.1, fun p hp => Nat.le_succ_of_le (h.2 p hp)⟩

theorem commaParts_length {depth : Nat} {ts : List Token} :
    ∀ p ∈ commaParts depth ts, p.length ≤ ts.length := by
  induction ts generalizing depth with
  | nil => simp [commaParts]
  | cons t ts ih =>
    unfold commaParts
    split
    · simp only [List.mem_cons, forall_eq_or_imp, List.length_nil, Nat.zero_le, true_and]
      exact fun p hp => Nat.le_succ_of_le (ih p hp)
    · exact length_le_of_mem_consFirst ih

end Slate.Parser
