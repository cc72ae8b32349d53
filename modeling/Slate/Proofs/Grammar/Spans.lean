import Slate.Proofs.Grammar.StmtParser
import Slate.Proofs.Parser.Places
import Slate.Proofs.Tree.Spans

/-!
# Where the nodes of a program start

Each node of a tree that is read starts where a token starts: its place is that of its own tokens, from the first
of them on. Also the nought in front of a sign starts where the sign does. And the nodes, each in front of its
parts, go through the tokens from the first to the last and never back:

    tokens    t₁    t₂ t₃ t₄       t₅ ...
    places    s₁ s₂    s₃    s₄ s₅ s₆ ...

* `Follows` — places that are related to tokens in this way;
* `Derivation.follows`, `Phrase.follows` — the places of what is read follow its tokens;
* `spans_startIn_of_program`, `spans_follow_program` — so each is at a token, and they come in their order.
-/

namespace Slate.Grammar

open Slate.Parser

/-! ## Places that follow tokens -/

/-- Each place is where a token starts, and they come in the order of the tokens. A token may be where several of
them start, or none. -/
inductive Follows : List Token → List Span → Prop where
  | done : Follows [] []
  | skip {ts : List Token} {places : List Span} (t : Token) (h : Follows ts places) : Follows (t :: ts) places
  | here {t : Token} {ts : List Token} {s : Span} {places : List Span} (line : s.line = t.span.line)
      (start : s.start = t.span.start) (h : Follows (t :: ts) places) : Follows (t :: ts) (s :: places)

namespace Follows

variable {ts us : List Token} {s : Span} {places others : List Span}

theorem nil (ts : List Token) : Follows ts [] := by
  induction ts with
  | nil => exact .done
  | cons t _ ih => exact .skip t ih

theorem append (h : Follows ts places) (ho : Follows us others) : Follows (ts ++ us) (places ++ others) := by
  induction h with
  | done => exact ho
  | skip t _ ih => exact .skip t ih
  | here line start _ ih => exact .here line start ih

/-- Tokens that no node stands for. -/
theorem append_skip (h : Follows ts places) (us : List Token) : Follows (ts ++ us) places := by
  have both := h.append (nil us)
  rwa [List.append_nil] at both

/-- A node of all the tokens comes in front of its parts. -/
theorem whole (hs : coverAll ts = some s) (h : Follows ts places) : Follows ts (s :: places) := by
  cases ts with
  | nil => cases hs
  | cons t ts =>
    cases hs
    exact .here rfl rfl h

theorem placeOf (ne : ts ≠ []) (h : Follows ts places) : Follows ts (Grammar.placeOf ts :: places) := by
  obtain ⟨t, ts, rfl⟩ := List.exists_cons_of_ne_nil ne
  exact h.whole rfl

theorem startIn (h : Follows ts places) : ∀ s ∈ places, s.StartsIn ts := by
  induction h with
  | done => exact fun _ hs => (List.not_mem_nil hs).elim
  | skip t _ ih =>
    intro s hs
    obtain ⟨u, hu, at_⟩ := ih s hs
    exact ⟨u, .tail t hu, at_⟩
  | here line start _ ih => exact List.forall_mem_cons.2 ⟨⟨_, List.mem_cons_self, line, start⟩, ih⟩

end Follows

/-! ## Expressions -/

namespace Derivation

/-- The places of what the derivation stands for. -/
def spans {n : Nonterminal} (d : Derivation n) : List Span :=
  match n, d with
  | .arguments, d => spansOfExprs d.result
  | .expr, d | .term, d | .factor, d | .atom, d => d.result.spans

theorem follows {n : Nonterminal} (d : Derivation n) : Follows d.tokens d.spans := by
  induction d with
  | ofTerm t ih | ofFactor t ih | ofAtom t ih => exact ih
  | sum left op right ihl ihr =>
    have operands := ihl.append (ihr.skip op.sign)
    exact operands.whole (sum left op right).coverAll_tokens
  | product left op right ihl ihr =>
    have operands := ihl.append (ihr.skip op.sign)
    exact operands.whole (product left op right).coverAll_tokens
  | sign minus operand ih =>
    -- the nought is where the sign is
    have nought : Follows (minus.val :: operand.tokens) (minus.val.span.before :: operand.spans) :=
      .here rfl rfl (ih.skip _)
    exact nought.here rfl rfl
  | leaf l => cases l <;> exact .here rfl rfl (.nil _)
  | call => exact .here rfl rfl (.here rfl rfl (.nil _))
  | callWith callee opening arguments closing ih =>
    have inner := ((ih.append_skip [closing.val]).skip opening.val).skip callee.val
    exact .here rfl rfl (inner.here rfl rfl)
  | group opening inner closing ih => exact (ih.append_skip [closing.val]).skip opening.val
  | last e ih =>
    show Follows e.tokens (e.spans ++ [])
    rw [List.append_nil]
    exact ih
  | more e comma rest ihe ihr => exact ihe.append (ihr.skip comma.val)

end Derivation

theorem Accepted.follows (a : Accepted) : Follows a.tokens a.result.spans := by
  obtain ⟨d, tokens, result⟩ := exists_derivation a.read
  rw [← tokens, ← result]
  exact d.follows

/-! ## Statements -/

theorem Variable.follows (v : Variable) : Follows v.tokens v.result.spans := by
  obtain ⟨name, colon, word, type, writes, init⟩ := v
  refine .here rfl rfl (.here rfl rfl (.skip _ (.skip _ (.skip _ ?_))))
  rcases init with _ | ⟨assign, value⟩
  · exact .done
  · exact value.follows.skip assign.val

theorem Variables.follows (vs : Variables) : Follows vs.tokens (vs.result.flatMap Declarator.spans) := by
  induction vs with
  | last v =>
    rw [result, List.flatMap_singleton]
    exact v.follows
  | more v comma rest ih => exact v.follows.append (ih.skip comma.val)

theorem Action.follows (a : Action) : Follows a.tokens a.result.spans := by
  cases a with
  | expression e => exact e.follows
  | assignment target assign value =>
    exact .here rfl rfl (.here rfl rfl (.skip _ (value.follows.skip assign.val)))

theorem Test.follows (t : Test) : Follows t.tokens [(nameOf t.name).span] :=
  .skip _ (.skip _ (.here rfl rfl (.nil _)))

namespace Phrase

/-- The places of what the phrase stands for. -/
def spans {c : Category} (p : Phrase c) : List Span :=
  match c, p with
  | .statement, p => p.result.spans
  | .block, p | .body, p => spansOfStmts p.result

theorem follows {c : Category} (p : Phrase c) : Follows p.tokens p.spans := by
  induction p with
  | declaration d semicolon =>
    have vars := (d.vars.follows.append_skip [semicolon.val]).skip d.keyword
    exact vars.placeOf (List.cons_ne_nil _ _)
  | action a semicolon =>
    have nonempty : (action a semicolon).tokens ≠ [] := List.append_ne_nil_of_left_ne_nil a.tokens_ne_nil _
    exact (a.follows.append_skip [semicolon.val]).placeOf nonempty
  | conditional test consequent ih =>
    have blocks : Follows consequent.tokens (spansOfStmts consequent.result ++ []) := by
      rw [List.append_nil]
      exact ih
    exact (test.follows.append blocks).placeOf (List.cons_ne_nil _ _)
  | conditionalElse test consequent elseWord alternate ihc iha =>
    have blocks := ihc.append (iha.skip elseWord.val)
    exact (test.follows.append blocks).placeOf (List.cons_ne_nil _ _)
  | block opening body closing ih => exact (ih.append_skip [closing.val]).skip opening.val
  | done => exact .done
  | more first rest ihf ihr => exact ihf.append ihr

end Phrase

/-- The nodes of a program follow its tokens. -/
theorem spans_follow_program {ts : List Token} {p : Program} (h : program ts = .ok p) :
    Follows ts (spansOfStmts p.statements) := by
  obtain ⟨b, rfl, result⟩ := exists_phrase h
  rw [← result]
  exact b.follows

/-- Each node of a program starts where one of its tokens starts. -/
theorem spans_startIn_of_program {ts : List Token} {p : Program} (h : program ts = .ok p) :
    ∀ s ∈ spansOfStmts p.statements, s.StartsIn ts := (spans_follow_program h).startIn

end Slate.Grammar
