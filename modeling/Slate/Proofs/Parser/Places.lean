import Slate.Proofs.Grammar.ExprParser
import Slate.Proofs.Parser.Stmt

/-!
# Where a failure points

A failure of the parser has a place where a token of the text starts, or where one ends: the token that is
wrong, or what is missing behind it. A part of the parser can only promise so of a failure that is final, and
of tokens that are there at all. A mismatch, and a failure on no tokens, is left to the caller.

* `MalformedIn` — if reading fails, then for good, and at a place of these tokens;
* `FailsIn` — if reading fails for good, then at a place of these tokens;
* `expression_malformedIn`, `statement_malformedIn` — the parser of a construct, by the number of its tokens;
* `malformed_of_program` — a program that is not read is malformed, and the place is one of its tokens.
-/

namespace Slate

/-- The place is where one of the tokens starts. -/
def Span.StartsIn (all : List Token) (s : Span) : Prop :=
  ∃ t ∈ all, s.line = t.span.line ∧ s.start = t.span.start

/-- The place is where one of the tokens starts, or where one ends. -/
def Span.PointsInto (all : List Token) (s : Span) : Prop :=
  ∃ t ∈ all, s.line = t.span.line ∧ (s.start = t.span.start ∨ s.start = t.span.stop)

section

variable {all : List Token}

theorem Token.pointsInto {t : Token} (h : t ∈ all) : t.span.PointsInto all := ⟨t, h, rfl, .inl rfl⟩

theorem Token.after_pointsInto {t : Token} (h : t ∈ all) : t.span.after.PointsInto all :=
  ⟨t, h, rfl, .inr rfl⟩

theorem Span.StartsIn.pointsInto {s : Span} (h : s.StartsIn all) : s.PointsInto all := by
  obtain ⟨t, ht, line, start⟩ := h
  exact ⟨t, ht, line, .inl start⟩

theorem coverAll_startsIn {ts : List Token} (h : ts ⊆ all) : ∀ s ∈ coverAll ts, s.StartsIn all := by
  intro s hs
  cases ts with
  | nil => cases hs
  | cons t ts =>
    cases hs
    exact ⟨t, h List.mem_cons_self, rfl, rfl⟩

end

namespace Parser

/-! ## Failures at tokens -/

/-- If reading fails, then with such a failure. -/
def FailsWith {α : Type} (P : Failure → Prop) (r : Parsed α) : Prop := ∀ f, r = .error f → P f

namespace FailsWith

variable {α β : Type} {P : Failure → Prop}

theorem ok (a : α) : FailsWith P (.ok a : Parsed α) := fun _ h => by cases h

theorem error {f : Failure} (h : P f) : FailsWith P (.error f : Parsed α) := by
  intro g e
  cases e
  exact h

theorem bind {r : Parsed α} {next : α → Parsed β} (h : FailsWith P r)
    (hn : ∀ a, r = .ok a → FailsWith P (next a)) : FailsWith P (r >>= next) := by
  cases r with
  | ok a => exact hn a rfl
  | error f => exact .error (h f rfl)

theorem map {r : Parsed α} (h : FailsWith P r) (g : α → β) : FailsWith P (r.map g) := by
  cases r with
  | ok a => exact .ok _
  | error f => exact .error (h f rfl)

theorem ite {p : Prop} [Decidable p] {yes no : Parsed α} (hyes : p → FailsWith P yes)
    (hno : ¬ p → FailsWith P no) : FailsWith P (if p then yes else no) := by
  by_cases h : p
  · rw [if_pos h]
    exact hyes h
  · rw [if_neg h]
    exact hno h

end FailsWith

/-- Of several attempts the failure is that of one. -/
theorem mem_of_inOrder_eq_error {ε α : Type} {rs : List (Except ε α)} {e : ε}
    (h : inOrder rs = .error e) : .error e ∈ rs := by
  induction rs with
  | nil => cases h
  | cons r rs ih =>
    cases r with
    | error e' =>
      cases h
      exact List.mem_cons_self
    | ok a =>
      rw [inOrder] at h
      cases hr : inOrder rs with
      | error e' =>
        rw [hr] at h
        cases h
        exact List.mem_cons_of_mem _ (ih hr)
      | ok as =>
        rw [hr] at h
        cases h

theorem FailsWith.inOrder {α β : Type} {P : Failure → Prop} {as : List α} {read : α → Parsed β}
    (h : ∀ a ∈ as, FailsWith P (read a)) : FailsWith P (Parser.inOrder (as.map read)) := by
  intro f hf
  obtain ⟨a, ha, e⟩ := List.mem_map.1 (mem_of_inOrder_eq_error hf)
  exact h a ha f e

/-- The failure has a place, which is one of the tokens. -/
def Failure.PointsInto (all : List Token) (f : Failure) : Prop :=
  ∃ s, f.span = some s ∧ s.PointsInto all

/-- If reading fails, then for good, and at a place of the tokens. -/
def MalformedIn {α : Type} (all : List Token) (r : Parsed α) : Prop :=
  FailsWith (fun f => f.kind = .malformed ∧ f.PointsInto all) r

/-- If reading fails for good, then at a place of the tokens. -/
def FailsIn {α : Type} (all : List Token) (r : Parsed α) : Prop :=
  ∀ f, r = .error f → f.kind = .malformed → f.PointsInto all

section

variable {α : Type} {all : List Token}

theorem FailsWith.at {s : Span} (h : s.PointsInto all) {fault : Fault}
    (malformed : fault.kind = .malformed) : MalformedIn all (failAt s fault : Parsed α) :=
  .error ⟨malformed, s, rfl, h⟩

theorem MalformedIn.failsIn {r : Parsed α} (h : MalformedIn all r) : FailsIn all r :=
  fun f e _ => (h f e).2

/-- A mismatch is not final. -/
theorem FailsIn.mismatch (c : Construct) (ts : List Token) :
    FailsIn all (Parser.mismatch c ts : Parsed α) := by
  intro f e hk
  cases e
  cases hk

end

variable {all : List Token}

/-! ## Expressions -/

theorem balanced_malformedIn {opened ts : List Token} (ho : opened ⊆ all) (h : ts ⊆ all) :
    MalformedIn all (balanced opened ts) := by
  induction ts generalizing opened with
  | nil =>
    cases opened with
    | nil => exact .ok ()
    | cons o opened => exact .at (Token.pointsInto (ho List.mem_cons_self)) rfl
  | cons t ts ih =>
    obtain ⟨ht, hts⟩ := List.cons_subset.1 h
    unfold balanced
    split
    · exact ih (List.cons_subset.2 ⟨ht, ho⟩) hts
    · cases opened with
      | nil => exact .at (Token.pointsInto ht) rfl
      | cons o opened => exact ih (List.cons_subset.1 ho).2 hts
    · exact ih ho hts

theorem atom_malformedIn {t : Token} (h : t ∈ all) : MalformedIn all (atom t) := by
  have here := Token.pointsInto h
  have ofNumber (hk : t.kind = .number) : MalformedIn all (literal [t]) := by
    rw [literal, hk]
    dsimp only
    rw [numberLiteral, if_pos hk]
    cases Decimal.ofString? t.text with
    | ok d => exact .ok _
    | error why => exact .at here rfl
  have ofString (hk : t.kind = .string) : MalformedIn all (literal [t]) := by
    rw [literal, hk]
    dsimp only
    rw [stringLiteral, if_pos hk]
    exact .ok _
  have ofBoolean (hk : t.kind = .boolean) : MalformedIn all (literal [t]) := by
    rw [literal, hk]
    dsimp only
    rw [booleanLiteral, if_pos hk]
    exact .ite (fun _ => .ok _) fun _ => .ite (fun _ => .ok _) fun _ => .at here rfl
  unfold atom
  split
  · exact .ok _
  · next hk => exact (ofNumber hk).map _
  · next hk => exact (ofString hk).map _
  · next hk => exact (ofBoolean hk).map _
  · exact .at here rfl

theorem subset_of_closingParen? {depth : Nat} {ts : List Token} {e : Enclosed}
    (h : closingParen? depth ts = some e) : e.close :: e.rest ⊆ ts := by
  rw [closingParen?_eq_some h]
  exact List.subset_append_right _ _

/-- What starts with a parenthesis is meant to be in a pair of them. -/
theorem Group.ofTokens_malformedIn {t : Token} {ts : List Token} (hk : t.kind = .openParen)
    (h : t :: ts ⊆ all) : MalformedIn all (Group.ofTokens (t :: ts)) := by
  obtain ⟨ht, hts⟩ := List.cons_subset.1 h
  rw [ofTokens, if_pos hk]
  split
  · exact .at (Token.pointsInto ht) rfl
  · exact .ok _
  · next inner close extra rest he =>
    have mem : extra ∈ ts := subset_of_closingParen? he (.tail _ List.mem_cons_self)
    exact .at (Token.pointsInto (hts mem)) rfl

/-- What starts with a name and a parenthesis is meant to be a call. -/
theorem CallForm.ofTokens_malformedIn {callee opening : Token} {ts : List Token}
    (hk : callee.kind = .identifier ∧ opening.kind = .openParen) (h : callee :: opening :: ts ⊆ all) :
    MalformedIn all (CallForm.ofTokens (callee :: opening :: ts)) := by
  obtain ⟨ho, hts⟩ := List.cons_subset.1 (List.cons_subset.1 h).2
  rw [ofTokens, if_pos hk]
  split
  · exact .at (Token.pointsInto ho) rfl
  · exact .ok _
  · next inner close extra rest he =>
    have mem : extra ∈ ts := subset_of_closingParen? he (.tail _ List.mem_cons_self)
    exact .at (Token.pointsInto (hts mem)) rfl

/-- No operator stands before all operands. -/
theorem left_ne_nil_of_weakest {ts : List Token} {s : Split} (h : weakest none 0 ts = some s) :
    s.left ≠ [] := by
  cases ts with
  | nil => cases h
  | cons t ts =>
    rw [weakest, operatorAt?_of_not_endsOperand (by simp [EndsOperand])] at h
    obtain ⟨s', -, rfl⟩ := Option.map_eq_some_iff.1 h
    exact List.cons_ne_nil _ _

theorem subset_of_mem_consFirst {t : Token} {ps : List (List Token)} {ts : List Token}
    (h : ∀ p ∈ ps, p ⊆ ts) : ∀ p ∈ consFirst t ps, p ⊆ t :: ts := by
  cases ps with
  | nil => simp [consFirst]
  | cons p ps =>
    obtain ⟨hp, hps⟩ := List.forall_mem_cons.1 h
    refine List.forall_mem_cons.2 ⟨List.cons_subset_cons t hp, fun q hq => ?_⟩
    exact List.subset_cons_of_subset t (hps q hq)

theorem subset_of_mem_commaParts {depth : Nat} {ts : List Token} :
    ∀ p ∈ commaParts depth ts, p ⊆ ts := by
  induction ts generalizing depth with
  | nil => simp [commaParts]
  | cons t ts ih =>
    unfold commaParts
    split
    · refine List.forall_mem_cons.2 ⟨List.nil_subset _, fun p hp => ?_⟩
      exact List.subset_cons_of_subset t (ih p hp)
    · exact subset_of_mem_consFirst ih

theorem CallForm.subset_of_mem_arguments {c : CallForm} {part : List Token} (h : part ∈ c.arguments) :
    c.inner ≠ [] ∧ part ⊆ c.inner := by
  unfold arguments at h
  split at h
  · cases h
  · next hi => exact ⟨hi, subset_of_mem_commaParts part h⟩

/-- Reading the tokens as an expression fails at one of their places, if there are any. -/
def ExprMalformedIn (all ts : List Token) : Prop := ts ≠ [] → ts ⊆ all → MalformedIn all (expression ts)

theorem binaryOf_malformedIn {ts : List Token} {s : Split} (hw : weakest none 0 ts = some s)
    (h : ts ⊆ all) (left : ExprMalformedIn all s.left) (right : ExprMalformedIn all s.right) :
    MalformedIn all (binaryOf s) := by
  have whole : s.left ++ s.sign :: s.right = ts := weakest_eq_some hw
  rw [← whole] at h
  obtain ⟨hl, hr⟩ := List.append_subset.1 h
  obtain ⟨hs, hr⟩ := List.cons_subset.1 hr
  rw [binaryOf]
  refine .ite (fun _ => .at (Token.after_pointsInto hs) rfl) fun ne => ?_
  refine (left (left_ne_nil_of_weakest hw) hl).bind fun l _ => ?_
  exact (right ne hr).bind fun r _ => .ok _

theorem parenthesized_malformedIn {t : Token} {ts : List Token} (hk : t.kind = .openParen)
    (h : t :: ts ⊆ all) (below : ∀ us : List Token, us.length < (t :: ts).length → ExprMalformedIn all us) :
    MalformedIn all (parenthesized (t :: ts)) := by
  refine (Group.ofTokens_malformedIn hk h).bind fun g hg => ?_
  have whole : g.opening :: g.inner ++ [g.closing] = t :: ts := Group.ofTokens_eq_ok hg
  rw [← whole] at h below
  obtain ⟨ho, hi⟩ := List.cons_subset.1 (List.append_subset.1 h).1
  rw [groupOf]
  refine .ite (fun _ => .at (Token.after_pointsInto ho) rfl) fun ne => below _ ?_ ne hi
  rw [List.length_append, List.length_cons]
  omega

theorem argument_malformedIn {inner part : List Token} (hi : inner ≠ []) (hsub : inner ⊆ all)
    (h : part ≠ [] → MalformedIn all (expression part)) : MalformedIn all (argument inner part) := by
  rw [argument]
  refine .ite (fun _ => .error ⟨rfl, ?_⟩) h
  obtain ⟨t, ts, rfl⟩ := List.exists_cons_of_ne_nil hi
  exact ⟨_, rfl, (coverAll_startsIn hsub _ rfl).pointsInto⟩

theorem call_malformedIn {callee opening : Token} {ts : List Token}
    (hk : callee.kind = .identifier ∧ opening.kind = .openParen) (h : callee :: opening :: ts ⊆ all)
    (below : ∀ us : List Token, us.length < (callee :: opening :: ts).length → ExprMalformedIn all us) :
    MalformedIn all (call (callee :: opening :: ts)) := by
  refine (CallForm.ofTokens_malformedIn hk h).bind fun c hc => ?_
  have whole : c.callee :: c.opening :: c.inner ++ [c.closing] = callee :: opening :: ts :=
    CallForm.ofTokens_eq_ok hc
  rw [← whole] at h
  have inner : c.inner ⊆ all := (List.cons_subset.1 (List.cons_subset.1 (List.append_subset.1 h).1).2).2
  rw [callOf_eq]
  refine FailsWith.bind (.inOrder fun part hp => ?_) fun es _ => .ok _
  obtain ⟨ne, sub⟩ := CallForm.subset_of_mem_arguments hp
  have shorter := CallForm.length_lt_of_mem_arguments hp
  rw [CallForm.tokens, whole] at shorter
  exact argument_malformedIn ne inner fun ne => below part shorter ne (List.Subset.trans sub inner)

/-- An expression that is not read fails at one of its tokens. -/
theorem expression_malformedIn (ts : List Token) : ExprMalformedIn all ts := by
  -- over the number of tokens, as the parser goes
  induction hn : ts.length using Nat.strongRecOn generalizing ts with
  | ind n ih =>
    have below : ∀ us : List Token, us.length < ts.length → ExprMalformedIn all us :=
      fun us hus => ih us.length (hn ▸ hus) us rfl
    intro ne h
    cases hb : balanced [] ts with
    | error e =>
      have fails := balanced_malformedIn (List.nil_subset _) h
      rw [hb] at fails
      rw [Grammar.expression_of_unbalanced hb]
      exact .error (fails e rfl)
    | ok _ =>
      have nested : Nested ts := balanced_eq_ok_iff.1 hb
      cases hw : weakest none 0 ts with
      | some s =>
        have length := congrArg List.length (weakest_eq_some hw)
        simp only [Split.tokens, List.length_append, List.length_cons] at length
        rw [Grammar.expression_of_weakest nested hw]
        exact binaryOf_malformedIn hw h (below _ (by omega)) (below _ (by omega))
      | none =>
        rcases ts with _ | ⟨t, _ | ⟨u, us⟩⟩
        · exact absurd rfl ne
        · rw [Grammar.expression_singleton nested]
          exact atom_malformedIn (h List.mem_cons_self)
        · obtain ⟨ht, hu⟩ := List.cons_subset.1 h
          have second : MalformedIn all
              (failAt u.span (.unexpected u.toLexeme (some .inExpression)) : Parsed Expr) :=
            .at (Token.pointsInto (hu List.mem_cons_self)) rfl
          rw [Grammar.expression_cons_cons nested hw]
          split
          · exact (below (u :: us) (by simp) (List.cons_ne_nil _ _) hu).bind fun e _ => .ok _
          · next hk => exact parenthesized_malformedIn hk h below
          · next hk => exact .ite (fun ho => call_malformedIn ⟨hk, ho⟩ h below) fun _ => second
          · exact second

/-! ## Declarations and actions -/

/-- A token is asked for behind another one, or where there is one. -/
theorem expect_malformedIn {kind : TokenKind} {setting : Setting} {previous : Option Span}
    {ts : List Token} (h : ts ⊆ all)
    (missing : ts = [] → ∃ t ∈ all, previous = some t.span) :
    MalformedIn all (expect kind setting previous ts) := by
  cases ts with
  | nil =>
    obtain ⟨t, ht, rfl⟩ := missing rfl
    exact .error ⟨rfl, _, rfl, Token.after_pointsInto ht⟩
  | cons t ts => exact .ite (fun _ => .ok _) fun _ => .at (Token.pointsInto (h List.mem_cons_self)) rfl

theorem expect_behind_malformedIn {kind : TokenKind} {setting : Setting} {previous : Token}
    {ts : List Token} (hp : previous ∈ all) (h : ts ⊆ all) :
    MalformedIn all (expect kind setting (some previous.span) ts) :=
  expect_malformedIn h fun _ => ⟨previous, hp, rfl⟩

/-- What was asked for, and those behind it, are some of the tokens. -/
theorem subset_of_expect {kind : TokenKind} {setting : Setting} {previous : Option Span}
    {ts rest : List Token} {t : Token} (h : ts ⊆ all)
    (e : expect kind setting previous ts = .ok (t, rest)) : t ∈ all ∧ rest ⊆ all := by
  obtain ⟨rfl, -⟩ := expect_eq_ok.1 e
  exact List.cons_subset.1 h

theorem typeName_malformedIn {colon : Token} {ts : List Token} (hc : colon ∈ all) (h : ts ⊆ all) :
    MalformedIn all (typeName colon ts) := by
  cases ts with
  | nil => exact .at (Token.after_pointsInto hc) rfl
  | cons t ts =>
    rw [typeName]
    split
    · exact .ok _
    · exact .at (Token.pointsInto (h List.mem_cons_self)) rfl

theorem subset_of_typeName {colon : Token} {ts rest : List Token} {type : Ty}
    (e : typeName colon ts = .ok (type, rest)) : rest ⊆ ts := by
  unfold typeName at e
  split at e
  · cases e
  · split at e
    · cases e
      exact List.subset_cons_self _ _
    · cases e

theorem initializer_malformedIn {ts : List Token} (h : ts ⊆ all) : MalformedIn all (initializer ts) := by
  cases ts with
  | nil => exact .ok _
  | cons t ts =>
    obtain ⟨ht, hts⟩ := List.cons_subset.1 h
    refine .ite (fun _ => .ite (fun _ => ?_) fun ne => ?_) fun _ => ?_
    · exact .at (Token.after_pointsInto ht) rfl
    · exact (expression_malformedIn ts ne hts).map _
    · exact .at (Token.pointsInto ht) rfl

theorem declarator_malformedIn {ts : List Token} (ne : ts ≠ []) (h : ts ⊆ all) :
    MalformedIn all (declarator ts) := by
  refine (expect_malformedIn h fun e => absurd e ne).bind fun id hid => ?_
  obtain ⟨mem, rest⟩ := subset_of_expect h hid
  refine (expect_behind_malformedIn mem rest).bind fun colon hcolon => ?_
  obtain ⟨mem, rest⟩ := subset_of_expect rest hcolon
  refine (typeName_malformedIn mem rest).bind fun type htype => ?_
  have rest := List.Subset.trans (subset_of_typeName htype) rest
  exact (initializer_malformedIn rest).bind fun init _ => .ok _

/-- What starts with one of the two keywords is meant to be a declaration. -/
theorem declaration_malformedIn {keyword : Token} {rest : List Token} {kind : DeclarationKind}
    (hk : declarationKind? keyword.kind = some kind) (h : keyword :: rest ⊆ all) :
    MalformedIn all (declaration (keyword :: rest)) := by
  obtain ⟨first, hrest⟩ := List.cons_subset.1 h
  have last : rest.getLastD keyword ∈ all := h List.getLastD_mem_cons
  have body : rest.dropLast ⊆ all := List.Subset.trans (List.dropLast_subset _) hrest
  rw [declaration, hk]
  dsimp only
  refine .ite (fun _ => .at (Token.after_pointsInto last) rfl) fun _ => ?_
  refine .ite (fun _ => .at (Token.after_pointsInto first) rfl) fun _ => ?_
  refine FailsWith.bind (.inOrder fun part hp => ?_) fun ds _ => .ok _
  refine .ite (fun _ => .at (Token.pointsInto last) rfl) fun ne => ?_
  exact declarator_malformedIn ne (List.Subset.trans (subset_of_mem_commaParts part hp) body)

theorem declaration_failsIn {ts : List Token} (h : ts ⊆ all) : FailsIn all (declaration ts) := by
  cases ts with
  | nil => exact .mismatch _ _
  | cons keyword rest =>
    cases hk : declarationKind? keyword.kind with
    | none =>
      rw [declaration, hk]
      exact .mismatch _ _
    | some kind => exact (declaration_malformedIn hk h).failsIn

theorem action_malformedIn {ts : List Token} (ne : ts ≠ []) (h : ts ⊆ all) :
    MalformedIn all (action ts) := by
  rcases ts with _ | ⟨target, _ | ⟨assign, value⟩⟩
  · exact absurd rfl ne
  · exact expression_malformedIn [target] ne h
  · obtain ⟨ht, hrest⟩ := List.cons_subset.1 h
    obtain ⟨ha, hv⟩ := List.cons_subset.1 hrest
    have ofAssignment (hk : target.kind = .identifier ∧ assign.kind = .assign) :
        MalformedIn all (assignment (target :: assign :: value)) := by
      rw [assignment, if_pos hk]
      refine .ite (fun _ => .at (Token.after_pointsInto ha) rfl) fun ne => ?_
      exact (expression_malformedIn value ne hv).bind fun e _ => .ok _
    rw [action]
    refine .ite (fun hassign => .ite (fun hname => ofAssignment ⟨hname, hassign⟩) fun _ => ?_) fun _ => ?_
    · exact .at (Token.pointsInto ht) rfl
    · exact expression_malformedIn _ ne h

/-- What starts with none of the keywords is meant to be an expression statement. -/
theorem expressionStatement_malformedIn {first : Token} {rest : List Token}
    (hk : startsOther first.kind = false) (h : first :: rest ⊆ all) :
    MalformedIn all (expressionStatement (first :: rest)) := by
  have last : rest.getLastD first ∈ all := h List.getLastD_mem_cons
  have body : (first :: rest).dropLast ⊆ all := List.Subset.trans (List.dropLast_subset _) h
  rw [expressionStatement, if_neg (by rw [hk]; decide)]
  refine .ite (fun _ => .at (Token.after_pointsInto last) rfl) fun _ => ?_
  refine .ite (fun _ => .at (Token.pointsInto last) rfl) fun ne => ?_
  exact (action_malformedIn ne body).bind fun e _ => .ok _

theorem expressionStatement_failsIn {ts : List Token} (h : ts ⊆ all) :
    FailsIn all (expressionStatement ts) := by
  cases ts with
  | nil =>
    intro f e hk
    cases e
    cases hk
  | cons first rest =>
    cases hk : startsOther first.kind with
    | true =>
      rw [expressionStatement, if_pos hk]
      exact .mismatch _ _
    | false => exact (expressionStatement_malformedIn hk h).failsIn

/-! ## Bodies -/

/-- No slice is empty. -/
theorem ne_nil_of_mem_cut {s : Scanner} {ts slice : List Token} (h : slice ∈ (cut s ts).slices) :
    slice ≠ [] := by
  fun_induction cut s ts with
  | case1 => cases h
  | case9 | case10 | case14 =>
    rcases List.mem_cons.1 h with rfl | h
    · simp [Scanner.take]
    · simp_all
  | _ => simp_all [Cut.stop]

/-- The token in front of an `if` that comes too early is one of those that are pending. -/
theorem mem_of_unfinished {s : Scanner} {ts pending rest : List Token} {previous t : Token}
    (h : (cut s ts).ending = .unfinished pending previous t rest) : previous ∈ pending := by
  fun_induction cut s ts with
  | case1 s =>
    rw [Cut.stop] at h
    dsimp only at h
    split at h <;> cases h
  | case3 =>
    cases h
    simp_all
  | _ => simp_all [Cut.push, Cut.stop]

/-- The tokens of an ending are some of the tokens. -/
structure Ending.StandsIn (all : List Token) (e : Ending) : Prop where
  tokens : e.tokens ⊆ all
  previous : ∀ pending previous t rest, e = .unfinished pending previous t rest → previous ∈ all

/-- Tokens that there are. -/
def IsPartOf (all ts : List Token) : Prop := ts ≠ [] ∧ ts ⊆ all

theorem cut_standsIn {ts : List Token} (h : ts ⊆ all) :
    (∀ slice ∈ (cut {} ts).slices, IsPartOf all slice) ∧ (cut {} ts).ending.StandsIn all := by
  have whole : (cut {} ts).slices.flatten ++ (cut {} ts).ending.tokens = ts := tokens_cut {} ts
  have both : (cut {} ts).slices.flatten ⊆ all ∧ (cut {} ts).ending.tokens ⊆ all := by
    rw [← List.append_subset, whole]
    exact h
  refine ⟨fun slice hs => ⟨ne_nil_of_mem_cut hs, ?_⟩, both.2, ?_⟩
  · exact List.Subset.trans (List.sublist_flatten_of_mem hs).subset both.1
  · intro pending previous t rest he
    have mem := mem_of_unfinished he
    have tokens := both.2
    rw [he] at tokens
    exact tokens (List.mem_append_left _ mem)

theorem Ending.malformed_failure (e : Ending) (last : Option Span) (setting : Option Setting) :
    (e.failure last setting).kind = .malformed := by
  cases e <;> rfl

theorem Ending.failure_pointsInto (e : Ending) (h : e.StandsIn all) {last : Token} (hl : last ∈ all)
    (setting : Option Setting) : (e.failure (some last.span) setting).PointsInto all := by
  obtain ⟨tokens, before⟩ := h
  have at_ {t : Token} (ht : t ∈ e.tokens) : t.span.PointsInto all := Token.pointsInto (tokens ht)
  cases e with
  | exhausted | unclosed => exact ⟨_, rfl, Token.after_pointsInto hl⟩
  | closed pending t rest | strayBrace pending t rest | strayElse pending t rest =>
    exact ⟨_, rfl, at_ (List.mem_append_right _ List.mem_cons_self)⟩
  | unfinished pending previous t rest =>
    exact ⟨_, rfl, Token.after_pointsInto (before _ _ _ _ rfl)⟩

/-! ## Blocks -/

theorem malformed_stray {other : Lexeme → Fault} (h : ∀ x, (other x).kind = .malformed) (t : Token) :
    (stray other t).kind = .malformed := by
  unfold stray
  split
  · rfl
  · rfl
  · rfl
  · rfl
  · exact h _

theorem stray_pointsInto {t : Token} (h : t ∈ all) (other : Lexeme → Fault) :
    (stray other t).PointsInto all := by
  refine ⟨t.span, ?_, Token.pointsInto h⟩
  unfold stray
  split <;> rfl

/-- The tokens of an ending of blocks are some of the tokens, and so is the place of its failure, which is final. -/
def BlockEnding.StandsIn (all : List Token) : BlockEnding → Prop
  | complete => True
  | insideStatement pending brace => IsPartOf all pending ∧ brace ∈ all
  | failed f => f.kind = .malformed ∧ f.PointsInto all

theorem BlockEnding.ofLast_standsIn {e : Ending} (h : e.StandsIn all) {last : Token} (hl : last ∈ all) :
    (ofLast last.span e).StandsIn all := by
  unfold ofLast
  split
  · trivial
  · exact ⟨malformed_stray (fun _ => rfl) _, stray_pointsInto (h.tokens (.tail _ List.mem_cons_self)) _⟩
  · next p ps brace rest =>
    obtain ⟨pending, behind⟩ := List.append_subset.1 h.tokens
    exact ⟨⟨List.cons_ne_nil p ps, pending⟩, behind List.mem_cons_self⟩
  · exact ⟨e.malformed_failure _ _, e.failure_pointsInto h hl _⟩

theorem alternateBlock_standsIn {ts : List Token} (h : ts ⊆ all) {last : Token} (hl : last ∈ all) :
    (∀ slice ∈ (alternateBlock last.span ts).1, IsPartOf all slice) ∧
      (alternateBlock last.span ts).2.StandsIn all := by
  cases ts with
  | nil => exact ⟨fun _ hs => (List.not_mem_nil hs).elim, rfl, _, rfl, Token.after_pointsInto hl⟩
  | cons t ts =>
    obtain ⟨ht, hts⟩ := List.cons_subset.1 h
    obtain ⟨slices, ending⟩ := cut_standsIn hts
    rw [alternateBlock]
    split
    · exact ⟨slices, BlockEnding.ofLast_standsIn ending hl⟩
    · exact ⟨fun _ hs => (List.not_mem_nil hs).elim, malformed_stray (fun _ => rfl) _,
        stray_pointsInto ht _⟩

/-- So are the slices of the blocks. -/
theorem blocks_standsIn {body : List Token} (h : body ⊆ all) {last : Token} (hl : last ∈ all) :
    (∀ slice ∈ (blocks last.span body).consequent, IsPartOf all slice) ∧
      (∀ slice ∈ (blocks last.span body).alternate, IsPartOf all slice) ∧
      (blocks last.span body).ending.StandsIn all := by
  obtain ⟨slices, ending⟩ := cut_standsIn h
  have none_ : ∀ slice ∈ ([] : List (List Token)), IsPartOf all slice := fun _ hs =>
    (List.not_mem_nil hs).elim
  unfold blocks
  dsimp only
  generalize (cut {} body).ending = e at ending
  split
  · next brace t rest =>
    split
    · have behind := (List.cons_subset.1 (List.cons_subset.1 ending.tokens).2).2
      exact ⟨slices, alternateBlock_standsIn behind hl⟩
    · exact ⟨slices, none_, BlockEnding.ofLast_standsIn ending hl⟩
  · exact ⟨slices, none_, BlockEnding.ofLast_standsIn ending hl⟩

/-! ## Statements -/

theorem head_malformedIn {first : Token} {rest : List Token} (hk : first.kind = .ifKeyword)
    (h : first :: rest ⊆ all) : MalformedIn all (head (first :: rest)) := by
  obtain ⟨hf, hrest⟩ := List.cons_subset.1 h
  rw [head, if_pos hk]
  refine (expect_behind_malformedIn hf hrest).bind fun opening e => ?_
  obtain ⟨mem, rest⟩ := subset_of_expect hrest e
  refine (expect_behind_malformedIn mem rest).bind fun test e => ?_
  obtain ⟨mem, rest⟩ := subset_of_expect rest e
  refine (expect_behind_malformedIn mem rest).bind fun closing e => ?_
  obtain ⟨mem, rest⟩ := subset_of_expect rest e
  refine (expect_behind_malformedIn mem rest).bind fun brace e => ?_
  obtain ⟨mem, rest⟩ := subset_of_expect rest e
  exact .ite (fun _ => .at (Token.pointsInto mem) rfl) fun _ => .ok _

/-- Reading the tokens as a statement fails at one of their places, if there are any. -/
def StmtMalformedIn (all ts : List Token) : Prop := IsPartOf all ts → MalformedIn all (statement ts)

/-- What starts with an `if` is meant to be a conditional. -/
theorem conditional_malformedIn {first : Token} {rest : List Token} (hk : first.kind = .ifKeyword)
    (h : first :: rest ⊆ all)
    (below : ∀ us : List Token, us.length < (first :: rest).length → StmtMalformedIn all us) :
    MalformedIn all (conditional (first :: rest)) := by
  rw [conditional_eq]
  refine (head_malformedIn hk h).bind fun c hc => ?_
  have shorter := length_lt_of_head_eq_ok hc
  have body : c.first :: c.body ⊆ all := by
    obtain ⟨opening, closing, brace, whole, -⟩ := head_eq_ok.1 hc
    rw [whole] at h
    obtain ⟨first, rest⟩ := List.cons_subset.1 h
    refine List.cons_subset.2 ⟨first, List.Subset.trans ?_ rest⟩
    exact List.subset_append_right [opening, c.test, closing, brace] c.body
  have last : c.body.getLastD c.first ∈ all := body List.getLastD_mem_cons
  obtain ⟨consequent, alternate, ending⟩ := blocks_standsIn (List.cons_subset.1 body).2 last
  refine FailsWith.bind (.inOrder fun slice hs => below slice ?_ (consequent slice hs)) fun _ _ => ?_
  · exact Nat.lt_of_le_of_lt (length_le_of_mem_consequent hs) shorter
  refine FailsWith.bind (.inOrder fun slice hs => below slice ?_ (alternate slice hs)) fun _ _ => ?_
  · exact Nat.lt_of_le_of_lt (length_le_of_mem_alternate hs) shorter
  change (blocks c.last c.body).ending.StandsIn all at ending
  cases he : (blocks c.last c.body).ending with
  | complete => exact .ok _
  | failed f =>
    rw [he] at ending
    exact .error ending
  | insideStatement pending brace =>
    rw [he] at ending
    obtain ⟨pending_, brace_⟩ := ending
    have fails := below pending (Nat.lt_of_le_of_lt (length_le_of_blocks_eq he) shorter) pending_
    dsimp only
    cases hp : statement pending with
    | error f =>
      rw [hp] at fails
      exact .error (fails f rfl)
    | ok s =>
      have behind : pending.getLastD brace ∈ all :=
        List.cons_subset.2 ⟨brace_, pending_.2⟩ List.getLastD_mem_cons
      exact .at (Token.after_pointsInto behind) rfl

theorem conditional_failsIn {ts : List Token} (h : ts ⊆ all)
    (below : ∀ us : List Token, us.length < ts.length → StmtMalformedIn all us) :
    FailsIn all (conditional ts) := by
  cases ts with
  | nil =>
    intro f e hk
    rw [conditional_eq] at e
    cases e
    cases hk
  | cons first rest =>
    by_cases hk : first.kind = .ifKeyword
    · exact (conditional_malformedIn hk h below).failsIn
    · rw [conditional_eq, head, if_neg hk]
      exact .mismatch _ _

/-- The failure is final and that of an answer, or the one that is given. -/
theorem answerOf_eq_error {α : Type} {otherwise f : Failure} {answers : List (Parsed α)}
    (h : answerOf otherwise answers = .error f) :
    (f.kind = .malformed ∧ .error f ∈ answers) ∨ f = otherwise := by
  unfold answerOf at h
  split at h
  · cases h
  · generalize own : List.findSome? _ answers = found at h
    cases found with
    | none =>
      cases h
      exact .inr rfl
    | some g =>
      cases h
      obtain ⟨r, hr, hf⟩ := List.exists_of_findSome?_eq_some own
      split at hf
      · split at hf
        · next hk =>
          cases hf
          exact .inl ⟨hk, hr⟩
        · cases hf
      · cases hf

/-- A statement that is not read fails at one of its tokens. -/
theorem statement_malformedIn (ts : List Token) : StmtMalformedIn all ts := by
  induction hn : ts.length using Nat.strongRecOn generalizing ts with
  | ind n ih =>
    rintro ⟨ne, h⟩
    have below : ∀ us : List Token, us.length < ts.length → StmtMalformedIn all us :=
      fun us hus => ih us.length (hn ▸ hus) us rfl
    obtain ⟨t, rest, rfl⟩ := List.exists_cons_of_ne_nil ne
    intro f hf
    rw [statement] at hf
    rcases answerOf_eq_error hf with ⟨hk, mem⟩ | rfl
    · refine ⟨hk, ?_⟩
      simp only [List.mem_cons, List.not_mem_nil, or_false] at mem
      rcases mem with e | e | e
      · exact declaration_failsIn h f e.symm hk
      · exact expressionStatement_failsIn h f e.symm hk
      · exact conditional_failsIn h below f e.symm hk
    · exact ⟨rfl, _, rfl, Token.pointsInto (h List.mem_cons_self)⟩

/-- Without tokens it fails for good as well. -/
theorem malformed_of_statement {ts : List Token} {f : Failure} (h : statement ts = .error f) :
    f.kind = .malformed := by
  rw [statement] at h
  rcases answerOf_eq_error h with ⟨hk, -⟩ | rfl
  · exact hk
  · rfl

/-! ## Programs -/

/-- A program that is not read is malformed, and at a place of one of its tokens. -/
theorem malformed_of_program {ts : List Token} {f : Failure} (h : program ts = .error f) :
    f.kind = .malformed ∧ f.PointsInto ts := by
  obtain ⟨slices, ending⟩ := cut_standsIn (List.Subset.refl ts)
  have ofStatement {us : List Token} {g : Failure} (hu : IsPartOf ts us) (hg : statement us = .error g) :
      g.kind = .malformed ∧ g.PointsInto ts := statement_malformedIn us hu g hg
  rw [program] at h
  cases hs : inOrder ((cut {} ts).slices.map statement) with
  | error g =>
    obtain ⟨slice, hm, hg⟩ := List.mem_map.1 (mem_of_inOrder_eq_error hs)
    rw [hs] at h
    cases h
    exact ofStatement (slices slice hm) hg
  | ok ss =>
    rw [hs] at h
    simp only [bind, Except.bind] at h
    generalize he : (cut {} ts).ending = e at ending h
    split at h
    · cases h
    · next p ps =>
      have pending : IsPartOf ts (p :: ps) := ⟨List.cons_ne_nil p ps, ending.tokens⟩
      split at h
      · next g hg =>
        cases h
        exact ofStatement pending hg
      · cases h
        exact ⟨rfl, _, rfl, Token.after_pointsInto (pending.2 List.getLastD_mem_cons)⟩
    · next pendingTokens _ =>
      cases h
      refine ⟨e.malformed_failure _ _, ?_⟩
      -- without tokens the body would have ended with none of them pending
      cases hl : ts.getLast? with
      | none =>
        rw [List.getLast?_eq_none_iff.1 hl] at he
        exact absurd he.symm pendingTokens
      | some last => exact e.failure_pointsInto ending (List.mem_of_getLast? hl) none

end Parser

end Slate
