import Slate.Proofs.Grammar.StmtParser

/-!
# A body is cut turn by turn

`cut` goes over a body once. Seen from inside, it is a loop: a turn goes over a token, or over a brace and the `else`
behind it, and then it goes on, finishes a slice, or stops (`Turn`). A `Moment` is what the loop knows between two
turns.

* `cut_eq_turn` — a cut is its first turn and the cut of what is left;
* `Visits.stands` — what holds at every moment, from what one turn keeps;
* `cut_pending` — what is pending in the end is what a cut of it alone leaves;
* `scan_overlooks_nothing` — so it is no statement.
-/

namespace Slate.Parser

/-! ## Turns -/

/-- What a turn of the loop comes to. -/
inductive Turn where
  | on (s : Scanner) (rest : List Token)
  | finish (slice rest : List Token)
  | stop (ending : Ending)

/-- A turn, in front of some tokens. -/
def Scanner.turn (s : Scanner) : List Token → Turn
  | [] => .stop (if s.depth = 0 then .exhausted s.pending.reverse else .unclosed s.pending.reverse)
  | t :: ts =>
    match t.kind with
    | .ifKeyword =>
      if s.between then
        match s.pending with
        | [] => .on { s.take t with conditional := some ⟨false⟩ } ts
        | previous :: _ => .stop (.unfinished s.pending.reverse previous t ts)
      else .on (s.take t) ts
    | .openBrace =>
      if s.between then .stop (.strayBrace s.pending.reverse t ts)
      else .on { s.take t with depth := s.depth + 1 } ts
    | .closeBrace =>
      match s.depth, s.conditional with
      | 0, _ => .stop (.closed s.pending.reverse t ts)
      | 1, some c =>
        match ts with
        | e :: rest =>
          if e.kind = .elseKeyword ∧ ¬ c.elseTaken then .on ⟨0, some ⟨true⟩, e :: t :: s.pending⟩ rest
          else .finish (s.take t).pending.reverse (e :: rest)
        | [] => .finish (s.take t).pending.reverse []
      | depth + 1, _ => .on { s.take t with depth := depth } ts
    | .elseKeyword =>
      if s.depth = 0 then .stop (.strayElse s.pending.reverse t ts) else .on (s.take t) ts
    | .semicolon =>
      if s.between then .finish (s.take t).pending.reverse ts else .on (s.take t) ts
    | _ => .on (s.take t) ts

/-- The cut that a turn leads to. -/
def Turn.cut : Turn → Cut
  | on s rest => Parser.cut s rest
  | finish slice rest => (Parser.cut {} rest).push slice
  | stop ending => .stop ending

theorem cut_eq_turn (s : Scanner) (ts : List Token) : cut s ts = (s.turn ts).cut := by
  fun_cases Scanner.turn s ts <;> simp_all [cut, Turn.cut]

/-- All that a turn does that goes on: the tokens that it goes over become pending, whatever stands behind them, and
where a conditional is open around every brace, one still is. -/
structure Scanner.GoesTo (s : Scanner) (gone : List Token) (s' : Scanner) : Prop where
  nonempty : gone ≠ []
  turn : ∀ rest, s.turn (gone ++ rest) = .on s' rest
  pending : s'.pending = gone.reverse ++ s.pending
  opened : (0 < s.depth → s.conditional.isSome = true) → 0 < s'.depth → s'.conditional.isSome = true

/-- A token that only becomes pending. -/
theorem Scanner.goesTo_take {s : Scanner} {t : Token} (turn : ∀ rest, s.turn (t :: rest) = .on (s.take t) rest) :
    s.GoesTo [t] (s.take t) :=
  ⟨List.cons_ne_nil _ _, turn, rfl, fun h => h⟩

theorem Scanner.exists_goesTo {s s' : Scanner} {ts rest : List Token} (h : s.turn ts = .on s' rest) :
    ∃ gone, ts = gone ++ rest ∧ s.GoesTo gone s' := by
  revert h
  fun_cases Scanner.turn s ts with
  | case1 => rintro ⟨⟩
  | case2 t ts hk between nothing =>
    rintro ⟨⟩
    exact ⟨[t], rfl, List.cons_ne_nil _ _, fun rest => by simp [turn, hk, between, nothing], rfl, fun _ _ => rfl⟩
  | case3 => rintro ⟨⟩
  | case4 t ts hk inside =>
    rintro ⟨⟩
    exact ⟨[t], rfl, goesTo_take fun rest => by simp [turn, hk, inside]⟩
  | case5 => rintro ⟨⟩
  | case6 t ts hk inside =>
    rintro ⟨⟩
    refine ⟨[t], rfl, List.cons_ne_nil _ _, fun rest => by simp [turn, hk, inside], rfl, fun opened _ => ?_⟩
    -- outside all braces a brace is only gone over behind an `if`
    by_cases hd : s.depth = 0
    · show s.conditional.isSome = true
      simpa [between, hd, Option.isSome_iff_ne_none] using inside
    · exact opened (Nat.pos_of_ne_zero hd)
  | case7 => rintro ⟨⟩
  | case8 t hk c hc hd e rest he =>
    rintro ⟨⟩
    exact ⟨[t, e], rfl, List.cons_ne_nil _ _, fun rest => by simp [turn, hk, hc, hd, he], rfl,
      fun _ below => absurd below (Nat.lt_irrefl 0)⟩
  | case9 => rintro ⟨⟩
  | case10 => rintro ⟨⟩
  | case11 t ts hk depth hd other =>
    rintro ⟨⟩
    refine ⟨[t], rfl, List.cons_ne_nil _ _, fun rest => ?_, rfl, fun opened _ => opened ?_⟩
    · cases hc : s.conditional with
      | none => simp [turn, hk, hd, hc]
      | some c =>
        obtain ⟨d, rfl⟩ := Nat.exists_eq_succ_of_ne_zero (other c hc)
        simp [turn, hk, hd, hc]
    · rw [hd]
      exact Nat.succ_pos depth
  | case12 => rintro ⟨⟩
  | case13 t ts hk inside =>
    rintro ⟨⟩
    exact ⟨[t], rfl, goesTo_take fun rest => by simp [turn, hk, inside]⟩
  | case14 => rintro ⟨⟩
  | case15 t ts hk inside =>
    rintro ⟨⟩
    exact ⟨[t], rfl, goesTo_take fun rest => by simp [turn, hk, inside]⟩
  | case16 t ts h₁ h₂ h₃ h₄ h₅ =>
    rintro ⟨⟩
    exact ⟨[t], rfl, goesTo_take fun rest => by rw [turn]; split <;> simp_all⟩

/-- A slice is what was pending and the token that finishes it. -/
theorem Scanner.exists_finished {s : Scanner} {ts slice rest : List Token} (h : s.turn ts = .finish slice rest) :
    ∃ t, ts = t :: rest ∧ slice = s.pending.reverse ++ [t] := by
  revert h
  fun_cases Scanner.turn s ts <;> rintro ⟨⟩ <;> exact ⟨_, rfl, List.reverse_cons⟩

/-! ## Moments -/

/-- What the loop knows between two turns: the slices that are finished, and where it stands. -/
structure Moment where
  slices : List (List Token)
  scanner : Scanner
  rest : List Token

namespace Moment

/-- The moment behind the next turn, if there is one. -/
def next? (m : Moment) : Option Moment :=
  match m.scanner.turn m.rest with
  | .on s rest => some ⟨m.slices, s, rest⟩
  | .finish slice rest => some ⟨m.slices ++ [slice], {}, rest⟩
  | .stop _ => none

/-- Where the slice starts that is not finished. -/
def start (m : Moment) : Nat := m.slices.flatten.length

/-- Where the loop stands in the tokens. -/
def index (ts : List Token) (m : Moment) : Nat := ts.length - m.rest.length

/-- What holds at every moment: the tokens are those of the slices, those that are pending and those to come; a
conditional is open around every brace; and from the tokens that are pending alone, the loop would come to stand as
it does, and from here it comes to the same cut. -/
structure Stands (ts : List Token) (m : Moment) : Prop where
  tokens : m.slices.flatten ++ (m.scanner.pending.reverse ++ m.rest) = ts
  opened : 0 < m.scanner.depth → m.scanner.conditional.isSome = true
  restarts : ∀ us, cut {} (m.scanner.pending.reverse ++ us) = cut m.scanner us
  slices : m.slices ++ (cut m.scanner m.rest).slices = (cut {} ts).slices
  ending : (cut m.scanner m.rest).ending = (cut {} ts).ending

variable {ts : List Token} {m m' : Moment}

theorem Stands.next (h : m.Stands ts) (turn : m.next? = some m') : m'.Stands ts := by
  obtain ⟨slices, s, rest⟩ := m
  have cut_ := cut_eq_turn s rest
  unfold next? at turn
  dsimp only at turn
  split at turn
  · next s' rest' on =>
    cases turn
    obtain ⟨gone, rfl, goes⟩ := Scanner.exists_goesTo on
    rw [on, Turn.cut] at cut_
    refine ⟨?_, goes.opened h.opened, fun us => ?_, ?_, ?_⟩
    · rw [goes.pending, ← h.tokens]
      simp
    · have restarts := h.restarts (gone ++ us)
      rw [cut_eq_turn s, goes.turn us, Turn.cut] at restarts
      rw [← restarts, goes.pending]
      simp
    · rw [← cut_]
      exact h.slices
    · rw [← cut_]
      exact h.ending
  · next slice rest' finish =>
    cases turn
    obtain ⟨t, rfl, rfl⟩ := Scanner.exists_finished finish
    rw [finish, Turn.cut] at cut_
    refine ⟨?_, fun below => absurd below (Nat.lt_irrefl 0), fun us => rfl, ?_, ?_⟩
    · rw [← h.tokens]
      simp
    · rw [← h.slices, cut_]
      simp [Cut.push]
    · rw [← h.ending, cut_]
      rfl
  · cases turn

/-- Where the loop stands: behind the slices and what is pending. -/
theorem Stands.index_eq (h : m.Stands ts) : m.index ts = m.start + m.scanner.pending.length := by
  rw [index, start, ← h.tokens]
  simp only [List.length_append, List.length_reverse]
  omega

/-- What is pending are the tokens between the two. -/
theorem Stands.pending_eq (h : m.Stands ts) :
    m.scanner.pending.reverse = (ts.drop m.start).take (m.index ts - m.start) := by
  rw [h.index_eq, Nat.add_sub_cancel_left, start, ← h.tokens, List.drop_left, ← List.length_reverse,
    List.take_left]

theorem length_next_lt (turn : m.next? = some m') : m'.rest.length < m.rest.length := by
  unfold next? at turn
  split at turn
  · next s rest on =>
    cases turn
    obtain ⟨gone, whole, goes⟩ := Scanner.exists_goesTo on
    have some_ := List.length_pos_iff.2 goes.nonempty
    show rest.length < m.rest.length
    rw [whole, List.length_append]
    omega
  · next finish =>
    cases turn
    obtain ⟨t, whole, -⟩ := Scanner.exists_finished finish
    rw [whole]
    exact Nat.lt_succ_self _
  · cases turn

end Moment

/-- The moments of a cut. -/
inductive Visits (ts : List Token) : Moment → Prop
  | start : Visits ts ⟨[], {}, ts⟩
  | next {m m' : Moment} (h : Visits ts m) (turn : m.next? = some m') : Visits ts m'

namespace Visits

variable {ts : List Token} {m : Moment}

theorem stands (h : Visits ts m) : m.Stands ts := by
  induction h with
  | start => exact ⟨rfl, fun below => absurd below (Nat.lt_irrefl 0), fun _ => rfl, rfl, rfl⟩
  | next _ turn ih => exact ih.next turn

/-- From every moment on the loop comes to the end, where it stands in front of the ending with all the slices. -/
theorem exists_last (h : Visits ts m) :
    ∃ last, Visits ts last ∧ last.scanner.turn last.rest = .stop (cut {} ts).ending ∧
      last.slices = (cut {} ts).slices := by
  induction hn : m.rest.length using Nat.strongRecOn generalizing m with
  | ind n ih =>
    cases hm : m.next? with
    | some m' => exact ih m'.rest.length (hn ▸ Moment.length_next_lt hm) (h.next hm) rfl
    | none =>
      have cut_ := cut_eq_turn m.scanner m.rest
      unfold Moment.next? at hm
      split at hm
      · cases hm
      · cases hm
      · next e stop =>
        rw [stop, Turn.cut] at cut_
        have slices := h.stands.slices
        have ending := h.stands.ending
        rw [cut_] at slices ending
        refine ⟨m, h, ?_, ?_⟩
        · rw [stop, ← ending]
          rfl
        · rw [← slices]
          exact (List.append_nil _).symm

end Visits

/-! ## What is left pending -/

variable {ts pending : List Token}

/-- What is behind the last slice is cut as if there were nothing before it. -/
theorem cut_pending (ts : List Token) : cut {} (cut {} ts).ending.tokens = .stop (cut {} ts).ending := by
  obtain ⟨last, visited, stop, -⟩ := (Visits.start : Visits ts _).exists_last
  have cut_ := cut_eq_turn last.scanner last.rest
  rw [stop, Turn.cut] at cut_
  have tokens := tokens_cut last.scanner last.rest
  rw [cut_, Cut.tokens_stop] at tokens
  rw [tokens, visited.stands.restarts, cut_]

/-- A statement would have been finished, so what is pending is none. -/
theorem exists_failure_of_ending {e : Ending} {behind : List Token} (he : (cut {} ts).ending = e)
    (tokens : e.tokens = pending ++ behind) (notElse : ∀ t ∈ behind.head?, t.kind ≠ .elseKeyword) :
    ∃ f, statement pending = .error f := by
  cases hs : statement pending with
  | error f => exact ⟨f, rfl⟩
  | ok s =>
    obtain ⟨p, rfl⟩ := Grammar.exists_statement hs
    have finished := cut_pending ts
    rw [he, tokens, p.cut_statement notElse] at finished
    cases congrArg Cut.slices finished

theorem exists_failure_of_exhausted (h : (cut {} ts).ending = .exhausted pending) :
    ∃ f, statement pending = .error f :=
  exists_failure_of_ending h (List.append_nil pending).symm (by simp)

theorem exists_failure_of_closed {brace : Token} {rest : List Token}
    (h : (cut {} ts).ending = .closed pending brace rest) : ∃ f, statement pending = .error f :=
  exists_failure_of_ending h rfl (by simp [kind_of_closed h])

/-- Where a block is closed inside a statement, its body is. -/
theorem exists_closed_of_blocks {last : Span} {body : List Token} {brace : Token}
    (h : (blocks last body).ending = .insideStatement pending brace) :
    ∃ inner rest, (cut {} inner).ending = .closed pending brace rest := by
  have ofLast {e : Ending} (he : BlockEnding.ofLast last e = .insideStatement pending brace) :
      ∃ rest, e = .closed pending brace rest := by
    unfold BlockEnding.ofLast at he
    split at he <;> cases he
    exact ⟨_, rfl⟩
  unfold blocks at h
  dsimp only at h
  split at h
  · next first t rest he =>
    split at h <;> dsimp only at h
    · unfold alternateBlock at h
      split at h
      · cases h
      · next opening inner =>
        split at h
        · obtain ⟨rest, hc⟩ := ofLast h
          exact ⟨inner, rest, hc⟩
        · cases h
    · obtain ⟨rest, hc⟩ := ofLast h
      cases hc
      exact ⟨body, _, he⟩
  · obtain ⟨rest, hc⟩ := ofLast h
    exact ⟨body, rest, hc⟩

/-- The loop over a body, which is a program or the inside of a block. At every moment a conditional is open if the
loop is inside braces, and what is pending are the tokens from the end of the last slice up to where the loop stands.
Where the tokens end, or a brace ends a block, with tokens pending, those are no statement, and the program or the
conditional fails as they do. -/
theorem scan_overlooks_nothing (ts : List Token) :
    (∀ m, Visits ts m →
      (0 < m.scanner.depth → m.scanner.conditional.isSome = true) ∧ m.start ≤ m.index ts ∧
      m.scanner.pending.reverse = (ts.drop m.start).take (m.index ts - m.start)) ∧
    (∃ last, Visits ts last ∧ last.scanner.turn last.rest = .stop (cut {} ts).ending ∧
      last.slices = (cut {} ts).slices) ∧
    (∀ pending, (cut {} ts).ending = .exhausted pending → pending ≠ [] →
      ∃ f, statement pending = .error f ∧
        ∀ ss : List Stmt, (cut {} ts).slices.map statement = ss.map .ok → program ts = .error f) ∧
    (∀ pending brace rest, (cut {} ts).ending = .closed pending brace rest →
      ∃ f, statement pending = .error f) ∧
    (∀ h pending brace, head ts = .ok h → (blocks h.last h.body).ending = .insideStatement pending brace →
      ∃ f, statement pending = .error f ∧
        ∀ ss ss' : List Stmt, (blocks h.last h.body).consequent.map statement = ss.map .ok →
          (blocks h.last h.body).alternate.map statement = ss'.map .ok → conditional ts = .error f) := by
  refine ⟨fun m visited => ?_, Visits.start.exists_last, fun pending he ne => ?_,
    fun pending brace rest => exists_failure_of_closed, fun h pending brace hh he => ?_⟩
  · have stands := visited.stands
    exact ⟨stands.opened, stands.index_eq ▸ Nat.le_add_right _ _, stands.pending_eq⟩
  · obtain ⟨f, hf⟩ := exists_failure_of_exhausted he
    refine ⟨f, hf, fun ss hs => ?_⟩
    obtain ⟨p, ps, rfl⟩ := List.exists_cons_of_ne_nil ne
    simp only [program, he, inOrder_eq_ok.2 hs, hf, bind, Except.bind]
  · obtain ⟨inner, rest, hc⟩ := exists_closed_of_blocks he
    obtain ⟨f, hf⟩ := exists_failure_of_closed hc
    refine ⟨f, hf, fun ss ss' hs hs' => ?_⟩
    simp only [conditional_eq, hh, he, inOrder_eq_ok.2 hs, inOrder_eq_ok.2 hs', hf, bind, Except.bind]

/-- The tokens of `if (x) { x }`. -/
def unfinishedBlock : List Token :=
  [⟨⟨.ifKeyword, "if"⟩, ⟨1, 1, 3⟩⟩, ⟨⟨.openParen, "("⟩, ⟨1, 4, 5⟩⟩, ⟨⟨.identifier, "x"⟩, ⟨1, 5, 6⟩⟩,
    ⟨⟨.closeParen, ")"⟩, ⟨1, 6, 7⟩⟩, ⟨⟨.openBrace, "\x7b"⟩, ⟨1, 8, 9⟩⟩, ⟨⟨.identifier, "x"⟩, ⟨1, 10, 11⟩⟩,
    ⟨⟨.closeBrace, "\x7d"⟩, ⟨1, 12, 13⟩⟩]

/-- Inside the braces, and where they end too early: for the conditional, for its block, and for what the block
holds. -/
theorem scan_overlooks_nothing_unfinishedBlock :
    let inside : Moment :=
      ⟨[], ⟨1, some ⟨false⟩, (unfinishedBlock.take 5).reverse⟩, unfinishedBlock.drop 5⟩
    let x : Token := ⟨⟨.identifier, "x"⟩, ⟨1, 10, 11⟩⟩
    (Visits unfinishedBlock inside ∧ inside.scanner.conditional.isSome = true ∧
      inside.start ≤ inside.index unfinishedBlock) ∧
    (∃ f, statement [x] = .error f ∧ conditional unfinishedBlock = .error f) ∧
    (∃ f, statement [x] = .error f ∧ program [x] = .error f) ∧
    ∃ brace, (cut {} (unfinishedBlock.drop 5)).ending = .closed [x] brace [] ∧
      ∃ f, statement [x] = .error f := by
  obtain ⟨moments, -, -, -, blocks_⟩ := scan_overlooks_nothing unfinishedBlock
  obtain ⟨-, -, exhausted, -, -⟩ := scan_overlooks_nothing [⟨⟨.identifier, "x"⟩, ⟨1, 10, 11⟩⟩]
  obtain ⟨-, -, -, closed, -⟩ := scan_overlooks_nothing (unfinishedBlock.drop 5)
  have visited : Visits unfinishedBlock
      ⟨[], ⟨1, some ⟨false⟩, (unfinishedBlock.take 5).reverse⟩, unfinishedBlock.drop 5⟩ :=
    ((((Visits.start.next rfl).next rfl).next rfl).next rfl).next rfl
  obtain ⟨opened, before, -⟩ := moments _ visited
  obtain ⟨f, hf, ofConditional⟩ := blocks_ ⟨_, _, unfinishedBlock.drop 5⟩ _ _ rfl rfl
  obtain ⟨g, hg, ofProgram⟩ := exhausted _ rfl (List.cons_ne_nil _ _)
  exact ⟨⟨visited, opened Nat.one_pos, before⟩, ⟨f, hf, ofConditional [] [] rfl rfl⟩, ⟨g, hg, ofProgram [] rfl⟩,
    _, rfl, closed _ _ _ rfl⟩

end Slate.Parser
