import Slate.Dialogue

/-!
# Dialogues that run alike

Two dialogues run *alike* if nobody who leads them can tell them apart: they say the same lines, ask the
same questions and look up the same variables, in the same order and whatever comes back, and they end
with the same error or with results that a relation allows.

* `Alike.bind` — dialogues that run alike go on in dialogues that run alike;
* `Alike.withAnswers` — led with the same answers, they have the same events, leave the same answers
  and end alike (`Alike.ok_of_withAnswers`, if one of them ends with a result).
-/

namespace Slate

variable {ε α β γ δ : Type}

/-- Two ends with the same error, or with results that the relation allows. -/
inductive EndsAlike (R : α → β → Prop) : Except ε α → Except ε β → Prop
  | ok {a : α} {b : β} : R a b → EndsAlike R (.ok a) (.ok b)
  | error (e : ε) : EndsAlike R (.error e) (.error e)

namespace Dialogue

/-- The same dialogue but for the results, which the relation allows. -/
inductive Alike (R : α → β → Prop) : Dialogue ε α → Dialogue ε β → Prop
  | done {a : α} {b : β} : R a b → Alike R (done a) (done b)
  | failed (e : ε) : Alike R (failed e) (failed e)
  | say (line : String) {d : Dialogue ε α} {d' : Dialogue ε β} :
      Alike R d d' → Alike R (say line d) (say line d')
  | ask (prompt : String) (unanswered : ε) {next : String → Dialogue ε α}
      {next' : String → Dialogue ε β} :
      (∀ answer, Alike R (next answer) (next' answer)) →
      Alike R (ask prompt unanswered next) (ask prompt unanswered next')
  | lookUp (name : String) {next : Option String → Dialogue ε α}
      {next' : Option String → Dialogue ε β} :
      (∀ text, Alike R (next text) (next' text)) → Alike R (lookUp name next) (lookUp name next')

namespace Alike

variable {R : α → β → Prop} {S : γ → δ → Prop}

/-- A dialogue runs like itself. -/
theorem refl {R : α → α → Prop} (hR : ∀ a, R a a) (d : Dialogue ε α) : Alike R d d := by
  induction d with
  | done a => exact .done (hR a)
  | failed e => exact .failed e
  | say line d ih => exact .say line ih
  | ask prompt unanswered next ih => exact .ask prompt unanswered ih
  | lookUp name next ih => exact .lookUp name ih

theorem mono {R' : α → β → Prop} {d : Dialogue ε α} {d' : Dialogue ε β} (h : Alike R d d')
    (weaker : ∀ a b, R a b → R' a b) : Alike R' d d' := by
  induction h with
  | done h => exact .done (weaker _ _ h)
  | failed e => exact .failed e
  | say line _ ih => exact .say line ih
  | ask prompt unanswered _ ih => exact .ask prompt unanswered ih
  | lookUp name _ ih => exact .lookUp name ih

theorem bind {d : Dialogue ε α} {d' : Dialogue ε β} {f : α → Dialogue ε γ} {g : β → Dialogue ε δ}
    (h : Alike R d d') (next : ∀ a b, R a b → Alike S (f a) (g b)) :
    Alike S (d >>= f) (d' >>= g) := by
  -- `>>=` only passes over the events, so each case but `done` is its own constructor
  induction h with
  | done h => exact next _ _ h
  | failed e => exact .failed e
  | say line _ ih => exact .say line ih
  | ask prompt unanswered _ ih => exact .ask prompt unanswered ih
  | lookUp name _ ih => exact .lookUp name ih

/-- What follows on the same dialogue on both sides. -/
theorem bind_same (d : Dialogue ε γ) {f : γ → Dialogue ε α} {g : γ → Dialogue ε β}
    (next : ∀ c, Alike R (f c) (g c)) : Alike R (d >>= f) (d >>= g) := by
  have self : Alike Eq d d := refl (fun _ => rfl) d
  refine self.bind fun c c' same => ?_
  rw [← same]
  exact next c

/-- The same choice on both sides. -/
theorem ite {p : Prop} [Decidable p] {d e : Dialogue ε α} {d' e' : Dialogue ε β}
    (yes : p → Alike R d d') (no : ¬ p → Alike R e e') :
    Alike R (if p then d else e) (if p then d' else e') := by
  by_cases h : p
  · rw [if_pos h, if_pos h]
    exact yes h
  · rw [if_neg h, if_neg h]
    exact no h

/-! ## Leading both -/

theorem withAnswers {d : Dialogue ε α} {d' : Dialogue ε β} (h : Alike R d d') (vars : ProcessEnv)
    (answers : List String) :
    (d.withAnswers vars answers).events = (d'.withAnswers vars answers).events ∧
      (d.withAnswers vars answers).answers = (d'.withAnswers vars answers).answers ∧
      EndsAlike R (d.withAnswers vars answers).result (d'.withAnswers vars answers).result := by
  -- each question takes an answer away, so the answers change along the way
  induction h generalizing answers with
  | done h => exact ⟨rfl, rfl, .ok h⟩
  | failed e => exact ⟨rfl, rfl, .error e⟩
  | say line _ ih =>
    obtain ⟨events, left, result⟩ := ih answers
    exact ⟨congrArg (Event.said line :: ·) events, left, result⟩
  | ask prompt unanswered _ ih =>
    cases answers with
    | nil => exact ⟨rfl, rfl, .error unanswered⟩
    | cons answer answers =>
      obtain ⟨events, left, result⟩ := ih answer answers
      exact ⟨congrArg (Event.asked prompt :: ·) events, left, result⟩
  | lookUp name _ ih => exact ih (vars name) answers

/-- If one of them gives a result, the other one gives one that goes with it. -/
theorem ok_of_withAnswers {d : Dialogue ε α} {d' : Dialogue ε β} (h : Alike R d d')
    {vars : ProcessEnv} {answers left : List String} {a : α} {events : List Event}
    (led : d.withAnswers vars answers = ⟨.ok a, events, left⟩) :
    ∃ b, d'.withAnswers vars answers = ⟨.ok b, events, left⟩ ∧ R a b := by
  obtain ⟨said, unused, alike⟩ := h.withAnswers vars answers
  rw [led] at said unused alike
  rcases outcome : d'.withAnswers vars answers with ⟨result, events', left'⟩
  rw [outcome] at said unused alike
  obtain rfl : events = events' := said
  obtain rfl : left = left' := unused
  cases alike with
  | ok related => exact ⟨_, rfl, related⟩

end Alike
end Dialogue
end Slate
