import Slate.Dialogue

/-!
# How a dialogue can end

A dialogue ends with a result or with an error, and what comes back along the way decides how.
`Ends P Q` says of all its ends at once that a result satisfies `P` and an error satisfies `Q`. An error
that a missing answer causes is one of them.

* `Ends.bind` — a dialogue that goes on from a result knows what holds of it;
* `Ends.withAnswers` — led with answers, the dialogue ends in one of its ends;
* `withAnswers_bind_eq_ok` — a dialogue that goes on in a second one gives a result exactly if both do.
-/

namespace Slate.Dialogue

variable {ε α β : Type}

/-- Whatever comes back, a result satisfies `P` and an error satisfies `Q`. -/
inductive Ends (P : α → Prop) (Q : ε → Prop) : Dialogue ε α → Prop
  | done {a : α} : P a → Ends P Q (done a)
  | failed {e : ε} : Q e → Ends P Q (failed e)
  | say (line : String) {d : Dialogue ε α} : Ends P Q d → Ends P Q (say line d)
  | ask (prompt : String) {unanswered : ε} {next : String → Dialogue ε α} : Q unanswered →
      (∀ answer, Ends P Q (next answer)) → Ends P Q (ask prompt unanswered next)
  | lookUp (name : String) {next : Option String → Dialogue ε α} :
      (∀ text, Ends P Q (next text)) → Ends P Q (lookUp name next)

namespace Ends

variable {P : α → Prop} {R : β → Prop} {Q : ε → Prop}

/-- Of what holds anyway, it holds that a dialogue ends so. -/
theorem of_forall (hP : ∀ a, P a) (hQ : ∀ e, Q e) (d : Dialogue ε α) : Ends P Q d := by
  induction d with
  | done a => exact .done (hP a)
  | failed e => exact .failed (hQ e)
  | say line next ih => exact .say line ih
  | ask prompt unanswered next ih => exact .ask prompt (hQ unanswered) ih
  | lookUp name next ih => exact .lookUp name ih

theorem mono {P' : α → Prop} {d : Dialogue ε α} (h : Ends P Q d) (weaker : ∀ a, P a → P' a) :
    Ends P' Q d := by
  induction h with
  | done h => exact .done (weaker _ h)
  | failed h => exact .failed h
  | say line _ ih => exact .say line ih
  | ask prompt h _ ih => exact .ask prompt h ih
  | lookUp name _ ih => exact .lookUp name ih

theorem bind {d : Dialogue ε α} {f : α → Dialogue ε β} (h : Ends P Q d)
    (next : ∀ a, P a → Ends R Q (f a)) : Ends R Q (d >>= f) := by
  induction h with
  | done h => exact next _ h
  | failed h => exact .failed h
  | say line _ ih => exact .say line ih
  | ask prompt h _ ih => exact .ask prompt h ih
  | lookUp name _ ih => exact .lookUp name ih

theorem ite {p : Prop} [Decidable p] {d e : Dialogue ε α} (yes : p → Ends P Q d)
    (no : ¬ p → Ends P Q e) : Ends P Q (if p then d else e) := by
  by_cases h : p
  · simpa [h] using yes h
  · simpa [h] using no h

/-! ## Leading it -/

theorem withAnswers {d : Dialogue ε α} (h : Ends P Q d) (vars : ProcessEnv)
    (answers : List String) :
    match (d.withAnswers vars answers).result with
    | .ok a => P a
    | .error e => Q e := by
  induction h generalizing answers with
  | done h => exact h
  | failed h => exact h
  | say line _ ih => exact ih answers
  | ask prompt h _ ih =>
    cases answers with
    | nil => exact h
    | cons answer answers => exact ih answer answers
  | lookUp name _ ih => exact ih (vars name) answers

end Ends

/-- Two dialogues give a result one after the other if each one gives one, the second with the answers that
the first one left. -/
theorem withAnswers_bind_eq_ok {d : Dialogue ε α} {f : α → Dialogue ε β} {vars : ProcessEnv}
    {answers left : List String} {b : β} {events : List Event} :
    (d >>= f).withAnswers vars answers = ⟨.ok b, events, left⟩ ↔
      ∃ a first between second, d.withAnswers vars answers = ⟨.ok a, first, between⟩ ∧
        (f a).withAnswers vars between = ⟨.ok b, second, left⟩ ∧ events = first ++ second := by
  rw [withAnswers_bind]
  rcases d.withAnswers vars answers with ⟨result, first, between⟩
  constructor
  · intro led
    cases result with
    | error e => cases led
    | ok a =>
      rcases next : (f a).withAnswers vars between with ⟨result, second, unused⟩
      simp only [Outcome.andThen, next, Outcome.mk.injEq] at led
      obtain ⟨rfl, rfl, rfl⟩ := led
      exact ⟨a, first, between, second, rfl, next, rfl⟩
  · rintro ⟨a, first', between', second, start, next, rfl⟩
    cases start
    simp only [Outcome.andThen, next]

end Slate.Dialogue
