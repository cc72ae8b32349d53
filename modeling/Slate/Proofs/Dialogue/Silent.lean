import Slate.Dialogue

/-!
# Dialogues that are silent

A dialogue is *silent* if it neither says nor asks anything. It may still look up variables of the process.

* `Silent.bind` — a silent dialogue that goes on in silent ones is silent;
* `Silent.withAnswers` — led with answers, it has no events, leaves all the answers and ends in the same way
  whatever they are.
-/

namespace Slate.Dialogue

variable {ε α β : Type}

/-- Nothing is said and nothing is asked, whatever the variables of the process are. -/
inductive Silent : Dialogue ε α → Prop
  | done (a : α) : Silent (done a)
  | failed (e : ε) : Silent (failed e)
  | lookUp (name : String) {next : Option String → Dialogue ε α} :
      (∀ text, Silent (next text)) → Silent (lookUp name next)

namespace Silent

theorem bind {d : Dialogue ε α} {f : α → Dialogue ε β} (h : d.Silent) (next : ∀ a, (f a).Silent) :
    (d >>= f).Silent := by
  induction h with
  | done a => exact next a
  | failed e => exact .failed e
  | lookUp name _ ih => exact .lookUp name ih

theorem ite {p : Prop} [Decidable p] {d e : Dialogue ε α} (yes : p → d.Silent) (no : ¬ p → e.Silent) :
    (if p then d else e).Silent := by
  split
  · next h => exact yes h
  · next h => exact no h

/-! ## Leading it -/

theorem withAnswers {d : Dialogue ε α} (h : d.Silent) (vars : ProcessEnv) (answers : List String) :
    d.withAnswers vars answers = ⟨(d.withAnswers vars []).result, [], answers⟩ := by
  induction h with
  | done | failed => rfl
  | lookUp name _ ih => exact ih (vars name)

/-- If there is a result for some answers, it is that for all of them. -/
theorem ok_of_withAnswers {d : Dialogue ε α} (h : d.Silent) {vars : ProcessEnv}
    {answers left : List String} {a : α} {events : List Event}
    (led : d.withAnswers vars answers = ⟨.ok a, events, left⟩) :
    events = [] ∧ left = answers ∧ ∀ others, d.withAnswers vars others = ⟨.ok a, [], others⟩ := by
  rw [h.withAnswers] at led
  simp only [Outcome.mk.injEq] at led
  obtain ⟨result, rfl, rfl⟩ := led
  refine ⟨rfl, rfl, fun others => ?_⟩
  rw [h.withAnswers, result]

end Silent
end Slate.Dialogue
