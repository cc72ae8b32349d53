import Slate.Dialogue

/-!
# Dialogues that are deaf

A dialogue is *deaf* if it takes nothing in: it asks no question and looks up no variable of the process. It may
still say something. `Deaf P` says moreover that its result, if it has one, satisfies `P`.

* `Deaf.bind` — a deaf dialogue that goes on in deaf ones is deaf;
* `Deaf.exists_outcome` — it has one outcome, whatever the answers and the variables of the process are.
-/

namespace Slate.Dialogue

variable {ε α β : Type}

/-- Nothing is asked and nothing is looked up, and a result satisfies `P`. -/
inductive Deaf (P : α → Prop) : Dialogue ε α → Prop
  | done {a : α} : P a → Deaf P (done a)
  | failed (e : ε) : Deaf P (failed e)
  | say (line : String) {d : Dialogue ε α} : Deaf P d → Deaf P (say line d)

namespace Deaf

variable {P P' : α → Prop} {R : β → Prop}

theorem mono {d : Dialogue ε α} (h : d.Deaf P) (weaker : ∀ a, P a → P' a) : d.Deaf P' := by
  induction h with
  | done h => exact .done (weaker _ h)
  | failed e => exact .failed e
  | say line _ ih => exact .say line ih

theorem bind {d : Dialogue ε α} {f : α → Dialogue ε β} (h : d.Deaf P)
    (next : ∀ a, P a → (f a).Deaf R) : (d >>= f).Deaf R := by
  induction h with
  | done h => exact next _ h
  | failed e => exact .failed e
  | say line _ ih => exact .say line ih

theorem ite {p : Prop} [Decidable p] {d e : Dialogue ε α} (yes : p → d.Deaf P) (no : ¬ p → e.Deaf P) :
    (if p then d else e).Deaf P := by
  split
  · next h => exact yes h
  · next h => exact no h

/-- However it is led, it says the same lines, ends in the same way and leaves all the answers. -/
theorem exists_outcome {d : Dialogue ε α} (h : d.Deaf P) :
    ∃ (result : Except ε α) (lines : List String), (∀ a, result = .ok a → P a) ∧
      ∀ vars answers, d.withAnswers vars answers = ⟨result, lines.map Event.said, answers⟩ := by
  induction h with
  | done h =>
    refine ⟨_, [], ?_, fun _ _ => rfl⟩
    intro a same
    cases same
    exact h
  | failed e =>
    refine ⟨_, [], ?_, fun _ _ => rfl⟩
    intro a same
    cases same
  | say line _ ih =>
    obtain ⟨result, lines, holds, led⟩ := ih
    refine ⟨result, line :: lines, holds, fun vars answers => ?_⟩
    rw [withAnswers, led vars answers]
    rfl

end Deaf
end Slate.Dialogue
