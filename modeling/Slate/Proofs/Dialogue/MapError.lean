import Slate.Dialogue

/-!
# Other errors

`Dialogue.mapError` changes the errors of a dialogue and nothing else: it passes over `>>=`
(`mapError_bind`), and whoever leads the dialogue sees another error at the end, and no other event
(`withAnswers_mapError`).
-/

namespace Slate

variable {ε ε' ε'' α β : Type}

/-- The outcome with another error. -/
def Outcome.mapError (f : ε → ε') (o : Outcome ε α) : Outcome ε' α :=
  ⟨o.result.mapError f, o.events, o.answers⟩

theorem Outcome.mapError_mapError (f : ε → ε') (g : ε' → ε'') (o : Outcome ε α) :
    (o.mapError f).mapError g = o.mapError (g ∘ f) := by
  obtain ⟨result, events, left⟩ := o
  cases result <;> rfl

namespace Dialogue

theorem mapError_bind (f : ε → ε') (d : Dialogue ε α) (g : α → Dialogue ε β) :
    (d >>= g).mapError f = d.mapError f >>= fun a => (g a).mapError f := by
  induction d with
  | done | failed => rfl
  | say line d ih => rw [say_bind, mapError, mapError, say_bind, ih]
  | ask prompt unanswered next ih =>
    rw [ask_bind, mapError, mapError, ask_bind]
    exact congrArg _ (funext ih)
  | lookUp name next ih =>
    rw [lookUp_bind, mapError, mapError, lookUp_bind]
    exact congrArg _ (funext ih)

/-- As `mapError_bind`, where the first dialogue and what follows are known already. -/
theorem bind_eq_mapError {f : ε → ε'} {d : Dialogue ε α} {d' : Dialogue ε' α} {g : α → Dialogue ε β}
    {g' : α → Dialogue ε' β} (hd : d' = d.mapError f) (hg : ∀ a, g' a = (g a).mapError f) :
    (d' >>= g') = (d >>= g).mapError f := by
  rw [mapError_bind, hd, funext hg]

theorem ite_eq_mapError {f : ε → ε'} {p : Prop} [Decidable p] {d e : Dialogue ε α}
    {d' e' : Dialogue ε' α} (yes : d' = d.mapError f) (no : e' = e.mapError f) :
    (if p then d' else e') = (if p then d else e).mapError f := by
  split
  · exact yes
  · exact no

theorem withAnswers_mapError (f : ε → ε') (d : Dialogue ε α) (vars : ProcessEnv)
    (answers : List String) :
    (d.mapError f).withAnswers vars answers = (d.withAnswers vars answers).mapError f := by
  induction d generalizing answers with
  | done | failed => rfl
  | say line d ih => rw [mapError, withAnswers, withAnswers, ih]; rfl
  | ask prompt unanswered next ih =>
    cases answers with
    | nil => rfl
    | cons answer answers => rw [mapError, withAnswers, withAnswers, ih]; rfl
  | lookUp name next ih => rw [mapError, withAnswers, withAnswers, ih]

end Dialogue
end Slate
