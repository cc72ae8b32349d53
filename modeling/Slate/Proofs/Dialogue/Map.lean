import Slate.Proofs.Dialogue.MapError

/-!
# Other results

`g <$> d` changes the result of a dialogue and nothing else, as `mapError` does with its error. Whoever leads
the dialogue sees the same events and keeps the same answers (`withAnswers_map`).

* `bind_eq_map`, `bind_eq_map_of_same` — to change both ends of a dialogue that goes on in a second one, it is
  enough to change those of the second one, if that takes what the first one gives now.
-/

namespace Slate

variable {ε ε' α α' β β' : Type}

/-- The outcome with another result. -/
def Outcome.map (g : α → β) (o : Outcome ε α) : Outcome ε β :=
  ⟨o.result.map g, o.events, o.answers⟩

namespace Dialogue

theorem withAnswers_map (g : α → β) (d : Dialogue ε α) (vars : ProcessEnv) (answers : List String) :
    (g <$> d).withAnswers vars answers = (d.withAnswers vars answers).map g := by
  show (d >>= fun a => done (g a)).withAnswers vars answers = _
  rw [withAnswers_bind]
  rcases d.withAnswers vars answers with ⟨result, events, left⟩
  cases result with
  | error e => rfl
  | ok a =>
    show Outcome.mk _ (events ++ []) left = _
    rw [List.append_nil]
    rfl

variable {f : ε → ε'} {h : β → β'} {d : Dialogue ε α} {k : α → Dialogue ε β}

theorem bind_eq_map {g : α → α'} {d' : Dialogue ε' α'} {k' : α' → Dialogue ε' β'}
    (hd : d' = g <$> d.mapError f) (hk : ∀ a, k' (g a) = h <$> (k a).mapError f) :
    (d' >>= k') = h <$> (d >>= k).mapError f := by
  rw [hd, mapError_bind, bind_map_left, map_bind]
  exact congrArg _ (funext hk)

/-- As `bind_eq_map`, where the first result stays. -/
theorem bind_eq_map_of_same {d' : Dialogue ε' α} {k' : α → Dialogue ε' β'}
    (hd : d' = d.mapError f) (hk : ∀ a, k' a = h <$> (k a).mapError f) :
    (d' >>= k') = h <$> (d >>= k).mapError f := by
  rw [hd, mapError_bind, map_bind]
  exact congrArg _ (funext hk)

/-- The same choice on both sides. -/
theorem ite_eq_map {p : Prop} [Decidable p] {g : α → α'} {d e : Dialogue ε α} {d' e' : Dialogue ε' α'}
    (yes : d' = g <$> d.mapError f) (no : e' = g <$> e.mapError f) :
    (if p then d' else e') = g <$> (if p then d else e).mapError f := by
  split
  · exact yes
  · exact no

end Dialogue
end Slate
