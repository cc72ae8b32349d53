import Slate.Dialogue

/-!
# Dialogues that are stopped early

Some errors stop a dialogue that could have gone on. `d.ExtendsTo Stop d'` says that `d'` is `d`, except
that where `d` ends with an error that stops it, `d'` may go on in any way.

* `ExtendsTo.bind` — what follows on `d'` may extend what follows on `d`;
* `ExtendsTo.withAnswers` — led with the same answers, both have the same outcome, unless `d` is stopped.
-/

namespace Slate.Dialogue

variable {ε α β : Type}

/-- The same dialogue, but where the first one is stopped. -/
inductive ExtendsTo (Stop : ε → Prop) : Dialogue ε α → Dialogue ε α → Prop
  | stopped {e : ε} (h : Stop e) (d : Dialogue ε α) : ExtendsTo Stop (failed e) d
  | done (a : α) : ExtendsTo Stop (done a) (done a)
  | failed (e : ε) : ExtendsTo Stop (failed e) (failed e)
  | say (line : String) {d d' : Dialogue ε α} :
      ExtendsTo Stop d d' → ExtendsTo Stop (say line d) (say line d')
  | ask (prompt : String) (unanswered : ε) {next next' : String → Dialogue ε α} :
      (∀ answer, ExtendsTo Stop (next answer) (next' answer)) →
      ExtendsTo Stop (ask prompt unanswered next) (ask prompt unanswered next')
  | lookUp (name : String) {next next' : Option String → Dialogue ε α} :
      (∀ text, ExtendsTo Stop (next text) (next' text)) →
      ExtendsTo Stop (lookUp name next) (lookUp name next')

namespace ExtendsTo

variable {Stop : ε → Prop}

theorem refl (d : Dialogue ε α) : d.ExtendsTo Stop d := by
  induction d with
  | done a => exact .done a
  | failed e => exact .failed e
  | say line d ih => exact .say line ih
  | ask prompt unanswered next ih => exact .ask prompt unanswered ih
  | lookUp name next ih => exact .lookUp name ih

theorem bind {d d' : Dialogue ε α} {f g : α → Dialogue ε β} (h : d.ExtendsTo Stop d')
    (next : ∀ a, (f a).ExtendsTo Stop (g a)) : (d >>= f).ExtendsTo Stop (d' >>= g) := by
  induction h with
  | stopped h d => exact .stopped h _
  | done a => exact next a
  | failed e => exact .failed e
  | say line _ ih => exact .say line ih
  | ask prompt unanswered _ ih => exact .ask prompt unanswered ih
  | lookUp name _ ih => exact .lookUp name ih

/-- The same choice on both sides. -/
theorem ite {p : Prop} [Decidable p] {d d' e e' : Dialogue ε α} (yes : d.ExtendsTo Stop d')
    (no : e.ExtendsTo Stop e') :
    (if p then d else e).ExtendsTo Stop (if p then d' else e') := by
  by_cases h : p
  · simpa [h] using yes
  · simpa [h] using no

/-! ## Leading both -/

theorem withAnswers {d d' : Dialogue ε α} (h : d.ExtendsTo Stop d') (vars : ProcessEnv)
    (answers : List String) :
    (∃ e, Stop e ∧ (d.withAnswers vars answers).result = .error e) ∨
      d'.withAnswers vars answers = d.withAnswers vars answers := by
  induction h generalizing answers with
  | stopped h d => exact .inl ⟨_, h, rfl⟩
  | done | failed => exact .inr rfl
  | say line _ ih =>
    -- a line that is said stands in front of either outcome
    exact (ih answers).imp_right fun same => congrArg (Outcome.after (.said line)) same
  | ask prompt unanswered _ ih =>
    cases answers with
    | nil => exact .inr rfl
    | cons answer answers =>
      exact (ih answer answers).imp_right fun same => congrArg (Outcome.after (.asked prompt)) same
  | lookUp name _ ih => exact ih (vars name) answers

end ExtendsTo
end Slate.Dialogue
