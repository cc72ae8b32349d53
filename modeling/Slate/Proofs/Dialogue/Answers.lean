import Slate.Dialogue

/-!
# What becomes of the answers

A dialogue that is led with prepared answers writes into one text, notes its questions and takes answers off
the front of a list. The `Buffers` are all three, and `intoBuffers` fills them step by step.

* `intoBuffers_eq` — they hold in the end what an `Outcome` says that was written, asked and left;
* `answers_withAnswers` — each question takes the first answer that is left, and nothing else takes one;
* `withAnswers_append` — where no answer is missing, further ones at the back are left and change nothing;
* `Honest` — a dialogue that ends for want of an answer exactly where an answer is missing
  (`Honest.missing_iff`).
-/

namespace Slate

variable {ε α β : Type}

/-! ## Events in front of an outcome -/

namespace Outcome

@[simp] theorem output_after (e : Event) (o : Outcome ε α) : (o.after e).output = e.text ++ o.output := by
  show String.join (e.text :: o.events.map Event.text) = _
  rw [String.join_cons, output]

@[simp] theorem prompts_after_said (line : String) (o : Outcome ε α) :
    (o.after (.said line)).prompts = o.prompts := rfl

@[simp] theorem prompts_after_asked (prompt : String) (o : Outcome ε α) :
    (o.after (.asked prompt)).prompts = prompt :: o.prompts := rfl

end Outcome

/-! ## Buffers -/

/-- A text that is written to, the questions that were asked, and the answers that are left. -/
structure Buffers where
  text : String
  prompts : List String
  answers : List String

namespace Buffers

/-- Writes behind the text. -/
def write (b : Buffers) (s : String) : Buffers := { b with text := b.text ++ s }

/-- Notes a question and takes the first answer, if there is one. -/
def take (b : Buffers) (prompt : String) : Option String × Buffers :=
  (b.answers.head?, { b with prompts := b.prompts ++ [prompt], answers := b.answers.tail })

end Buffers

namespace Dialogue

/-- Leads a dialogue that writes into buffers and takes its answers from them. -/
def intoBuffers (vars : ProcessEnv) : Dialogue ε α → Buffers → Except ε α × Buffers
  | done a, b => (.ok a, b)
  | failed e, b => (.error e, b)
  | say line next, b => next.intoBuffers vars (b.write (line ++ "\n"))
  | ask prompt unanswered next, b =>
    match (b.write prompt).take prompt with
    | (none, b) => (.error unanswered, b)
    | (some answer, b) => (next answer).intoBuffers vars b
  | lookUp name next, b => (next (vars name)).intoBuffers vars b

/-- The buffers hold the texts of all events behind one another, and all questions, in the order in which they
came. -/
theorem intoBuffers_eq (vars : ProcessEnv) (d : Dialogue ε α) (b : Buffers) :
    d.intoBuffers vars b =
      ((d.withAnswers vars b.answers).result,
        ⟨b.text ++ (d.withAnswers vars b.answers).output,
          b.prompts ++ (d.withAnswers vars b.answers).prompts,
          (d.withAnswers vars b.answers).answers⟩) := by
  obtain ⟨text, prompts, answers⟩ := b
  induction d generalizing text prompts answers with
  | done a | failed e =>
    simp only [intoBuffers, withAnswers, Outcome.output, Outcome.prompts, List.map_nil, List.filterMap_nil,
      String.join_nil, String.append_empty, List.append_nil]
  | say line next ih =>
    have joined (rest : String) :
        text ++ (line ++ "\n") ++ rest = text ++ ((Event.said line).text ++ rest) := String.append_assoc
    show next.intoBuffers vars ⟨text ++ (line ++ "\n"), prompts, answers⟩ = _
    rw [ih, withAnswers, Outcome.output_after, Outcome.prompts_after_said, joined]
    rfl
  | ask prompt unanswered next ih =>
    cases answers with
    | nil =>
      show (Except.error unanswered, Buffers.mk (text ++ prompt) _ []) =
        (Except.error unanswered, Buffers.mk (text ++ String.join [prompt]) _ [])
      rw [String.join_cons, String.join_nil, String.append_empty]
      rfl
    | cons answer answers =>
      show (next answer).intoBuffers vars ⟨text ++ prompt, prompts ++ [prompt], answers⟩ = _
      rw [ih, withAnswers, Outcome.output_after, Outcome.prompts_after_asked, ← String.append_assoc,
        List.append_assoc]
      rfl
  | lookUp name next ih => rw [intoBuffers, ih, withAnswers]

/-! ## Answers that are left -/

/-- Each question takes one answer, the first that is left. -/
theorem answers_withAnswers (vars : ProcessEnv) (d : Dialogue ε α) (answers : List String) :
    (d.withAnswers vars answers).answers =
      answers.drop (d.withAnswers vars answers).prompts.length := by
  induction d generalizing answers with
  | done a | failed e => rfl
  | say line next ih => exact ih answers
  | ask prompt unanswered next ih =>
    cases answers with
    | nil => rfl
    | cons answer answers => exact ih answer answers
  | lookUp name next ih => exact ih (vars name) answers

/-- At most one question goes without an answer, as a dialogue ends there. -/
theorem length_prompts_le (vars : ProcessEnv) (d : Dialogue ε α) (answers : List String) :
    (d.withAnswers vars answers).prompts.length ≤ answers.length + 1 := by
  induction d generalizing answers with
  | done a | failed e => exact Nat.zero_le _
  | say line next ih => exact ih answers
  | ask prompt unanswered next ih =>
    cases answers with
    | nil => exact Nat.le_refl 1
    | cons answer answers => exact Nat.succ_le_succ (ih answer answers)
  | lookUp name next ih => exact ih (vars name) answers

/-- Where each question has its answer, further answers are left at the end. -/
theorem withAnswers_append {vars : ProcessEnv} {d : Dialogue ε α} {answers : List String}
    (enough : (d.withAnswers vars answers).prompts.length ≤ answers.length) (more : List String) :
    d.withAnswers vars (answers ++ more) =
      ⟨(d.withAnswers vars answers).result, (d.withAnswers vars answers).events,
        (d.withAnswers vars answers).answers ++ more⟩ := by
  induction d generalizing answers with
  | done a | failed e => rfl
  | say line next ih =>
    rw [withAnswers, withAnswers, ih enough]
    rfl
  | ask prompt unanswered next ih =>
    cases answers with
    | nil =>
      -- the question has no answer
      have short : [prompt].length ≤ 0 := enough
      cases short
    | cons answer answers =>
      rw [List.cons_append, withAnswers, withAnswers, ih answer (Nat.le_of_succ_le_succ enough)]
      rfl
  | lookUp name next ih =>
    rw [withAnswers] at enough ⊢
    exact ih (vars name) enough

/-! ## Answers that are missing -/

/-- The dialogue says that an answer is missing where it asks for one, and nowhere else. -/
inductive Honest (Missing : ε → Prop) : Dialogue ε α → Prop
  | done (a : α) : Honest Missing (done a)
  | failed {e : ε} : ¬ Missing e → Honest Missing (failed e)
  | say (line : String) {d : Dialogue ε α} : Honest Missing d → Honest Missing (say line d)
  | ask (prompt : String) {unanswered : ε} {next : String → Dialogue ε α} : Missing unanswered →
      (∀ answer, Honest Missing (next answer)) → Honest Missing (ask prompt unanswered next)
  | lookUp (name : String) {next : Option String → Dialogue ε α} :
      (∀ text, Honest Missing (next text)) → Honest Missing (lookUp name next)

namespace Honest

variable {Missing : ε → Prop}

theorem bind {d : Dialogue ε α} {f : α → Dialogue ε β} (h : d.Honest Missing)
    (next : ∀ a, (f a).Honest Missing) : (d >>= f).Honest Missing := by
  induction h with
  | done a => exact next a
  | failed h => exact .failed h
  | say line _ ih => exact .say line ih
  | ask prompt h _ ih => exact .ask prompt h ih
  | lookUp name _ ih => exact .lookUp name ih

theorem ite {p : Prop} [Decidable p] {d e : Dialogue ε α} (yes : d.Honest Missing)
    (no : e.Honest Missing) : (if p then d else e).Honest Missing := by
  split
  · exact yes
  · exact no

/-- The dialogue ends for want of an answer exactly if it asked one question too many. -/
theorem missing_iff {d : Dialogue ε α} (h : d.Honest Missing) (vars : ProcessEnv)
    (answers : List String) :
    (∃ e, Missing e ∧ (d.withAnswers vars answers).result = .error e) ↔
      (d.withAnswers vars answers).prompts.length = answers.length + 1 := by
  induction h generalizing answers with
  | done a =>
    constructor
    · rintro ⟨e, -, ended⟩
      cases ended
    · intro tooMany
      cases tooMany
  | failed present =>
    constructor
    · rintro ⟨e, missing, ended⟩
      cases ended
      exact absurd missing present
    · intro tooMany
      cases tooMany
  | say line _ ih => exact ih answers
  | ask prompt missing _ ih =>
    cases answers with
    | nil => exact ⟨fun _ => rfl, fun _ => ⟨_, missing, rfl⟩⟩
    | cons answer answers => exact (ih answer answers).trans Nat.succ_inj.symm
  | lookUp name _ ih => exact ih (vars name) answers

end Honest
end Dialogue
end Slate
