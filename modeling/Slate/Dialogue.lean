/-!
# Dialogues

How a run deals with the outside world: it *says* lines, *asks* for answers and *looks up* variables
of the process, and it ends with a result or an error. A `Dialogue` is all of that as a value, for
everything that might come back. It is led in one of three ways:

    Dialogue.withAnswers   a list of answers prepared beforehand      (pure)
    Dialogue.onConsole     the lines of a text on standard input      (pure)
    a console              the lines that a user types                (the executable)

An `Outcome` is the result, the events in order and the answers that are left. What was written and
what was asked are read off the events.

* `Dialogue` is a lawful monad (`bind_assoc`);
* `withAnswers_bind`: a dialogue that goes on in a second one leaves it the answers that are left.
-/

namespace Slate

/-- A run with errors in `ε` and results in `α`. -/
inductive Dialogue (ε α : Type) where
  | done (result : α)
  | failed (error : ε)
  /-- Writes a line. -/
  | say (line : String) (next : Dialogue ε α)
  /-- Writes a question and goes on with the answer. `unanswered` is the error if there is none. -/
  | ask (prompt : String) (unanswered : ε) (next : String → Dialogue ε α)
  /-- Goes on with the text of a variable of the process, if there is such a variable. -/
  | lookUp (name : String) (next : Option String → Dialogue ε α)

/-- The variables of a process. -/
abbrev ProcessEnv := String → Option String

/-- What a run wrote. -/
inductive Event where
  | said (line : String)
  | asked (prompt : String)
  deriving DecidableEq

namespace Event

/-- The text that an event writes. Only a line that is said ends with a line feed. -/
def text : Event → String
  | said line => line ++ "\n"
  | asked prompt => prompt

/-- The question that an event is. -/
def prompt? : Event → Option String
  | said _ => none
  | asked prompt => some prompt

end Event

/-- How a run ended, what it wrote, and the answers that it did not need. -/
structure Outcome (ε α : Type) where
  result : Except ε α
  events : List Event
  answers : List String

namespace Outcome

variable {ε α : Type}

/-- All that was written. -/
def output (o : Outcome ε α) : String := String.join (o.events.map Event.text)

/-- All that was asked. -/
def prompts (o : Outcome ε α) : List String := o.events.filterMap Event.prompt?

/-- The outcome with an event in front. -/
def after (e : Event) (o : Outcome ε α) : Outcome ε α := { o with events := e :: o.events }

/-- What follows from an outcome: its error, or the outcome of a second dialogue that starts from its
result with the answers that are left. -/
def andThen {β : Type} (o : Outcome ε α) (f : α → List String → Outcome ε β) :
    Outcome ε β :=
  match o.result with
  | .error e => ⟨.error e, o.events, o.answers⟩
  | .ok a =>
    let next := f a o.answers
    ⟨next.result, o.events ++ next.events, next.answers⟩

end Outcome

namespace Dialogue

variable {ε ε' α β γ : Type}

/-- Goes on with the result. -/
protected def bind : Dialogue ε α → (α → Dialogue ε β) → Dialogue ε β
  | done a, f => f a
  | failed e, _ => failed e
  | say line next, f => say line (next.bind f)
  | ask prompt unanswered next, f => ask prompt unanswered fun answer => (next answer).bind f
  | lookUp name next, f => lookUp name fun text => (next text).bind f

instance : Monad (Dialogue ε) where
  pure := done
  bind := Dialogue.bind

/-- Changes the errors. -/
def mapError (f : ε → ε') : Dialogue ε α → Dialogue ε' α
  | done a => done a
  | failed e => failed (f e)
  | say line next => say line (next.mapError f)
  | ask prompt unanswered next => ask prompt (f unanswered) fun answer => (next answer).mapError f
  | lookUp name next => lookUp name fun text => (next text).mapError f

/-- A result or an error, without a word. -/
def ofExcept : Except ε α → Dialogue ε α
  | .ok a => done a
  | .error e => failed e

/-- Writes lines. -/
def sayAll : List String → Dialogue ε Unit
  | [] => done ()
  | line :: lines => say line (sayAll lines)

/-- Asks and gives back the answer. -/
def question (prompt : String) (unanswered : ε) : Dialogue ε String := ask prompt unanswered done

/-- The text of a variable of the process. -/
def processVariable (name : String) : Dialogue ε (Option String) := lookUp name done

/-! ### Laws -/

@[simp] theorem pure_eq (a : α) : (pure a : Dialogue ε α) = done a := rfl

@[simp] theorem done_bind (a : α) (f : α → Dialogue ε β) : (done a >>= f) = f a := rfl

@[simp] theorem failed_bind (e : ε) (f : α → Dialogue ε β) : (failed e >>= f) = failed e := rfl

@[simp] theorem say_bind (line : String) (d : Dialogue ε α) (f : α → Dialogue ε β) :
    (say line d >>= f) = say line (d >>= f) := rfl

@[simp] theorem ask_bind (prompt : String) (e : ε) (next : String → Dialogue ε α)
    (f : α → Dialogue ε β) : (ask prompt e next >>= f) = ask prompt e fun a => next a >>= f := rfl

@[simp] theorem lookUp_bind (name : String) (next : Option String → Dialogue ε α)
    (f : α → Dialogue ε β) : (lookUp name next >>= f) = lookUp name fun t => next t >>= f := rfl

theorem bind_done (d : Dialogue ε α) : (d >>= done) = d := by
  induction d with
  | done | failed => rfl
  | say line next ih => rw [say_bind, ih]
  | ask prompt e next ih => rw [ask_bind]; exact congrArg _ (funext ih)
  | lookUp name next ih => rw [lookUp_bind]; exact congrArg _ (funext ih)

theorem bind_assoc (d : Dialogue ε α) (f : α → Dialogue ε β) (g : β → Dialogue ε γ) :
    (d >>= f >>= g) = d >>= fun a => f a >>= g := by
  induction d with
  | done | failed => rfl
  | say line next ih => rw [say_bind, say_bind, say_bind, ih]
  | ask prompt e next ih => rw [ask_bind, ask_bind, ask_bind]; exact congrArg _ (funext ih)
  | lookUp name next ih =>
    rw [lookUp_bind, lookUp_bind, lookUp_bind]; exact congrArg _ (funext ih)

instance : LawfulMonad (Dialogue ε) :=
  LawfulMonad.mk' _ bind_done (fun _ _ => rfl) bind_assoc

/-! ### Answers prepared beforehand -/

/-- Leads a dialogue with prepared answers, the first one first. -/
def withAnswers (vars : ProcessEnv) : Dialogue ε α → List String → Outcome ε α
  | done a, answers => ⟨.ok a, [], answers⟩
  | failed e, answers => ⟨.error e, [], answers⟩
  | say line next, answers => (next.withAnswers vars answers).after (.said line)
  | ask prompt unanswered _, [] => ⟨.error unanswered, [.asked prompt], []⟩
  | ask prompt _ next, a :: answers => ((next a).withAnswers vars answers).after (.asked prompt)
  | lookUp name next, answers => (next (vars name)).withAnswers vars answers

theorem withAnswers_bind (vars : ProcessEnv) (d : Dialogue ε α) (f : α → Dialogue ε β)
    (answers : List String) :
    (d >>= f).withAnswers vars answers =
      (d.withAnswers vars answers).andThen fun a left => (f a).withAnswers vars left := by
  induction d generalizing answers with
  | done | failed => rfl
  | say line next ih =>
    rw [say_bind, withAnswers, withAnswers, ih]
    cases h : next.withAnswers vars answers with
    | mk result events left => cases result <;> rfl
  | ask prompt e next ih =>
    rw [ask_bind]
    cases answers with
    | nil => rfl
    | cons a answers =>
      rw [withAnswers, withAnswers, ih]
      cases h : (next a).withAnswers vars answers with
      | mk result events left => cases result <;> rfl
  | lookUp name next ih => rw [lookUp_bind, withAnswers, withAnswers, ih]

/-! ### The lines of a text -/

/-- The first line of a text, up to and with its line feed, and what follows. -/
def firstLine : List Char → List Char × List Char
  | [] => ([], [])
  | c :: cs =>
    if c = '\n' then ([c], cs)
    else
      let more := firstLine cs
      (c :: more.1, more.2)

/-- A line without the line feeds and carriage returns at its end. -/
def chomp (line : List Char) : String :=
  String.ofList (line.reverse.dropWhile fun c => c = '\n' || c = '\r').reverse

/-- Leads a dialogue whose answers are the lines of a text: what it writes, and how it ends. At the
end of the text there are no more answers. -/
def onConsole (vars : ProcessEnv) : Dialogue ε α → List Char → String × Except ε α
  | done a, _ => ("", .ok a)
  | failed e, _ => ("", .error e)
  | say line next, input =>
    let rest := next.onConsole vars input
    ((Event.said line).text ++ rest.1, rest.2)
  | ask prompt unanswered next, input =>
    if input = [] then ((Event.asked prompt).text, .error unanswered)
    else
      let line := firstLine input
      let rest := (next (chomp line.1)).onConsole vars line.2
      ((Event.asked prompt).text ++ rest.1, rest.2)
  | lookUp name next, input => (next (vars name)).onConsole vars input

end Dialogue
end Slate
