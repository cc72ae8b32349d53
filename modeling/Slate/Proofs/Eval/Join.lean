import Mathlib
import Slate.Proofs.Eval.Relocate
import Slate.Proofs.Grammar.StmtParser
import Slate.Proofs.Parser.StmtRelocate
import Slate.Proofs.Token.Join

/-!
# To run two texts one after the other is to run them as one

Each stage takes the two texts to one behind the other: the reader (`tokenize_join`), the parser
(`program_append`) and the run (`execAll_append`). That the second text stands some lines lower in the whole
is seen by none of them (`program_relocate`, `Program.run_relocate`), but for the place of its error.
-/

namespace Slate

open Slate.Parser

/-! ## Programs one behind the other -/

namespace Grammar.Phrase

/-- The statements of one body, and behind them those of another. -/
def append : Phrase .body → Phrase .body → Phrase .body
  | done, q => q
  | more first rest, q => more first (rest.append q)

theorem tokens_append : ∀ p q : Phrase .body, (p.append q).tokens = p.tokens ++ q.tokens
  | done, q => by rw [append, tokens, List.nil_append]
  | more first rest, q => by
    rw [append, tokens, tokens, tokens_append rest q, List.append_assoc]

theorem result_append : ∀ p q : Phrase .body, (p.append q).result = p.result ++ q.result
  | done, q => by
    rw [append, result]
    rfl
  | more first rest, q => by
    rw [append, result, result, result_append rest q]
    rfl

end Grammar.Phrase

open Slate.Grammar in
/-- The tokens of two programs, one behind the other, are the tokens of their statements. -/
theorem program_append {ts us : List Token} {p q : Program} (hp : program ts = .ok p)
    (hq : program us = .ok q) : program (ts ++ us) = .ok ⟨p.statements ++ q.statements⟩ := by
  obtain ⟨b, rfl, hb⟩ := exists_phrase hp
  obtain ⟨c, rfl, hc⟩ := exists_phrase hq
  rw [← hb, ← hc, ← b.tokens_append c, ← b.result_append c]
  exact program_tokens (b.append c)

/-! ## Runs one behind the other -/

theorem execAll_append (v : Version) (env : Env) (ss ts : List Stmt) :
    execAll v env (ss ++ ts) = execAll v env ss >>= fun env' => execAll v env' ts := by
  induction ss generalizing env with
  | nil =>
    rw [List.nil_append, execAll]
    rfl
  | cons s ss ih =>
    rw [List.cons_append, execAll, execAll, Dialogue.bind_assoc]
    exact congrArg _ (funext ih)

/-- A text, a line feed and another text are the text of both programs, the second one so many lines lower.
To run them is to run the first program and, if that comes to an end, the second one from the environment and
with the answers that it leaves. Only the error of the second program stands lower than in its own text. -/
theorem run_join {s t : String} {ts us : List Token} {p q : Program} (hs : tokenize s = .ok ts)
    (hp : program ts = .ok p) (ht : tokenize t = .ok us) (hq : program us = .ok q) :
    ∃ ws r, tokenize (s ++ "\n" ++ t) = .ok ws ∧ program ws = .ok r ∧
      r.statements =
        p.statements ++ (q.relocate (Span.down (1 + s.toList.count '\n'))).statements ∧
      ∀ (v : Version) (env : Env) (vars : ProcessEnv) (answers : List String),
        (r.run v env).withAnswers vars answers =
          ((p.run v env).withAnswers vars answers).andThen fun env' left =>
            ((q.run v env').withAnswers vars left).mapError
              (EvalError.relocate (Span.down (1 + s.toList.count '\n'))) := by
  have lower := program_relocate (Span.coherent_down (1 + s.toList.count '\n')) us
  rw [hq] at lower
  refine ⟨_, _, tokenize_join hs ht, program_append hp lower, rfl, ?_⟩
  intro v env vars answers
  rw [Program.run, execAll_append, Dialogue.withAnswers_bind]
  refine congrArg _ (funext fun env' => funext fun left => ?_)
  rw [← Dialogue.withAnswers_mapError]
  exact congrArg (Dialogue.withAnswers vars · left) (q.run_relocate _ v env')

/-- The tokens of `if (b) {x = 1;} // last`, the braces being those of a block. -/
def commentedConditional : List Token :=
  [⟨⟨.ifKeyword, "if"⟩, ⟨1, 1, 3⟩⟩, ⟨⟨.openParen, "("⟩, ⟨1, 4, 5⟩⟩, ⟨⟨.identifier, "b"⟩, ⟨1, 5, 6⟩⟩,
   ⟨⟨.closeParen, ")"⟩, ⟨1, 6, 7⟩⟩, ⟨⟨.openBrace, "\x7b"⟩, ⟨1, 8, 9⟩⟩, ⟨⟨.identifier, "x"⟩, ⟨1, 9, 10⟩⟩,
   ⟨⟨.assign, "="⟩, ⟨1, 11, 12⟩⟩, ⟨⟨.number, "1"⟩, ⟨1, 13, 14⟩⟩, ⟨⟨.semicolon, ";"⟩, ⟨1, 14, 15⟩⟩,
   ⟨⟨.closeBrace, "\x7d"⟩, ⟨1, 15, 16⟩⟩]

/-- The tokens of `x / 0;`. -/
def quotientByNought : List Token :=
  [⟨⟨.identifier, "x"⟩, ⟨1, 1, 2⟩⟩, ⟨⟨.divide, "/"⟩, ⟨1, 3, 4⟩⟩, ⟨⟨.number, "0"⟩, ⟨1, 5, 6⟩⟩,
   ⟨⟨.semicolon, ";"⟩, ⟨1, 6, 7⟩⟩]

/-- A conditional and a comment at the end of the first text, and an error in the second one. -/
theorem run_join_conditional :
    ∃ p q, tokenize "if (b) \x7bx = 1;\x7d // last" = .ok commentedConditional ∧
      program commentedConditional = .ok p ∧ tokenize "x / 0;" = .ok quotientByNought ∧
      program quotientByNought = .ok q ∧
      ∃ ws r, tokenize ("if (b) \x7bx = 1;\x7d // last" ++ "\n" ++ "x / 0;") = .ok ws ∧
        program ws = .ok r ∧
        r.statements = p.statements ++ (q.relocate (Span.down
          (1 + "if (b) \x7bx = 1;\x7d // last".toList.count '\n'))).statements ∧
        ∀ (v : Version) (env : Env) (vars : ProcessEnv) (answers : List String),
          (r.run v env).withAnswers vars answers =
            ((p.run v env).withAnswers vars answers).andThen fun env' left =>
              ((q.run v env').withAnswers vars left).mapError (EvalError.relocate (Span.down
                (1 + "if (b) \x7bx = 1;\x7d // last".toList.count '\n'))) := by
  have first : (tokenize "if (b) \x7bx = 1;\x7d // last").toOption = some commentedConditional := by
    decide +kernel
  have second : (tokenize "x / 0;").toOption = some quotientByNought := by decide +kernel
  have readFirst : ∃ p, program commentedConditional = .ok p := ⟨_, by cbv⟩
  have readSecond : ∃ q, program quotientByNought = .ok q := ⟨_, by cbv⟩
  obtain ⟨p, hp⟩ := readFirst
  obtain ⟨q, hq⟩ := readSecond
  have hs := toOption_eq_some.1 first
  have ht := toOption_eq_some.1 second
  exact ⟨p, q, hs, hp, ht, hq, run_join hs hp ht hq⟩

end Slate
