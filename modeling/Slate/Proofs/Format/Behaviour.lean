import Slate.Proofs.Analysis.Relocate
import Slate.Proofs.Eval.Relocate
import Slate.Proofs.Format.Parser

/-!
# To format a program does not change what it does

What is written for a program is read as the same program at other places, and neither a run nor an analysis
sees places. So whoever runs the formatted text cannot tell it from the text it was made of, but for the
place of an error.
-/

namespace Slate.Grammar

open Slate.Parser

/-- What is written for a program of some text are the tokens of a body, with the same statements at other
places. -/
theorem exists_body_of_format (style : Style) {source : String} {ts : List Token} {p : Program}
    (hts : tokenize source = .ok ts) (hp : program ts = .ok p) :
    ∃ b : Phrase .body, tokenize (format style p) = .ok b.tokens ∧ SameStmts p.statements b.result := by
  have writable := writable_of_program (isLexed_of_tokenize hts) hp
  obtain ⟨ts', hts', lexemes⟩ := tokenize_format writable style
  obtain ⟨b, rfl, same⟩ := exists_body_of_lexemes
    (fun s hs => exists_phrase_of_writable (writable s hs)) ⟨isLexed_of_tokenize hts', lexemes⟩
  exact ⟨b, hts', same⟩

/-- The formatted text of a program is the text of a program that does the same. In every version, from every
environment and whatever the process and the answers are, it has the same events (the output and the
prompts), leaves the same answers, and ends in the same environment or with the same fault. And it breaks
the same rules of every style, in the same order and with the same messages. -/
theorem format_preserves_behaviour (style : Style) {source : String} {ts : List Token} {p : Program}
    (hts : tokenize source = .ok ts) (hp : program ts = .ok p) :
    ∃ ts' p', tokenize (format style p) = .ok ts' ∧ program ts' = .ok p' ∧
      (∀ (v : Version) (env : Env) (vars : ProcessEnv) (answers : List String),
        ((p'.run v env).withAnswers vars answers).mapError EvalError.fault =
          ((p.run v env).withAnswers vars answers).mapError EvalError.fault) ∧
      ∀ (rules : Style) (v : Version),
        ((analyze rules v p').map fun d => (d.rule, d.message)) =
          (analyze rules v p).map fun d => (d.rule, d.message) := by
  obtain ⟨b, hts', same⟩ := exists_body_of_format style hts hp
  have erase : Program.erase ⟨b.result⟩ = p.erase := by
    rw [Program.erase, Program.erase, same.1]
  refine ⟨_, ⟨b.result⟩, hts', program_tokens b, ?_, ?_⟩
  · intro v env vars answers
    exact run_alike_of_erase_eq v env erase vars answers
  · intro rules v
    -- the rule and the message of a diagnostic are those of its finding
    have findings := congrArg (List.map fun finding : Finding => (finding.rule, finding.message))
      (findings_eq_of_erase_eq rules v erase)
    rw [List.map_map, List.map_map] at findings
    exact findings

/-- The tokens of `println(1-(2-"a"));`. -/
def mixedDifference : List Token :=
  [⟨⟨.identifier, "println"⟩, ⟨1, 1, 8⟩⟩, ⟨⟨.openParen, "("⟩, ⟨1, 8, 9⟩⟩, ⟨⟨.number, "1"⟩, ⟨1, 9, 10⟩⟩,
   ⟨⟨.minus, "-"⟩, ⟨1, 10, 11⟩⟩, ⟨⟨.openParen, "("⟩, ⟨1, 11, 12⟩⟩, ⟨⟨.number, "2"⟩, ⟨1, 12, 13⟩⟩,
   ⟨⟨.minus, "-"⟩, ⟨1, 13, 14⟩⟩, ⟨⟨.string, "a"⟩, ⟨1, 14, 17⟩⟩, ⟨⟨.closeParen, ")"⟩, ⟨1, 17, 18⟩⟩,
   ⟨⟨.closeParen, ")"⟩, ⟨1, 18, 19⟩⟩, ⟨⟨.semicolon, ";"⟩, ⟨1, 19, 20⟩⟩]

/-- A run that fails further to the right once the text is formatted, in an argument that breaks a rule. -/
theorem format_preserves_behaviour_mixedDifference :
    ∃ p, tokenize "println(1-(2-\"a\"));" = .ok mixedDifference ∧ program mixedDifference = .ok p ∧
      ∃ ts' p', tokenize (format default p) = .ok ts' ∧ program ts' = .ok p' ∧
        (∀ (v : Version) (env : Env) (vars : ProcessEnv) (answers : List String),
          ((p'.run v env).withAnswers vars answers).mapError EvalError.fault =
            ((p.run v env).withAnswers vars answers).mapError EvalError.fault) ∧
        ∀ (rules : Style) (v : Version),
          ((analyze rules v p').map fun d => (d.rule, d.message)) =
            (analyze rules v p).map fun d => (d.rule, d.message) := by
  have tokens_ : (tokenize "println(1-(2-\"a\"));").toOption = some mixedDifference := by
    decide +kernel
  have read : ∃ p, program mixedDifference = .ok p := ⟨_, by cbv⟩
  obtain ⟨p, hp⟩ := read
  have hts := toOption_eq_some.1 tokens_
  exact ⟨p, hts, hp, format_preserves_behaviour default hts hp⟩

end Slate.Grammar
