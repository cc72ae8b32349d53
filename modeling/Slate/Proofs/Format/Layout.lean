import Mathlib
import Slate.Proofs.Format.Behaviour
import Slate.Proofs.Format.Same
import Slate.Proofs.Grammar.Layout
import Slate.Proofs.Parser.StmtRelocate

/-!
# The layout of a text does not matter

The lexemes of a text say all of it that counts. Blanks, comments, the lines that a text is broken into and the
kind of its quotes change the places of the tokens, and of those nothing depends but the places of errors:

* `layout_irrelevant` — texts with the same lexemes are the same program, or fail for the same reason;
* `format_forgets` — a style leaves nothing in a text that another style does not undo.
-/

namespace Slate

open Slate.Parser

/-! ## Failures -/

/-- A token without its place. -/
abbrev Token.unplaced (t : Token) : Token := t.relocate fun _ => default

theorem map_unplaced_eq {ts us : List Token} (h : us.map Token.toLexeme = ts.map Token.toLexeme) :
    us.map Token.unplaced = ts.map Token.unplaced := by
  have placed (ts : List Token) :
      ts.map Token.unplaced = (ts.map Token.toLexeme).map fun x => ⟨x, default⟩ := by
    rw [List.map_map]
    rfl
  rw [placed us, placed ts, h]

theorem Span.coherent_unplaced : Span.Coherent fun _ => default where
  cover _ _ := rfl
  after _ := rfl
  before _ := rfl

/-- Tokens with the lexemes of others that are no program are no program either, and for the same reason. -/
theorem exists_failure_of_lexemes {ts us : List Token} {e : Failure}
    (same : us.map Token.toLexeme = ts.map Token.toLexeme) (he : program ts = .error e) :
    ∃ e', program us = .error e' ∧ e'.fault = e.fault := by
  -- without their places the tokens are the same, and so is what is read from them
  have unplaced : Parsed.relocate (fun _ => default) (Program.relocate fun _ => default) (program us) =
      .error (e.relocate fun _ => default) := by
    rw [← program_relocate Span.coherent_unplaced us, map_unplaced_eq same,
      program_relocate Span.coherent_unplaced ts, he]
    rfl
  cases read : program us with
  | ok q =>
    rw [read] at unplaced
    cases unplaced
  | error e' =>
    rw [read] at unplaced
    have moved : e'.relocate (fun _ => default) = e.relocate fun _ => default :=
      Except.error.inj unplaced
    have fault : e'.fault = e.fault := (congrArg Failure.fault moved :)
    exact ⟨e', rfl, fault⟩

/-! ## Programs -/

namespace Grammar

/-- Two texts with the same lexemes are both programs or neither of them is. Programs are the same but for
their spans: they are written the same in every style, they break the same rules with the same messages, and
they run alike, but for the place of an error. Failures have the same message and are of the same kind. -/
theorem layout_irrelevant {s t : String} {ts us : List Token} (hs : tokenize s = .ok ts)
    (ht : tokenize t = .ok us) (same : us.map Token.toLexeme = ts.map Token.toLexeme) :
    (∃ p q, program ts = .ok p ∧ program us = .ok q ∧ q.erase = p.erase ∧
      (∀ style : Style, format style q = format style p) ∧
      (∀ (rules : Style) (v : Version),
        ((analyze rules v q).map fun d => (d.rule, d.message)) =
          (analyze rules v p).map fun d => (d.rule, d.message)) ∧
      ∀ (v : Version) (env : Env) (vars : ProcessEnv) (answers : List String),
        ((q.run v env).withAnswers vars answers).mapError EvalError.fault =
          ((p.run v env).withAnswers vars answers).mapError EvalError.fault) ∨
    ∃ e e', program ts = .error e ∧ program us = .error e' ∧
      e'.fault.message = e.fault.message ∧ e'.kind = e.kind := by
  have relaid : Relaid ts us := ⟨isLexed_of_tokenize hs, isLexed_of_tokenize ht, same⟩
  cases hp : program ts with
  | ok p =>
    obtain ⟨q, hq, alike⟩ := exists_same_program relaid hp
    have erase : q.erase = p.erase := by
      rw [Program.erase, Program.erase, alike.1]
    refine .inl ⟨p, q, rfl, hq, erase, ?_, ?_, ?_⟩
    · intro style
      exact (Program.format_eq_of_same style alike).symm
    · intro rules v
      exact messages_eq_of_erase_eq rules v erase
    · intro v env vars answers
      exact run_alike_of_erase_eq v env erase vars answers
  | error e =>
    obtain ⟨e', he', fault⟩ := exists_failure_of_lexemes same hp
    exact .inr ⟨e, e', rfl, he', congrArg Fault.message fault, congrArg Fault.kind fault⟩

/-- The tokens of `println(-(0-"a"));`. -/
def dense : List Token :=
  [⟨⟨.identifier, "println"⟩, ⟨1, 1, 8⟩⟩, ⟨⟨.openParen, "("⟩, ⟨1, 8, 9⟩⟩, ⟨⟨.minus, "-"⟩, ⟨1, 9, 10⟩⟩,
   ⟨⟨.openParen, "("⟩, ⟨1, 10, 11⟩⟩, ⟨⟨.number, "0"⟩, ⟨1, 11, 12⟩⟩, ⟨⟨.minus, "-"⟩, ⟨1, 12, 13⟩⟩,
   ⟨⟨.string, "a"⟩, ⟨1, 13, 16⟩⟩, ⟨⟨.closeParen, ")"⟩, ⟨1, 16, 17⟩⟩, ⟨⟨.closeParen, ")"⟩, ⟨1, 17, 18⟩⟩,
   ⟨⟨.semicolon, ";"⟩, ⟨1, 18, 19⟩⟩]

/-- The same lexemes with a comment, on two lines and with other quotes. -/
def spread : List Token :=
  [⟨⟨.identifier, "println"⟩, ⟨1, 1, 8⟩⟩, ⟨⟨.openParen, "("⟩, ⟨1, 8, 9⟩⟩, ⟨⟨.minus, "-"⟩, ⟨2, 3, 4⟩⟩,
   ⟨⟨.openParen, "("⟩, ⟨2, 4, 5⟩⟩, ⟨⟨.number, "0"⟩, ⟨2, 5, 6⟩⟩, ⟨⟨.minus, "-"⟩, ⟨2, 7, 8⟩⟩,
   ⟨⟨.string, "a"⟩, ⟨2, 9, 12⟩⟩, ⟨⟨.closeParen, ")"⟩, ⟨2, 12, 13⟩⟩, ⟨⟨.closeParen, ")"⟩, ⟨2, 13, 14⟩⟩,
   ⟨⟨.semicolon, ";"⟩, ⟨2, 14, 15⟩⟩]

/-- A sign and a subtraction from nought, laid out in two ways. -/
theorem layout_irrelevant_spread :
    tokenize "println(-(0-\"a\"));" = .ok dense ∧
    tokenize "println( // shown\n  -(0 - 'a'));" = .ok spread ∧
    spread.map Token.toLexeme = dense.map Token.toLexeme ∧
    ((∃ p q, program dense = .ok p ∧ program spread = .ok q ∧ q.erase = p.erase ∧
      (∀ style : Style, format style q = format style p) ∧
      (∀ (rules : Style) (v : Version),
        ((analyze rules v q).map fun d => (d.rule, d.message)) =
          (analyze rules v p).map fun d => (d.rule, d.message)) ∧
      ∀ (v : Version) (env : Env) (vars : ProcessEnv) (answers : List String),
        ((q.run v env).withAnswers vars answers).mapError EvalError.fault =
          ((p.run v env).withAnswers vars answers).mapError EvalError.fault) ∨
    ∃ e e', program dense = .error e ∧ program spread = .error e' ∧
      e'.fault.message = e.fault.message ∧ e'.kind = e.kind) := by
  have first : (tokenize "println(-(0-\"a\"));").toOption = some dense := by decide +kernel
  have second : (tokenize "println( // shown\n  -(0 - 'a'));").toOption = some spread := by
    decide +kernel
  have lexemes : spread.map Token.toLexeme = dense.map Token.toLexeme := by decide
  have hs := toOption_eq_some.1 first
  have ht := toOption_eq_some.1 second
  exact ⟨hs, ht, lexemes, layout_irrelevant hs ht lexemes⟩

/-! ## Styles -/

/-- What is written for a program in one style can be read, and what is written for that in a second style is
what the second style makes of the program itself. -/
theorem format_forgets (first second : Style) {source : String} {ts : List Token} {p : Program}
    (hts : tokenize source = .ok ts) (hp : program ts = .ok p) :
    ∃ ts' p', tokenize (format first p) = .ok ts' ∧ program ts' = .ok p' ∧
      format second p' = format second p := by
  obtain ⟨b, hts', same⟩ := exists_body_of_format first hts hp
  refine ⟨b.tokens, ⟨b.result⟩, hts', program_tokens b, ?_⟩
  exact (Program.format_eq_of_same second same).symm

/-- The tokens of `if(b)` with the block `n=-(0-1.50);` and an empty `else`, in braces. -/
def signedBlock : List Token :=
  [⟨⟨.ifKeyword, "if"⟩, ⟨1, 1, 3⟩⟩, ⟨⟨.openParen, "("⟩, ⟨1, 3, 4⟩⟩, ⟨⟨.identifier, "b"⟩, ⟨1, 4, 5⟩⟩,
   ⟨⟨.closeParen, ")"⟩, ⟨1, 5, 6⟩⟩, ⟨⟨.openBrace, "\x7b"⟩, ⟨1, 6, 7⟩⟩, ⟨⟨.identifier, "n"⟩, ⟨1, 7, 8⟩⟩,
   ⟨⟨.assign, "="⟩, ⟨1, 8, 9⟩⟩, ⟨⟨.minus, "-"⟩, ⟨1, 9, 10⟩⟩, ⟨⟨.openParen, "("⟩, ⟨1, 10, 11⟩⟩,
   ⟨⟨.number, "0"⟩, ⟨1, 11, 12⟩⟩, ⟨⟨.minus, "-"⟩, ⟨1, 12, 13⟩⟩, ⟨⟨.number, "1.50"⟩, ⟨1, 13, 17⟩⟩,
   ⟨⟨.closeParen, ")"⟩, ⟨1, 17, 18⟩⟩, ⟨⟨.semicolon, ";"⟩, ⟨1, 18, 19⟩⟩,
   ⟨⟨.closeBrace, "\x7d"⟩, ⟨1, 19, 20⟩⟩, ⟨⟨.elseKeyword, "else"⟩, ⟨1, 20, 24⟩⟩,
   ⟨⟨.openBrace, "\x7b"⟩, ⟨1, 24, 25⟩⟩, ⟨⟨.closeBrace, "\x7d"⟩, ⟨1, 25, 26⟩⟩]

/-- A style with wide assignments and flat blocks, and then the usual one. -/
theorem format_forgets_signedBlock :
    ∃ p, tokenize "if(b)\x7bn=-(0-1.50);\x7delse\x7b\x7d" = .ok signedBlock ∧
      program signedBlock = .ok p ∧
      ∃ ts' p', tokenize (format { spacesAroundAssign := 2, blockIndent := 0 } p) = .ok ts' ∧
        program ts' = .ok p' ∧ format default p' = format default p := by
  have tokens_ : (tokenize "if(b)\x7bn=-(0-1.50);\x7delse\x7b\x7d").toOption = some signedBlock := by
    decide +kernel
  have read : ∃ p, program signedBlock = .ok p := ⟨_, by cbv⟩
  obtain ⟨p, hp⟩ := read
  have hts := toOption_eq_some.1 tokens_
  exact ⟨p, hts, hp, format_forgets { spacesAroundAssign := 2, blockIndent := 0 } default hts hp⟩

end Grammar

end Slate
