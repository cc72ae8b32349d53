import Mathlib
import Slate.Eval
import Slate.Proofs.Dialogue.Ends
import Slate.Proofs.Grammar.Spans
import Slate.Proofs.Token.Text

/-!
# Where an error points

Every error has a place in the text it comes from, whatever stage finds it:

    text ──tokenize──▶ tokens ──program──▶ program ──run──▶ result
              │                   │                  │
              ▼                   ▼                  ▼
        a character         a token, or         a node of
        of the text         behind one          the program

* `Run.FailsAt` — whatever comes back, a run fails at one of these places only;
* `Expr.eval_failsAt`, `Stmt.exec_failsAt`, `execAll_failsAt` — at the place of a node of what is run;
* `errors_point_into_source` — the three stages together.
-/

namespace Slate

/-- Whatever comes back, the run fails at one of the places if it fails. -/
abbrev Run.FailsAt {α : Type} (all : List Span) (r : Run α) : Prop :=
  r.Ends (fun _ => True) fun e => e.span ∈ all

section

variable {α : Type} {all : List Span} {s : Span}

theorem Run.done_failsAt (a : α) : Run.FailsAt all (.done a) := .done trivial

theorem Run.fail_failsAt (h : s ∈ all) (fault : EvalFault) : (Run.fail s fault : Run α).FailsAt all :=
  .failed h

end

variable {v : Version} {env : Env} {all : List Span} {s : Span}

/-! ## Steps -/

theorem Version.require_failsAt (h : s ∈ all) (v : Version) (feature : Feature) :
    (v.require feature s).FailsAt all :=
  .ite (fun _ => Run.done_failsAt ()) fun _ => Run.fail_failsAt h _

theorem Version.requireType_failsAt (h : s ∈ all) (v : Version) (type : Ty) :
    (v.requireType type s).FailsAt all :=
  .ite (fun _ => v.require_failsAt h .boolean) fun _ => Run.done_failsAt ()

theorem Version.checkType_failsAt (h : s ∈ all) (v : Version) (name : String) (declared : Ty)
    (a : Value) : (v.checkType name declared a s).FailsAt all :=
  (v.requireType_failsAt h a.type).bind fun _ _ =>
    .ite (fun _ => Run.done_failsAt ()) fun _ => Run.fail_failsAt h _

theorem needValue_failsAt (h : s ∈ all) (a : Option Value) : (needValue s a).FailsAt all := by
  cases a with
  | none => exact Run.fail_failsAt h _
  | some a => exact Run.done_failsAt a

theorem needString_failsAt (h : s ∈ all) (a : Value) : (needString s a).FailsAt all := by
  cases a with
  | string text => exact Run.done_failsAt text
  | number | boolean => exact Run.fail_failsAt h _

theorem Literal.eval_failsAt {l : Literal} (h : l.span ∈ all) (v : Version) :
    (l.eval v).FailsAt all := by
  unfold eval
  split
  · exact Run.done_failsAt _
  · exact Run.done_failsAt _
  · exact (v.require_failsAt h .boolean).bind fun _ _ => Run.done_failsAt _

theorem Binding.read_failsAt {x : Identifier} (h : x.span ∈ all) (v : Version) (type : Ty)
    (text : String) : (Binding.read v x type text).FailsAt all := by
  unfold Binding.read
  split
  · exact Run.done_failsAt _
  · split
    · exact Run.done_failsAt _
    · exact Run.fail_failsAt h _
  · refine (v.require_failsAt h .boolean).bind fun _ _ => ?_
    refine .ite (fun _ => Run.done_failsAt _) fun _ => ?_
    exact .ite (fun _ => Run.done_failsAt _) fun _ => Run.fail_failsAt h _

theorem Identifier.eval_failsAt {x : Identifier} (h : x.span ∈ all) : (x.eval v env).FailsAt all := by
  unfold eval
  split
  · exact Run.fail_failsAt h _
  · split
    · exact Run.fail_failsAt h _
    · exact Binding.read_failsAt h _ _ _

theorem Builtin.apply_failsAt (h : s ∈ all) (a : Value) (f : Builtin) : (f.apply s a).FailsAt all := by
  cases f with
  | println => exact .say _ (Run.done_failsAt none)
  | readInput =>
    refine (needString_failsAt h a).bind fun prompt _ => ?_
    exact .ask prompt h fun answer => Run.done_failsAt _
  | readEnv =>
    refine (needString_failsAt h a).bind fun name _ => .lookUp name fun text => ?_
    cases text with
    | some text => exact Run.done_failsAt _
    | none => exact Run.fail_failsAt h _

theorem Builtin.require_failsAt (h : s ∈ all) (v : Version) (f : Builtin) :
    (f.require v s).FailsAt all := by
  unfold require
  split
  · exact v.require_failsAt h _
  · exact Run.done_failsAt ()

theorem Builtin.resolve_failsAt {callee : Identifier} (hc : callee.span ∈ all) (h : s ∈ all)
    (v : Version) (arguments : Nat) : (resolve v callee arguments s).FailsAt all := by
  rw [resolve_eq]
  split
  · exact Run.fail_failsAt hc _
  · next f _ =>
    exact (f.require_failsAt h v).bind fun _ _ =>
      .ite (fun _ => Run.done_failsAt f) fun _ => Run.fail_failsAt h _

/-! ## Expressions -/

/-- The value of an expression fails at a node of it. -/
theorem Expr.eval_failsAt : ∀ e : Expr, e.spans ⊆ all → (e.eval v env).FailsAt all
  | .literal l, h => by
    rw [eval]
    exact (Literal.eval_failsAt (h List.mem_cons_self) v).bind fun _ _ => Run.done_failsAt _
  | .identifier x, h => by
    rw [eval]
    exact (Identifier.eval_failsAt (h List.mem_cons_self)).bind fun _ _ => Run.done_failsAt _
  | .binary op left right s, h => by
    obtain ⟨here, operands⟩ := List.cons_subset.1 h
    obtain ⟨hl, hr⟩ := List.append_subset.1 operands
    rw [eval]
    refine (eval_failsAt left hl).bind fun _ _ => ?_
    refine (needValue_failsAt (hl left.span_mem_spans) _).bind fun a _ => ?_
    refine (eval_failsAt right hr).bind fun _ _ => ?_
    refine (needValue_failsAt (hr right.span_mem_spans) _).bind fun b _ => ?_
    cases op.apply a b with
    | ok c => exact Run.done_failsAt _
    | error fault => exact Run.fail_failsAt here fault
  | .call callee [argument] s, h => by
    obtain ⟨here, behind⟩ := List.cons_subset.1 h
    obtain ⟨name, arguments⟩ := List.cons_subset.1 behind
    have ha : argument.spans ⊆ all := (List.append_subset.1 arguments).1
    rw [eval]
    refine (Builtin.resolve_failsAt name here v 1).bind fun f _ => ?_
    refine (eval_failsAt argument ha).bind fun _ _ => ?_
    refine (needValue_failsAt (ha argument.span_mem_spans) _).bind fun a _ => ?_
    exact f.apply_failsAt (ha argument.span_mem_spans) a
  | .call callee [] s, h | .call callee (_ :: _ :: _) s, h => by
    obtain ⟨here, behind⟩ := List.cons_subset.1 h
    have name := (List.cons_subset.1 behind).1
    exact (Builtin.resolve_failsAt name here v _).bind fun _ _ => Run.done_failsAt none
  | .assignment target e s, h => Run.fail_failsAt (h List.mem_cons_self) _

theorem Expr.value_failsAt {e : Expr} (h : e.spans ⊆ all) : (e.value v env).FailsAt all :=
  (e.eval_failsAt h).bind fun _ _ => needValue_failsAt (h e.span_mem_spans) _

/-! ## Statements -/

theorem assign_failsAt {target : Identifier} {e : Expr} (ht : target.span ∈ all) (h : e.spans ⊆ all) :
    (assign v env target e).FailsAt all := by
  unfold assign
  split
  · exact Run.fail_failsAt ht _
  · refine .ite (fun _ => (e.value_failsAt h).bind fun a _ => ?_) fun _ => Run.fail_failsAt ht _
    refine (v.checkType_failsAt (h e.span_mem_spans) _ _ a).bind fun _ _ => ?_
    split
    · exact Run.done_failsAt _
    · exact Run.fail_failsAt ht _

theorem Declarator.initial_failsAt {d : Declarator} (h : d.spans ⊆ all) (kind : DeclarationKind) :
    (d.initial v kind env).FailsAt all := by
  obtain ⟨name, init⟩ := List.cons_subset.1 (List.cons_subset.1 h).2
  unfold initial
  cases hd : d.init with
  | none => exact .ite (fun _ => Run.fail_failsAt name _) fun _ => Run.done_failsAt none
  | some e =>
    rw [hd] at init
    refine (e.value_failsAt init).bind fun a _ => ?_
    exact (v.checkType_failsAt (init e.span_mem_spans) _ _ a).bind fun _ _ => Run.done_failsAt _

theorem Declarator.exec_failsAt {d : Declarator} (h : d.spans ⊆ all) (kind : DeclarationKind) :
    (d.exec v kind env).FailsAt all := by
  refine (v.requireType_failsAt (h List.mem_cons_self) d.type).bind fun _ _ => ?_
  exact (d.initial_failsAt h kind).bind fun _ _ => Run.done_failsAt _

theorem declareAll_failsAt (kind : DeclarationKind) {ds : List Declarator}
    (h : ds.flatMap Declarator.spans ⊆ all) : (declareAll v kind env ds).FailsAt all := by
  induction ds generalizing env with
  | nil => exact Run.done_failsAt env
  | cons d ds ih =>
    obtain ⟨hd, hds⟩ := List.append_subset.1 h
    rw [declareAll]
    exact (d.exec_failsAt hd kind).bind fun _ _ => ih hds

theorem Expr.exec_failsAt {e : Expr} (h : e.spans ⊆ all) : (e.exec v env).FailsAt all := by
  cases e with
  | assignment target e s =>
    obtain ⟨ht, he⟩ := List.cons_subset.1 (List.cons_subset.1 h).2
    exact assign_failsAt ht he
  | literal | identifier | binary | call =>
    exact (eval_failsAt _ h).bind fun _ _ => Run.done_failsAt env

mutual

/-- A statement fails at a node of it. -/
theorem Stmt.exec_failsAt : ∀ (s : Stmt) {env : Env}, s.spans ⊆ all → (s.exec v env).FailsAt all
  | .declaration kind ds _, _, h => by
    rw [Stmt.exec]
    exact declareAll_failsAt kind (List.cons_subset.1 h).2
  | .expression e _, _, h => by
    rw [Stmt.exec]
    exact e.exec_failsAt (List.cons_subset.1 h).2
  | .conditional test consequent alternate _, _, h => by
    obtain ⟨ht, blocks⟩ := List.cons_subset.1 (List.cons_subset.1 h).2
    obtain ⟨hc, ha⟩ := List.append_subset.1 blocks
    rw [Stmt.exec]
    refine (Identifier.eval_failsAt ht).bind fun a _ => ?_
    exact .ite (fun _ => execAll_failsAt consequent hc) fun _ => execAll_failsAt alternate ha

/-- So do any number of them. -/
theorem execAll_failsAt : ∀ (ss : List Stmt) {env : Env}, spansOfStmts ss ⊆ all →
    (execAll v env ss).FailsAt all
  | [], env, _ => by
    rw [execAll]
    exact Run.done_failsAt env
  | s :: ss, _, h => by
    obtain ⟨hs, hss⟩ := List.append_subset.1 h
    rw [execAll]
    exact (s.exec_failsAt hs).bind fun _ _ => execAll_failsAt ss hss

end

theorem span_mem_of_run {p : Program} {vars : ProcessEnv} {answers : List String} {e : EvalError}
    (h : ((p.run v env).withAnswers vars answers).result = .error e) :
    e.span ∈ spansOfStmts p.statements := by
  have fails : (p.run v env).FailsAt (spansOfStmts p.statements) :=
    execAll_failsAt p.statements (List.Subset.refl _)
  have ends := fails.withAnswers vars answers
  rw [h] at ends
  exact ends

/-! ## All stages -/

/-- Every error points into the source. Where the text is not read, all in front of the error is tokens and
gaps, and the error stands at the character that is wrong. Where its tokens are no program, the failure is final,
and where one of them starts or ends. Where the program fails to run, in whatever version, from whatever
environment and with whatever answers, it does so where one of its tokens starts. -/
theorem errors_point_into_source (source : String) :
    (∀ e, tokenize source = .error e → ∃ text behind ts, source.toList = text ++ behind ∧
      LaidOut behind [] ts text ∧ SpellsNothing behind ∧ e.Stands text behind) ∧
    (∀ ts f, tokenize source = .ok ts → Parser.program ts = .error f →
      f.kind = .malformed ∧ f.PointsInto ts) ∧
    ∀ ts p, tokenize source = .ok ts → Parser.program ts = .ok p →
      ∀ (v : Version) (env : Env) (vars : ProcessEnv) (answers : List String) (e : EvalError),
        ((p.run v env).withAnswers vars answers).result = .error e → e.span.StartsIn ts := by
  refine ⟨fun e he => laidOut_of_tokenize_eq_error he, ?_, ?_⟩
  · intro ts f _ failed
    exact Parser.malformed_of_program failed
  · intro ts p _ read v env vars answers e failed
    exact Grammar.spans_startIn_of_program read e.span (span_mem_of_run failed)

/-- The tokens of `let x;`. -/
def untypedDeclaration : List Token :=
  [⟨⟨.letKeyword, "let"⟩, ⟨1, 1, 4⟩⟩, ⟨⟨.identifier, "x"⟩, ⟨1, 5, 6⟩⟩, ⟨⟨.semicolon, ";"⟩, ⟨1, 6, 7⟩⟩]

/-- The tokens of `1 - y;`. -/
def differenceOfUnknown : List Token :=
  [⟨⟨.number, "1"⟩, ⟨1, 1, 2⟩⟩, ⟨⟨.minus, "-"⟩, ⟨1, 3, 4⟩⟩, ⟨⟨.identifier, "y"⟩, ⟨1, 5, 6⟩⟩,
   ⟨⟨.semicolon, ";"⟩, ⟨1, 6, 7⟩⟩]

/-- A wrong escape, a declaration without a type, and a variable that is not there. -/
theorem errors_point_into_source_thrice :
    (tokenize "x = 'a\\q';" = .error (.invalidEscape 'q' ⟨1, 7, 9⟩) ∧
      ∃ text behind ts, "x = 'a\\q';".toList = text ++ behind ∧ LaidOut behind [] ts text ∧
        SpellsNothing behind ∧ LexError.Stands text behind (.invalidEscape 'q' ⟨1, 7, 9⟩)) ∧
    (∃ f, tokenize "let x;" = .ok untypedDeclaration ∧
      Parser.program untypedDeclaration = .error f ∧ f.kind = .malformed ∧
      f.PointsInto untypedDeclaration) ∧
    ∃ p, tokenize "1 - y;" = .ok differenceOfUnknown ∧ Parser.program differenceOfUnknown = .ok p ∧
      ((p.run .newest .empty).withAnswers (fun _ => none) []).result =
        .error ⟨.variableNotFound "y", ⟨1, 5, 6⟩⟩ ∧
      Span.StartsIn differenceOfUnknown ⟨1, 5, 6⟩ := by
  have escape : tokenize "x = 'a\\q';" = .error (.invalidEscape 'q' ⟨1, 7, 9⟩) := by decide +kernel
  have untyped : tokenize "let x;" = .ok untypedDeclaration := by decide +kernel
  have difference : tokenize "1 - y;" = .ok differenceOfUnknown := by decide +kernel
  have noProgram : ∃ f, Parser.program untypedDeclaration = .error f := ⟨_, by cbv⟩
  have read : ∃ p, Parser.program differenceOfUnknown = .ok p ∧
      ((p.run .newest .empty).withAnswers (fun _ => none) []).result =
        .error ⟨.variableNotFound "y", ⟨1, 5, 6⟩⟩ := ⟨_, by cbv, by cbv⟩
  obtain ⟨f, hf⟩ := noProgram
  obtain ⟨p, hp, failed⟩ := read
  refine ⟨⟨escape, ?_⟩, ⟨f, untyped, hf, ?_⟩, p, difference, hp, failed, ?_⟩
  · exact (errors_point_into_source _).1 _ escape
  · exact (errors_point_into_source _).2.1 _ f untyped hf
  · exact (errors_point_into_source _).2.2 _ p difference hp _ _ _ _ _ failed

end Slate
