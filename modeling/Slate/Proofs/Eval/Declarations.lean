import Mathlib
import Slate.Eval
import Slate.Parser.Declaration
import Slate.Proofs.Grammar.Expr

/-!
# A declaration of several variables

    let x : number = 1 , y : number = f(x, 2) ;      let x : number = 1 ;  let y : number = f(x, 2) ;

One declaration of several variables is as good as a declaration of each of them, one behind the other. The left
side is cut at its commas, and the comma of the call is none of them, because it stands in parentheses.

* `commaParts_listed` — the list is cut into the parts that it was made of;
* `declaration_around_eq_ok` — so the parser accepts it exactly if each part is a variable;
* `exists_separate` — each declaration starts where those in front of it ended, as each variable does.
-/

namespace Slate.Grammar

open Slate.Parser

variable {kind : DeclarationKind}

/-! ## Tokens -/

/-- What stands around the variables of a declaration. -/
structure DeclarationEnds (kind : DeclarationKind) where
  keyword : Token
  writes : declarationKind? keyword.kind = some kind
  semicolon : TokenOf .semicolon

/-- The tokens of a declaration. -/
def DeclarationEnds.around (e : DeclarationEnds kind) (body : List Token) : List Token :=
  e.keyword :: (body ++ [e.semicolon.val])

/-- Tokens of one variable, and what stands around them where they are a declaration by themselves. -/
structure DeclarationPart (kind : DeclarationKind) where
  ends : DeclarationEnds kind
  body : List Token

namespace DeclarationPart

/-- The tokens of the declaration by itself. -/
def tokens (p : DeclarationPart kind) : List Token := p.ends.around p.body

/-- The parentheses have their partners, and there is no comma outside them. -/
structure Single (p : DeclarationPart kind) : Prop where
  nested : Nested p.body
  commas : CommasEnclosed p.body

theorem Single.whole {p : DeclarationPart kind} (h : p.Single) : Whole p.body := h.nested.whole h.commas

end DeclarationPart

/-- The parts with commas between them. -/
def listed (first : DeclarationPart kind) :
    List (TokenOf .comma × DeclarationPart kind) → List Token
  | [] => first.body
  | (comma, next) :: others => first.body ++ comma.val :: listed next others

theorem commaParts_listed {first : DeclarationPart kind}
    {others : List (TokenOf .comma × DeclarationPart kind)}
    (h : ∀ p ∈ first :: others.map Prod.snd, p.Single) :
    commaParts 0 (listed first others) = (first :: others.map Prod.snd).map DeclarationPart.body := by
  induction others generalizing first with
  | nil => exact (h first List.mem_cons_self).whole
  | cons next others ih =>
    obtain ⟨comma, next⟩ := next
    obtain ⟨here, later⟩ := List.forall_mem_cons.1 h
    rw [listed, commaParts_append_comma here.nested here.whole comma.property, ih later]
    rfl

/-! ## Reading -/

/-- Two readers that give the same results give the same lists of results. -/
theorem map_eq_map_ok_iff {ε ε' α β : Type} {f : α → Except ε β} {g : α → Except ε' β}
    (same : ∀ a b, f a = .ok b ↔ g a = .ok b) {as : List α} {bs : List β} :
    as.map f = bs.map .ok ↔ as.map g = bs.map .ok := by
  induction as generalizing bs with
  | nil => cases bs <;> simp
  | cons a as ih => cases bs <;> simp [same, ih]

/-- What can be read one by one has a list of results. -/
theorem exists_map_eq_map_ok {ε α β : Type} {f : α → Except ε β} {as : List α}
    (h : ∀ a ∈ as, ∃ b, f a = .ok b) : ∃ bs : List β, as.map f = bs.map .ok := by
  induction as with
  | nil => exact ⟨[], rfl⟩
  | cons a as ih =>
    obtain ⟨⟨b, first⟩, later⟩ := List.forall_mem_cons.1 h
    obtain ⟨bs, others⟩ := ih later
    exact ⟨b :: bs, by rw [List.map_cons, first, others]; rfl⟩

/-- What is missing between two commas is no variable. -/
theorem declarators_eq_ok {last : Token} {body : List Token} {ds : List Declarator} :
    declarators last body = .ok ds ↔ (commaParts 0 body).map declarator = ds.map .ok := by
  rw [declarators, inOrder_eq_ok]
  apply map_eq_map_ok_iff
  intro part d
  by_cases missing : part = []
  · rw [if_pos missing, missing]
    exact ⟨fun h => (by cases h), fun h => (by cases h)⟩
  · rw [if_neg missing]

/-- A declaration is read exactly if each part between its commas is a variable. -/
theorem declaration_around_eq_ok {e : DeclarationEnds kind} {body : List Token} {s : Stmt} :
    declaration (e.around body) = .ok s ↔
      ∃ ds, (commaParts 0 body).map declarator = ds.map .ok ∧
        s = .declaration kind ds (coverFrom e.keyword (body ++ [e.semicolon.val])) := by
  have closed : ¬ (body ++ [e.semicolon.val] ≠ [] ∧ e.semicolon.val.kind ≠ .semicolon) :=
    fun h => h.2 e.semicolon.property
  rw [DeclarationEnds.around, declaration, e.writes]
  dsimp only
  rw [List.getLastD_concat, List.dropLast_concat, if_neg closed]
  constructor
  · intro h
    split at h
    · cases h
    · obtain ⟨ds, read, h⟩ := bind_eq_ok h
      cases h
      exact ⟨ds, declarators_eq_ok.1 read, rfl⟩
  · rintro ⟨ds, read, rfl⟩
    have nonempty : body ≠ [] := by
      rintro rfl
      cases ds <;> cases read
    rw [if_neg nonempty, declarators_eq_ok.2 read]
    rfl

/-- By itself a part is read exactly if it is a variable. -/
theorem DeclarationPart.Single.declaration_eq_ok {p : DeclarationPart kind} (h : p.Single) {s : Stmt} :
    declaration p.tokens = .ok s ↔ ∃ d, declarator p.body = .ok d ∧
      s = .declaration kind [d] (coverFrom p.ends.keyword (p.body ++ [p.ends.semicolon.val])) := by
  rw [tokens, declaration_around_eq_ok, h.whole]
  constructor
  · rintro ⟨ds, read, rfl⟩
    obtain ⟨d, rfl⟩ : ∃ d, ds = [d] := List.length_eq_one_iff.1 (by simpa using (congrArg List.length read).symm)
    exact ⟨d, (List.cons.inj read).1, rfl⟩
  · rintro ⟨d, read, rfl⟩
    exact ⟨[d], by rw [List.map_singleton, read]; rfl, rfl⟩

/-! ## Running -/

theorem exec_single (v : Version) (env : Env) (d : Declarator) (place : Span) :
    (Stmt.declaration kind [d] place).exec v env = d.exec v kind env := by
  rw [Stmt.exec, declareAll]
  exact Dialogue.bind_done _

/-- Where all parts are variables, each is a declaration by itself, and to run these declarations is to declare
the variables. -/
theorem exists_separate {parts : List (DeclarationPart kind)} {ds : List Declarator}
    (single : ∀ p ∈ parts, p.Single)
    (read : (parts.map DeclarationPart.body).map declarator = ds.map .ok) :
    ∃ ss, parts.map (fun p => declaration p.tokens) = ss.map .ok ∧
      ∀ (v : Version) (env : Env), declareAll v kind env ds = execAll v env ss := by
  induction parts generalizing ds with
  | nil =>
    cases ds with
    | nil => exact ⟨[], rfl, fun v env => by rw [declareAll, execAll]⟩
    | cons => cases read
  | cons p parts ih =>
    cases ds with
    | nil => cases read
    | cons d ds =>
      obtain ⟨readFirst, readOthers⟩ := List.cons.inj read
      obtain ⟨singleFirst, singleOthers⟩ := List.forall_mem_cons.1 single
      obtain ⟨ss, others, runs⟩ := ih singleOthers readOthers
      have first := singleFirst.declaration_eq_ok.2 ⟨d, readFirst, rfl⟩
      refine ⟨_ :: ss, by rw [List.map_cons, first, others]; rfl, fun v env => ?_⟩
      rw [declareAll, execAll, exec_single]
      exact congrArg _ (funext (runs v))

/-- A declaration of several variables is accepted exactly if a declaration of each of them is. Then it says and
asks the same as these declarations one behind the other, leaves the same answers, and ends with the same
environment or with the same error at the same place. -/
theorem declaration_listed (ends : DeclarationEnds kind) {first : DeclarationPart kind}
    {others : List (TokenOf .comma × DeclarationPart kind)}
    (single : ∀ p ∈ first :: others.map Prod.snd, p.Single) :
    ((∃ s, declaration (ends.around (listed first others)) = .ok s) ↔
      ∀ p ∈ first :: others.map Prod.snd, ∃ s, declaration p.tokens = .ok s) ∧
    ∀ s, declaration (ends.around (listed first others)) = .ok s →
      ∃ ss, (first :: others.map Prod.snd).map (fun p => declaration p.tokens) = ss.map .ok ∧
        ∀ (v : Version) (env : Env) (vars : ProcessEnv) (answers : List String),
          (s.exec v env).withAnswers vars answers = (execAll v env ss).withAnswers vars answers := by
  have parts := commaParts_listed single
  generalize first :: others.map Prod.snd = ps at single parts
  have forward : ∀ s, declaration (ends.around (listed first others)) = .ok s →
      ∃ ss, ps.map (fun p => declaration p.tokens) = ss.map .ok ∧
        ∀ (v : Version) (env : Env), s.exec v env = execAll v env ss := by
    intro s accepted
    obtain ⟨ds, read, rfl⟩ := declaration_around_eq_ok.1 accepted
    rw [parts] at read
    obtain ⟨ss, separate, runs⟩ := exists_separate single read
    exact ⟨ss, separate, fun v env => by rw [Stmt.exec, runs]⟩
  refine ⟨⟨?_, ?_⟩, ?_⟩
  · rintro ⟨s, accepted⟩ p hp
    obtain ⟨ss, separate, -⟩ := forward s accepted
    have mem : declaration p.tokens ∈ ss.map .ok := separate ▸ List.mem_map_of_mem hp
    obtain ⟨s', -, ok⟩ := List.mem_map.1 mem
    exact ⟨s', ok.symm⟩
  · intro accepted
    have variables_ : ∀ p ∈ ps, ∃ d, declarator p.body = .ok d := by
      intro p hp
      obtain ⟨s, ok⟩ := accepted p hp
      obtain ⟨d, read, -⟩ := (single p hp).declaration_eq_ok.1 ok
      exact ⟨d, read⟩
    obtain ⟨ds, read⟩ := exists_map_eq_map_ok variables_
    exact ⟨_, declaration_around_eq_ok.2 ⟨ds, by rw [parts, List.map_map]; exact read, rfl⟩⟩
  · intro s accepted
    obtain ⟨ss, separate, runs⟩ := forward s accepted
    exact ⟨ss, separate, fun v env vars answers => by rw [runs]⟩

/-- The keyword and the semicolon of a `let` on one line. -/
def letOn (line : Nat) : DeclarationEnds .mutable where
  keyword := ⟨⟨.letKeyword, "let"⟩, ⟨line, 1, 4⟩⟩
  writes := rfl
  semicolon := ⟨⟨⟨.semicolon, ";"⟩, ⟨line, 40, 41⟩⟩, rfl⟩

/-- The tokens of `word: string = readInput("word")`. -/
def askedPart : DeclarationPart .mutable where
  ends := letOn 2
  body :=
    [⟨⟨.identifier, "word"⟩, ⟨1, 5, 9⟩⟩, ⟨⟨.colon, ":"⟩, ⟨1, 9, 10⟩⟩,
     ⟨⟨.stringType, "string"⟩, ⟨1, 11, 17⟩⟩, ⟨⟨.assign, "="⟩, ⟨1, 18, 19⟩⟩,
     ⟨⟨.identifier, "readInput"⟩, ⟨1, 20, 29⟩⟩, ⟨⟨.openParen, "("⟩, ⟨1, 29, 30⟩⟩,
     ⟨⟨.string, "word"⟩, ⟨1, 30, 36⟩⟩, ⟨⟨.closeParen, ")"⟩, ⟨1, 36, 37⟩⟩]

/-- The tokens of `both: string = word + (word)`. -/
def joinedPart : DeclarationPart .mutable where
  ends := letOn 3
  body :=
    [⟨⟨.identifier, "both"⟩, ⟨1, 39, 43⟩⟩, ⟨⟨.colon, ":"⟩, ⟨1, 43, 44⟩⟩,
     ⟨⟨.stringType, "string"⟩, ⟨1, 45, 51⟩⟩, ⟨⟨.assign, "="⟩, ⟨1, 52, 53⟩⟩,
     ⟨⟨.identifier, "word"⟩, ⟨1, 54, 58⟩⟩, ⟨⟨.plus, "+"⟩, ⟨1, 59, 60⟩⟩,
     ⟨⟨.openParen, "("⟩, ⟨1, 61, 62⟩⟩, ⟨⟨.identifier, "word"⟩, ⟨1, 62, 66⟩⟩,
     ⟨⟨.closeParen, ")"⟩, ⟨1, 66, 67⟩⟩]

/-- The tokens of `word: number = readInput(both, 2)`, which calls the function with one argument too many. -/
def overfullPart : DeclarationPart .mutable where
  ends := letOn 4
  body :=
    [⟨⟨.identifier, "word"⟩, ⟨1, 69, 73⟩⟩, ⟨⟨.colon, ":"⟩, ⟨1, 73, 74⟩⟩,
     ⟨⟨.numberType, "number"⟩, ⟨1, 75, 81⟩⟩, ⟨⟨.assign, "="⟩, ⟨1, 82, 83⟩⟩,
     ⟨⟨.identifier, "readInput"⟩, ⟨1, 84, 93⟩⟩, ⟨⟨.openParen, "("⟩, ⟨1, 93, 94⟩⟩,
     ⟨⟨.identifier, "both"⟩, ⟨1, 94, 98⟩⟩, ⟨⟨.comma, ","⟩, ⟨1, 98, 99⟩⟩,
     ⟨⟨.number, "2"⟩, ⟨1, 100, 101⟩⟩, ⟨⟨.closeParen, ")"⟩, ⟨1, 101, 102⟩⟩]

/-- The three of them behind one keyword. -/
def overfullList : List Token :=
  (letOn 1).around (listed askedPart
    [(⟨⟨⟨.comma, ","⟩, ⟨1, 37, 38⟩⟩, rfl⟩, joinedPart), (⟨⟨⟨.comma, ","⟩, ⟨1, 67, 68⟩⟩, rfl⟩, overfullPart)])

/-- The second variable sees the first one, and the third one fails when a question has been asked already. -/
theorem declaration_listed_overfull :
    (∀ p ∈ [askedPart, joinedPart, overfullPart], p.Single) ∧
      ∃ s ss, declaration overfullList = .ok s ∧
        [askedPart, joinedPart, overfullPart].map (fun p => declaration p.tokens) = ss.map .ok ∧
        (s.exec .newest .empty).withAnswers (fun _ => none) ["echo", "left"] =
          ⟨.error ⟨.argumentCount "readInput" 1 2, ⟨1, 84, 102⟩⟩, [.asked "word"], ["left"]⟩ ∧
        ∀ (v : Version) (env : Env) (vars : ProcessEnv) (answers : List String),
          (s.exec v env).withAnswers vars answers = (execAll v env ss).withAnswers vars answers := by
  have single : ∀ p ∈ [askedPart, joinedPart, overfullPart], p.Single := by
    refine List.forall_mem_cons.2 ⟨⟨by decide, by decide⟩, ?_⟩
    refine List.forall_mem_cons.2 ⟨⟨by decide, by decide⟩, ?_⟩
    exact List.forall_mem_singleton.2 ⟨by decide, by decide⟩
  have accepted : ∃ s, declaration overfullList = .ok s ∧
      (s.exec .newest .empty).withAnswers (fun _ => none) ["echo", "left"] =
        ⟨.error ⟨.argumentCount "readInput" 1 2, ⟨1, 84, 102⟩⟩, [.asked "word"], ["left"]⟩ :=
    ⟨_, by cbv, by cbv⟩
  obtain ⟨s, read, ran⟩ := accepted
  obtain ⟨ss, separate, same⟩ := (declaration_listed (letOn 1) single).2 s read
  exact ⟨single, s, ss, read, separate, ran, same⟩

end Slate.Grammar
