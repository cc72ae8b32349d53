import Slate.Proofs.Eval.Agree
import Slate.Proofs.Eval.Frame
import Slate.Proofs.Eval.Silent

/-!
# Statements that can change places

Two statements are *apart* if neither declares or assigns to a variable that occurs in the other one. Then
neither changes what the other one sees, so each one runs as if it were the first. If moreover one of the two
is silent, nobody can tell in which order they ran.

* `Stmt.Apart.env_eq` — both orders leave the same environment;
* `Stmt.Apart.both` — if both statements run from an environment, they run in either order and do the same;
* `exec_commute` — one order runs to its end if and only if the other one does, with the same outcome.
-/

namespace Slate

/-! ## Apart -/

/-- Neither statement declares or assigns to a variable that occurs in the other one. -/
structure Stmt.Apart (s t : Stmt) : Prop where
  first : ∀ name ∈ s.declared ++ s.assigned, name ∉ t.names
  second : ∀ name ∈ t.declared ++ t.assigned, name ∉ s.names

instance Stmt.decidableApart (s t : Stmt) : Decidable (s.Apart t) :=
  decidable_of_iff
    ((∀ name ∈ s.declared ++ s.assigned, name ∉ t.names) ∧
      ∀ name ∈ t.declared ++ t.assigned, name ∉ s.names)
    ⟨fun h => ⟨h.1, h.2⟩, fun h => ⟨h.first, h.second⟩⟩

variable {declared assigned names : List String} {env env' e₁ e₂ : Env}

theorem Env.Framed.agreeOn (h : env.Framed declared assigned env')
    (apart : ∀ name ∈ declared ++ assigned, name ∉ names) : env.AgreeOn names env' := by
  intro name m
  symm
  refine h.untouched name (fun d => ?_) (fun a => ?_)
  · exact apart name (List.mem_append_left _ d) m
  · exact apart name (List.mem_append_right _ a) m

/-- A variable that does not occur in a statement keeps its binding. -/
theorem Env.Framed.get?_of_notMem {s : Stmt} (h : env.Framed s.declared s.assigned env') {name : String}
    (absent : name ∉ s.names) : env'.get? name = env.get? name :=
  h.untouched name (fun d => absent (s.declared_subset d)) (fun a => absent (s.assigned_subset a))

namespace Stmt.Apart

variable {s t : Stmt}

/-- The environment after both statements is the same, if each one leaves the same for its own variables
wherever it stands. -/
theorem env_eq {st ts : Env} (h : s.Apart t) (hs : env.Framed s.declared s.assigned e₁)
    (ht : env.Framed t.declared t.assigned e₂) (ht' : e₁.Framed t.declared t.assigned st)
    (hs' : e₂.Framed s.declared s.assigned ts) (agree₁ : e₁.AgreeOn s.names ts)
    (agree₂ : e₂.AgreeOn t.names st) : st = ts := by
  apply Env.ext_get?
  intro name
  by_cases ms : name ∈ s.names
  · calc st.get? name = e₁.get? name := (ht'.agreeOn h.second name ms).symm
      _ = ts.get? name := agree₁ name ms
  by_cases mt : name ∈ t.names
  · calc st.get? name = e₂.get? name := (agree₂ name mt).symm
      _ = ts.get? name := hs'.agreeOn h.first name mt
  calc st.get? name = e₁.get? name := ht'.get?_of_notMem mt
    _ = env.get? name := hs.get?_of_notMem ms
    _ = e₂.get? name := (ht.get?_of_notMem mt).symm
    _ = ts.get? name := (hs'.get?_of_notMem ms).symm

end Stmt.Apart

/-! ## Leading one statement -/

variable {v : Version} {s t : Stmt} {vars : ProcessEnv} {answers left : List String}
  {events : List Event}

theorem Stmt.framed_of_ok (ran : (s.exec v env).withAnswers vars answers = ⟨.ok env', events, left⟩) :
    env.Framed s.declared s.assigned env' := by
  have ends := (s.exec_framed (v := v) env).withAnswers vars answers
  rw [ran] at ends
  exact ends

theorem Stmt.ok_of_agreeOn (h : env.AgreeOn s.names env')
    (ran : (s.exec v env).withAnswers vars answers = ⟨.ok e₁, events, left⟩) :
    ∃ e₂, (s.exec v env').withAnswers vars answers = ⟨.ok e₂, events, left⟩ ∧
      e₁.AgreeOn s.names e₂ :=
  (s.exec_agree h (List.Subset.refl _)).ok_of_withAnswers ran

theorem Outcome.eq_of_result {ε α : Type} {o : Outcome ε α} {a : α} (h : o.result = .ok a) :
    o = ⟨.ok a, o.events, o.answers⟩ := by
  rw [← h]

theorem execAll_pair (s t : Stmt) (env : Env) :
    execAll v env [s, t] = s.exec v env >>= t.exec v := by
  rw [execAll]
  congr
  funext e
  rw [execAll]
  exact Dialogue.bind_done (t.exec v e)

/-! ## Leading both -/

namespace Stmt.Apart

/-- If both statements run from an environment, they run one after the other in either order. What is heard is
what the one that may not be silent says and asks. -/
theorem both (h : s.Apart t)
    (ran₁ : (s.exec v env).withAnswers vars answers = ⟨.ok e₁, events, left⟩)
    (ran₂ : ∀ others, (t.exec v env).withAnswers vars others = ⟨.ok e₂, [], others⟩) :
    ∃ e, (execAll v env [s, t]).withAnswers vars answers = ⟨.ok e, events, left⟩ ∧
      (execAll v env [t, s]).withAnswers vars answers = ⟨.ok e, events, left⟩ := by
  have hs : env.Framed s.declared s.assigned e₁ := framed_of_ok ran₁
  have ht : env.Framed t.declared t.assigned e₂ := framed_of_ok (ran₂ answers)
  -- each statement runs from where the other one ended as it runs from the start
  obtain ⟨st, ran₂', agree₂⟩ := ok_of_agreeOn (hs.agreeOn h.first) (ran₂ left)
  obtain ⟨ts, ran₁', agree₁⟩ := ok_of_agreeOn (ht.agreeOn h.second) ran₁
  obtain rfl : st = ts :=
    h.env_eq hs ht (framed_of_ok ran₂') (framed_of_ok ran₁') agree₁ agree₂
  refine ⟨st, ?_, ?_⟩
  · rw [execAll_pair, Dialogue.withAnswers_bind_eq_ok]
    exact ⟨e₁, events, left, [], ran₁, ran₂', (List.append_nil events).symm⟩
  · rw [execAll_pair, Dialogue.withAnswers_bind_eq_ok]
    exact ⟨e₂, [], answers, events, ran₂ answers, ran₁', rfl⟩

/-- If the silent statement runs after the other one, both run from the start. -/
theorem of_last {e : Env} (h : s.Apart t) (silent : Quiet t.callees)
    (ran : (execAll v env [s, t]).withAnswers vars answers = ⟨.ok e, events, left⟩) :
    ∃ e₁ e₂, (s.exec v env).withAnswers vars answers = ⟨.ok e₁, events, left⟩ ∧
      ∀ others, (t.exec v env).withAnswers vars others = ⟨.ok e₂, [], others⟩ := by
  rw [execAll_pair, Dialogue.withAnswers_bind_eq_ok] at ran
  obtain ⟨e₁, first, between, second, ran₁, ran₂, rfl⟩ := ran
  have back : e₁.AgreeOn t.names env := ((framed_of_ok ran₁).agreeOn h.first).symm
  obtain ⟨e₂, ran₂', -⟩ := ok_of_agreeOn back ran₂
  obtain ⟨rfl, rfl, always⟩ := (t.exec_silent env silent).ok_of_withAnswers ran₂'
  exact ⟨e₁, e₂, by rw [ran₁, List.append_nil], always⟩

/-- If the silent statement runs before the other one, both run from the start. -/
theorem of_first {e : Env} (h : s.Apart t) (silent : Quiet t.callees)
    (ran : (execAll v env [t, s]).withAnswers vars answers = ⟨.ok e, events, left⟩) :
    ∃ e₁ e₂, (s.exec v env).withAnswers vars answers = ⟨.ok e₁, events, left⟩ ∧
      ∀ others, (t.exec v env).withAnswers vars others = ⟨.ok e₂, [], others⟩ := by
  rw [execAll_pair, Dialogue.withAnswers_bind_eq_ok] at ran
  obtain ⟨e₂, first, between, second, ran₂, ran₁, rfl⟩ := ran
  have back : e₂.AgreeOn s.names env := ((framed_of_ok ran₂).agreeOn h.second).symm
  obtain ⟨rfl, rfl, always⟩ := (t.exec_silent env silent).ok_of_withAnswers ran₂
  obtain ⟨e₁, ran₁', -⟩ := ok_of_agreeOn back ran₁
  exact ⟨e₁, e₂, ran₁', always⟩

end Stmt.Apart

/-- Statements that are apart, one of them silent, can change places: one order runs to its end exactly if
the other one does. Then both leave the same environment and the same answers, and have said and asked the
same. -/
theorem exec_commute (apart : s.Apart t) (silent : Quiet t.callees) (v : Version) (env : Env)
    (vars : ProcessEnv) (answers : List String) :
    ((∃ e, ((execAll v env [s, t]).withAnswers vars answers).result = .ok e) ↔
      ∃ e, ((execAll v env [t, s]).withAnswers vars answers).result = .ok e) ∧
    ∀ e, ((execAll v env [s, t]).withAnswers vars answers).result = .ok e →
      (execAll v env [t, s]).withAnswers vars answers =
        (execAll v env [s, t]).withAnswers vars answers := by
  have forward : ∀ e, ((execAll v env [s, t]).withAnswers vars answers).result = .ok e →
      (execAll v env [t, s]).withAnswers vars answers =
        (execAll v env [s, t]).withAnswers vars answers := by
    intro e ok
    obtain ⟨e₁, e₂, ran₁, ran₂⟩ := apart.of_last silent (Outcome.eq_of_result ok)
    obtain ⟨e', st, ts⟩ := apart.both ran₁ ran₂
    rw [ts, st]
  refine ⟨⟨?_, ?_⟩, forward⟩
  · rintro ⟨e, ok⟩
    exact ⟨e, by rw [forward e ok, ok]⟩
  · rintro ⟨e, ok⟩
    obtain ⟨e₁, e₂, ran₁, ran₂⟩ := apart.of_first silent (Outcome.eq_of_result ok)
    obtain ⟨e', st, -⟩ := apart.both ran₁ ran₂
    exact ⟨e', by rw [st]⟩

/-- The statement `if (go) { word = readInput(hint); println(word); }`. -/
def asking : Stmt :=
  .conditional ⟨"go", ⟨1, 5, 7⟩⟩
    [.expression (.assignment ⟨"word", ⟨1, 11, 15⟩⟩
        (.call ⟨"readInput", ⟨1, 18, 27⟩⟩ [.identifier ⟨"hint", ⟨1, 28, 32⟩⟩] ⟨1, 18, 33⟩)
        ⟨1, 11, 33⟩) ⟨1, 11, 34⟩,
     .expression (.call ⟨"println", ⟨1, 35, 42⟩⟩ [.identifier ⟨"word", ⟨1, 43, 47⟩⟩] ⟨1, 35, 48⟩)
      ⟨1, 35, 49⟩]
    [] ⟨1, 1, 51⟩

/-- The statement `const home: string = readEnv("HOME"), copy: string = home;`. -/
def lookingUp : Stmt :=
  .declaration .constant
    [⟨⟨"home", ⟨2, 7, 11⟩⟩, .string,
      some (.call ⟨"readEnv", ⟨2, 22, 29⟩⟩ [.literal ⟨.string "HOME", ⟨2, 30, 36⟩⟩] ⟨2, 22, 37⟩),
      ⟨2, 7, 37⟩⟩,
     ⟨⟨"copy", ⟨2, 39, 43⟩⟩, .string, some (.identifier ⟨"home", ⟨2, 54, 58⟩⟩), ⟨2, 39, 58⟩⟩]
    ⟨2, 1, 59⟩

/-- An environment in which both of them run. -/
def unasked : Env :=
  .ofList [("go", ⟨.string, some "yes", false⟩), ("hint", ⟨.string, some "next?", false⟩),
    ("word", ⟨.string, none, true⟩)]

theorem exec_commute_lookingUp :
    asking.Apart lookingUp ∧ Quiet lookingUp.callees ∧
      (∃ e, ((execAll ⟨1, 1, 0⟩ unasked [lookingUp, asking]).withAnswers (fun _ => some "attic")
        ["left", "right"]).result = .ok e) ∧
      ((execAll ⟨1, 1, 0⟩ unasked [asking, lookingUp]).withAnswers (fun _ => some "attic")
        ["left", "right"]).events = [.asked "next?", .said "left"] ∧
      (execAll ⟨1, 1, 0⟩ unasked [lookingUp, asking]).withAnswers (fun _ => some "attic")
          ["left", "right"] =
        (execAll ⟨1, 1, 0⟩ unasked [asking, lookingUp]).withAnswers (fun _ => some "attic")
          ["left", "right"] := by
  have apart : asking.Apart lookingUp := by decide
  have silent : Quiet lookingUp.callees := by decide
  have ran : ∃ e, ((execAll ⟨1, 1, 0⟩ unasked [asking, lookingUp]).withAnswers
      (fun _ => some "attic") ["left", "right"]).result = .ok e := ⟨_, rfl⟩
  obtain ⟨swapped, same⟩ :=
    exec_commute apart silent ⟨1, 1, 0⟩ unasked (fun _ => some "attic") ["left", "right"]
  have backwards := swapped.1 ran
  obtain ⟨e, ok⟩ := ran
  exact ⟨apart, silent, backwards, rfl, same e ok⟩

end Slate
