import Mathlib.Data.List.Dedup
import Mathlib.Data.List.Induction
import Slate.Proofs.Env.Rename

/-!
# Environments and their histories

An environment is made from a list of bindings, or by a write to one that is there already. The old one stays, so
that it can be looked into and written to again: what is made are branches, and every environment has a history of
its own, the bindings that it was given from the start of its branch.

    histories ──Write.history?──▶ histories
        │ ofList                      │ ofList
        ▼                             ▼
    environments ──Write.env?──▶ environments

* `environments_eq` — an environment is the one made from its history, whatever else was made meanwhile;
* `environments_answer` — so it answers as its history says, and equal answers make equal environments.
-/

namespace Slate.Env

/-! ## Histories -/

/-- The bindings that were given, the first one first. -/
abbrev History := List (String × Binding)

namespace History

variable {h : History} {name : String}

/-- The binding that was given to a name last. -/
def last? (h : History) (name : String) : Option Binding :=
  (h.filter fun x => x.1 = name).getLast?.map Prod.snd

/-- The names that were bound, each once. -/
def names (h : History) : List String := (h.map Prod.fst).dedup

theorem last?_concat (h : History) (x : String × Binding) (name : String) :
    last? (h ++ [x]) name = if x.1 = name then some x.2 else h.last? name := by
  rw [last?, List.filter_append]
  by_cases e : x.1 = name
  · simp [e]
  · simp [e, last?]

theorem mem_names_iff : name ∈ h.names ↔ (h.last? name).isSome := by
  rw [names, List.mem_dedup, last?, Option.isSome_map, List.getLast?_isSome, ne_eq, List.filter_eq_nil_iff]
  simp

theorem nodup_names (h : History) : h.names.Nodup := List.nodup_dedup _

end History

/-- An environment that is made from a history binds each name as it was bound last. -/
theorem get?_ofList_eq_last? (h : History) (name : String) : (ofList h).get? name = h.last? name := by
  rw [get?_ofList]
  induction h using List.reverseRecOn with
  | nil => rfl
  | append_singleton h x ih => rw [History.last?_concat, List.reverse_append, ← ih]; rfl

theorem ofList_concat (h : History) (name : String) (b : Binding) :
    ofList (h ++ [(name, b)]) = (ofList h).insert name b := by
  rw [ofList, List.foldl_append]
  rfl

/-! ## What an environment lists -/

theorem mem_toList_iff {env : Env} {name : String} {b : Binding} :
    (name, b) ∈ env.toList ↔ env.get? name = some b := by
  obtain ⟨l, sorted⟩ := env
  show (name, b) ∈ l ↔ lookup name l = some b
  induction l with
  | nil => simp [lookup]
  | cons x xs ih =>
    obtain ⟨above, sorted⟩ := List.pairwise_cons.1 sorted
    rw [List.mem_cons, ih sorted, lookup]
    by_cases e : x.1 = name
    · -- the names behind it are others
      rw [if_pos e, lookup_eq_none_of_lt (e ▸ above), Prod.ext_iff]
      simp [e, eq_comm]
    · rw [if_neg e, Prod.ext_iff]
      simp [Ne.symm e]

theorem nodup_toList (env : Env) : (env.toList.map Prod.fst).Nodup := by
  refine List.pairwise_map.2 (env.sorted.imp fun {a b} lt => ?_)
  rintro e
  exact String.lt_irrefl _ (e ▸ lt)

/-- As many bindings as there are names. -/
theorem size_ofList (h : History) : (ofList h).size = h.names.length := by
  have same : ((ofList h).toList.map Prod.fst).Perm h.names := by
    refine (List.perm_ext_iff_of_nodup (nodup_toList _) (History.nodup_names h)).2 fun name => ?_
    rw [History.mem_names_iff, ← get?_ofList_eq_last?, Option.isSome_iff_exists, List.mem_map]
    constructor
    · rintro ⟨⟨k, b⟩, listed, rfl⟩
      exact ⟨b, mem_toList_iff.1 listed⟩
    · rintro ⟨b, bound⟩
      exact ⟨(name, b), mem_toList_iff.2 bound, rfl⟩
  rw [← same.length_eq, List.length_map]
  rfl

/-! ## Writes -/

/-- One write. -/
inductive Write where
  | bind (name : String) (b : Binding)
  | setValue (name value : String)

/-- The environment that a write makes of another one, if it makes any. -/
def Write.env? : Write → Env → Option Env
  | bind name b, env => some (env.insert name b)
  | setValue name value, env => env.setValue? name value

/-- The history of that environment. A new value is a new binding of the name, which is otherwise as it was. -/
def Write.history? : Write → History → Option History
  | bind name b, h => some (h ++ [(name, b)])
  | setValue name value, h => (h.last? name).map fun b => h ++ [(name, { b with value := some value })]

theorem Write.env?_ofList (w : Write) (h : History) : w.env? (ofList h) = (w.history? h).map ofList := by
  cases w with
  | bind name b => rw [env?, history?, Option.map_some, ofList_concat]
  | setValue name value =>
    rw [env?, history?, setValue?, get?_ofList_eq_last?, Option.map_map]
    refine congrArg (Option.map · (h.last? name)) (funext fun b => ?_)
    exact (ofList_concat h name _).symm

/-! ## Branches -/

/-- A write to one of the environments that are there. -/
structure Step where
  source : Nat
  write : Write

/-- What a step adds to those that are there. It takes none away. -/
def grow {α : Type} (write? : Write → α → Option α) (all : List α) (step : Step) : List α :=
  all ++ (all[step.source]?.bind (write? step.write)).toList

/-- The environments that the steps make, and the ones that they start from. -/
def environments (seeds : List History) (steps : List Step) : List Env :=
  steps.foldl (grow Write.env?) (seeds.map ofList)

/-- Their histories. -/
def histories (seeds : List History) (steps : List Step) : List History :=
  steps.foldl (grow Write.history?) seeds

theorem prefix_grow {α : Type} (write? : Write → α → Option α) (all : List α) (steps : List Step) :
    all <+: steps.foldl (grow write?) all := by
  induction steps generalizing all with
  | nil => exact List.prefix_rfl
  | cons step steps ih => exact (List.prefix_append _ _).trans (ih (grow write? all step))

theorem grow_map_ofList (all : List History) (step : Step) :
    grow Write.env? (all.map ofList) step = (grow Write.history? all step).map ofList := by
  rw [grow, grow, List.map_append, List.getElem?_map]
  congr 1
  cases all[step.source]? with
  | none => rfl
  | some h =>
    rw [Option.map_some, Option.bind_some, Option.bind_some, Write.env?_ofList]
    cases step.write.history? h <;> rfl

/-- Each environment is the one that is made from its history. -/
theorem environments_eq (seeds : List History) (steps : List Step) :
    environments seeds steps = (histories seeds steps).map ofList := by
  rw [environments, histories]
  induction steps generalizing seeds with
  | nil => rfl
  | cons step steps ih => rw [List.foldl_cons, List.foldl_cons, grow_map_ofList, ih]

/-! ## Answers -/

/-- The environment answers as its history says. -/
structure Answers (env : Env) (h : History) : Prop where
  get? : ∀ name, env.get? name = h.last? name
  unbound : ∀ name value, env.setValue? name value = none ↔ name ∉ h.names
  size : env.size = h.names.length
  once : (env.toList.map Prod.fst).Nodup
  listed : ∀ name b, (name, b) ∈ env.toList ↔ h.last? name = some b

theorem answers_ofList (h : History) : (ofList h).Answers h where
  get? := get?_ofList_eq_last? h
  unbound name value := by
    rw [setValue?, Option.map_eq_none_iff, get?_ofList_eq_last?, History.mem_names_iff,
      Bool.not_eq_true, Option.isSome_eq_false_iff, Option.isNone_iff_eq_none]
  size := size_ofList h
  once := nodup_toList _
  listed name b := by rw [mem_toList_iff, get?_ofList_eq_last?]

/-- Whatever environments are made, from whichever of those before: each answers as its own history says, and none
of them is another one later. Environments are equal exactly if they answer alike. -/
theorem environments_answer (seeds : List History) (steps more : List Step) :
    List.Forall₂ Answers (environments seeds steps) (histories seeds steps) ∧
    environments seeds steps <+: environments seeds (steps ++ more) ∧
    histories seeds steps <+: histories seeds (steps ++ more) ∧
    ∀ a b : Env, a = b ↔ ∀ name, a.get? name = b.get? name := by
  refine ⟨?_, ?_, ?_, fun a b => ⟨fun e name => by rw [e], ext_get?⟩⟩
  · rw [environments_eq, List.forall₂_map_left_iff, List.forall₂_same]
    exact fun h _ => answers_ofList h
  · rw [environments, environments, List.foldl_append]
    exact prefix_grow _ _ more
  · rw [histories, histories, List.foldl_append]
    exact prefix_grow _ _ more

/-- A name gets a value, and in another branch another one. -/
example :
    let x : Binding := ⟨.number, some "1", false⟩
    let steps : List Step := [⟨0, .setValue "x" "2"⟩, ⟨0, .setValue "y" "3"⟩, ⟨0, .bind "x" ⟨.string, none, true⟩⟩]
    (environments [[("x", x)]] steps).map (·.get? "x") =
      [some x, some ⟨.number, some "2", false⟩, some ⟨.string, none, true⟩] := by
  decide

end Slate.Env
