import Mathlib.Logic.Function.Basic
import Slate.Env

/-!
# Environments as lists, and with other names

An environment that is listed and built again is itself (`ofList_toList`), as of two bindings of one name the
later one counts (`get?_ofList`).

`Env.rename r` binds `r name` where the environment binds `name`. If `r` gives no two names the same new one,
it commutes with look-ups (`get?_rename`) and with writes (`rename_insert`, `setValue?_rename`).
-/

namespace Slate.Env

variable {r : String → String}

/-! ## Environments as lists -/

theorem lookup_append (name : String) (l m : List (String × Binding)) :
    lookup name (l ++ m) = (lookup name l).or (lookup name m) := by
  induction l with
  | nil => rfl
  | cons x xs ih =>
    simp only [List.cons_append, lookup, ih]
    split
    · rfl
    · rfl

/-- A name is bound as it is bound last in the list. -/
theorem get?_ofList (l : List (String × Binding)) (name : String) :
    (ofList l).get? name = lookup name l.reverse := by
  suffices fold : ∀ env : Env, (l.foldl (fun env x => env.insert x.1 x.2) env).get? name =
      (lookup name l.reverse).or (env.get? name) by
    rw [ofList, fold, get?_empty, Option.or_none]
  induction l with
  | nil =>
    intro env
    rfl
  | cons x xs ih =>
    intro env
    rw [List.foldl_cons, ih, List.reverse_cons, lookup_append, Option.or_assoc, get?_insert]
    simp only [lookup]
    split
    · rfl
    · rfl

/-- Where no name is listed twice, the order does not matter. -/
theorem lookup_reverse (name : String) {l : List (String × Binding)}
    (sorted : l.Pairwise fun a b => a.1 < b.1) : lookup name l.reverse = lookup name l := by
  induction l with
  | nil => rfl
  | cons x xs ih =>
    obtain ⟨above, sorted⟩ := List.pairwise_cons.1 sorted
    rw [List.reverse_cons, lookup_append, ih sorted]
    by_cases e : x.1 = name
    · rw [lookup_eq_none_of_lt (e ▸ above)]
      simp only [lookup, if_pos e, Option.none_or]
    · simp only [lookup, if_neg e, Option.or_none]

theorem ofList_toList (env : Env) : ofList env.toList = env := by
  apply ext_get?
  intro name
  rw [get?_ofList]
  exact lookup_reverse name env.sorted

/-! ## Other names -/

/-- The environment with every name replaced. -/
def rename (r : String → String) (env : Env) : Env :=
  ofList (env.toList.map fun x => (r x.1, x.2))

theorem lookup_map_rename (inj : Function.Injective r) (name : String) (l : List (String × Binding)) :
    lookup (r name) (l.map fun x => (r x.1, x.2)) = lookup name l := by
  induction l with
  | nil => rfl
  | cons x xs ih => simp only [List.map_cons, lookup, inj.eq_iff, ih]

/-- A new name is bound as its old name was. -/
theorem get?_rename (inj : Function.Injective r) (env : Env) (name : String) :
    (env.rename r).get? (r name) = env.get? name := by
  rw [rename, get?_ofList, ← List.map_reverse, lookup_map_rename inj]
  exact lookup_reverse name env.sorted

/-- No other name is bound. -/
theorem get?_rename_of_notMem {name : String} (new : ∀ old, r old ≠ name) (env : Env) :
    (env.rename r).get? name = none := by
  rw [rename, get?_ofList, ← List.map_reverse]
  induction env.toList.reverse with
  | nil => rfl
  | cons x xs ih => simp only [List.map_cons, lookup, new, if_false, ih]

/-- To bind a name and to rename is to rename and to bind the new name. -/
theorem rename_insert (inj : Function.Injective r) (env : Env) (name : String) (b : Binding) :
    (env.insert name b).rename r = (env.rename r).insert (r name) b := by
  apply ext_get?
  intro other
  by_cases old : ∃ o, r o = other
  · obtain ⟨o, rfl⟩ := old
    rw [get?_rename inj, get?_insert, get?_insert, get?_rename inj]
    simp only [inj.eq_iff]
  · have new : ∀ o, r o ≠ other := fun o e => old ⟨o, e⟩
    rw [get?_rename_of_notMem new, get?_insert, if_neg (new name), get?_rename_of_notMem new]

theorem setValue?_rename (inj : Function.Injective r) (env : Env) (name value : String) :
    (env.rename r).setValue? (r name) value = (env.setValue? name value).map (Env.rename r) := by
  rw [setValue?, setValue?, get?_rename inj, Option.map_map]
  refine congrArg (Option.map · (env.get? name)) (funext fun b => ?_)
  exact (rename_insert inj env name _).symm

end Slate.Env
