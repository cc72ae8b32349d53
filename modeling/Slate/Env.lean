import Slate.Ty

/-!
# Environments

What a program knows of its variables: for each name a `Binding`, the type, the text of the value if
there is one, and whether it can be assigned to. An environment never changes; `insert` and
`setValue?` give a new one, so an earlier one can be kept and gone back to.

The bindings are listed by name, lowest first and each name once. So two environments are equal
exactly when they bind the same names in the same way, however they came about.

* `get?_empty`, `get?_insert`: an environment as a map;
* `ext_get?`: equal look-ups make equal environments;
* `Env.ofList`: of two bindings of one name the later one counts.
-/

namespace Slate

/-- What is known of a variable. -/
structure Binding where
  type : Ty
  /-- The text of the value. A variable without one is declared and not initialised. -/
  value : Option String
  isMutable : Bool
  deriving DecidableEq

/-- Bindings by name. -/
structure Env where
  bindings : List (String × Binding)
  sorted : bindings.Pairwise fun a b => a.1 < b.1
  deriving DecidableEq

namespace Env

/-- The environment without variables. -/
def empty : Env := ⟨[], .nil⟩

instance : EmptyCollection Env := ⟨empty⟩
instance : Inhabited Env := ⟨empty⟩

/-! ### Sorted lists of bindings -/

/-- The binding of a name in a list. -/
def lookup (name : String) : List (String × Binding) → Option Binding
  | [] => none
  | (k, b) :: rest => if k = name then some b else lookup name rest

/-- Puts a binding in its place, and drops the one that the name had. -/
def place (name : String) (b : Binding) : List (String × Binding) → List (String × Binding)
  | [] => [(name, b)]
  | (k, c) :: rest =>
    if name < k then (name, b) :: (k, c) :: rest
    else if k = name then (name, b) :: rest
    else (k, c) :: place name b rest

theorem mem_place {name : String} {b : Binding} {l : List (String × Binding)}
    {x : String × Binding} (h : x ∈ place name b l) : x.1 = name ∨ x ∈ l := by
  induction l with
  | nil => simp_all [place]
  | cons y ys ih =>
    obtain ⟨k, c⟩ := y
    unfold place at h
    split at h
    · rcases List.mem_cons.1 h with rfl | h
      · exact .inl rfl
      · exact .inr h
    · split at h
      · rcases List.mem_cons.1 h with rfl | h
        · exact .inl rfl
        · exact .inr (.tail _ h)
      · rcases List.mem_cons.1 h with rfl | h
        · exact .inr (.head _)
        · exact (ih h).imp_right (.tail _)

theorem lt_of_not_lt_of_ne {a b : String} (h : ¬ a < b) (ne : b ≠ a) : b < a :=
  Classical.byContradiction fun h' => ne (String.le_antisymm (String.not_lt.1 h) (String.not_lt.1 h'))

theorem sorted_place (name : String) (b : Binding) {l : List (String × Binding)}
    (h : l.Pairwise fun a b => a.1 < b.1) :
    (place name b l).Pairwise fun a b => a.1 < b.1 := by
  induction l with
  | nil => simp [place]
  | cons y ys ih =>
    obtain ⟨k, c⟩ := y
    obtain ⟨hk, hys⟩ := List.pairwise_cons.1 h
    unfold place
    split
    · next lt =>
      refine List.pairwise_cons.2 ⟨fun x hx => ?_, h⟩
      rcases List.mem_cons.1 hx with rfl | hx
      · exact lt
      · exact String.lt_trans lt (hk x hx)
    · next nlt =>
      split
      · next e => exact List.pairwise_cons.2 ⟨e ▸ hk, hys⟩
      · next ne =>
        refine List.pairwise_cons.2 ⟨fun x hx => ?_, ih hys⟩
        rcases mem_place hx with e | hx
        · exact e ▸ lt_of_not_lt_of_ne nlt ne
        · exact hk x hx

/-! ### Operations -/

/-- The binding of a name. -/
def get? (env : Env) (name : String) : Option Binding := lookup name env.bindings

def contains (env : Env) (name : String) : Bool := (env.get? name).isSome

/-- How many names are bound. -/
def size (env : Env) : Nat := env.bindings.length

def isEmpty (env : Env) : Bool := env.bindings.isEmpty

/-- Binds a name, or binds it anew. -/
def insert (env : Env) (name : String) (b : Binding) : Env :=
  ⟨place name b env.bindings, sorted_place name b env.sorted⟩

/-- Gives a bound name a value. Its type and whether it can be assigned to stay. -/
def setValue? (env : Env) (name value : String) : Option Env :=
  (env.get? name).map fun b => env.insert name { b with value := some value }

/-- The environment of a list of bindings. -/
def ofList (l : List (String × Binding)) : Env :=
  l.foldl (fun env x => env.insert x.1 x.2) empty

/-- All bindings, by name. -/
def toList (env : Env) : List (String × Binding) := env.bindings

/-! ### Environments as maps -/

theorem lookup_eq_none_of_lt {name : String} {l : List (String × Binding)}
    (h : ∀ x ∈ l, name < x.1) : lookup name l = none := by
  induction l with
  | nil => rfl
  | cons y ys ih =>
    have ne : y.1 ≠ name := fun e => String.lt_irrefl _ (e ▸ h y (.head _))
    simp only [lookup, ne, if_false]
    exact ih fun x hx => h x (.tail _ hx)

theorem lookup_place (name other : String) (b : Binding) {l : List (String × Binding)}
    (h : l.Pairwise fun a b => a.1 < b.1) :
    lookup other (place name b l) = if name = other then some b else lookup other l := by
  induction l with
  | nil => rfl
  | cons y ys ih =>
    obtain ⟨k, c⟩ := y
    obtain ⟨hk, hys⟩ := List.pairwise_cons.1 h
    unfold place
    split
    · rfl
    · next nlt =>
      split
      · next e => subst e; simp only [lookup]; split <;> rfl
      · next ne =>
        simp only [lookup, ih hys]
        split
        · next e => subst e; rw [if_neg (Ne.symm ne)]
        · rfl

@[simp] theorem get?_empty (name : String) : empty.get? name = none := rfl

theorem get?_insert (env : Env) (name other : String) (b : Binding) :
    (env.insert name b).get? other = if name = other then some b else env.get? other :=
  lookup_place name other b env.sorted

theorem eq_of_lookup_eq {l m : List (String × Binding)}
    (hl : l.Pairwise fun a b => a.1 < b.1) (hm : m.Pairwise fun a b => a.1 < b.1)
    (h : ∀ name, lookup name l = lookup name m) : l = m := by
  induction l generalizing m with
  | nil =>
    cases m with
    | nil => rfl
    | cons y ys => simpa [lookup] using h y.1
  | cons x xs ih =>
    cases m with
    | nil => simpa [lookup] using h x.1
    | cons y ys =>
      obtain ⟨hx, hxs⟩ := List.pairwise_cons.1 hl
      obtain ⟨hy, hys⟩ := List.pairwise_cons.1 hm
      have key : x.1 = y.1 := by
        rcases Classical.em (x.1 < y.1) with lt | nlt
        · have := h x.1
          rw [lookup, if_pos rfl, lookup_eq_none_of_lt] at this
          · cases this
          · intro z hz
            rcases List.mem_cons.1 hz with rfl | hz
            · exact lt
            · exact String.lt_trans lt (hy z hz)
        · rcases Classical.em (y.1 < x.1) with lt | nlt'
          · have := h y.1
            rw [lookup_eq_none_of_lt, lookup, if_pos rfl] at this
            · cases this
            · intro z hz
              rcases List.mem_cons.1 hz with rfl | hz
              · exact lt
              · exact String.lt_trans lt (hx z hz)
          · exact String.le_antisymm (String.not_lt.1 nlt') (String.not_lt.1 nlt)
      have value : x.2 = y.2 := by
        have := h x.1
        rw [lookup, if_pos rfl, lookup, if_pos key.symm] at this
        exact Option.some.inj this
      have rest : ∀ name, lookup name xs = lookup name ys := by
        intro name
        rcases Classical.em (x.1 = name) with e | ne
        · rw [lookup_eq_none_of_lt (e ▸ hx), lookup_eq_none_of_lt (e ▸ key ▸ hy)]
        · have := h name
          rwa [lookup, if_neg ne, lookup, if_neg (key ▸ ne)] at this
      rw [ih hxs hys rest, Prod.ext key value]

/-- Environments that answer alike are equal. -/
theorem ext_get? {a b : Env} (h : ∀ name, a.get? name = b.get? name) : a = b := by
  cases a; cases b
  congr
  exact eq_of_lookup_eq ‹_› ‹_› h

end Env
end Slate
