import Slate.Tree

/-!
# The names in a program

What a part of a program can have to do with which variables is told by the names in it:

* `Stmt.names` — all variables that occur, be they declared, assigned to, tested or read;
* `Stmt.occurrences` — the same with their places;
* `Stmt.declared`, `Stmt.assigned` — those of them that a declaration or an assignment gives a value;
* `Stmt.callees` — the functions that are called, which are no variables.

The lists are in the order of the text, with both blocks of a conditional.
-/

namespace Slate

/-! ## Variables -/

mutual

/-- The variables that occur in an expression. -/
def Expr.names : Expr → List String
  | .literal _ => []
  | .identifier x => [x.name]
  | .binary _ left right _ => left.names ++ right.names
  | .call _ arguments _ => namesOfExprs arguments
  | .assignment target value _ => target.name :: value.names

def namesOfExprs : List Expr → List String
  | [] => []
  | e :: es => e.names ++ namesOfExprs es

end

/-- The variables that occur in the declaration of one. -/
def Declarator.names (d : Declarator) : List String :=
  d.id.name ::
    match d.init with
    | some e => e.names
    | none => []

mutual

/-- The variables that occur in a statement. -/
def Stmt.names : Stmt → List String
  | .declaration _ ds _ => ds.flatMap Declarator.names
  | .expression e _ => e.names
  | .conditional test consequent alternate _ =>
    test.name :: (namesOfStmts consequent ++ namesOfStmts alternate)

def namesOfStmts : List Stmt → List String
  | [] => []
  | s :: ss => s.names ++ namesOfStmts ss

end

/-! ## Variables where they stand -/

mutual

/-- The variables that occur in an expression, each where it stands. -/
def Expr.occurrences : Expr → List Identifier
  | .literal _ => []
  | .identifier x => [x]
  | .binary _ left right _ => left.occurrences ++ right.occurrences
  | .call _ arguments _ => occurrencesOfExprs arguments
  | .assignment target value _ => target :: value.occurrences

def occurrencesOfExprs : List Expr → List Identifier
  | [] => []
  | e :: es => e.occurrences ++ occurrencesOfExprs es

end

/-- The variables that occur in the declaration of one, each where it stands. -/
def Declarator.occurrences (d : Declarator) : List Identifier :=
  d.id ::
    match d.init with
    | some e => e.occurrences
    | none => []

mutual

/-- The variables that occur in a statement, each where it stands. -/
def Stmt.occurrences : Stmt → List Identifier
  | .declaration _ ds _ => ds.flatMap Declarator.occurrences
  | .expression e _ => e.occurrences
  | .conditional test consequent alternate _ =>
    test :: (occurrencesOfStmts consequent ++ occurrencesOfStmts alternate)

def occurrencesOfStmts : List Stmt → List Identifier
  | [] => []
  | s :: ss => s.occurrences ++ occurrencesOfStmts ss

end

/-! ## Variables that are written to -/

mutual

/-- The variables that a statement declares. -/
def Stmt.declared : Stmt → List String
  | .declaration _ ds _ => ds.map fun d => d.id.name
  | .expression _ _ => []
  | .conditional _ consequent alternate _ => declaredIn consequent ++ declaredIn alternate

def declaredIn : List Stmt → List String
  | [] => []
  | s :: ss => s.declared ++ declaredIn ss

end

/-- The variable that an expression assigns to where it stands as a statement. An assignment inside an
expression gives nothing a value, it ends the run. -/
def Expr.assigned : Expr → List String
  | .assignment target _ _ => [target.name]
  | _ => []

mutual

/-- The variables that a statement assigns to. -/
def Stmt.assigned : Stmt → List String
  | .declaration .. => []
  | .expression e _ => e.assigned
  | .conditional _ consequent alternate _ => assignedIn consequent ++ assignedIn alternate

def assignedIn : List Stmt → List String
  | [] => []
  | s :: ss => s.assigned ++ assignedIn ss

end

theorem append_subset_append {l l' m m' : List String} (h : l ⊆ l') (h' : m ⊆ m') :
    l ++ m ⊆ l' ++ m' :=
  List.append_subset.2
    ⟨List.subset_append_of_subset_left m' h, List.subset_append_of_subset_right l' h'⟩

theorem Expr.assigned_subset (e : Expr) : e.assigned ⊆ e.names := by
  cases e <;> simp [assigned, names]

mutual

/-- What a statement declares occurs in it. -/
theorem Stmt.declared_subset : ∀ s : Stmt, s.declared ⊆ s.names
  | .declaration kind ds _ => by
    rw [Stmt.declared, Stmt.names]
    intro name h
    obtain ⟨d, hd, rfl⟩ := List.mem_map.1 h
    exact List.mem_flatMap.2 ⟨d, hd, List.mem_cons_self⟩
  | .expression e _ => by
    rw [Stmt.declared]
    exact List.nil_subset _
  | .conditional test consequent alternate _ => by
    rw [Stmt.declared, Stmt.names]
    exact List.subset_cons_of_subset _
      (append_subset_append (declaredIn_subset consequent) (declaredIn_subset alternate))

theorem declaredIn_subset : ∀ ss : List Stmt, declaredIn ss ⊆ namesOfStmts ss
  | [] => List.nil_subset _
  | s :: ss => by
    rw [declaredIn, namesOfStmts]
    exact append_subset_append s.declared_subset (declaredIn_subset ss)

end

mutual

/-- What a statement assigns to occurs in it. -/
theorem Stmt.assigned_subset : ∀ s : Stmt, s.assigned ⊆ s.names
  | .declaration kind ds _ => by
    rw [Stmt.assigned]
    exact List.nil_subset _
  | .expression e _ => by
    rw [Stmt.assigned, Stmt.names]
    exact e.assigned_subset
  | .conditional test consequent alternate _ => by
    rw [Stmt.assigned, Stmt.names]
    exact List.subset_cons_of_subset _
      (append_subset_append (assignedIn_subset consequent) (assignedIn_subset alternate))

theorem assignedIn_subset : ∀ ss : List Stmt, assignedIn ss ⊆ namesOfStmts ss
  | [] => List.nil_subset _
  | s :: ss => by
    rw [assignedIn, namesOfStmts]
    exact append_subset_append s.assigned_subset (assignedIn_subset ss)

end

/-! ## Functions -/

mutual

/-- The functions that are called in an expression. -/
def Expr.callees : Expr → List String
  | .literal _ | .identifier _ => []
  | .binary _ left right _ => left.callees ++ right.callees
  | .call callee arguments _ => callee.name :: calleesOfExprs arguments
  | .assignment _ value _ => value.callees

def calleesOfExprs : List Expr → List String
  | [] => []
  | e :: es => e.callees ++ calleesOfExprs es

end

/-- The functions that are called in the declaration of a variable. -/
def Declarator.callees (d : Declarator) : List String :=
  match d.init with
  | some e => e.callees
  | none => []

mutual

/-- The functions that are called in a statement. -/
def Stmt.callees : Stmt → List String
  | .declaration _ ds _ => ds.flatMap Declarator.callees
  | .expression e _ => e.callees
  | .conditional _ consequent alternate _ =>
    calleesOfStmts consequent ++ calleesOfStmts alternate

def calleesOfStmts : List Stmt → List String
  | [] => []
  | s :: ss => s.callees ++ calleesOfStmts ss

end

end Slate
