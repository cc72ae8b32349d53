import Slate.Proofs.Json.Text

/-!
# A compact text has one value

What stands at the front of a compact text can be told from left to right: the first character of a value tells
its kind, a string ends at its quote, a number where no character of one stands, and an array or an object at the
bracket that comes where an item could.

* `toldApart` — two values at the front of one text are the same, and so is what stands behind them;
* `compact_inj` — two values with one compact text are the same.
-/

namespace Slate.Json

/-! ## Where a value ends -/

theorem endsNumber_nil : EndsNumber [] := fun _ h => by cases h

theorem endsNumber_cons {c : Char} (h : isNumberChar c = false) (text : List Char) : EndsNumber (c :: text) := by
  intro d hd
  cases hd
  exact h

/-- Behind an item comes a comma or the closing bracket. -/
theorem endsNumber_items (depth : Nat) (vs : List Json) (rest : List Char) :
    EndsNumber ((writeItems .compact depth vs).toList ++ ']' :: rest) := by
  cases vs with
  | nil => exact endsNumber_cons rfl _
  | cons v vs =>
    rw [compact_items]
    exact endsNumber_cons rfl _

theorem endsNumber_fields (depth : Nat) (fields : List (String × Json)) (rest : List Char) :
    EndsNumber ((writeFields .compact depth fields).toList ++ '}' :: rest) := by
  rcases fields with _ | ⟨⟨k, v⟩, fields⟩
  · exact endsNumber_cons rfl _
  · rw [compact_fields]
    exact endsNumber_cons rfl _

/-- No value starts with a bracket that closes, or with a comma. -/
theorem write_append_ne {c : Char} (h : Kind.ofFirst? c = none) (depth : Nat) (v : Json) (rest text : List Char) :
    (write .compact depth v).toList ++ rest ≠ c :: text := by
  obtain ⟨d, cs, first, kind⟩ := exists_first .compact depth v rest
  rw [first]
  intro e
  cases e
  cases kind.symm.trans h

/-- Values at the front of one text are of one kind. -/
theorem kind_eq {depth depth' : Nat} {v w : Json} {rest more : List Char}
    (h : (write .compact depth v).toList ++ rest = (write .compact depth' w).toList ++ more) : v.kind = w.kind := by
  obtain ⟨c, cs, first, kind⟩ := exists_first .compact depth v rest
  obtain ⟨d, ds, first', kind'⟩ := exists_first .compact depth' w more
  rw [first, first'] at h
  cases h
  exact Option.some.inj (kind.symm.trans kind')

/-- An empty array is told apart behind its first bracket. -/
theorem array_nil_ne {depth depth' : Nat} {w : Json} {ws : List Json} {rest more : List Char} :
    (write .compact depth (array [])).toList ++ rest ≠ (write .compact depth' (array (w :: ws))).toList ++ more := by
  intro h
  simp only [toList_write_array_nil, compact_array, List.cons_append, List.append_assoc, List.cons_inj_right] at h
  exact write_append_ne rfl _ _ _ _ h.symm

theorem object_nil_ne {depth depth' : Nat} {f : String × Json} {fields : List (String × Json)}
    {rest more : List Char} :
    (write .compact depth (object [])).toList ++ rest ≠
      (write .compact depth' (object (f :: fields))).toList ++ more := by
  intro h
  obtain ⟨k, w⟩ := f
  simp only [toList_write_object_nil, compact_object, toList_quote, List.cons_append, List.cons_inj_right] at h
  cases h

/-- Behind its first bracket an array goes on as its items behind a comma. -/
theorem exists_text_array (depth : Nat) (v : Json) (vs : List Json) (rest : List Char) :
    ∃ text, (write .compact depth (array (v :: vs))).toList ++ rest = '[' :: text ∧
      (writeItems .compact (depth + 1) (v :: vs)).toList ++ ']' :: rest = ',' :: text := by
  refine ⟨(write .compact (depth + 1) v).toList ++ ((writeItems .compact (depth + 1) vs).toList ++ ']' :: rest),
    ?_, ?_⟩
  · simp [compact_array]
  · simp [compact_items]

theorem exists_text_object (depth : Nat) (f : String × Json) (fields : List (String × Json)) (rest : List Char) :
    ∃ text, (write .compact depth (object (f :: fields))).toList ++ rest = '{' :: text ∧
      (writeFields .compact (depth + 1) (f :: fields)).toList ++ '}' :: rest = ',' :: text := by
  obtain ⟨k, v⟩ := f
  refine ⟨(quote k).toList ++ (':' :: ((write .compact (depth + 1) v).toList ++
    ((writeFields .compact (depth + 1) fields).toList ++ '}' :: rest))), ?_, ?_⟩
  · simp [compact_object]
  · simp [compact_fields]

/-! ## Values at the front of a text -/

/-- The value can be told at the front of any text. Only of a number it matters how the text goes on. -/
def ToldApart (v : Json) : Prop :=
  ∀ (w : Json) (depth depth' : Nat) (rest more : List Char), EndsNumber rest → EndsNumber more →
    (write .compact depth v).toList ++ rest = (write .compact depth' w).toList ++ more → v = w ∧ rest = more

theorem items_append_inj {vs : List Json} (told : ∀ v ∈ vs, ToldApart v) (ws : List Json) {depth depth' : Nat}
    {rest more : List Char} (h : (writeItems .compact depth vs).toList ++ ']' :: rest =
      (writeItems .compact depth' ws).toList ++ ']' :: more) : vs = ws ∧ rest = more := by
  induction vs generalizing ws with
  | nil =>
    cases ws with
    | nil =>
      simp only [writeItems_nil] at h
      cases h
      exact ⟨rfl, rfl⟩
    | cons w ws =>
      rw [compact_items, writeItems_nil] at h
      cases h
  | cons v vs ih =>
    cases ws with
    | nil =>
      rw [compact_items, writeItems_nil] at h
      cases h
    | cons w ws =>
      obtain ⟨first, others⟩ := List.forall_mem_cons.1 told
      simp only [compact_items, List.cons_append, List.append_assoc, List.cons_inj_right] at h
      obtain ⟨rfl, left⟩ := first w _ _ _ _ (endsNumber_items _ vs rest) (endsNumber_items _ ws more) h
      obtain ⟨rfl, rfl⟩ := ih others ws left
      exact ⟨rfl, rfl⟩

theorem fields_append_inj {fields : List (String × Json)} (told : ∀ f ∈ fields, ToldApart f.2)
    (others : List (String × Json)) {depth depth' : Nat} {rest more : List Char}
    (h : (writeFields .compact depth fields).toList ++ '}' :: rest =
      (writeFields .compact depth' others).toList ++ '}' :: more) : fields = others ∧ rest = more := by
  induction fields generalizing others with
  | nil =>
    rcases others with _ | ⟨⟨k, w⟩, others⟩
    · simp only [writeFields_nil] at h
      cases h
      exact ⟨rfl, rfl⟩
    · rw [compact_fields, writeFields_nil] at h
      cases h
  | cons f fields ih =>
    obtain ⟨k, v⟩ := f
    rcases others with _ | ⟨⟨k', w⟩, others⟩
    · rw [compact_fields, writeFields_nil] at h
      cases h
    · obtain ⟨first, toldOthers⟩ := List.forall_mem_cons.1 told
      simp only [compact_fields, List.cons_append, List.append_assoc, List.cons_inj_right] at h
      obtain ⟨rfl, value⟩ := quote_append_inj h
      rw [List.cons_inj_right] at value
      obtain ⟨rfl, left⟩ :=
        first w _ _ _ _ (endsNumber_fields _ fields rest) (endsNumber_fields _ others more) value
      obtain ⟨rfl, rfl⟩ := ih toldOthers others left
      exact ⟨rfl, rfl⟩

theorem toldApart_array {vs : List Json} (told : ∀ v ∈ vs, ToldApart v) : ToldApart (array vs) := by
  intro w depth depth' rest more _ _ h
  have kinds := kind_eq h
  cases w with
  | array ws =>
    cases vs with
    | nil =>
      cases ws with
      | nil =>
        rw [toList_write_array_nil, toList_write_array_nil] at h
        exact ⟨rfl, List.append_cancel_left h⟩
      | cons w ws => exact (array_nil_ne h).elim
    | cons v vs =>
      cases ws with
      | nil => exact (array_nil_ne h.symm).elim
      | cons w ws =>
        obtain ⟨text, open_, items⟩ := exists_text_array depth v vs rest
        obtain ⟨text', open', items'⟩ := exists_text_array depth' w ws more
        rw [open_, open', List.cons_inj_right] at h
        obtain ⟨same, left⟩ := items_append_inj told (w :: ws) (by rw [items, items', h])
        exact ⟨congrArg array same, left⟩
  | _ => cases kinds

theorem toldApart_object {fields : List (String × Json)} (told : ∀ f ∈ fields, ToldApart f.2) :
    ToldApart (object fields) := by
  intro w depth depth' rest more _ _ h
  have kinds := kind_eq h
  cases w with
  | object others =>
    cases fields with
    | nil =>
      cases others with
      | nil =>
        rw [toList_write_object_nil, toList_write_object_nil] at h
        exact ⟨rfl, List.append_cancel_left h⟩
      | cons g others => exact (object_nil_ne h).elim
    | cons f fields =>
      cases others with
      | nil => exact (object_nil_ne h.symm).elim
      | cons g others =>
        obtain ⟨text, open_, members⟩ := exists_text_object depth f fields rest
        obtain ⟨text', open', members'⟩ := exists_text_object depth' g others more
        rw [open_, open', List.cons_inj_right] at h
        obtain ⟨same, left⟩ := fields_append_inj told (g :: others) (by rw [members, members', h])
        exact ⟨congrArg object same, left⟩
  | _ => cases kinds

theorem toldApart (v : Json) : ToldApart v := by
  induction v using Json.induction with
  | null =>
    intro w depth depth' rest more _ _ h
    have kinds := kind_eq h
    cases w with
    | null =>
      rw [toList_write_null, toList_write_null] at h
      exact ⟨rfl, List.append_cancel_left h⟩
    | _ => cases kinds
  | bool a =>
    intro w depth depth' rest more _ _ h
    have kinds := kind_eq h
    cases w with
    | bool b =>
      cases a <;> cases b <;> simp only [toList_write_true, toList_write_false] at h <;> cases h
      · exact ⟨rfl, rfl⟩
      · exact ⟨rfl, rfl⟩
    | _ => cases kinds
  | number m =>
    intro w depth depth' rest more hr hm h
    have kinds := kind_eq h
    cases w with
    | number n =>
      rw [write, write] at h
      obtain ⟨rfl, left⟩ := number_append_inj hr hm h
      exact ⟨rfl, left⟩
    | _ => cases kinds
  | string s =>
    intro w depth depth' rest more _ _ h
    have kinds := kind_eq h
    cases w with
    | string t =>
      rw [write, write] at h
      obtain ⟨rfl, left⟩ := quote_append_inj h
      exact ⟨rfl, left⟩
    | _ => cases kinds
  | array vs ih => exact toldApart_array ih
  | object fields ih => exact toldApart_object ih

/-- A value is known by its compact text. -/
theorem compact_inj {v w : Json} (h : v.compact = w.compact) : v = w := by
  have texts : (write .compact 0 v).toList ++ [] = (write .compact 0 w).toList ++ [] :=
    congrArg (fun text : String => text.toList ++ []) h
  exact (toldApart v w 0 0 [] [] endsNumber_nil endsNumber_nil texts).1

end Slate.Json
