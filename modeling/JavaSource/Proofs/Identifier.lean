import JavaSource.Error

/-!
# Valid names

A name is valid if the check finds nothing wrong with it.  What the rest of the theory needs of a
valid identifier is that it is not empty, that it holds word characters only, so no dot and no
blank, and that it is not a reserved word.  A valid package name is empty or has valid identifiers
between its dots.  What is refused is refused with an error that has the name (`BlamesName`).
-/

namespace JavaSource

/-- A chain of two checked steps succeeds if both do. -/
theorem bind_eq_ok_iff {α β : Type} {x : Except Error α} {f : α → Except Error β} {b : β} :
    (x >>= f) = .ok b ↔ ∃ a, x = .ok a ∧ f a = .ok b := by
  cases x with
  | error e => simp [bind, Except.bind]
  | ok a => simp [bind, Except.bind]

/-- If this fails, it is about a name that is no identifier. -/
def BlamesName {α : Type} (x : Except Error α) : Prop :=
  ∀ e, x = .error e → ∃ name problem, e = .invalidIdentifier name problem

theorem blamesName_ok {α : Type} (a : α) : BlamesName (.ok a : Except Error α) := by
  intro e h
  cases h

theorem blamesName_error {α : Type} (name : String) (problem : Identifier.Problem) :
    BlamesName (.error (.invalidIdentifier name problem) : Except Error α) := by
  intro e h
  cases h
  exact ⟨name, problem, rfl⟩

theorem BlamesName.bind {α β : Type} {x : Except Error α} {f : α → Except Error β}
    (hx : BlamesName x) (hf : ∀ a, x = .ok a → BlamesName (f a)) : BlamesName (x >>= f) := by
  cases x with
  | ok a => exact hf a rfl
  | error e =>
    intro e' h
    cases h
    exact hx e rfl

namespace Identifier

/-- A name that passes the check. -/
def Valid (name : String) : Prop := problem? name = none

instance (name : String) : Decidable (Valid name) :=
  inferInstanceAs (Decidable (problem? name = none))

theorem check_eq_ok_iff {name : String} {u : Unit} : check name = .ok u ↔ Valid name := by
  unfold check Valid
  cases problem? name with
  | none => simp
  | some problem => simp

theorem blamesName_check (name : String) : BlamesName (check name) := by
  unfold check
  split
  · exact blamesName_ok _
  · exact blamesName_error _ _

theorem isPart_of_isStart {c : Char} (h : isStart c = true) : isPart c = true := by
  unfold isStart at h
  unfold isPart Text.isAlphanumeric
  simp only [Bool.or_eq_true] at h ⊢
  rcases h with (h | h) | h
  · exact Or.inl (Or.inl (Or.inl h))
  · exact Or.inl (Or.inr h)
  · exact Or.inr h

/-- The rules for an identifier, read off the check. -/
theorem valid_iff {name : String} :
    Valid name ↔ ∃ c cs, name.toList = c :: cs ∧ isStart c = true ∧
      (∀ x ∈ cs, isPart x = true) ∧ isReserved name = false := by
  unfold Valid problem?
  cases name.toList with
  | nil => simp
  | cons c cs =>
    simp only [List.cons.injEq, and_assoc, exists_and_left, exists_eq_left']
    rw [← List.all_eq_true]
    cases isStart c <;> cases cs.all isPart <;> cases isReserved name <;> simp

variable {name : String}

theorem Valid.isPart (h : Valid name) {c : Char} (hc : c ∈ name.toList) : isPart c = true := by
  obtain ⟨d, ds, hn, hd, hds, -⟩ := valid_iff.mp h
  rw [hn] at hc
  rcases List.mem_cons.mp hc with rfl | hc
  · exact isPart_of_isStart hd
  · exact hds c hc

theorem Valid.isReserved (h : Valid name) : isReserved name = false := by
  obtain ⟨_, _, _, _, _, hr⟩ := valid_iff.mp h
  exact hr

theorem Valid.toList_ne_nil (h : Valid name) : name.toList ≠ [] := by
  obtain ⟨d, ds, hn, _⟩ := valid_iff.mp h
  simp [hn]

/-- A character that no identifier has, such as the dot, is not in a valid one. -/
theorem Valid.notMem (h : Valid name) {c : Char} (hc : Identifier.isPart c = false) :
    c ∉ name.toList := by
  intro hm
  rw [h.isPart hm] at hc
  exact Bool.noConfusion hc

/-- Reserved words keep all other rules for an identifier. -/
theorem exists_of_isReserved (h : Identifier.isReserved name = true) :
    ∃ c cs, name.toList = c :: cs ∧ isStart c = true ∧ ∀ x ∈ cs, Identifier.isPart x = true := by
  have hall : reservedWords.all (fun word =>
      word.toList.head?.any isStart && word.toList.tail.all Identifier.isPart) = true := by
    decide
  have hname := List.all_eq_true.mp hall name (List.contains_iff_mem.mp h)
  rw [Bool.and_eq_true, List.all_eq_true] at hname
  cases hlist : name.toList with
  | nil =>
    rw [hlist] at hname
    exact Bool.noConfusion hname.1
  | cons c cs =>
    rw [hlist] at hname
    exact ⟨c, cs, rfl, hname.1, hname.2⟩

theorem isPart_dot : Identifier.isPart '.' = false := by decide

theorem Valid.dot_notMem (h : Valid name) : '.' ∉ name.toList := h.notMem isPart_dot

end Identifier

namespace Package

/-- A package name that passes the check. -/
def Valid (name : String) : Prop := problem? name = none

instance (name : String) : Decidable (Valid name) :=
  inferInstanceAs (Decidable (problem? name = none))

theorem check_eq_ok_iff {name : String} {u : Unit} : check name = .ok u ↔ Valid name := by
  unfold check Valid
  cases problem? name with
  | none => simp
  | some problem => simp

theorem blamesName_check (name : String) : BlamesName (check name) := by
  unfold check
  split
  · exact blamesName_ok _
  · exact blamesName_error _ _

/-- The unnamed package, or identifiers between dots. -/
theorem valid_iff {name : String} :
    Valid name ↔ name = "" ∨ ∀ segment ∈ Text.fieldsOf '.' name, Identifier.Valid segment := by
  unfold Valid problem?
  by_cases h : name = ""
  · simp [h]
  · simp only [h, if_false, false_or]
    rw [List.findSome?_eq_none_iff]
    rfl

theorem qualify_empty (name : String) : qualify "" name = name := rfl

theorem qualify_of_ne {package : String} (h : package ≠ "") (name : String) :
    qualify package name = package ++ "." ++ name := if_neg h

theorem qualify_eq_append (package name : String) :
    qualify package name = (if package = "" then "" else package ++ ".") ++ name := by
  by_cases h : package = ""
  · rw [h, qualify_empty, if_pos rfl, String.empty_append]
  · rw [qualify_of_ne h, if_neg h]

theorem toList_qualify_of_ne {package : String} (h : package ≠ "") (name : String) :
    (qualify package name).toList = package.toList ++ '.' :: name.toList := by
  rw [qualify_of_ne h, String.toList_append, String.toList_append]
  simp

end Package

end JavaSource
