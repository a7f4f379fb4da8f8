import JavaSource.CompilationUnit
import JavaSource.Proofs.Identifier
import Mathlib.Data.List.Nodup

/-!
# Import tables over whole runs

A table that was filled by additions only is consistent: each class is filed under the simple name
that it binds, and no name is filed twice.  In a consistent table a look-up by simple name and the
list of imported classes say the same (`Consistent.get?_eq_some_iff`), which is what makes it safe
to ask for a class through the name that it binds.
-/

namespace JavaSource

namespace Imports

/-- Classes are filed under the names that they bind, each name once. -/
structure Consistent (t : Imports) : Prop where
  bound : ∀ entry ∈ t.entries, entry.1 = boundName entry.2
  nodup : (t.entries.map Prod.fst).Nodup

/-- The package and the simple name to bind pass the checks. -/
def Admissible (qualified : String) : Prop :=
  Package.Valid (splitQualified qualified).1 ∧ Identifier.Valid (boundName qualified)

instance (qualified : String) : Decidable (Admissible qualified) :=
  inferInstanceAs (Decidable (_ ∧ _))

/-- The tables that requests lead to, whether they succeed or fail. -/
inductive Reachable : Imports → Prop
  | empty : Reachable empty
  | add {t : Imports} (ht : Reachable t) (qualified : String) : Reachable (t.add qualified).1
  | addType {t : Imports} (ht : Reachable t) (type : TypeRef) : Reachable (t.addType type).1
  | merge {t other : Imports} (ht : Reachable t) (ho : Reachable other) :
      Reachable (t.merge other).1

/-! ## Looking up -/

theorem get?_eq_none_iff {t : Imports} {name : String} :
    t.get? name = none ↔ name ∉ t.entries.map Prod.fst := by
  simp only [get?, Option.map_eq_none_iff, List.find?_eq_none, decide_eq_true_eq, List.mem_map,
    not_exists, not_and]

/-- Entries in front are found first. -/
theorem get?_append (xs ys : List (String × String)) (name : String) :
    get? ⟨xs ++ ys⟩ name = (get? ⟨xs⟩ name).or (get? ⟨ys⟩ name) := by
  rw [get?, get?, get?, List.find?_append, Option.map_or]

theorem get?_singleton (simple qualified name : String) :
    get? ⟨[(simple, qualified)]⟩ name = if simple = name then some qualified else none := by
  by_cases h : simple = name
  · simp [get?, h]
  · simp [get?, h]

theorem mem_entries_of_get? {t : Imports} {name qualified : String}
    (h : t.get? name = some qualified) : (name, qualified) ∈ t.entries := by
  obtain ⟨entry, hfind, hsnd⟩ := Option.map_eq_some_iff.mp h
  have hfst : entry.1 = name := by simpa using List.find?_some hfind
  have hmem := List.mem_of_find?_eq_some hfind
  rw [← hfst, ← hsnd]
  exact hmem

namespace Consistent

variable {t : Imports}

theorem mem_toList_iff (h : t.Consistent) {qualified : String} :
    qualified ∈ t.toList ↔ (boundName qualified, qualified) ∈ t.entries := by
  constructor
  · intro hq
    obtain ⟨⟨name, q⟩, hentry, rfl⟩ := List.mem_map.mp hq
    have hname : name = boundName q := h.bound _ hentry
    exact hname ▸ hentry
  · intro hentry
    exact List.mem_map.mpr ⟨_, hentry, rfl⟩

/-- A simple name stands for the one imported class that binds it. -/
theorem get?_eq_some_iff (h : t.Consistent) {name qualified : String} :
    t.get? name = some qualified ↔ qualified ∈ t.toList ∧ boundName qualified = name := by
  constructor
  · intro hget
    have hentry := mem_entries_of_get? hget
    exact ⟨List.mem_map.mpr ⟨_, hentry, rfl⟩, (h.bound _ hentry).symm⟩
  · rintro ⟨hq, rfl⟩
    have hentry := h.mem_toList_iff.mp hq
    cases hget : t.get? (boundName qualified) with
    | none => exact absurd (List.mem_map.mpr ⟨_, hentry, rfl⟩) (get?_eq_none_iff.mp hget)
    | some other =>
      -- Both entries are filed under one name, so they are one entry.
      have hother := mem_entries_of_get? hget
      have heq := List.inj_on_of_nodup_map h.nodup hother hentry rfl
      exact congrArg (some ·.2) heq

theorem contains_iff (h : t.Consistent) {qualified : String} :
    t.contains qualified = true ↔ qualified ∈ t.toList := by
  rw [contains, decide_eq_true_eq, h.get?_eq_some_iff]
  exact and_iff_left rfl

theorem binds_iff (h : t.Consistent) {name : String} :
    t.binds name = true ↔ ∃ qualified ∈ t.toList, boundName qualified = name := by
  rw [binds, Option.isSome_iff_exists]
  exact exists_congr fun _ => h.get?_eq_some_iff

/-- Two imported classes never bind the same name. -/
theorem eq_of_boundName_eq (h : t.Consistent) {p q : String} (hp : p ∈ t.toList)
    (hq : q ∈ t.toList) (heq : boundName p = boundName q) : p = q := by
  have hgetp := h.get?_eq_some_iff.mpr ⟨hp, heq⟩
  have hgetq := h.get?_eq_some_iff.mpr ⟨hq, rfl⟩
  rw [hgetp] at hgetq
  exact Option.some.inj hgetq

end Consistent

/-! ## What an addition does

There are four cases, and only one of them changes the table. -/

section add

variable {t t' : Imports} {qualified : String}

theorem add_of_not_admissible (h : ¬Admissible qualified) (t : Imports) :
    ∃ e, t.add qualified = (t, some e) := by
  unfold add
  cases hpackage : Package.check (splitQualified qualified).1 with
  | error e => exact ⟨e, by simp only [hpackage]; rfl⟩
  | ok _ =>
    cases hname : Identifier.check (splitQualified qualified).2 with
    | error e => exact ⟨e, by simp only [hpackage, hname]; rfl⟩
    | ok _ =>
      exact absurd ⟨Package.check_eq_ok_iff.mp hpackage, Identifier.check_eq_ok_iff.mp hname⟩ h

/-- The checks passed, it is the entry under the simple name that decides. -/
theorem add_of_admissible (h : Admissible qualified) (t : Imports) :
    t.add qualified = (t.get? (boundName qualified)).elim
      (⟨t.entries ++ [(boundName qualified, qualified)]⟩, none) fun existing =>
        if existing = qualified then (t, none)
        else (t, some (.importConflict (boundName qualified) existing qualified)) := by
  have hpackage : Package.check (splitQualified qualified).1 = .ok () :=
    Package.check_eq_ok_iff.mpr h.1
  have hname : Identifier.check (splitQualified qualified).2 = .ok () :=
    Identifier.check_eq_ok_iff.mpr h.2
  unfold add boundName
  simp only [hpackage, hname]
  cases t.get? (splitQualified qualified).2 <;> rfl

theorem add_of_get?_none (h : Admissible qualified) (hget : t.get? (boundName qualified) = none) :
    t.add qualified = (⟨t.entries ++ [(boundName qualified, qualified)]⟩, none) := by
  rw [add_of_admissible h, hget, Option.elim_none]

theorem add_of_get?_self (h : Admissible qualified)
    (hget : t.get? (boundName qualified) = some qualified) : t.add qualified = (t, none) := by
  rw [add_of_admissible h, hget, Option.elim_some, if_pos rfl]

theorem add_of_get?_ne {existing : String} (h : Admissible qualified)
    (hget : t.get? (boundName qualified) = some existing) (hne : existing ≠ qualified) :
    t.add qualified = (t, some (.importConflict (boundName qualified) existing qualified)) := by
  rw [add_of_admissible h, hget, Option.elim_some, if_neg hne]

/-- An addition that succeeds finds the class there already, or appends it under a new name. -/
theorem add_eq_none_iff :
    t.add qualified = (t', none) ↔ Admissible qualified ∧
      ((t.get? (boundName qualified) = some qualified ∧ t' = t) ∨
        (t.get? (boundName qualified) = none ∧
          t' = ⟨t.entries ++ [(boundName qualified, qualified)]⟩)) := by
  by_cases h : Admissible qualified
  · cases hget : t.get? (boundName qualified) with
    | none => simp [add_of_get?_none h hget, h, eq_comm]
    | some existing =>
      by_cases hsame : existing = qualified
      · subst hsame
        simp [add_of_get?_self h hget, h, eq_comm]
      · simp [add_of_get?_ne h hget hsame, h, hsame]
  · obtain ⟨e, he⟩ := add_of_not_admissible h t
    simp [he, h]

/-- An addition that fails leaves the table as it was. -/
theorem eq_of_add_eq_some {e : Error} (h : t.add qualified = (t', some e)) : t' = t := by
  by_cases hq : Admissible qualified
  · cases hget : t.get? (boundName qualified) with
    | none =>
      rw [add_of_get?_none hq hget] at h
      cases h
    | some existing =>
      by_cases hsame : existing = qualified
      · rw [add_of_get?_self hq (hget.trans (congrArg some hsame))] at h
        cases h
      · rw [add_of_get?_ne hq hget hsame] at h
        cases h
        rfl
  · obtain ⟨e', he⟩ := add_of_not_admissible hq t
    rw [he] at h
    cases h
    rfl

theorem addType_of_isClass {type : TypeRef} (h : type.isClass = true) (t : Imports) :
    t.addType type = t.add type.qualifiedName := if_pos h

theorem addType_of_not_isClass {type : TypeRef} (h : ¬type.isClass = true) (t : Imports) :
    t.addType type = (t, some (.invalidTypeOperation .importType type.qualifiedName)) := if_neg h

/-- What holds of a table holds after an addition if it holds after every successful one. -/
theorem add_induction {motive : Imports → Prop} (h : motive t)
    (hadd : ∀ t', t.add qualified = (t', none) → motive t') : motive (t.add qualified).1 := by
  rcases hresult : t.add qualified with ⟨t', _ | e⟩
  · exact hadd t' hresult
  · rw [eq_of_add_eq_some hresult]
    exact h

theorem mem_toList_add {other : String} (h : t.add qualified = (t', none)) :
    other ∈ t'.toList ↔ other ∈ t.toList ∨ other = qualified := by
  obtain ⟨-, ⟨hget, rfl⟩ | ⟨-, rfl⟩⟩ := add_eq_none_iff.mp h
  · have hmem : qualified ∈ t'.toList := List.mem_map.mpr ⟨_, mem_entries_of_get? hget, rfl⟩
    exact (or_iff_left_of_imp fun heq => heq ▸ hmem).symm
  · simp [toList]

theorem addAll_cons_of_none (h : t.add qualified = (t', none)) (names : List String) :
    t.addAll (qualified :: names) = t'.addAll names := by
  rw [addAll, h]

theorem addAll_cons_of_some {e : Error} (h : t.add qualified = (t', some e))
    (names : List String) : t.addAll (qualified :: names) = (t, some e) := by
  rw [addAll, h, eq_of_add_eq_some h]

end add

namespace Consistent

variable {t : Imports}

theorem empty : Consistent empty := by
  refine ⟨?_, ?_⟩
  · intro entry hentry
    exact absurd hentry (by simp [Imports.empty])
  · simp [Imports.empty]

theorem add (ht : t.Consistent) (qualified : String) : (t.add qualified).1.Consistent := by
  refine add_induction ht fun t' h => ?_
  obtain ⟨-, ⟨-, rfl⟩ | ⟨hnew, rfl⟩⟩ := add_eq_none_iff.mp h
  · exact ht
  · refine ⟨?_, ?_⟩
    · intro entry hentry
      rcases List.mem_append.mp hentry with hentry | hentry
      · exact ht.bound entry hentry
      · rw [List.mem_singleton.mp hentry]
    · have hfresh := get?_eq_none_iff.mp hnew
      rw [List.map_append, List.nodup_append]
      refine ⟨ht.nodup, by simp, ?_⟩
      intro name hname other hother heq
      have hother : other = boundName qualified := by simpa using hother
      exact hfresh (hother ▸ heq ▸ hname)

theorem addType (ht : t.Consistent) (type : TypeRef) : (t.addType type).1.Consistent := by
  by_cases hclass : type.isClass = true
  · rw [addType_of_isClass hclass]
    exact ht.add _
  · rw [addType_of_not_isClass hclass]
    exact ht

/-- However far a run of additions comes, what it leaves is consistent. -/
theorem addAll (ht : t.Consistent) (names : List String) : (t.addAll names).1.Consistent := by
  induction names generalizing t with
  | nil => exact ht
  | cons qualified rest ih =>
    have hnext := ht.add qualified
    rcases hadd : t.add qualified with ⟨t', _ | e⟩
    · rw [hadd] at hnext
      rw [addAll_cons_of_none hadd]
      exact ih hnext
    · rw [addAll_cons_of_some hadd]
      exact ht

end Consistent

theorem Reachable.consistent {t : Imports} (h : Reachable t) : t.Consistent := by
  induction h with
  | empty => exact .empty
  | add _ qualified ih => exact ih.add qualified
  | addType _ type ih => exact ih.addType type
  | merge _ _ ih _ => exact ih.addAll _

end Imports

namespace CompilationUnit

/-- The units that a package, imports and known classes lead to. -/
inductive Reachable : CompilationUnit → Prop
  | ofPackage {package : String} {u : CompilationUnit} (h : ofPackage package = .ok u) :
      Reachable u
  | withImport {u v : CompilationUnit} {qualified : String} (hu : Reachable u)
      (h : u.withImport qualified = .ok v) : Reachable v
  | withImports {u : CompilationUnit} {imports : Imports} (hu : Reachable u)
      (h : imports.Reachable) : Reachable (u.withImports imports)
  | withClasses {u : CompilationUnit} (hu : Reachable u) (classes : KnownClasses) :
      Reachable (u.withClasses classes)

theorem withImport_eq_ok_iff {u v : CompilationUnit} {qualified : String} :
    u.withImport qualified = .ok v ↔
      ∃ imports, u.imports.add qualified = (imports, none) ∧ v = { u with imports } := by
  rw [withImport]
  rcases u.imports.add qualified with ⟨imports, _ | e⟩
  · simp [eq_comm]
  · simp

theorem Reachable.imports {u : CompilationUnit} (h : Reachable u) : u.imports.Reachable := by
  induction h with
  | ofPackage h =>
    obtain ⟨_, -, hu⟩ := bind_eq_ok_iff.mp h
    cases hu
    exact .empty
  | @withImport u v qualified _ h ih =>
    obtain ⟨imports, hadd, rfl⟩ := withImport_eq_ok_iff.mp h
    have hnext := ih.add qualified
    rw [hadd] at hnext
    exact hnext
  | withImports _ h _ => exact h
  | withClasses _ _ ih => exact ih

end CompilationUnit

end JavaSource
