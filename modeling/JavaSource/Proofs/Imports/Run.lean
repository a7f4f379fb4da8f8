import JavaSource.Proofs.Imports
import JavaSource.Proofs.Imports.Declaration

/-!
# The table that a run of requests leaves

Requests are answered one after the other, and the ones that fail leave the table as it was
(`request_of_ne_none`).  What a table holds in the end depends on the requests alone: those whose
names pass the checks are taken in order, and of the ones that bind the same simple name only the
first counts (`run_eq`).  `run_filled` collects what a reader of the table can tell from that.
-/

namespace JavaSource.Imports

inductive Request where
  | name (qualified : String)
  | type (type : TypeRef)

namespace Request

/-- The class that is asked for; of the types, only a class without arguments can be. -/
def qualified? : Request → Option String
  | name qualified => some qualified
  | type t => if t.isClass then some t.qualifiedName else none

def admitted? (r : Request) : Option String := r.qualified?.filter fun q => Admissible q

theorem admitted?_eq_some_iff {r : Request} {qualified : String} :
    r.admitted? = some qualified ↔ r.qualified? = some qualified ∧ Admissible qualified := by
  rw [admitted?, Option.filter_eq_some_iff, decide_eq_true_eq]

end Request

/-- The table after a request, and the error if the request failed. -/
def request (t : Imports) : Request → Imports × Option Error
  | .name qualified => t.add qualified
  | .type type => t.addType type

def run (t : Imports) (requests : List Request) : Imports :=
  requests.foldl (fun t r => (t.request r).1) t

/-- The names that pass the checks, in the order of the requests. -/
def admitted (requests : List Request) : List String := requests.filterMap Request.admitted?

/-- Of the names that bind the same simple name, only the first. -/
def firsts : List String → List String
  | [] => []
  | qualified :: rest =>
    qualified :: (firsts rest).filter fun other => boundName other ≠ boundName qualified

/-! ## One request -/

section request

variable {t t' : Imports} {r : Request} {qualified : String}

theorem request_of_qualified? (h : r.qualified? = some qualified) (t : Imports) :
    t.request r = t.add qualified := by
  cases r with
  | name q =>
    cases h
    rfl
  | type type =>
    rw [Request.qualified?] at h
    split at h
    · next hclass =>
      cases h
      exact addType_of_isClass hclass t
    · cases h

theorem request_of_qualified?_none (h : r.qualified? = none) (t : Imports) :
    ∃ e, t.request r = (t, some e) := by
  cases r with
  | name q => cases h
  | type type =>
    rw [Request.qualified?] at h
    split at h
    · cases h
    · next hclass => exact ⟨_, addType_of_not_isClass hclass t⟩

theorem request_of_admitted?_none (h : r.admitted? = none) (t : Imports) :
    ∃ e, t.request r = (t, some e) := by
  cases hq : r.qualified? with
  | none => exact request_of_qualified?_none hq t
  | some qualified =>
    have hrefused : ¬Admissible qualified := by
      intro hadmissible
      rw [Request.admitted?_eq_some_iff.mpr ⟨hq, hadmissible⟩] at h
      cases h
    rw [request_of_qualified? hq]
    exact add_of_not_admissible hrefused t

theorem request_of_unbound (h : r.admitted? = some qualified)
    (hget : t.get? (boundName qualified) = none) :
    t.request r = (⟨t.entries ++ [(boundName qualified, qualified)]⟩, none) := by
  obtain ⟨hq, hadmissible⟩ := Request.admitted?_eq_some_iff.mp h
  rw [request_of_qualified? hq, add_of_get?_none hadmissible hget]

/-- A name that is bound stays bound to what it was bound to; it is an error to ask for another. -/
theorem request_of_bound {existing : String} (h : r.admitted? = some qualified)
    (hget : t.get? (boundName qualified) = some existing) :
    (t.request r).1 = t ∧ ((t.request r).2 = none ↔ existing = qualified) := by
  obtain ⟨hq, hadmissible⟩ := Request.admitted?_eq_some_iff.mp h
  rw [request_of_qualified? hq]
  by_cases hsame : existing = qualified
  · rw [add_of_get?_self hadmissible (hget.trans (congrArg some hsame))]
    exact ⟨rfl, iff_of_true rfl hsame⟩
  · rw [add_of_get?_ne hadmissible hget hsame]
    exact ⟨rfl, iff_of_false (Option.some_ne_none _) hsame⟩

theorem request_ne_none_iff :
    (t.request r).2 ≠ none ↔ r.admitted? = none ∨
      ∃ qualified existing, r.admitted? = some qualified ∧
        t.get? (boundName qualified) = some existing ∧ existing ≠ qualified := by
  cases h : r.admitted? with
  | none =>
    obtain ⟨e, he⟩ := request_of_admitted?_none h t
    simp [he]
  | some qualified =>
    cases hget : t.get? (boundName qualified) with
    | none => simp [request_of_unbound h hget, hget]
    | some existing => simp [(request_of_bound h hget).2, hget]

theorem request_of_ne_none (h : (t.request r).2 ≠ none) : (t.request r).1 = t := by
  rcases request_ne_none_iff.mp h with hnone | ⟨qualified, existing, hq, hget, -⟩
  · obtain ⟨e, he⟩ := request_of_admitted?_none hnone t
    rw [he]
  · exact (request_of_bound hq hget).1

theorem entries_prefix_request (t : Imports) (r : Request) :
    t.entries <+: (t.request r).1.entries := by
  cases h : r.admitted? with
  | none =>
    obtain ⟨e, he⟩ := request_of_admitted?_none h t
    simp only [he, List.prefix_refl]
  | some qualified =>
    cases hget : t.get? (boundName qualified) with
    | none =>
      rw [request_of_unbound h hget]
      exact List.prefix_append _ _
    | some existing => simp only [(request_of_bound h hget).1, List.prefix_refl]

end request

/-! ## The first of each name -/

theorem find?_firsts (names : List String) (name : String) :
    (firsts names).find? (boundName · = name) = names.find? (boundName · = name) := by
  induction names with
  | nil => rfl
  | cons qualified rest ih =>
    rw [firsts, List.find?_cons, List.find?_cons]
    by_cases h : boundName qualified = name
    · simp [h]
    · -- What the filter takes away binds the name in front, which is not the one looked for.
      have hkept : ((firsts rest).filter fun other => boundName other ≠ boundName qualified).find?
          (boundName · = name) = (firsts rest).find? (boundName · = name) := by
        rw [List.find?_filter]
        refine congrArg (List.find? · _) (funext fun other => ?_)
        by_cases hother : boundName other = name
        · simp [hother, Ne.symm h]
        · simp [hother]
      simp only [h, decide_false]
      rw [hkept, ih]

theorem firsts_concat (names : List String) (qualified : String) :
    firsts (names ++ [qualified]) = firsts names ++
      if names.find? (boundName · = boundName qualified) = none then [qualified] else [] := by
  induction names with
  | nil => rfl
  | cons name rest ih =>
    rw [List.cons_append, firsts, firsts, ih, List.find?_cons, List.filter_append]
    by_cases h : boundName name = boundName qualified
    · simp only [h, decide_true]
      split <;> simp
    · simp only [h, decide_false]
      split <;> simp [Ne.symm h]

theorem mem_of_mem_firsts {names : List String} {qualified : String}
    (h : qualified ∈ firsts names) : qualified ∈ names := by
  induction names with
  | nil => cases h
  | cons name rest ih =>
    rw [firsts, List.mem_cons, List.mem_filter] at h
    rcases h with rfl | ⟨h, -⟩
    · exact List.mem_cons_self
    · exact List.mem_cons_of_mem _ (ih h)

/-! ## The whole run -/

/-- The table of these classes. -/
def filed (names : List String) : Imports :=
  ⟨names.map fun qualified => (boundName qualified, qualified)⟩

theorem toList_filed (names : List String) : (filed names).toList = names := by
  simp [filed, toList, Function.comp_def]

theorem get?_filed (names : List String) (name : String) :
    (filed names).get? name = names.find? (boundName · = name) := by
  rw [get?, filed, List.find?_map, Option.map_map]
  simp only [Function.comp_def, Option.map_id']

theorem request_filed (names : List String) (r : Request) :
    ((filed (firsts names)).request r).1 = filed (firsts (names ++ r.admitted?.toList)) := by
  cases h : r.admitted? with
  | none =>
    obtain ⟨e, he⟩ := request_of_admitted?_none h (filed (firsts names))
    rw [he, Option.toList_none, List.append_nil]
  | some qualified =>
    have hget : (filed (firsts names)).get? (boundName qualified)
        = names.find? (boundName · = boundName qualified) := by
      rw [get?_filed, find?_firsts]
    rw [Option.toList_some, firsts_concat]
    cases hfind : names.find? (boundName · = boundName qualified) with
    | none =>
      rw [request_of_unbound h (hget.trans hfind), if_pos rfl]
      simp [filed]
    | some existing =>
      rw [(request_of_bound h (hget.trans hfind)).1, if_neg (Option.some_ne_none _),
        List.append_nil]

theorem run_filed (names : List String) (requests : List Request) :
    (filed (firsts names)).run requests = filed (firsts (names ++ admitted requests)) := by
  induction requests generalizing names with
  | nil => simp [run, admitted]
  | cons r requests ih =>
    have hadmitted : admitted (r :: requests) = r.admitted?.toList ++ admitted requests := by
      rw [admitted, List.filterMap_cons]
      cases r.admitted? <;> rfl
    rw [hadmitted, ← List.append_assoc, ← ih, ← request_filed]
    rfl

theorem run_eq (requests : List Request) :
    empty.run requests = filed (firsts (admitted requests)) :=
  run_filed [] requests

theorem entries_prefix_run (t : Imports) (requests : List Request) :
    t.entries <+: (t.run requests).entries := by
  induction requests generalizing t with
  | nil => exact List.prefix_refl _
  | cons r requests ih => exact (entries_prefix_request t r).trans (ih (t.request r).1)

theorem Consistent.request {t : Imports} (h : t.Consistent) (r : Request) :
    (t.request r).1.Consistent := by
  cases r with
  | name qualified => exact h.add qualified
  | type type => exact h.addType type

theorem Consistent.run {t : Imports} (h : t.Consistent) (requests : List Request) :
    (t.run requests).Consistent := by
  induction requests generalizing t with
  | nil => exact h
  | cons r requests ih => exact ih (h.request r)

/-! ## What a reader sees -/

theorem Consistent.map_boundName {t : Imports} (h : t.Consistent) :
    t.toList.map boundName = t.entries.map Prod.fst := by
  rw [toList, List.map_map]
  exact List.map_congr_left fun entry hentry => (h.bound entry hentry).symm

theorem Consistent.nodup_toList {t : Imports} (h : t.Consistent) : t.toList.Nodup := by
  have hnames := h.nodup
  rw [← h.map_boundName] at hnames
  exact hnames.of_map

/-- The declarations are those of the imported classes in strictly ascending order. -/
theorem Consistent.exists_sorted {t : Imports} (h : t.Consistent) :
    ∃ sorted : List String, sorted.Perm t.toList ∧ sorted.Pairwise (· < ·) ∧
      t.declarations = sorted.map declaration := by
  refine ⟨_, List.mergeSort_perm _ _, ?_, rfl⟩
  have hle : (t.toList.mergeSort fun a b => decide (a ≤ b)).Pairwise
      fun a b => decide (a ≤ b) = true := by
    apply List.pairwise_mergeSort
    · intro a b c hab hbc
      simp only [decide_eq_true_eq] at hab hbc ⊢
      exact String.le_trans hab hbc
    · intro a b
      simp only [Bool.or_eq_true, decide_eq_true_eq]
      exact String.le_total a b
  refine List.Pairwise.imp₂ ?_ hle (List.nodup_mergeSort.mpr h.nodup_toList)
  intro a b hab hdistinct
  refine Decidable.byContradiction fun hlt => hdistinct ?_
  exact String.le_antisymm (decide_eq_true_eq.mp hab) (String.not_lt.mp hlt)

/-- What can be told of a table, given the requests that filled it. -/
structure Filled (requests : List Request) (t : Imports) : Prop where
  /-- A simple name stands for the first admitted class that binds it. -/
  first : ∀ name, t.get? name = (admitted requests).find? (boundName · = name)
  /-- The classes are listed in the order in which they were first accepted. -/
  listed : t.toList = firsts (admitted requests)
  keys : ∀ entry ∈ t.entries, entry.1 = (splitQualified entry.2).2 ∧ Identifier.Valid entry.1
  /-- A request fails if its name does not pass the checks or stands for another class. -/
  refused : ∀ r, (t.request r).2 ≠ none ↔ r.admitted? = none ∨
    ∃ qualified existing, r.admitted? = some qualified ∧
      t.get? (boundName qualified) = some existing ∧ existing ≠ qualified
  /-- The table that comes back from a failed request is the one that it was put to. -/
  failed : ∀ r, (t.request r).2 ≠ none → (t.request r).1 = t
  /-- Nothing is removed, moved or bound anew by what comes later. -/
  kept : ∀ later, t.entries <+: (t.run later).entries
  contains : ∀ qualified, t.contains qualified = true ↔ qualified ∈ t.toList
  size : t.declarations.length = t.size
  ascending : ∃ sorted : List String, sorted.Perm t.toList ∧ sorted.Pairwise (· < ·) ∧
    t.declarations = sorted.map declaration
  distinct : (t.declarations.map lastSegment).Nodup
  declared : (t.declarations.map lastSegment).Perm (t.entries.map Prod.fst)

/-- However requests with conflicts, repetitions and invalid names are mixed, the table is settled
by the first admitted request for each name. -/
theorem run_filled (requests : List Request) : Filled requests (empty.run requests) := by
  have hconsistent := Consistent.empty.run requests
  have heq := run_eq requests
  obtain ⟨sorted, hperm, hsorted, hdeclarations⟩ := hconsistent.exists_sorted
  have hdeclared : ((empty.run requests).declarations.map lastSegment).Perm
      ((empty.run requests).entries.map Prod.fst) := by
    rw [hdeclarations, List.map_map, ← hconsistent.map_boundName]
    have hlast : lastSegment ∘ declaration = boundName := funext lastSegment_declaration
    rw [hlast]
    exact hperm.map boundName
  exact {
    first := fun name => by rw [heq, get?_filed, find?_firsts]
    listed := by rw [heq, toList_filed]
    keys := by
      intro entry hentry
      refine ⟨hconsistent.bound entry hentry, ?_⟩
      rw [heq] at hentry
      obtain ⟨qualified, hq, rfl⟩ := List.mem_map.mp hentry
      obtain ⟨r, -, hr⟩ := List.mem_filterMap.mp (mem_of_mem_firsts hq)
      exact (Request.admitted?_eq_some_iff.mp hr).2.2
    refused := fun r => request_ne_none_iff
    failed := fun r => request_of_ne_none
    kept := entries_prefix_run _
    contains := fun qualified => hconsistent.contains_iff
    size := by
      rw [hdeclarations, List.length_map, hperm.length_eq, toList, List.length_map]
      rfl
    ascending := ⟨sorted, hperm, hsorted, hdeclarations⟩
    distinct := hdeclared.nodup_iff.mpr hconsistent.nodup
    declared := hdeclared }

end JavaSource.Imports
