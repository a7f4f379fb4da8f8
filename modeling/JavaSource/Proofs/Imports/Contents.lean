import JavaSource.Proofs.Imports.Run
import JavaSource.Proofs.Mentions

/-!
# Tables with the same classes

The order in which the imports came shows in the list of the entries and nowhere else: two consistent
tables of the same classes cannot be told apart by look-ups, by their declarations, or by the text of a
node (`Consistent.alike`).

Whether additions succeed does not depend on their order either.  It takes that the names pass the
checks and that no two different classes, old or new, bind the same simple name
(`Consistent.addAll_eq_none_iff`), and neither says which came first.  The two facts together are
`addAll_perm`.
-/

namespace JavaSource.Imports

variable {t t' : Imports}

/-! ## What can be asked of a table -/

/-- The two tables give the same answers, and so do units that differ in them only. -/
structure Alike (t t' : Imports) : Prop where
  get? : ∀ name, t.get? name = t'.get? name
  binds : ∀ name, t.binds name = t'.binds name
  contains : ∀ qualified, t.contains qualified = t'.contains qualified
  declarations : t.declarations = t'.declarations
  render : ∀ (u : CompilationUnit) (settings : Settings) (node : Node),
    node.render { u with imports := t } settings = node.render { u with imports := t' } settings

theorem Consistent.declarations_eq (h : t.Consistent) (h' : t'.Consistent)
    (hperm : t.toList.Perm t'.toList) : t.declarations = t'.declarations := by
  obtain ⟨sorted, hsorted, hlt, hdeclarations⟩ := h.exists_sorted
  obtain ⟨sorted', hsorted', hlt', hdeclarations'⟩ := h'.exists_sorted
  have hsame : sorted = sorted' := by
    refine List.Perm.eq_of_pairwise ?_ hlt hlt' (hsorted.trans (hperm.trans hsorted'.symm))
    intro a b _ _ hab hba
    exact absurd hba (String.lt_asymm hab)
  rw [hdeclarations, hdeclarations', hsame]

/-- Consistent tables of the same classes are alike. -/
theorem Consistent.alike (h : t.Consistent) (h' : t'.Consistent)
    (hsame : ∀ qualified, qualified ∈ t.toList ↔ qualified ∈ t'.toList) : Alike t t' := by
  have hget (name : String) : t.get? name = t'.get? name := by
    refine Option.ext fun qualified => ?_
    rw [h.get?_eq_some_iff, h'.get?_eq_some_iff, hsame]
  have hbinds (name : String) : t.binds name = t'.binds name := by
    rw [Imports.binds, Imports.binds, hget]
  have hcontains (qualified : String) : t.contains qualified = t'.contains qualified := by
    rw [Imports.contains, Imports.contains, hget]
  have hperm : t.toList.Perm t'.toList :=
    (List.perm_ext_iff_of_nodup h.nodup_toList h'.nodup_toList).mpr hsame
  exact {
    get? := hget
    binds := hbinds
    contains := hcontains
    declarations := h.declarations_eq h' hperm
    render := fun u settings node => Node.render_congr fun c _ => {
      package := rfl
      implicitPackage := rfl
      bindsName := fun _ => hbinds _
      importsClass := hcontains _
      importsOutermost := hcontains _
      knowsClass := fun _ => rfl } }

/-! ## When additions succeed -/

/-- No two different classes bind the same simple name. -/
def Compatible (names : List String) : Prop :=
  ∀ p ∈ names, ∀ q ∈ names, boundName p = boundName q → p = q

theorem Compatible.of_subset {names names' : List String} (h : Compatible names)
    (hsub : names' ⊆ names) : Compatible names' :=
  fun p hp q hq => h p (hsub hp) q (hsub hq)

theorem Consistent.exists_add_eq_none_iff (h : t.Consistent) {qualified : String} :
    (∃ t', t.add qualified = (t', none)) ↔
      Admissible qualified ∧ ∀ p ∈ t.toList, boundName p = boundName qualified → p = qualified := by
  constructor
  · rintro ⟨t', hadd⟩
    obtain ⟨hadmissible, hcases⟩ := add_eq_none_iff.mp hadd
    refine ⟨hadmissible, fun p hp heq => ?_⟩
    have hget := h.get?_eq_some_iff.mpr ⟨hp, heq⟩
    rcases hcases with ⟨hfound, -⟩ | ⟨hnone, -⟩
    · rw [hget] at hfound
      exact Option.some.inj hfound
    · rw [hget] at hnone
      cases hnone
  · rintro ⟨hadmissible, hother⟩
    cases hget : t.get? (boundName qualified) with
    | none => exact ⟨_, add_of_get?_none hadmissible hget⟩
    | some p =>
      obtain ⟨hp, heq⟩ := h.get?_eq_some_iff.mp hget
      rw [hother p hp heq] at hget
      exact ⟨t, add_of_get?_self hadmissible hget⟩

/-- Additions succeed, in whichever order, if the names pass the checks and are compatible with each
other and with what is there. -/
theorem Consistent.addAll_eq_none_iff (h : t.Consistent) (names : List String) :
    (t.addAll names).2 = none ↔
      (∀ qualified ∈ names, Admissible qualified) ∧ Compatible (t.toList ++ names) := by
  induction names generalizing t with
  | nil =>
    have hcompatible : Compatible t.toList := fun p hp q hq => h.eq_of_boundName_eq hp hq
    simp [Imports.addAll, hcompatible]
  | cons qualified names ih =>
    have hnext := h.add qualified
    rcases hadd : t.add qualified with ⟨t', _ | e⟩
    · rw [hadd] at hnext
      rw [addAll_cons_of_none hadd, ih hnext, List.forall_mem_cons]
      have hadmissible := (h.exists_add_eq_none_iff.mp ⟨t', hadd⟩).1
      have hmem (other : String) :
          other ∈ t'.toList ++ names ↔ other ∈ t.toList ++ qualified :: names := by
        rw [List.mem_append, mem_toList_add hadd, List.mem_append, List.mem_cons, or_assoc]
      refine and_congr (and_iff_right hadmissible).symm ⟨fun hc => ?_, fun hc => ?_⟩
      · exact hc.of_subset fun other hother => (hmem other).mpr hother
      · exact hc.of_subset fun other hother => (hmem other).mp hother
    · rw [addAll_cons_of_some hadd]
      refine ⟨fun hsome => absurd hsome (Option.some_ne_none e), ?_⟩
      rintro ⟨hadmissible, hcompatible⟩
      obtain ⟨t', hok⟩ := h.exists_add_eq_none_iff.mpr ⟨hadmissible qualified List.mem_cons_self,
        fun p hp => hcompatible p (List.mem_append_left _ hp) qualified (by simp)⟩
      rw [hadd] at hok
      cases hok

theorem mem_toList_addAll {names : List String} (h : (t.addAll names).2 = none) {other : String} :
    other ∈ (t.addAll names).1.toList ↔ other ∈ t.toList ∨ other ∈ names := by
  induction names generalizing t with
  | nil => simp [addAll]
  | cons qualified names ih =>
    rcases hadd : t.add qualified with ⟨t', _ | e⟩
    · rw [addAll_cons_of_none hadd] at h ⊢
      rw [ih h, mem_toList_add hadd, List.mem_cons, or_assoc]
    · rw [addAll_cons_of_some hadd] at h
      cases h

/-! ## The order of the additions -/

/-- Imports that can be added in one order can be added in any other, and the tables are alike. -/
theorem addAll_perm {names names' : List String} (hperm : names.Perm names')
    (h : empty.addAll names = (t, none)) :
    ∃ t', empty.addAll names' = (t', none) ∧ Alike t t' := by
  have hsuccess : (empty.addAll names).2 = none := by rw [h]
  obtain ⟨hadmissible, hcompatible⟩ := (Consistent.empty.addAll_eq_none_iff names).mp hsuccess
  have hsuccess' : (empty.addAll names').2 = none := by
    rw [Consistent.empty.addAll_eq_none_iff]
    refine ⟨fun q hq => hadmissible q (hperm.mem_iff.mpr hq), ?_⟩
    exact hcompatible.of_subset fun q hq => hperm.mem_iff.mpr hq
  refine ⟨(empty.addAll names').1, Prod.ext rfl hsuccess', ?_⟩
  have ht : t = (empty.addAll names).1 := by rw [h]
  rw [ht]
  refine (Consistent.empty.addAll names).alike (Consistent.empty.addAll names') fun q => ?_
  rw [mem_toList_addAll hsuccess, mem_toList_addAll hsuccess', hperm.mem_iff]

/-- The repeated import may come first or last. -/
theorem addAll_perm_list :
    let t : Imports := ⟨[("List", "java.util.List"), ("Entry", "java.util.Map$Entry")]⟩
    let t' : Imports := ⟨[("Entry", "java.util.Map$Entry"), ("List", "java.util.List")]⟩
    empty.addAll ["java.util.List", "java.util.Map$Entry", "java.util.List"] = (t, none) ∧
      empty.addAll ["java.util.Map$Entry", "java.util.List", "java.util.List"] = (t', none) ∧
      Alike t t' := by
  intro t t'
  have hadd : empty.addAll ["java.util.List", "java.util.Map$Entry", "java.util.List"]
      = (t, none) := rfl
  have hadd' : empty.addAll ["java.util.Map$Entry", "java.util.List", "java.util.List"]
      = (t', none) := rfl
  obtain ⟨t'', hadd'', halike⟩ := addAll_perm (List.Perm.swap _ _ _) hadd
  rw [hadd'] at hadd''
  cases hadd''
  exact ⟨hadd, hadd', halike⟩

end JavaSource.Imports
