import JavaSource.Proofs.Imports.Contents

/-!
# Merging two tables

A merge adds the classes of one table to another, one after the other, and stops at the first that
fails.  Everything in a table has passed the checks when it came in (`Reachable.admissible`), so a
conflict is the only thing that can stop a merge; and as no name is filed twice, the entries added on
the way do not get into conflict with the ones to come.  So each entry can be judged by the table that
the merge began with: `Merged` says what that leads to, and `merge_exact` what follows from it.
-/

namespace JavaSource.Imports

variable {t t' a b : Imports}

/-! ## Tables hold what passed the checks -/

theorem admissible_of_add (ht : ∀ q ∈ t.toList, Admissible q) (qualified : String) :
    ∀ q ∈ (t.add qualified).1.toList, Admissible q := by
  refine add_induction (motive := fun t => ∀ q ∈ t.toList, Admissible q) ht ?_
  intro t' h q hq
  rcases (mem_toList_add h).mp hq with hq | rfl
  · exact ht q hq
  · exact (add_eq_none_iff.mp h).1

theorem admissible_of_addType (ht : ∀ q ∈ t.toList, Admissible q) (type : TypeRef) :
    ∀ q ∈ (t.addType type).1.toList, Admissible q := by
  by_cases hclass : type.isClass = true
  · rw [addType_of_isClass hclass]
    exact admissible_of_add ht _
  · rw [addType_of_not_isClass hclass]
    exact ht

theorem admissible_of_addAll (ht : ∀ q ∈ t.toList, Admissible q) (names : List String) :
    ∀ q ∈ (t.addAll names).1.toList, Admissible q := by
  induction names generalizing t with
  | nil => exact ht
  | cons qualified names ih =>
    have hnext := admissible_of_add ht qualified
    rcases hadd : t.add qualified with ⟨t', _ | e⟩
    · rw [hadd] at hnext
      rw [addAll_cons_of_none hadd]
      exact ih hnext
    · rw [addAll_cons_of_some hadd]
      exact ht

theorem Reachable.admissible (h : Reachable t) : ∀ q ∈ t.toList, Admissible q := by
  induction h with
  | empty =>
    intro q hq
    cases hq
  | add _ qualified ih => exact admissible_of_add ih qualified
  | addType _ type ih => exact admissible_of_addType ih type
  | merge _ _ ih _ => exact admissible_of_addAll ih _

/-! ## What the loop does to one entry -/

/-- The name of the entry stands for another class. -/
def Conflicts (t : Imports) (entry : String × String) : Prop :=
  ∃ existing, t.get? entry.1 = some existing ∧ existing ≠ entry.2

/-- The entries whose names are not bound. -/
def unbound (t : Imports) (entries : List (String × String)) : List (String × String) :=
  entries.filter fun entry => t.get? entry.1 = none

/-! ## The whole loop -/

/-- What is left after the entries were merged into the table: all that were new, or those before the
first conflict together with the complaint about it. -/
inductive Merged (a : Imports) : List (String × String) → Imports × Option Error → Prop
  | whole {entries : List (String × String)} (agree : ∀ entry ∈ entries, ¬a.Conflicts entry) :
      Merged a entries (⟨a.entries ++ a.unbound entries⟩, none)
  | upTo {before after : List (String × String)} {name existing qualified : String}
      (agree : ∀ entry ∈ before, ¬a.Conflicts entry) (bound : a.get? name = some existing)
      (other : existing ≠ qualified) :
      Merged a (before ++ (name, qualified) :: after)
        (⟨a.entries ++ a.unbound before⟩, some (.importConflict name existing qualified))

/-- The entries that the loop has behind it do not bind the names of those before it. -/
theorem get?_unbound {before : List (String × String)} {name : String}
    (h : name ∉ before.map Prod.fst) :
    get? ⟨a.entries ++ a.unbound before⟩ name = a.get? name := by
  have hnone : get? ⟨a.unbound before⟩ name = none := by
    rw [get?_eq_none_iff]
    intro hmem
    obtain ⟨entry, hentry, rfl⟩ := List.mem_map.mp hmem
    exact h (List.mem_map.mpr ⟨entry, List.mem_of_mem_filter hentry, rfl⟩)
  rw [get?_append, hnone, Option.or_none]

/-- The invariant of the loop: what was merged from `before` are its new entries, without a conflict.
The induction is on what is left, `rest`. -/
theorem merged_addAll {before rest : List (String × String)}
    (hrest : ∀ entry ∈ rest, entry.1 = boundName entry.2 ∧ Admissible entry.2)
    (hnodup : ((before ++ rest).map Prod.fst).Nodup)
    (hagree : ∀ entry ∈ before, ¬a.Conflicts entry) :
    Merged a (before ++ rest) (addAll ⟨a.entries ++ a.unbound before⟩ (rest.map Prod.snd)) := by
  induction rest generalizing before with
  | nil =>
    rw [List.append_nil]
    exact .whole hagree
  | cons entry rest ih =>
    obtain ⟨name, qualified⟩ := entry
    obtain ⟨⟨hname, hadmissible⟩, htail⟩ := List.forall_mem_cons.mp hrest
    have hfresh : name ∉ before.map Prod.fst := by
      rw [List.map_append, List.nodup_append] at hnodup
      exact fun hmem => hnodup.2.2 name hmem name (by simp) rfl
    have hget := get?_unbound (a := a) hfresh
    obtain rfl : name = boundName qualified := hname
    -- An entry without a conflict is behind the loop after the step.
    have hstep (hthis : ¬a.Conflicts (boundName qualified, qualified))
        (hadd : add ⟨a.entries ++ a.unbound before⟩ qualified
          = (⟨a.entries ++ a.unbound (before ++ [(boundName qualified, qualified)])⟩, none)) :
        Merged a (before ++ (boundName qualified, qualified) :: rest)
          (addAll ⟨a.entries ++ a.unbound before⟩ (qualified :: rest.map Prod.snd)) := by
      rw [addAll_cons_of_none hadd, List.append_cons]
      apply ih htail
      · rw [← List.append_cons]
        exact hnodup
      · exact List.forall_mem_append.mpr ⟨hagree, List.forall_mem_singleton.mpr hthis⟩
    cases hbound : a.get? (boundName qualified) with
    | none =>
      refine hstep (by simp [Conflicts, hbound]) ?_
      rw [add_of_get?_none hadmissible (hget.trans hbound)]
      simp [unbound, hbound]
    | some existing =>
      by_cases heq : existing = qualified
      · subst heq
        refine hstep (by simp [Conflicts, hbound]) ?_
        rw [add_of_get?_self hadmissible (hget.trans hbound)]
        simp [unbound, hbound]
      · rw [List.map_cons,
          addAll_cons_of_some (add_of_get?_ne hadmissible (hget.trans hbound) heq)]
        exact .upTo hagree hbound heq

theorem Reachable.merged (hb : b.Reachable) (a : Imports) : Merged a b.entries (a.merge b) := by
  have hentries : ∀ entry ∈ b.entries, entry.1 = boundName entry.2 ∧ Admissible entry.2 :=
    fun entry hentry => ⟨hb.consistent.bound entry hentry,
      hb.admissible entry.2 (List.mem_map.mpr ⟨entry, hentry, rfl⟩)⟩
  have hmerged : Merged a ([] ++ b.entries) (addAll ⟨a.entries ++ a.unbound []⟩ b.toList) :=
    merged_addAll hentries hb.consistent.nodup (by simp)
  have hstart : (⟨a.entries ++ a.unbound []⟩ : Imports) = a := by simp [unbound]
  rw [hstart] at hmerged
  exact hmerged

/-! ## What follows for two tables -/

variable {entries : List (String × String)} {result : Imports × Option Error}

theorem Merged.entries_of_none (h : Merged a entries result) (hsuccess : result.2 = none) :
    result.1.entries = a.entries ++ a.unbound entries := by
  cases h with
  | whole agree => rfl
  | upTo agree bound other => cases hsuccess

theorem Merged.not_conflicts_of_none (h : Merged a entries result) (hsuccess : result.2 = none) :
    ∀ entry ∈ entries, ¬a.Conflicts entry := by
  cases h with
  | whole agree => exact agree
  | upTo agree bound other => cases hsuccess

theorem Merged.exists_of_some (h : Merged a entries result) {e : Error}
    (hfailure : result.2 = some e) : ∃ before after name existing qualified,
      entries = before ++ (name, qualified) :: after ∧
      (∀ entry ∈ before, ¬a.Conflicts entry) ∧ a.get? name = some existing ∧
      existing ≠ qualified ∧ e = .importConflict name existing qualified ∧
      result.1.entries = a.entries ++ a.unbound before := by
  cases h with
  | whole agree => cases hfailure
  | upTo agree bound other =>
    cases hfailure
    exact ⟨_, _, _, _, _, rfl, agree, bound, other, rfl, rfl⟩

theorem Reachable.merge_ne_none_iff (hb : b.Reachable) (a : Imports) :
    (a.merge b).2 ≠ none ↔
      ∃ name p q, a.get? name = some p ∧ b.get? name = some q ∧ p ≠ q := by
  constructor
  · intro hfailure
    obtain ⟨e, he⟩ := Option.ne_none_iff_exists'.mp hfailure
    obtain ⟨before, after, name, existing, qualified, hentries, -, hbound, hne, -⟩ :=
      (hb.merged a).exists_of_some he
    have hmem : (name, qualified) ∈ b.entries := by simp [hentries]
    refine ⟨name, existing, qualified, hbound, ?_, hne⟩
    rw [hb.consistent.get?_eq_some_iff]
    exact ⟨List.mem_map.mpr ⟨_, hmem, rfl⟩, (hb.consistent.bound _ hmem).symm⟩
  · rintro ⟨name, p, q, hp, hq, hne⟩ hsuccess
    have hagree := (hb.merged a).not_conflicts_of_none hsuccess
    exact hagree (name, q) (mem_entries_of_get? hq) ⟨p, hp, hne⟩

theorem Reachable.merge_eq_none_comm (ha : a.Reachable) (hb : b.Reachable) :
    (a.merge b).2 = none ↔ (b.merge a).2 = none := by
  rw [← not_iff_not, ← ne_eq, ← ne_eq, hb.merge_ne_none_iff, ha.merge_ne_none_iff]
  constructor
  · rintro ⟨name, p, q, hp, hq, hne⟩
    exact ⟨name, q, p, hq, hp, hne.symm⟩
  · rintro ⟨name, p, q, hp, hq, hne⟩
    exact ⟨name, q, p, hq, hp, hne.symm⟩

/-- A merge fails exactly if a name stands for different classes in the two tables.  If it succeeds,
the entries whose names were not bound are appended in their order; if it fails, only those before the
first conflict are, and the complaint is about that conflict.  Two tables can be merged either way
round or not at all, and the declarations are the same both ways. -/
theorem merge_exact (ha : a.Reachable) (hb : b.Reachable) :
    ((a.merge b).2 ≠ none ↔
      ∃ name p q, a.get? name = some p ∧ b.get? name = some q ∧ p ≠ q) ∧
    ((a.merge b).2 = none → (a.merge b).1.entries = a.entries ++ a.unbound b.entries) ∧
    (∀ e, (a.merge b).2 = some e → ∃ before after name existing qualified,
      b.entries = before ++ (name, qualified) :: after ∧
      (∀ entry ∈ before, ¬a.Conflicts entry) ∧ a.get? name = some existing ∧
      existing ≠ qualified ∧ e = .importConflict name existing qualified ∧
      (a.merge b).1.entries = a.entries ++ a.unbound before) ∧
    ((a.merge b).2 = none ↔ (b.merge a).2 = none) ∧
    ((a.merge b).2 = none → (a.merge b).1.declarations = (b.merge a).1.declarations) := by
  have hcomm := ha.merge_eq_none_comm hb
  have hmerged := hb.merged a
  refine ⟨hb.merge_ne_none_iff a, hmerged.entries_of_none, fun e => hmerged.exists_of_some, hcomm, ?_⟩
  intro hsuccess
  have hab := (ha.merge hb).consistent
  have hba := (hb.merge ha).consistent
  refine (hab.alike hba fun q => ?_).declarations
  rw [merge, mem_toList_addAll hsuccess, merge, mem_toList_addAll (hcomm.mp hsuccess), or_comm]

/-- A merge that meets another `List` keeps what it has added before and does not come to the rest;
one that meets the same `List` succeeds. -/
theorem merge_exact_list :
    let a : Imports := ⟨[("List", "java.util.List")]⟩
    let b : Imports :=
      ⟨[("File", "java.io.File"), ("List", "java.awt.List"), ("Map", "java.util.Map")]⟩
    let c : Imports := ⟨[("File", "java.io.File"), ("List", "java.util.List")]⟩
    a.Reachable ∧ b.Reachable ∧ c.Reachable ∧
      a.merge b = (⟨[("List", "java.util.List"), ("File", "java.io.File")]⟩,
        some (.importConflict "List" "java.util.List" "java.awt.List")) ∧
      (∃ name p q, a.get? name = some p ∧ b.get? name = some q ∧ p ≠ q) ∧
      (a.merge c).1.entries = [("List", "java.util.List"), ("File", "java.io.File")] ∧
      (a.merge c).1.declarations = (c.merge a).1.declarations := by
  intro a b c
  have hfile : Reachable ⟨[("File", "java.io.File")]⟩ := .add .empty "java.io.File"
  have hother : Reachable ⟨[("File", "java.io.File"), ("List", "java.awt.List")]⟩ :=
    hfile.add "java.awt.List"
  have ha : a.Reachable := .add .empty "java.util.List"
  have hb : b.Reachable := hother.add "java.util.Map"
  have hc : c.Reachable := hfile.add "java.util.List"
  have hfailure : a.merge b = (⟨[("List", "java.util.List"), ("File", "java.io.File")]⟩,
      some (.importConflict "List" "java.util.List" "java.awt.List")) := rfl
  have hsuccess : (a.merge c).2 = none := rfl
  obtain ⟨-, hentries, -, -, hdeclarations⟩ := merge_exact ha hc
  exact ⟨ha, hb, hc, hfailure, (merge_exact ha hb).1.mp (by simp [hfailure]),
    hentries hsuccess, hdeclarations hsuccess⟩

end JavaSource.Imports
