import JavaSource.Text.Split

/-!
# Cutting a text

What the parts of a text hold between them: every character that is no separator is in one of the
parts, and no part has a separator.  The cut at the last separator is settled by what stands on its
two sides (`splitLast?_eq_some_iff`), and what stands behind it is the last of the parts
(`getLast?_splitOn`).
-/

namespace JavaSource.Text

/-! ## The parts -/

/-- A text that does not begin with a separator begins with its first part. -/
theorem exists_splitOn_cons {sep c : Char} (hc : c ≠ sep) (cs : List Char) :
    ∃ part parts, cs.splitOn sep = part :: parts ∧
      (c :: cs).splitOn sep = (c :: part) :: parts := by
  obtain ⟨part, parts, hparts⟩ := List.exists_cons_of_ne_nil (List.splitOn_ne_nil sep cs)
  refine ⟨part, parts, hparts, ?_⟩
  rw [List.splitOn_cons_eq_if_modifyHead, if_neg (by simpa using hc), hparts, List.modifyHead_cons]

theorem splitOn_cons_self (sep : Char) (cs : List Char) :
    (sep :: cs).splitOn sep = [] :: cs.splitOn sep := by
  rw [List.splitOn_cons_eq_if_modifyHead, if_pos (beq_self_eq_true sep)]

theorem splitOn_injective {sep : Char} {xs ys : List Char} (h : xs.splitOn sep = ys.splitOn sep) :
    xs = ys :=
  calc xs = [sep].intercalate (xs.splitOn sep) := (List.intercalate_splitOn sep).symm
    _ = [sep].intercalate (ys.splitOn sep) := by rw [h]
    _ = ys := List.intercalate_splitOn sep

/-- Every character of a text is a separator or in one of the parts. -/
theorem exists_part_of_mem {sep c : Char} {cs : List Char} (h : c ∈ cs) :
    c = sep ∨ ∃ part ∈ cs.splitOn sep, c ∈ part := by
  induction cs with
  | nil => cases h
  | cons d cs ih =>
    by_cases hd : d = sep
    · rw [hd, splitOn_cons_self]
      rcases List.mem_cons.mp h with rfl | h
      · exact Or.inl hd
      · rcases ih h with h | ⟨part, hpart, hc⟩
        · exact Or.inl h
        · exact Or.inr ⟨part, List.mem_cons_of_mem _ hpart, hc⟩
    · obtain ⟨part, parts, htail, hcons⟩ := exists_splitOn_cons hd cs
      rw [hcons]
      rw [htail] at ih
      rcases List.mem_cons.mp h with rfl | h
      · exact Or.inr ⟨c :: part, List.mem_cons_self, List.mem_cons_self⟩
      · rcases ih h with h | ⟨other, hother, hc⟩
        · exact Or.inl h
        · rcases List.mem_cons.mp hother with rfl | hother
          · exact Or.inr ⟨d :: other, List.mem_cons_self, List.mem_cons_of_mem _ hc⟩
          · exact Or.inr ⟨other, List.mem_cons_of_mem _ hother, hc⟩

theorem notMem_of_mem_splitOn {sep : Char} {cs part : List Char} (h : part ∈ cs.splitOn sep) :
    sep ∉ part := by
  induction cs generalizing part with
  | nil =>
    rw [List.splitOn_nil, List.mem_singleton] at h
    simp [h]
  | cons c cs ih =>
    by_cases hc : c = sep
    · rw [hc, splitOn_cons_self] at h
      rcases List.mem_cons.mp h with rfl | h
      · simp
      · exact ih h
    · obtain ⟨first, parts, htail, hcons⟩ := exists_splitOn_cons hc cs
      rw [hcons] at h
      rw [htail] at ih
      rcases List.mem_cons.mp h with rfl | h
      · intro hmem
        rcases List.mem_cons.mp hmem with heq | hmem
        · exact hc heq.symm
        · exact ih List.mem_cons_self hmem
      · exact ih (List.mem_cons_of_mem _ h)

/-! ## The last part -/

theorem splitLast?_eq_some_iff {sep : Char} {cs before after : List Char} :
    splitLast? sep cs = some (before, after) ↔ cs = before ++ sep :: after ∧ sep ∉ after := by
  constructor
  · intro h
    induction cs generalizing before with
    | nil => cases h
    | cons c cs ih =>
      rw [splitLast?] at h
      cases hs : splitLast? sep cs with
      | some parts =>
        obtain ⟨front, back⟩ := parts
        rw [hs] at h
        obtain ⟨rfl, rfl⟩ : c :: front = before ∧ back = after := by simpa using h
        obtain ⟨hcs, hafter⟩ := ih hs
        exact ⟨congrArg (c :: ·) hcs, hafter⟩
      | none =>
        rw [hs] at h
        obtain ⟨rfl, rfl, rfl⟩ : c = sep ∧ [] = before ∧ cs = after := by simpa using h
        exact ⟨rfl, splitLast?_eq_none_iff.mp hs⟩
  · rintro ⟨rfl, hafter⟩
    exact splitLast?_append hafter before

/-- What stands after the last separator, the whole text if there is none. -/
def afterLast (sep : Char) (cs : List Char) : List Char :=
  ((splitLast? sep cs).map Prod.snd).getD cs

theorem getLast?_splitOn (sep : Char) (cs : List Char) :
    (cs.splitOn sep).getLast? = some (afterLast sep cs) := by
  rw [afterLast]
  cases hs : splitLast? sep cs with
  | none =>
    rw [List.splitOn_eq_singleton (splitLast?_eq_none_iff.mp hs)]
    rfl
  | some parts =>
    obtain ⟨before, after⟩ := parts
    obtain ⟨rfl, hafter⟩ := splitLast?_eq_some_iff.mp hs
    rw [List.splitOn_append_cons_self, List.splitOn_eq_singleton hafter, List.getLast?_append]
    rfl

theorem afterLast_append (sep : Char) (xs ys : List Char) :
    afterLast sep (xs ++ sep :: ys) = afterLast sep ys := by
  have hlast := getLast?_splitOn sep (xs ++ sep :: ys)
  rw [List.splitOn_append_cons_self, List.getLast?_append, getLast?_splitOn] at hlast
  exact (Option.some.inj hlast).symm

theorem afterLast_of_notMem {sep : Char} {cs : List Char} (h : sep ∉ cs) :
    afterLast sep cs = cs := by
  rw [afterLast, splitLast?_eq_none_iff.mpr h]
  rfl

theorem notMem_afterLast (sep : Char) (cs : List Char) : sep ∉ afterLast sep cs :=
  notMem_of_mem_splitOn (List.mem_of_getLast? (getLast?_splitOn sep cs))

end JavaSource.Text
