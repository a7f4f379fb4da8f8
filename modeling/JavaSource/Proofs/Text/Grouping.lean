import JavaSource.Proofs.Text.Fields
import JavaSource.Text.Written

/-!
# Digit groups

A run of digits is cut from the right, but written from the left: a separator stands before each
character that leaves a multiple of the interval to write.  So what remains of a group at any point
is the remaining length modulo the interval, which is the invariant of `groupFrom_eq`.  The first
character of all gets no separator, and with it the first group is never empty (`group_eq`).

The length is counted in bytes and the position in characters.  For a text with longer characters
the groups come out uneven, but a separator still stands between two characters only, and the
position never gets past the length.  The main theorem is `separates_group`.
-/

namespace JavaSource.Text

/-! ## Bytes and characters -/

theorem utf8ByteSize_cons (c : Char) (cs : List Char) :
    (String.ofList (c :: cs)).utf8ByteSize = c.utf8Size + (String.ofList cs).utf8ByteSize := by
  rw [String.ofList_cons, String.utf8ByteSize_append, String.utf8ByteSize_singleton]

theorem length_le_utf8ByteSize (cs : List Char) :
    cs.length ≤ (String.ofList cs).utf8ByteSize := by
  induction cs with
  | nil => exact Nat.zero_le _
  | cons c cs ih =>
    have hpos := c.utf8Size_pos
    rw [utf8ByteSize_cons, List.length_cons]
    omega

theorem utf8ByteSize_eq_length {text : String} (h : ∀ c ∈ text.toList, c.utf8Size = 1) :
    text.utf8ByteSize = text.toList.length := by
  have hlist : ∀ cs : List Char, (∀ c ∈ cs, c.utf8Size = 1) →
      (String.ofList cs).utf8ByteSize = cs.length := by
    intro cs
    induction cs with
    | nil => intro _; rfl
    | cons c cs ih =>
      intro hcs
      obtain ⟨hc, hcs⟩ := List.forall_mem_cons.mp hcs
      rw [utf8ByteSize_cons, hc, ih hcs, List.length_cons]
      omega
  simpa using hlist text.toList h

/-! ## Machine arithmetic -/

/-- The remainder of a difference in arithmetic that has no numbers below zero and no remainder by
zero. -/
def remainder? (total position interval : Nat) : Option Nat :=
  if position ≤ total ∧ interval ≠ 0 then some ((total - position) % interval) else none

/-- `groupFrom` in that arithmetic: there is no text if one of its steps has no remainder. -/
def groupFrom? (total interval : Nat) (sep : Char) : Nat → List Char → Option (List Char)
  | _, [] => some []
  | position, c :: cs => do
    let starts ←
      if 0 < position then (remainder? total position interval).map (· == 0) else some false
    let rest ← groupFrom? total interval sep (position + 1) cs
    return if starts then sep :: c :: rest else c :: rest

def group? (digits : String) (interval : Nat) (sep : Char) : Option String :=
  if interval = 0 ∨ digits.utf8ByteSize ≤ interval then some digits
  else (groupFrom? digits.utf8ByteSize interval sep 0 digits.toList).map String.ofList

theorem groupFrom?_eq {total interval position : Nat} (sep : Char) {cs : List Char}
    (hi : interval ≠ 0) (hlen : position + cs.length ≤ total) :
    groupFrom? total interval sep position cs
      = some (groupFrom total interval sep position cs) := by
  induction cs generalizing position with
  | nil => rfl
  | cons c cs ih =>
    rw [List.length_cons] at hlen
    have hremainder : remainder? total position interval = some ((total - position) % interval) :=
      if_pos ⟨by omega, hi⟩
    have hlen' : position + 1 + cs.length ≤ total := by omega
    rw [groupFrom?, groupFrom, hremainder, ih hlen']
    by_cases hp : 0 < position
    · simp [hp]
    · simp [hp]

/-- No position is past the length, since no character is shorter than a byte. -/
theorem group?_eq (digits : String) (interval : Nat) (sep : Char) :
    group? digits interval sep = some (group digits interval sep) := by
  have hlen := length_le_utf8ByteSize digits.toList
  rw [String.ofList_toList] at hlen
  unfold group? group
  split
  · rfl
  · rw [groupFrom?_eq sep (by omega) (by omega)]
    rfl

/-! ## What grouping adds -/

/-- Groups hold nothing but the digits and separators between them. -/
theorem filter_groupFrom {sep : Char} (total interval position : Nat) {cs : List Char}
    (h : sep ∉ cs) : (groupFrom total interval sep position cs).filter (· ≠ sep) = cs := by
  induction cs generalizing position with
  | nil => rfl
  | cons c cs ih =>
    have hc : c ≠ sep := fun e => h (e ▸ List.mem_cons_self)
    have hrest := ih (position + 1) fun m => h (List.mem_cons_of_mem _ m)
    rw [groupFrom]
    split
    · rw [List.filter_cons_of_neg (by simp), List.filter_cons_of_pos (by simpa using hc), hrest]
    · rw [List.filter_cons_of_pos (by simpa using hc), hrest]

theorem filter_group {sep : Char} {text : String} (interval : Nat) (h : sep ∉ text.toList) :
    (group text interval sep).toList.filter (· ≠ sep) = text.toList := by
  unfold group
  split
  · rw [List.filter_eq_self]
    intro c hc
    simpa using fun e : c = sep => h (e ▸ hc)
  · rw [String.toList_ofList]
    exact filter_groupFrom _ _ _ h

theorem mem_groupFrom {sep : Char} {total interval position : Nat} {cs : List Char} {x : Char}
    (h : x ∈ groupFrom total interval sep position cs) : x = sep ∨ x ∈ cs := by
  induction cs generalizing position with
  | nil => cases h
  | cons c cs ih =>
    rw [groupFrom] at h
    have hrest (hx : x ∈ c :: groupFrom total interval sep (position + 1) cs) :
        x = sep ∨ x ∈ c :: cs := by
      rcases List.mem_cons.mp hx with rfl | hx
      · exact Or.inr List.mem_cons_self
      · exact (ih hx).imp_right (List.mem_cons_of_mem c)
    split at h
    · rcases List.mem_cons.mp h with h | h
      · exact Or.inl h
      · exact hrest h
    · exact hrest h

/-- Grouping keeps the first digit in front and adds nothing but separators. -/
theorem exists_group_eq_cons {sep c : Char} {cs : List Char} {text : String} (interval : Nat)
    (h : text.toList = c :: cs) :
    ∃ ds, (group text interval sep).toList = c :: ds ∧ ∀ x ∈ ds, x = sep ∨ x ∈ cs := by
  unfold group
  split
  · exact ⟨cs, h, fun x hx => Or.inr hx⟩
  · rw [String.toList_ofList, h, groupFrom, if_neg (by simp)]
    exact ⟨_, rfl, fun x hx => mem_groupFrom hx⟩

/-! ## Even groups -/

/-- The lengths that groups have: the first may be shorter than the interval, and without an
interval there is one group only. -/
structure EvenGroups (interval : Nat) (groups : List (List Char)) : Prop where
  groups_ne : groups ≠ []
  ne_nil : ∀ g ∈ groups, g ≠ []
  single : interval = 0 → groups.length = 1
  first : 0 < interval → ∀ g ∈ groups.head?, g.length ≤ interval
  others : 0 < interval → ∀ g ∈ groups.tail, g.length = interval

theorem intercalate_cons_eq (sep : Char) (g : List Char) (groups : List (List Char)) :
    [sep].intercalate (g :: groups) = g ++ groups.flatMap (sep :: ·) := by
  induction groups generalizing g with
  | nil => simp
  | cons next groups ih =>
    rw [List.intercalate_cons_cons, ih, List.flatMap_cons]
    simp

/-- Behind the first character, the rest of the group at hand comes before whole groups. -/
theorem groupFrom_eq {interval : Nat} (hi : 0 < interval) (sep : Char) {total position : Nat}
    {cs : List Char} (hp : 0 < position) (hlen : position + cs.length = total) :
    ∃ (rest : List Char) (groups : List (List Char)),
      groupFrom total interval sep position cs = rest ++ groups.flatMap (sep :: ·) ∧
      rest ++ groups.flatten = cs ∧ rest.length = cs.length % interval ∧
      ∀ g ∈ groups, g.length = interval := by
  induction cs generalizing position with
  | nil => exact ⟨[], [], rfl, rfl, by simp, by simp⟩
  | cons c cs ih =>
    rw [List.length_cons] at hlen
    have hlen' : position + 1 + cs.length = total := by omega
    obtain ⟨rest, groups, hgroup, hcs, hrest, hgroups⟩ := ih (by omega) hlen'
    have hlt : cs.length % interval < interval := Nat.mod_lt _ hi
    rw [groupFrom, hgroup, show total - position = cs.length + 1 by omega, List.length_cons]
    by_cases hfull : cs.length % interval + 1 = interval
    · have hmod : (cs.length + 1) % interval = 0 := by
        rw [← Nat.mod_add_mod, hfull, Nat.mod_self]
      rw [if_pos ⟨hp, hmod⟩, hmod]
      refine ⟨[], (c :: rest) :: groups, rfl, ?_, rfl, ?_⟩
      · simp [hcs]
      · exact List.forall_mem_cons.mpr ⟨by rw [List.length_cons, hrest, hfull], hgroups⟩
    · have hmod : (cs.length + 1) % interval = cs.length % interval + 1 := by
        rw [← Nat.mod_add_mod, Nat.mod_eq_of_lt (by omega)]
      rw [if_neg (by omega), hmod]
      refine ⟨c :: rest, groups, rfl, ?_, ?_, hgroups⟩
      · simp [hcs]
      · rw [List.length_cons, hrest]

/-- The groups of a text whose characters are one byte long each. -/
theorem group_eq {text : String} (hbytes : ∀ c ∈ text.toList, c.utf8Size = 1)
    (hne : text.toList ≠ []) (interval : Nat) (sep : Char) :
    ∃ groups, (group text interval sep).toList = [sep].intercalate groups ∧
      groups.flatten = text.toList ∧ EvenGroups interval groups := by
  unfold group
  rw [utf8ByteSize_eq_length hbytes]
  by_cases hshort : interval = 0 ∨ text.toList.length ≤ interval
  · rw [if_pos hshort]
    refine ⟨[text.toList], by simp, by simp, by simp, by simpa using hne, by simp, ?_, by simp⟩
    intro hi g hg
    cases hg
    omega
  · rw [if_neg hshort]
    have hi : 0 < interval := by omega
    obtain ⟨c, cs, hcs⟩ := List.exists_cons_of_ne_nil hne
    rw [hcs, String.toList_ofList, groupFrom, if_neg (by omega), List.length_cons]
    have hlen : 0 + 1 + cs.length = cs.length + 1 := by omega
    obtain ⟨rest, groups, hgroup, hflatten, hrest, hgroups⟩ := groupFrom_eq hi sep (by omega) hlen
    have hlt : cs.length % interval < interval := Nat.mod_lt _ hi
    refine ⟨(c :: rest) :: groups, ?_, ?_, by simp, ?_, by omega, ?_, fun _ => hgroups⟩
    · rw [hgroup, intercalate_cons_eq]
      rfl
    · simp [hflatten]
    · refine List.forall_mem_cons.mpr ⟨by simp, fun g hg hnil => ?_⟩
      have hlength := hgroups g hg
      rw [hnil, List.length_nil] at hlength
      omega
    · intro _ g hg
      cases hg
      rw [List.length_cons, hrest]
      omega

/-! ## Separators -/

theorem nil_notMem_splitOn_cons {sep c : Char} {cs : List Char} (hc : c ≠ sep)
    (h : [] ∉ cs.splitOn sep) : [] ∉ (c :: cs).splitOn sep := by
  obtain ⟨part, parts, htail, hcons⟩ := exists_splitOn_cons hc cs
  rw [htail] at h
  rw [hcons]
  simpa using fun hmem => h (List.mem_cons_of_mem part hmem)

/-- Without empty parts there is no separator at the two ends, nor one beside another. -/
theorem apart_of_splitOn {sep : Char} {cs : List Char} (h : [] ∉ cs.splitOn sep) :
    cs.head? ≠ some sep ∧ cs.getLast? ≠ some sep ∧ ¬[sep, sep] <:+: cs := by
  have hparts : ∀ before after, cs = before ++ sep :: after →
      [] ∉ before.splitOn sep ∧ [] ∉ after.splitOn sep := by
    rintro before after rfl
    rw [List.splitOn_append_cons_self, List.mem_append] at h
    exact not_or.mp h
  refine ⟨fun hhead => ?_, fun hlast => ?_, ?_⟩
  · obtain ⟨after, rfl⟩ := List.head?_eq_some_iff.mp hhead
    exact (hparts [] after rfl).1 (by simp)
  · obtain ⟨before, rfl⟩ := List.getLast?_eq_some_iff.mp hlast
    exact (hparts before [] rfl).2 (by simp)
  · rintro ⟨before, after, rfl⟩
    exact (hparts before (sep :: after) (by simp)).2 (by simp [splitOn_cons_self])

theorem nil_notMem_splitOn_groupFrom {sep : Char} (total interval position : Nat) {c : Char}
    {cs : List Char} (hc : c ≠ sep) (h : sep ∉ cs) :
    [] ∉ (c :: groupFrom total interval sep position cs).splitOn sep := by
  induction cs generalizing c position with
  | nil =>
    rw [groupFrom, List.splitOn_eq_singleton (by simpa using hc.symm)]
    simp
  | cons d cs ih =>
    have hd : d ≠ sep := fun e => h (e ▸ List.mem_cons_self)
    have hrest := ih (position + 1) hd fun hmem => h (List.mem_cons_of_mem _ hmem)
    rw [groupFrom]
    -- `c` is the whole part in front of a separator, or the first character of the part of `d`.
    split
    · rw [← List.singleton_append, List.splitOn_append_cons_self,
        List.splitOn_eq_singleton (by simpa using hc.symm)]
      simpa using hrest
    · exact nil_notMem_splitOn_cons hc hrest

theorem nil_notMem_splitOn_group {digits : String} {sep : Char} (hne : digits ≠ "")
    (h : sep ∉ digits.toList) (interval : Nat) :
    [] ∉ (group digits interval sep).toList.splitOn sep := by
  obtain ⟨c, cs, hcs⟩ := List.exists_cons_of_ne_nil (show digits.toList ≠ [] by simpa using hne)
  unfold group
  split
  · rw [List.splitOn_eq_singleton h, hcs]
    simp
  · rw [hcs] at h
    obtain ⟨hc, hrest⟩ : sep ≠ c ∧ sep ∉ cs := by simpa using h
    rw [String.toList_ofList, hcs, groupFrom, if_neg (by omega)]
    exact nil_notMem_splitOn_groupFrom _ _ _ hc.symm hrest

theorem evenGroups_splitOn_group {digits : String} {sep : Char} (hne : digits ≠ "")
    (hbytes : ∀ c ∈ digits.toList, c.utf8Size = 1) (h : sep ∉ digits.toList) (interval : Nat) :
    EvenGroups interval ((group digits interval sep).toList.splitOn sep) := by
  obtain ⟨groups, htext, hflatten, heven⟩ := group_eq hbytes (by simpa using hne) interval sep
  have hsep : ∀ g ∈ groups, sep ∉ g := by
    intro g hg hmem
    exact h (hflatten ▸ List.mem_flatten.mpr ⟨g, hg, hmem⟩)
  rw [htext, List.splitOn_intercalate sep hsep heven.groups_ne]
  exact heven

/-- The text is `digits` with separators in it, each of them between two characters. -/
structure Separates (digits : String) (interval : Nat) (sep : Char) (text : String) : Prop where
  kept : text.toList.filter (· ≠ sep) = digits.toList
  front : text.toList.head? ≠ some sep
  back : text.toList.getLast? ≠ some sep
  apart : ¬[sep, sep] <:+: text.toList
  /-- The groups are even only where bytes and characters are the same thing. -/
  even : digits ≠ "" → (∀ c ∈ digits.toList, c.utf8Size = 1) →
    EvenGroups interval (text.toList.splitOn sep)

/-- Grouping never runs below zero, and does nothing but put separators between the digits. -/
theorem separates_group {digits : String} {sep : Char} (h : sep ∉ digits.toList)
    (interval : Nat) :
    group? digits interval sep = some (group digits interval sep) ∧
      Separates digits interval sep (group digits interval sep) := by
  refine ⟨group?_eq digits interval sep, ?_⟩
  by_cases hne : digits = ""
  · subst hne
    have hnone : group "" interval sep = "" := if_pos (Or.inr (Nat.zero_le _))
    rw [hnone]
    exact ⟨rfl, by simp, by simp, by simp, fun hne => absurd rfl hne⟩
  · obtain ⟨hfront, hback, hapart⟩ := apart_of_splitOn (nil_notMem_splitOn_group hne h interval)
    exact ⟨filter_group interval h, hfront, hback, hapart,
      fun _ hbytes => evenGroups_splitOn_group hne hbytes h interval⟩

theorem separates_group_sevenDigits :
    '_' ∉ "1234567".toList ∧ group? "1234567" 3 '_' = some "1_234_567" ∧
      Separates "1234567" 3 '_' "1_234_567" ∧
      "1_234_567".toList.splitOn '_' = [['1'], ['2', '3', '4'], ['5', '6', '7']] ∧
      EvenGroups 3 [['1'], ['2', '3', '4'], ['5', '6', '7']] := by
  have hsep : '_' ∉ "1234567".toList := by decide
  have htext : group "1234567" 3 '_' = "1_234_567" := by decide
  have hparts : "1_234_567".toList.splitOn '_' = [['1'], ['2', '3', '4'], ['5', '6', '7']] := by
    decide
  have hall : "1234567".toList.all (fun c => decide (c.utf8Size = 1)) = true := by decide
  have hbytes : ∀ c ∈ "1234567".toList, c.utf8Size = 1 := by
    intro c hc
    exact of_decide_eq_true (List.all_eq_true.mp hall c hc)
  have h := separates_group hsep 3
  rw [htext] at h
  exact ⟨hsep, h.1, h.2, hparts, hparts ▸ h.2.even (by decide) hbytes⟩

/-- A character of two bytes moves the groups, so that the last one is short. -/
example : group "né12" 2 '_' = "n_é1_2" := by decide

end JavaSource.Text
