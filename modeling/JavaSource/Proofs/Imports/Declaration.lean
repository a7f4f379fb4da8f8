import JavaSource.Imports
import JavaSource.Proofs.Identifier
import JavaSource.Proofs.Text.Fields

/-!
# The text of a declaration

A declaration shows the qualified name with a dot for every dollar sign, whether the sign stands
before a nested class or inside a name.  So its segments are the parts of the qualified name between
signs of either kind.  The last of them is the simple name that the import binds
(`lastSegment_declaration`), and the text is legal exactly if all of them are identifiers
(`legal_declaration_iff`).
-/

namespace JavaSource

/-! ## Dots for dollar signs -/

namespace Text

def dotted (cs : List Char) : List Char := cs.map fun c => if c = '$' then '.' else c

theorem dotted_append (xs ys : List Char) : dotted (xs ++ ys) = dotted xs ++ dotted ys :=
  List.map_append

theorem dotted_cons_dot (cs : List Char) : dotted ('.' :: cs) = '.' :: dotted cs := rfl

theorem dotted_eq_self {cs : List Char} (h : '$' ∉ cs) : dotted cs = cs := by
  have hkeep : ∀ c ∈ cs, (if c = '$' then '.' else c) = c := by
    intro c hc
    have hne : c ≠ '$' := fun heq => h (heq ▸ hc)
    exact if_neg hne
  rw [dotted, List.map_congr_left hkeep, List.map_id']

theorem dollar_notMem_dotted (cs : List Char) : '$' ∉ dotted cs := by
  intro h
  obtain ⟨c, -, hc⟩ := List.mem_map.mp h
  split at hc
  · exact absurd hc (by decide)
  · next hne => exact hne hc

/-- Without dots in the text, cutting at the new dots is cutting at the dollar signs. -/
theorem splitOn_dotted {cs : List Char} (h : '.' ∉ cs) :
    (dotted cs).splitOn '.' = cs.splitOn '$' := by
  induction cs with
  | nil => rfl
  | cons c cs ih =>
    have hc : c ≠ '.' := fun e => h (e ▸ List.mem_cons_self)
    have htail := ih fun hmem => h (List.mem_cons_of_mem _ hmem)
    show List.splitOn '.' ((if c = '$' then '.' else c) :: dotted cs) = _
    by_cases hdollar : c = '$'
    · rw [if_pos hdollar, hdollar, splitOn_cons_self, splitOn_cons_self, htail]
    · rw [if_neg hdollar, List.splitOn_cons_eq_if_modifyHead, List.splitOn_cons_eq_if_modifyHead,
        htail, if_neg (by simpa using hc), if_neg (by simpa using hdollar)]

/-- The last part between the new dots stands after the last dollar sign of what follows the last
dot. -/
theorem afterLast_dotted (cs : List Char) :
    afterLast '.' (dotted cs) = afterLast '$' (afterLast '.' cs) := by
  have hdotFree {cs : List Char} (h : '.' ∉ cs) :
      afterLast '.' (dotted cs) = afterLast '$' cs := by
    have hlast := getLast?_splitOn '.' (dotted cs)
    rw [splitOn_dotted h, getLast?_splitOn] at hlast
    exact (Option.some.inj hlast).symm
  cases hs : splitLast? '.' cs with
  | none =>
    have hcs := splitLast?_eq_none_iff.mp hs
    rw [hdotFree hcs, afterLast_of_notMem hcs]
  | some parts =>
    obtain ⟨before, after⟩ := parts
    obtain ⟨rfl, hafter⟩ := splitLast?_eq_some_iff.mp hs
    rw [dotted_append, dotted_cons_dot, afterLast_append, afterLast_append, hdotFree hafter,
      afterLast_of_notMem hafter]

end Text

theorem boundName_eq (qualified : String) :
    boundName qualified =
      String.ofList (Text.afterLast '$' (Text.afterLast '.' qualified.toList)) := by
  rw [boundName, splitQualified, Text.afterLast, Text.afterLast]
  cases Text.splitLast? '.' qualified.toList with
  | none => rfl
  | some parts => rfl

namespace Imports

/-! ## The segments of a declaration -/

/-- The parts of a qualified name between dots and dollar signs. -/
def segments (qualified : String) : List String :=
  Text.fieldsOf '.' (String.ofList (Text.dotted qualified.toList))

/-- What stands after the last dot between `import` and the semicolon of a declaration. -/
def lastSegment (text : String) : String :=
  String.ofList (Text.afterLast '.' (text.toList.drop "import ".length).dropLast)

/-- The text imports by identifiers with dots between them. -/
def Legal (text : String) : Prop :=
  ∃ names : List String, names ≠ [] ∧ (∀ name ∈ names, Identifier.Valid name) ∧
    text = "import " ++ ".".intercalate names ++ ";"

theorem toList_declaration (qualified : String) :
    (declaration qualified).toList
      = "import ".toList ++ (Text.dotted qualified.toList ++ [';']) := by
  simp [declaration, Text.dotted]

theorem lastSegment_declaration (qualified : String) :
    lastSegment (declaration qualified) = boundName qualified := by
  have hdrop : ((declaration qualified).toList.drop "import ".length).dropLast
      = Text.dotted qualified.toList := by
    rw [toList_declaration, ← String.length_toList, List.drop_left, List.dropLast_concat]
  rw [lastSegment, hdrop, Text.afterLast_dotted, boundName_eq]

theorem declaration_eq_iff {qualified path : String} :
    declaration qualified = "import " ++ path ++ ";" ↔
      Text.dotted qualified.toList = path.toList := by
  rw [← String.toList_inj, toList_declaration, String.toList_append, String.toList_append,
    List.append_assoc, List.append_right_inj]
  exact List.append_left_inj [';']

theorem legal_declaration_iff {qualified : String} :
    Legal (declaration qualified) ↔ ∀ name ∈ segments qualified, Identifier.Valid name := by
  constructor
  · rintro ⟨names, hne, hvalid, htext⟩
    -- Identifiers have no dots, so cutting the text gives back what was joined.
    have hpath : Text.dotted qualified.toList = ['.'].intercalate (names.map String.toList) := by
      rw [declaration_eq_iff.mp htext, String.toList_intercalate]
      rfl
    have hdots : ∀ part ∈ names.map String.toList, '.' ∉ part :=
      List.forall_mem_map.mpr fun name hname => (hvalid name hname).dot_notMem
    have hsegments : segments qualified = names := by
      rw [segments, Text.fieldsOf, String.toList_ofList, hpath,
        List.splitOn_intercalate _ hdots (by simpa using hne), List.map_map]
      simp [Function.comp_def]
    rw [hsegments]
    exact hvalid
  · intro hvalid
    refine ⟨segments qualified, ?_, hvalid, declaration_eq_iff.mpr ?_⟩
    · simp [segments, Text.fieldsOf]
    · rw [String.toList_intercalate, segments, Text.fieldsOf, String.toList_ofList, List.map_map]
      simp [Function.comp_def, List.intercalate_splitOn]

end Imports

end JavaSource
