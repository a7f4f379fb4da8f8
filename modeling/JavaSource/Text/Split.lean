import JavaSource.Text.CharClass

/-!
# Cutting text

Names are cut at dots and dollar signs and trimmed at their ends: `fieldsOf` cuts at every
separator, and `splitLast?` at the last one only.
-/

namespace JavaSource.Text

/-- The parts of a text between the separators, empty parts included, so there is always one. -/
def fieldsOf (sep : Char) (text : String) : List String :=
  (text.toList.splitOn sep).map String.ofList

/-- What stands before and after the last separator, or nothing if there is none. -/
def splitLast? (sep : Char) : List Char → Option (List Char × List Char)
  | [] => none
  | c :: cs =>
    match splitLast? sep cs with
    | some (before, after) => some (c :: before, after)
    | none => if c = sep then some ([], cs) else none

theorem splitLast?_eq_none_iff {sep : Char} {cs : List Char} :
    splitLast? sep cs = none ↔ sep ∉ cs := by
  induction cs with
  | nil => simp [splitLast?]
  | cons c cs ih =>
    rw [splitLast?]
    cases h : splitLast? sep cs with
    | some parts =>
      have hm : sep ∈ cs := by
        refine Decidable.byContradiction fun hn => ?_
        simp [ih.mpr hn] at h
      simp [hm]
    | none =>
      have hm : sep ∉ cs := ih.mp h
      by_cases hc : c = sep
      · simp [hc]
      · simp [hc, hm, Ne.symm hc]

theorem splitLast?_append {sep : Char} {after : List Char} (h : sep ∉ after)
    (before : List Char) : splitLast? sep (before ++ sep :: after) = some (before, after) := by
  induction before with
  | nil => simp [splitLast?, splitLast?_eq_none_iff.mpr h]
  | cons c before ih => simp [splitLast?, ih]

def dropBlanks (cs : List Char) : List Char := cs.dropWhile isBlank

/-- The text without the blanks at its two ends. -/
def trim (cs : List Char) : List Char := (dropBlanks (dropBlanks cs).reverse).reverse

end JavaSource.Text
