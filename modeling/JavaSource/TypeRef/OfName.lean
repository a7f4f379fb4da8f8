import JavaSource.TypeRef.Basic

/-!
# Types from written names

A type can be given as it is written in a program: a primitive keyword, or a class by its qualified
name with `$` before nested classes, followed by any number of `[]`.  Blanks around the name, and
before each `[]`, do not count.
-/

namespace JavaSource.TypeRef

/-- What stands before the `[]` at the end of a text, if it ends so. -/
def dropBrackets? : List Char → Option (List Char)
  | [] => none
  | ['[', ']'] => some []
  | c :: cs => (dropBrackets? cs).map (c :: ·)

theorem length_of_dropBrackets? {cs rest : List Char} (h : dropBrackets? cs = some rest) :
    rest.length < cs.length := by
  fun_induction dropBrackets? cs generalizing rest with
  | case1 => simp at h
  | case2 => simp_all
  | case3 c cs _ ih =>
    obtain ⟨rest', h', rfl⟩ := Option.map_eq_some_iff.1 h
    simpa using ih h'

theorem length_dropBlanks_le (cs : List Char) : (Text.dropBlanks cs).length ≤ cs.length :=
  (List.dropWhile_sublist _).length_le

theorem length_trim_le (cs : List Char) : (Text.trim cs).length ≤ cs.length := by
  have outer := length_dropBlanks_le (Text.dropBlanks cs).reverse
  have inner := length_dropBlanks_le cs
  simp only [Text.trim, List.length_reverse] at outer ⊢
  omega

/-- The class that `segments` lead to, one inside the other, starting from `type`. -/
def nestedClasses (type : TypeRef) (segments : List String) : Except Error TypeRef :=
  segments.foldlM nestedClass type

/-- The class with a qualified name. -/
def ofClassName (name : List Char) : Except Error TypeRef :=
  let (package, binary) := (Text.splitLast? '.' name).getD ([], name)
  match binary.splitOn '$' with
  | [] => .error (.invalidIdentifier (String.ofList name) .noClass)
  | top :: segments =>
    if top.isEmpty then .error (.invalidIdentifier (String.ofList name) .noClass)
    else do
      let type ← ofClass (String.ofList package) (String.ofList top)
      nestedClasses type (segments.map String.ofList)

/-- The type with a written name, given by its characters. -/
def ofNameChars (cs : List Char) : Except Error TypeRef :=
  let name := Text.trim cs
  match _h : dropBrackets? name with
  | some element => do
    let type ← ofNameChars element
    return array type
  | none =>
    match Primitive.ofKeyword? (String.ofList name) with
    | some p => .ok (primitive p)
    | none => ofClassName name
termination_by cs.length
decreasing_by exact Nat.lt_of_lt_of_le (length_of_dropBrackets? _h) (length_trim_le cs)

/-- The type with a written name. -/
def ofName (name : String) : Except Error TypeRef := ofNameChars name.toList

end JavaSource.TypeRef
