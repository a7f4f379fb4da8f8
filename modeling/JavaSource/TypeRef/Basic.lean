import JavaSource.ClassName

/-!
# Types

A type is a primitive, a class, a class with type arguments, or an array.  `TypeRef.withArguments`
and `TypeRef.nestedClass` check what they are given; the constructors do not.
-/

namespace JavaSource

inductive TypeRef where
  | primitive (p : Primitive)
  | named (c : ClassName)
  | generic (raw : ClassName) (arguments : List TypeRef)
  | array (element : TypeRef)
  deriving Repr

namespace TypeRef

/-! ## Equality -/

mutual

/-- Whether two types are the same. -/
def same : TypeRef → TypeRef → Bool
  | primitive p, primitive q => p == q
  | named c, named d => c == d
  | generic c as, generic d bs => c == d && sameAll as bs
  | array a, array b => same a b
  | _, _ => false

def sameAll : List TypeRef → List TypeRef → Bool
  | [], [] => true
  | a :: as, b :: bs => same a b && sameAll as bs
  | _, _ => false

end

mutual

theorem same_iff : ∀ a b : TypeRef, same a b = true ↔ a = b
  | primitive p, b => by cases b <;> simp [same]
  | named c, b => by cases b <;> simp [same]
  | generic c as, b => by cases b <;> simp [same, sameAll_iff as]
  | array a, b => by cases b <;> simp [same, same_iff a]

theorem sameAll_iff : ∀ as bs : List TypeRef, sameAll as bs = true ↔ as = bs
  | [], bs => by cases bs <;> simp [sameAll]
  | a :: as, bs => by cases bs <;> simp [sameAll, same_iff a, sameAll_iff as]

end

instance : DecidableEq TypeRef := fun a b => decidable_of_iff _ (same_iff a b)

/-! ## Views -/

def isPrimitive : TypeRef → Bool
  | primitive _ => true
  | _ => false

/-- Whether this is a class without type arguments. -/
def isClass : TypeRef → Bool
  | named _ => true
  | _ => false

/-- The class of a type that is one, with or without arguments. -/
def class? : TypeRef → Option ClassName
  | named c => some c
  | generic raw _ => some raw
  | _ => none

def arguments : TypeRef → List TypeRef
  | generic _ arguments => arguments
  | _ => []

def simpleName : TypeRef → String
  | primitive p => p.keyword
  | named c => c.simpleName
  | generic raw _ => raw.simpleName
  | array element => element.simpleName ++ "[]"

def binaryName : TypeRef → String
  | primitive p => p.keyword
  | named c => c.binaryName
  | generic raw _ => raw.binaryName
  | array element => element.binaryName ++ "[]"

def qualifiedName : TypeRef → String
  | primitive p => p.keyword
  | named c => c.qualifiedName
  | generic raw _ => raw.qualifiedName
  | array element => element.qualifiedName ++ "[]"

/-! ## The full form

Every class by its source name, type arguments between angle brackets, and `[]` after the element
of an array.  This is how a type is shown outside any compilation unit. -/

mutual

/-- The type as it is written where no class is visible by a shorter name. -/
def display : TypeRef → String
  | primitive p => p.keyword
  | named c => c.sourceName
  | generic raw arguments => raw.sourceName ++ "<" ++ displayAll arguments ++ ">"
  | array element => element.display ++ "[]"

/-- Types with commas between them. -/
def displayAll : List TypeRef → String
  | [] => ""
  | [type] => type.display
  | type :: types => type.display ++ ", " ++ displayAll types

end

/-! ## Operations -/

/-- A top-level class; its package is checked before its name. -/
def ofClass (package name : String) : Except Error TypeRef := do
  Package.check package
  Identifier.check name
  return named (.top package name)

/-- A class of the standard package. -/
def ofStandard (name : String) : TypeRef := named (.top Package.standard name)

def string : TypeRef := ofStandard "String"

def object : TypeRef := ofStandard "Object"

/-- The primitive that a wrapper class stands for; every other type is left as it is. -/
def unbox : TypeRef → TypeRef
  | named c =>
    match c.unboxed? with
    | some p => primitive p
    | none => named c
  | type => type

/-- The wrapper class of a primitive, which remembers the primitive that it was made from; every other
type is left as it is. -/
def boxed : TypeRef → TypeRef
  | primitive p =>
    named ((ClassName.top Package.standard p.wrapper).withUnboxed
      (if p = .void then none else some p))
  | type => type

/-- Drops type arguments, inside arrays too. -/
def erasure : TypeRef → TypeRef
  | generic raw _ => named raw
  | array element => array element.erasure
  | type => type

/-- Puts type arguments on a class.  Wrapper classes take none, and no argument is primitive.
Without arguments the type stays as it is. -/
def withArguments (type : TypeRef) (arguments : List TypeRef) : Except Error TypeRef :=
  match type with
  | named c =>
    if c.unboxed?.isSome then .error (.invalidTypeOperation .addArguments type.qualifiedName)
    else
      match arguments.find? isPrimitive with
      | some argument =>
        .error (.invalidTypeOperation .primitiveArgument argument.qualifiedName)
      | none => .ok (if arguments.isEmpty then type else generic c arguments)
  | _ => .error (.invalidTypeOperation .addArguments type.qualifiedName)

/-- A class inside a class. -/
def nestedClass (type : TypeRef) (name : String) : Except Error TypeRef :=
  match type with
  | named outer => do
    Identifier.check name
    return named (.nested outer name)
  | _ => .error (.invalidTypeOperation .nestClass type.qualifiedName)

end TypeRef

end JavaSource
