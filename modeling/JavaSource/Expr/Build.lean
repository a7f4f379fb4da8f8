import JavaSource.Element
import JavaSource.Expr.Basic
import JavaSource.TypeRef.OfName

/-!
# Building expressions

The ways to make expressions and calls.  Names of called methods are checked; names in method
references are taken as they come.
-/

namespace JavaSource

namespace Expr

/-- A literal of type `int`. -/
def ofInt32 (radix : Radix) (value : Int32) (interval : Nat) : Expr :=
  int (.ofInt32 value radix interval)

/-- A literal of type `long`. -/
def ofInt64 (radix : Radix) (value : Int64) (interval : Nat) : Expr :=
  int (.ofInt64 value radix interval)

/-- An array initializer of string literals. -/
def strings (members : List String) : Expr := array (members.map str)

/-- An array initializer of decimal `int` literals. -/
def int32s (members : List Int32) : Expr :=
  array (members.map fun value => ofInt32 .decimal value 0)

/-- An array initializer of decimal `long` literals. -/
def int64s (members : List Int64) : Expr :=
  array (members.map fun value => ofInt64 .decimal value 0)

/-! Literals of the following kinds are not written, whatever their value. -/

/-- A floating-point literal, in groups of `interval` digits: there is none. -/
def float? (_radix : Radix) (_interval : Nat) : Option Expr := none

/-- A number shaped by a format: there is none. -/
def formatted? (_radix : Radix) (_format : String) : Option Expr := none

/-- A character literal: there is none. -/
def character? (_codePoint : Nat) : Option Expr := none

end Expr

/-- An expression that mentions the variable of an identifier in a context. -/
def Naming.mention (s : Naming) (context : Nat) (identifier : String) :
    Naming × Except Error Expr :=
  let (s, name) := s.request context identifier
  (s, name.map .var)

namespace TypeRef

/-- A member of the type without its arguments. -/
def member (type : TypeRef) (member : TypeMember) : Expr := .member type.erasure member

def classLiteral (type : TypeRef) : Expr := type.member .classLiteral

def thisRef (type : TypeRef) : Expr := type.member .thisRef

def superRef (type : TypeRef) : Expr := type.member .superRef

/-- A constructor call, still without arguments. -/
def create (type : TypeRef) : Call := ⟨.create type, []⟩

/-- A call of a static method, still without arguments. -/
def callStatic (type : TypeRef) (name : String) : Except Error Call := do
  Identifier.check name
  return ⟨.static type.erasure name, []⟩

end TypeRef

namespace Call

/-- A call of a method by its bare name, still without arguments. -/
def ofName (name : String) : Except Error Call := do
  Identifier.check name
  return ⟨.direct name, []⟩

/-- A call of a static method of the type with a written name. -/
def ofTypeName (type name : String) : Except Error Call := do
  let type ← TypeRef.ofName type
  type.callStatic name

/-- A call of an element, which must be a method. -/
def ofElement (element : Element) : Except Error Call :=
  if element.kind = .method then ofName element.name
  else .error (.unsupportedElement element.kind element.name)

end Call

end JavaSource
