import JavaSource.Error

/-!
# Class names

A class has a package, a simple name and perhaps a class around it, and it remembers the primitive
that it unboxes to.  Every class stores its package, nested ones included, and equality compares all
that is stored.  `ClassName.top` and `ClassName.nested` fill the fields in.

The name is written in three forms: the binary name `Outer$Inner`, the qualified name
`pkg.Outer$Inner`, and the source name `pkg.Outer.Inner`.
-/

namespace JavaSource

inductive ClassName where
  | root (package name : String) (unboxed : Option Primitive)
  | member (outer : ClassName) (package name : String) (unboxed : Option Primitive)
  deriving DecidableEq, Repr

namespace ClassName

/-! ## What is stored -/

def package : ClassName → String
  | root package _ _ => package
  | member _ package _ _ => package

def simpleName : ClassName → String
  | root _ name _ => name
  | member _ _ name _ => name

def enclosing? : ClassName → Option ClassName
  | root _ _ _ => none
  | member outer _ _ _ => some outer

/-- The primitive that the class unboxes to, if it is remembered as a wrapper. -/
def unboxed? : ClassName → Option Primitive
  | root _ _ unboxed => unboxed
  | member _ _ _ unboxed => unboxed

/-! ## Making classes -/

/-- A class on the top level of a package.  The wrapper classes of the standard package are known by
their names. -/
def top (package name : String) : ClassName :=
  root package name (if package = Package.standard then Primitive.ofWrapper? name else none)

/-- A class inside another, in the same package. -/
def nested (outer : ClassName) (name : String) : ClassName := member outer outer.package name none

/-- The class with another primitive to unbox to. -/
def withUnboxed (unboxed : Option Primitive) : ClassName → ClassName
  | root package name _ => root package name unboxed
  | member outer package name _ => member outer package name unboxed

/-! ## Names -/

/-- The class at the top of the nesting, perhaps the class itself. -/
def outermost : ClassName → ClassName
  | root package name unboxed => root package name unboxed
  | member outer _ _ _ => outer.outermost

/-- The simple names on the way to the class, outermost first. -/
def chain : ClassName → List String
  | root _ name _ => [name]
  | member outer _ name _ => outer.chain ++ [name]

/-- The simple names on the way to the class with `sep` between them. -/
def joined (sep : String) : ClassName → String
  | root _ name _ => name
  | member outer _ name _ => outer.joined sep ++ sep ++ name

def binaryName (c : ClassName) : String := c.joined "$"

def qualifiedName : ClassName → String
  | root package name _ => Package.qualify package name
  | member outer _ name _ => outer.qualifiedName ++ "$" ++ name

/-- The name as it stands in a program that sees nothing of the class's package. -/
def sourceName (c : ClassName) : String := Package.qualify c.package (c.joined ".")

section views

variable (outer : ClassName) (package name : String)

@[simp] theorem package_top : (top package name).package = package := rfl

@[simp] theorem package_nested : (nested outer name).package = outer.package := rfl

@[simp] theorem simpleName_top : (top package name).simpleName = name := rfl

@[simp] theorem simpleName_nested : (nested outer name).simpleName = name := rfl

@[simp] theorem enclosing?_top : (top package name).enclosing? = none := rfl

@[simp] theorem enclosing?_nested : (nested outer name).enclosing? = some outer := rfl

@[simp] theorem unboxed?_nested : (nested outer name).unboxed? = none := rfl

@[simp] theorem outermost_top : (top package name).outermost = top package name := rfl

@[simp] theorem outermost_nested : (nested outer name).outermost = outer.outermost := rfl

@[simp] theorem chain_top : (top package name).chain = [name] := rfl

@[simp] theorem chain_nested : (nested outer name).chain = outer.chain ++ [name] := rfl

end views

end ClassName

end JavaSource
