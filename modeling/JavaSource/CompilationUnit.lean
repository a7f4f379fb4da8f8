import JavaSource.Imports

/-!
# Compilation units

What the spelling of a class depends on: the package that is written into, its imports, and the
classes that are known to exist.
-/

namespace JavaSource

/-- The classes that a generation run knows by qualified name, each once, in the order in which they
were registered. -/
structure KnownClasses where
  names : List String
  deriving DecidableEq, Repr

namespace KnownClasses

def empty : KnownClasses := ⟨[]⟩

def size (k : KnownClasses) : Nat := k.names.length

def isEmpty (k : KnownClasses) : Bool := k.names.isEmpty

def contains (k : KnownClasses) (qualified : String) : Bool := k.names.contains qualified

def insert (k : KnownClasses) (qualified : String) : KnownClasses :=
  if k.contains qualified then k else ⟨k.names ++ [qualified]⟩

theorem contains_insert (k : KnownClasses) (new old : String) :
    (k.insert new).contains old = (k.contains old || new == old) := by
  unfold insert
  split
  · next h =>
    by_cases e : new = old
    · subst e
      simp [h]
    · simp [e]
  · by_cases e : new = old
    · simp [contains, e]
    · simp [contains, e, Ne.symm e]

def ofList (names : List String) : KnownClasses := names.foldl insert empty

end KnownClasses

structure CompilationUnit where
  package : String
  imports : Imports
  classes : KnownClasses
  deriving DecidableEq, Repr

namespace CompilationUnit

/-- A unit of the unnamed package without imports. -/
def empty : CompilationUnit := ⟨"", .empty, .empty⟩

instance : Inhabited CompilationUnit := ⟨empty⟩

/-- A unit of a package, without imports. -/
def ofPackage (package : String) : Except Error CompilationUnit := do
  Package.check package
  return ⟨package, .empty, .empty⟩

/-- The unit with one more import, which takes the place of the unit. -/
def withImport (u : CompilationUnit) (qualified : String) : Except Error CompilationUnit :=
  match u.imports.add qualified with
  | (imports, none) => .ok { u with imports }
  | (_, some e) => .error e

/-- The unit with another table of imports. -/
def withImports (u : CompilationUnit) (imports : Imports) : CompilationUnit := { u with imports }

/-- The unit with other known classes. -/
def withClasses (u : CompilationUnit) (classes : KnownClasses) : CompilationUnit :=
  { u with classes }

end CompilationUnit

end JavaSource
