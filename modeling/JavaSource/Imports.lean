import JavaSource.TypeRef.Basic

/-!
# Imports

A compilation unit imports single classes.  Each import binds a simple name, and no simple name is
bound to two classes.  The imports are kept in the order in which they were added and declared in
ascending order.
-/

namespace JavaSource

/-- Cuts a qualified name into its package and the simple name of the innermost class. -/
def splitQualified (qualified : String) : String × String :=
  let (package, binary) := (Text.splitLast? '.' qualified.toList).getD ([], qualified.toList)
  let simple := ((Text.splitLast? '$' binary).map Prod.snd).getD binary
  (String.ofList package, String.ofList simple)

/-- The simple name that an import of `qualified` binds. -/
def boundName (qualified : String) : String := (splitQualified qualified).2

structure Imports where
  /-- Simple names with the qualified names that they stand for. -/
  entries : List (String × String)
  deriving DecidableEq, Repr

namespace Imports

def empty : Imports := ⟨[]⟩

def size (t : Imports) : Nat := t.entries.length

def isEmpty (t : Imports) : Bool := t.entries.isEmpty

/-- The qualified name that a simple name stands for. -/
def get? (t : Imports) (simple : String) : Option String :=
  (t.entries.find? (·.1 = simple)).map Prod.snd

def binds (t : Imports) (simple : String) : Bool := (t.get? simple).isSome

/-- Whether exactly this class is imported. -/
def contains (t : Imports) (qualified : String) : Bool :=
  t.get? (boundName qualified) = some qualified

/-- The imported classes, in the order in which they were added. -/
def toList (t : Imports) : List String := t.entries.map Prod.snd

/-- Adds an import; adding it again changes nothing.  The package is checked before the simple name,
and both before a conflict is looked for.  The table comes back either way, with the error if there
was one. -/
def add (t : Imports) (qualified : String) : Imports × Option Error :=
  let (package, simple) := splitQualified qualified
  match (do Package.check package; Identifier.check simple) with
  | .error e => (t, some e)
  | .ok () =>
    match t.get? simple with
    | some existing =>
      if existing = qualified then (t, none)
      else (t, some (.importConflict simple existing qualified))
    | none => (⟨t.entries ++ [(simple, qualified)]⟩, none)

/-- Adds an import of a class without type arguments. -/
def addType (t : Imports) (type : TypeRef) : Imports × Option Error :=
  if type.isClass then t.add type.qualifiedName
  else (t, some (.invalidTypeOperation .importType type.qualifiedName))

/-- Adds imports up to the first that fails. -/
def addAll : Imports → List String → Imports × Option Error
  | t, [] => (t, none)
  | t, qualified :: rest =>
    match t.add qualified with
    | (t, none) => addAll t rest
    | (t, some e) => (t, some e)

/-- Adds the imports of another table, up to the first that fails. -/
def merge (t other : Imports) : Imports × Option Error := t.addAll other.toList

/-- The declaration of an import, with dots before nested classes. -/
def declaration (qualified : String) : String :=
  "import " ++ String.ofList (qualified.toList.map fun c => if c = '$' then '.' else c) ++ ";"

/-- The declarations in ascending order of the qualified names. -/
def declarations (t : Imports) : List String :=
  (t.toList.mergeSort fun a b => decide (a ≤ b)).map declaration

end Imports

end JavaSource
