import JavaSource.Text.Split

/-!
# Identifiers and package names

An identifier starts with a letter, `_` or `$`, goes on with letters, digits, `_` and `$`, and is
not a reserved word.  `Identifier.problem?` says what is wrong with a name; the first rule that it
breaks wins.  A package name is empty, for the unnamed package, or a list of identifiers with dots
between them.
-/

namespace JavaSource

namespace Identifier

/-- The words of the language that no identifier may be, the literals `true`, `false` and `null`
included. -/
def reservedWords : List String :=
  ["abstract", "assert", "boolean", "break", "byte", "case", "catch", "char", "class", "const",
   "continue", "default", "do", "double", "else", "enum", "extends", "final", "finally", "float",
   "for", "goto", "if", "implements", "import", "instanceof", "int", "interface", "long",
   "native", "new", "package", "private", "protected", "public", "return", "short", "static",
   "strictfp", "super", "switch", "synchronized", "this", "throw", "throws", "transient", "try",
   "void", "volatile", "while", "_", "true", "false", "null"]

def isReserved (name : String) : Bool := reservedWords.contains name

def isStart (c : Char) : Bool := Text.isAlphabetic c || c == '_' || c == '$'

def isPart (c : Char) : Bool := Text.isAlphanumeric c || c == '_' || c == '$'

/-- What can be wrong with a name. -/
inductive Problem where
  | empty
  | badStart
  | badPart
  | reserved
  /-- A written type name that ends where its class should stand. -/
  | noClass
  deriving DecidableEq, Repr

namespace Problem

def message : Problem → String
  | empty => "name cannot be empty"
  | badStart => "name must start with a letter, underscore or dollar sign"
  | badPart => "name must contain only letters, digits, underscores and dollar signs"
  | reserved => "name is a reserved word"
  | noClass => "missing class name"

end Problem

/-- The first rule that `name` breaks, or nothing if it is an identifier. -/
def problem? (name : String) : Option Problem :=
  match name.toList with
  | [] => some .empty
  | c :: cs =>
    if !isStart c then some .badStart
    else if !cs.all isPart then some .badPart
    else if isReserved name then some .reserved
    else none

end Identifier

namespace Package

/-- The package whose classes need no import unless the settings name another. -/
def standard : String := "java.lang"

/-- The problem of the first segment that is not an identifier. -/
def problem? (name : String) : Option Identifier.Problem :=
  if name = "" then none else (Text.fieldsOf '.' name).findSome? Identifier.problem?

/-- The name of a member of the package; the unnamed package adds nothing. -/
def qualify (package name : String) : String :=
  if package = "" then name else package ++ "." ++ name

end Package

end JavaSource
