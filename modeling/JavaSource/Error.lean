import JavaSource.Element
import JavaSource.Identifier
import JavaSource.Primitive
import JavaSource.Settings.Fault

/-!
# Errors

Everything that can go wrong while a program is put together, by cause.  The wording stands in
`Error.message` and `Error.help?`, and each cause has a `code` to look it up by.
-/

namespace JavaSource

/-- What was asked of a type that does not allow it. -/
inductive TypeOperation where
  | addArguments
  | primitiveArgument
  | nestClass
  | importType
  deriving DecidableEq, Repr

namespace TypeOperation

def label : TypeOperation → String
  | addArguments => "add type arguments"
  | primitiveArgument => "use a primitive as type argument"
  | nestClass => "nest a class"
  | importType => "import"

end TypeOperation

inductive Error where
  | unsupportedRadix (radix : Nat) (width : Width)
  | literalOutOfRange (value : Int) (width : Width)
  | unsupportedElement (kind : ElementKind) (name : String)
  /-- The type is given by its qualified name. -/
  | invalidTypeOperation (operation : TypeOperation) (type : String)
  | invalidIdentifier (name : String) (problem : Identifier.Problem)
  /-- The simple name stands for `existing` already. -/
  | importConflict (simpleName existing requested : String)
  | badSettings (file : String) (fault : Settings.Fault)
  deriving DecidableEq, Repr

namespace Error

def message : Error → String
  | unsupportedRadix radix width =>
    "unsupported radix " ++ Text.natural radix ++ " for " ++ width.keyword ++ " literal"
  | literalOutOfRange value width =>
    "value " ++ Text.integer value ++ " does not fit in an " ++ width.keyword ++ " literal"
  | unsupportedElement kind name =>
    "unsupported element for call: " ++ kind.label ++ " '" ++ name ++ "'"
  | invalidTypeOperation operation type =>
    "cannot " ++ operation.label ++ " on type '" ++ type ++ "'"
  | invalidIdentifier name _ => "invalid identifier '" ++ name ++ "'"
  | importConflict simpleName existing requested =>
    "cannot import '" ++ requested ++ "': '" ++ simpleName ++ "' already refers to '" ++
      existing ++ "'"
  | badSettings _ _ => "failed to parse render configuration"

def code : Error → String
  | unsupportedRadix _ _ => "javagen::unsupported_radix"
  | literalOutOfRange _ _ => "javagen::literal_out_of_range"
  | unsupportedElement _ _ => "javagen::unsupported_element"
  | invalidTypeOperation _ _ => "javagen::invalid_type_operation"
  | invalidIdentifier _ _ => "javagen::invalid_identifier"
  | importConflict _ _ _ => "javagen::import_conflict"
  | badSettings _ _ => "javagen::config_error"

/-- What to do about it, where there is something to say. -/
def help? : Error → Option String
  | unsupportedRadix _ _ => some "integer literals can be written in radix 2, 10 or 16"
  | literalOutOfRange _ _ => some "use a long literal for values outside the 32-bit range"
  | unsupportedElement _ _ => some "only method elements can be turned into calls"
  | invalidTypeOperation _ _ => none
  | invalidIdentifier _ problem =>
    some (problem.message ++
      ". Identifiers start with a letter, '_' or '$' and are not reserved words.")
  | importConflict _ _ _ => some "refer to one of the types by its qualified name instead"
  | badSettings _ _ => none

end Error

namespace Identifier

/-- Refuses a name that is not an identifier. -/
def check (name : String) : Except Error Unit :=
  match problem? name with
  | none => .ok ()
  | some problem => .error (.invalidIdentifier name problem)

end Identifier

namespace Package

/-- Refuses a name that is not a package name; the complaint is about the whole name. -/
def check (name : String) : Except Error Unit :=
  match problem? name with
  | none => .ok ()
  | some problem => .error (.invalidIdentifier name problem)

end Package

end JavaSource
