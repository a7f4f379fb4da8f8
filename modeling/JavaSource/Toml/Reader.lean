import JavaSource.Toml.Document
import JavaSource.Toml.Float

/-!
# Readers of documents

What is read from a document comes through a `Reader`: it makes a document of a text, hands its
entries on one by one, and has words for an entry that is not what was asked for.  Whoever reads
settings gets a reader and knows no more of it than these functions.  `Reader.standard` is the one
that the program is run with.
-/

namespace JavaSource.Toml

/-- A value without what stands inside it, which is all that a complaint tells of it. -/
inductive Kind where
  | string (text : String)
  | integer (value : Int)
  | float (text : String)
  | boolean (value : Bool)
  | datetime (text : String)
  | array
  | table
  | tables
  deriving DecidableEq, Repr

def Value.kind : Value → Kind
  | string text => .string text
  | integer value => .integer value
  | float text => .float text
  | boolean value => .boolean value
  | datetime text => .datetime text
  | array _ => .array
  | table _ _ => .table
  | tables _ => .tables

structure Reader where
  /-- The document of a text, or nothing if the text is not TOML. -/
  read? : String → Option Document
  /-- The entries of a document in the order in which they are handed on. -/
  visit : Document → List Entry
  /-- The complaint about a key that is not among the expected ones. -/
  unknownKey : (key : String) → (expected : List String) → String
  /-- The complaint about a value that should be text. -/
  notText : Kind → String
  /-- The complaint about a value that fits no variant of the named type. -/
  noVariant : (type : String) → String

namespace Reader

/-- The entries in ascending order of their keys. -/
def inKeyOrder (document : Document) : List Entry :=
  document.mergeSort fun a b => decide (a.key.text ≤ b.key.text)

/-- A choice of names, the last of two after an `or`. -/
def choice (names : List String) : String :=
  match names.map fun name => "`" ++ name ++ "`" with
  | [a, b] => a ++ " or " ++ b
  | names => (if names.length = 1 then "" else "one of ") ++ ", ".intercalate names

/-- What a value is called. -/
def describe : Kind → String
  | .string text => "string " ++ Text.quote text
  | .integer value => "integer `" ++ Text.integer value ++ "`"
  | .float text => "floating point `" ++ floatText text ++ "`"
  | .boolean true => "boolean `true`"
  | .boolean false => "boolean `false`"
  | .datetime _ => "map"
  | .array => "sequence"
  | .table => "map"
  | .tables => "sequence"

def standard : Reader where
  read? := Document.ofText?
  visit := inKeyOrder
  unknownKey := fun key expected => "unknown field `" ++ key ++ "`, expected " ++ choice expected
  notText := fun kind => "invalid type: " ++ describe kind ++ ", expected a string"
  noVariant := fun type => "data did not match any variant of untagged enum " ++ type

end Reader

end JavaSource.Toml
