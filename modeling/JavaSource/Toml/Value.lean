/-!
# TOML values

A document is a table: a list of entries with distinct keys, in the order in which the keys first
appear.  Every entry remembers where its key and its value were written, so that a complaint about
it can point there.
-/

namespace JavaSource.Toml

/-- A stretch of text, in UTF-8 bytes. -/
structure Span where
  start : Nat
  length : Nat
  deriving DecidableEq, Repr

structure Key where
  text : String
  span : Span
  deriving DecidableEq, Repr

/-- How a table came about, which decides who may still add to it. -/
inductive Origin where
  /-- Written between braces: complete as it stands. -/
  | braces
  /-- Opened by a header of its own. -/
  | header
  /-- Implied by the header of a table inside it. -/
  | implied
  /-- Implied by a dotted key. -/
  | dotted
  deriving DecidableEq, Repr

inductive Value where
  | string (text : String)
  | integer (value : Int)
  /-- A number with a fraction or an exponent, as written. -/
  | float (text : String)
  | boolean (value : Bool)
  /-- A date, a time or both, as written. -/
  | datetime (text : String)
  | array (items : List Value)
  | table (origin : Origin) (entries : List (Key × Span × Value))
  /-- An array of tables, each opened by a double header. -/
  | tables (elements : List (List (Key × Span × Value)))

/-- A key, where its value is written, and the value. -/
abbrev Entry := Key × Span × Value

namespace Entry

def key (e : Entry) : Key := e.1

def span (e : Entry) : Span := e.2.1

def value (e : Entry) : Value := e.2.2

end Entry

/-- The entries of the outermost table. -/
abbrev Document := List Entry

end JavaSource.Toml
