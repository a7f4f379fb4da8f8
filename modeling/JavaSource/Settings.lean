import JavaSource.Error
import JavaSource.Toml.Reader

/-!
# Settings

The settings are the indentation and the package whose classes are visible everywhere.  One step of
indentation is a tab or a number of spaces.

Settings are read from the entries of a document in the order in which the reader hands them on, and
the first entry at fault is reported.  Which order that is, and how a complaint of the reader is
worded, is left to the reader.
-/

namespace JavaSource

/-- One step of indentation.  A width outside 1 to 8 is kept as it was given, but written as the
nearest width inside. -/
inductive Indent where
  | spaces (width : Nat)
  | tab
  deriving DecidableEq, Repr

namespace Indent

/-- The widths that are written as they are. -/
def minWidth : Nat := 1

def maxWidth : Nat := 8

/-- Four spaces. -/
def standard : Indent := spaces 4

/-- What is written for one step. -/
def text : Indent → String
  | spaces width => String.ofList (List.replicate (max minWidth (min maxWidth width)) ' ')
  | tab => "\t"

/-- The indentation in words. -/
def describe : Indent → String
  | spaces width => Text.natural width ++ " spaces"
  | tab => "tab"

end Indent

structure Settings where
  indent : Indent
  implicitPackage : String
  deriving DecidableEq, Repr

namespace Settings

def standard : Settings := ⟨.standard, Package.standard⟩

instance : Inhabited Settings := ⟨standard⟩

/-- The name that a settings file has if none is given. -/
def standardFile : String := "javagen.toml"

/-! ## Reading settings -/

section reading

variable (reader : Toml.Reader)

/-- The indentation that a value describes: a number that a byte holds, or a word. -/
def indentOf : Toml.Value → Except Problem Indent
  | .integer width =>
    if Indent.minWidth ≤ width ∧ width ≤ Indent.maxWidth then .ok (.spaces width.toNat)
    else if 0 ≤ width ∧ width ≤ 255 then .error (.badWidth width)
    else .error (.reader (reader.noVariant "IndentValue"))
  | .string word => if word = "tab" then .ok .tab else .error (.badWord word)
  | _ => .error (.reader (reader.noVariant "IndentValue"))

/-- The text of a value that is one. -/
def packageOf : Toml.Value → Except Problem String
  | .string text => .ok text
  | value => .error (.reader (reader.notText value.kind))

/-- Blames a problem on a stretch of the file. -/
def blame {α : Type} (span : Toml.Span) : Except Problem α → Except Fault α
  | .ok value => .ok value
  | .error problem => .error (.entry problem span)

/-- The settings after one more entry.  A key that is no setting is blamed where the key stands,
a bad value where the value stands. -/
def withEntry (settings : Settings) (entry : Toml.Entry) : Except Fault Settings :=
  if entry.key.text = "indent" then
    (blame entry.span (indentOf reader entry.value)).map fun indent => { settings with indent }
  else if entry.key.text = "implicit_package" then
    (blame entry.span (packageOf reader entry.value)).map fun implicitPackage =>
      { settings with implicitPackage }
  else
    let message := reader.unknownKey entry.key.text ["indent", "implicit_package"]
    .error (.entry (.reader message) entry.key.span)

/-- The settings of a document; what it does not mention keeps its standard value. -/
def ofDocument (document : Toml.Document) : Except Fault Settings :=
  (reader.visit document).foldlM (withEntry reader) standard

/-- The settings of a file's text. -/
def ofText (text : String) : Except Fault Settings :=
  match reader.read? text with
  | none => .error .notToml
  | some document => ofDocument reader document

/-- The settings of a file with the given name; a fault is reported against the file. -/
def ofFile (file text : String) : Except Error Settings :=
  match ofText reader text with
  | .ok settings => .ok settings
  | .error fault => .error (.badSettings file fault)

end reading

end Settings

end JavaSource
