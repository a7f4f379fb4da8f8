import JavaSource.Text.Written
import JavaSource.Toml.Value

/-!
# Faults in a settings file

A settings file can fail to be TOML at all, or hold an entry that is no setting.  In the second
case the fault says what is wrong and where it stands.
-/

namespace JavaSource.Settings

/-- What is wrong with an entry. -/
inductive Problem where
  /-- The reader of the file complains, in its own words. -/
  | reader (message : String)
  /-- A number of spaces that no indentation has. -/
  | badWidth (width : Int)
  /-- A word that is not `tab`. -/
  | badWord (word : String)
  deriving DecidableEq, Repr

namespace Problem

def message : Problem → String
  | reader message => message
  | badWidth width => "invalid indent width " ++ Text.integer width ++ ", expected 1 to 8"
  | badWord word => "invalid indent '" ++ word ++ "', expected a width or \"tab\""

end Problem

inductive Fault where
  | notToml
  | entry (problem : Problem) (span : Toml.Span)
  deriving DecidableEq, Repr

namespace Fault

/-- The words for the entry at fault. -/
def detail? : Fault → Option String
  | notToml => none
  | entry problem _ => some problem.message

def span? : Fault → Option Toml.Span
  | notToml => none
  | entry _ span => some span

end Fault

end JavaSource.Settings
