import JavaSource.Node

/-!
# Pages

A page is source text that is being written.  It knows its unit and settings, how deep it is
indented, and whether its last line is still empty.  Indentation is written with the first text of
a line, so lines without text stay empty.
-/

namespace JavaSource

/-- Characters after which a word needs a space. -/
def isWordChar (c : Char) : Bool :=
  Text.isAlphanumeric c || c == '_' || c == '$' || c == '"' || c == '\x27'

structure Page where
  unit : CompilationUnit
  settings : Settings
  level : Nat
  /-- Whether the last line has no text yet. -/
  atLineStart : Bool
  text : String
  deriving DecidableEq, Repr

namespace Page

/-- An empty page. -/
def blank (unit : CompilationUnit) (settings : Settings) : Page := ⟨unit, settings, 0, true, ""⟩

def scope (p : Page) : Scope := .ofUnit p.unit p.settings

/-- What stands before the first text of a line at the page's level. -/
def indentation (p : Page) : String :=
  String.join (List.replicate p.level p.settings.indent.text)

def endsWithWord (p : Page) : Bool := p.text.toList.getLast?.any isWordChar

/-- Writes text, with the indentation if it is the first of its line.  No text writes nothing. -/
def write (p : Page) (text : String) : Page :=
  if text = "" then p
  else if p.atLineStart then
    { p with text := p.text ++ p.indentation ++ text, atLineStart := false }
  else { p with text := p.text ++ text }

/-- How a token is written: a comma with a space after it, all else as it is. -/
def tokenText : Token → String
  | .punct .comma => ", "
  | token => token.text

/-- Writes a token, with a space before it if two words would meet. -/
def writeToken (p : Page) (token : Token) : Page :=
  if token.isWord ∧ ¬p.atLineStart ∧ p.endsWithWord then
    { p with text := p.text ++ " " }.write (tokenText token)
  else p.write (tokenText token)

def writeTokens (p : Page) (tokens : List Token) : Page := tokens.foldl writeToken p

def writeNode (p : Page) (node : Node) : Page := p.writeTokens (node.tokens p.scope)

/-- Ends the line. -/
def newline (p : Page) : Page := { p with text := p.text ++ "\n", atLineStart := true }

/-- Writes a line of text. -/
def writeLine (p : Page) (text : String) : Page := (p.write text).newline

/-- Writes a node on a line of its own. -/
def writeNodeLine (p : Page) (node : Node) : Page := (p.writeNode node).newline

def indent (p : Page) : Page := { p with level := p.level + 1 }

/-- One level less, but never less than none. -/
def dedent (p : Page) : Page := { p with level := p.level - 1 }

end Page

namespace Node

/-- A node as it is written in a unit under the settings. -/
def render (node : Node) (unit : CompilationUnit) (settings : Settings) : String :=
  ((Page.blank unit settings).writeNode node).text

end Node

namespace Expr

/-- The expression as it is written outside any package, under the standard settings. -/
def display (e : Expr) : String := Node.render (.expr e) .empty .standard

end Expr

end JavaSource
