import JavaSource.Primitive

/-!
# Tokens

What nodes turn into before they are laid out as text.  Keywords, identifiers and literals are
words: two of them in a row need a space between them.
-/

namespace JavaSource

/-- The reserved words that nodes are written with. -/
inductive Keyword where
  | primitive (p : Primitive)
  | classWord
  | thisWord
  | superWord
  | newWord
  deriving DecidableEq, Repr

namespace Keyword

def text : Keyword → String
  | primitive p => p.keyword
  | classWord => "class"
  | thisWord => "this"
  | superWord => "super"
  | newWord => "new"

def all : List Keyword :=
  Primitive.all.map primitive ++ [classWord, thisWord, superWord, newWord]

def ofText? (word : String) : Option Keyword := all.find? (·.text = word)

end Keyword

inductive Punct where
  | dot
  | comma
  | doubleColon
  | openParen
  | closeParen
  | openBrace
  | closeBrace
  | openBracket
  | closeBracket
  | less
  | greater
  deriving DecidableEq, Repr

namespace Punct

def text : Punct → String
  | dot => "."
  | comma => ","
  | doubleColon => "::"
  | openParen => "("
  | closeParen => ")"
  | openBrace => "\x7b"
  | closeBrace => "\x7d"
  | openBracket => "["
  | closeBracket => "]"
  | less => "<"
  | greater => ">"

def all : List Punct :=
  [dot, comma, doubleColon, openParen, closeParen, openBrace, closeBrace, openBracket,
   closeBracket, less, greater]

def ofText? (sign : String) : Option Punct := all.find? (·.text = sign)

end Punct

inductive Token where
  | keyword (k : Keyword)
  | punct (p : Punct)
  /-- An identifier, or the name of a class with dots in it. -/
  | ident (text : String)
  /-- A literal as it is written. -/
  | literal (text : String)
  deriving DecidableEq, Repr

namespace Token

def text : Token → String
  | keyword k => k.text
  | punct p => p.text
  | ident text => text
  | literal text => text

def isWord : Token → Bool
  | punct _ => false
  | _ => true

end Token

end JavaSource
