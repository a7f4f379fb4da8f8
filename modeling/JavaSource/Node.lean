import JavaSource.Expr.Basic
import JavaSource.Scope
import JavaSource.Text.Written
import JavaSource.Token

/-!
# Nodes and their tokens

Types, expressions and calls are written as sequences of tokens, which depend on the scope through
the spelling of classes only.
-/

namespace JavaSource

namespace TypeMember

def keyword : TypeMember → Keyword
  | classLiteral => .classWord
  | thisRef => .thisWord
  | superRef => .superWord

end TypeMember

namespace TypeRef

mutual

def tokens (s : Scope) : TypeRef → List Token
  | primitive p => [.keyword (.primitive p)]
  | named c => [.ident (c.spelling s)]
  | generic raw arguments =>
    [.ident (raw.spelling s), .punct .less] ++ tokensAll s arguments ++ [.punct .greater]
  | array element => tokens s element ++ [.punct .openBracket, .punct .closeBracket]

/-- Types with commas between them. -/
def tokensAll (s : Scope) : List TypeRef → List Token
  | [] => []
  | [type] => tokens s type
  | type :: types => tokens s type ++ [.punct .comma] ++ tokensAll s types

end

theorem tokensAll_eq (s : Scope) (types : List TypeRef) :
    tokensAll s types = [Token.punct .comma].intercalate (types.map (tokens s)) := by
  induction types with
  | nil => rfl
  | cons type types ih =>
    cases types with
    | nil => simp [tokensAll]
    | cons next types =>
      rw [tokensAll, ih]
      · simp [List.intercalate_cons_cons]
      · simp

end TypeRef

namespace Callee

/-- What stands before the arguments. -/
def tokens (s : Scope) : Callee → List Token
  | direct name => [.ident name]
  | static type name => type.tokens s ++ [.punct .dot, .ident name]
  | create type => [.keyword .newWord] ++ type.tokens s

end Callee

namespace Expr

mutual

def tokens (s : Scope) : Expr → List Token
  | int literal => [.literal literal.text]
  | str text => [.literal (Text.quote text)]
  | var name => [.ident name.text]
  | array members => [.punct .openBrace] ++ tokensAll s members ++ [.punct .closeBrace]
  | member type m => type.tokens s ++ [.punct .dot, .keyword m.keyword]
  | thisMethod name => [.keyword .thisWord, .punct .doubleColon, .ident name]
  | exprMethod receiver name => tokens s receiver ++ [.punct .doubleColon, .ident name]
  | typeMethod type name => type.tokens s ++ [.punct .doubleColon, .ident name]
  | call callee arguments =>
    callee.tokens s ++ [.punct .openParen] ++ tokensAll s arguments ++ [.punct .closeParen]

/-- Expressions with commas between them. -/
def tokensAll (s : Scope) : List Expr → List Token
  | [] => []
  | [e] => tokens s e
  | e :: es => tokens s e ++ [.punct .comma] ++ tokensAll s es

end

theorem tokensAll_eq (s : Scope) (es : List Expr) :
    tokensAll s es = [Token.punct .comma].intercalate (es.map (tokens s)) := by
  induction es with
  | nil => rfl
  | cons e es ih =>
    cases es with
    | nil => simp [tokensAll]
    | cons next es =>
      rw [tokensAll, ih]
      · simp [List.intercalate_cons_cons]
      · simp

end Expr

/-- Whatever can be written by itself. -/
inductive Node where
  | type (t : TypeRef)
  | expr (e : Expr)
  | call (c : Call)
  deriving DecidableEq

namespace Node

def tokens (s : Scope) : Node → List Token
  | type t => t.tokens s
  | expr e => e.tokens s
  | call c => c.toExpr.tokens s

end Node

end JavaSource
