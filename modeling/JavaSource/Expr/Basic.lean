import JavaSource.Literal
import JavaSource.Name
import JavaSource.TypeRef.Basic

/-!
# Expressions

An expression is a literal, a name, an array initializer, a member of a type, a method reference or
a call.  A call is what is called together with its arguments, so `Call` is no type of trees of its
own: every call is an expression by `Call.toExpr`.
-/

namespace JavaSource

/-- What may stand after the dot of a type. -/
inductive TypeMember where
  | classLiteral
  | thisRef
  | superRef
  deriving DecidableEq, Repr

/-- What is called. -/
inductive Callee where
  /-- A method by its bare name. -/
  | direct (name : String)
  /-- A static method of a type. -/
  | static (type : TypeRef) (name : String)
  /-- The constructor of a type. -/
  | create (type : TypeRef)
  deriving DecidableEq

inductive Expr where
  | int (literal : IntLiteral)
  | str (text : String)
  | var (name : Name)
  | array (members : List Expr)
  | member (type : TypeRef) (member : TypeMember)
  /-- A method of the object at hand. -/
  | thisMethod (name : String)
  | exprMethod (receiver : Expr) (name : String)
  | typeMethod (type : TypeRef) (name : String)
  | call (callee : Callee) (arguments : List Expr)

namespace Expr

/-! ## Equality -/

mutual

/-- Whether two expressions are the same. -/
def same : Expr → Expr → Bool
  | int a, int b => a == b
  | str a, str b => a == b
  | var a, var b => a == b
  | array as, array bs => sameAll as bs
  | member s a, member t b => s == t && a == b
  | thisMethod a, thisMethod b => a == b
  | exprMethod r a, exprMethod s b => same r s && a == b
  | typeMethod s a, typeMethod t b => s == t && a == b
  | call c as, call d bs => c == d && sameAll as bs
  | _, _ => false

def sameAll : List Expr → List Expr → Bool
  | [], [] => true
  | a :: as, b :: bs => same a b && sameAll as bs
  | _, _ => false

end

mutual

theorem same_iff : ∀ a b : Expr, same a b = true ↔ a = b
  | int _, b => by cases b <;> simp [same]
  | str _, b => by cases b <;> simp [same]
  | var _, b => by cases b <;> simp [same]
  | array as, b => by cases b <;> simp [same, sameAll_iff as]
  | member _ _, b => by cases b <;> simp [same]
  | thisMethod _, b => by cases b <;> simp [same]
  | exprMethod r _, b => by cases b <;> simp [same, same_iff r]
  | typeMethod _ _, b => by cases b <;> simp [same]
  | call _ as, b => by cases b <;> simp [same, sameAll_iff as]

theorem sameAll_iff : ∀ as bs : List Expr, sameAll as bs = true ↔ as = bs
  | [], bs => by cases bs <;> simp [sameAll]
  | a :: as, bs => by cases bs <;> simp [sameAll, same_iff a, sameAll_iff as]

end

instance : DecidableEq Expr := fun a b => decidable_of_iff _ (same_iff a b)

/-! ## Views -/

def name? : Expr → Option Name
  | var name => some name
  | _ => none

/-- The members of an array initializer. -/
def members? : Expr → Option (List Expr)
  | array members => some members
  | _ => none

end Expr

namespace Callee

/-- The name of a method; constructors have none. -/
def name? : Callee → Option String
  | direct name => some name
  | static _ name => some name
  | create _ => none

/-- The type that the method or constructor belongs to, where it is written. -/
def owner? : Callee → Option TypeRef
  | direct _ => none
  | static type _ => some type
  | create type => some type

end Callee

structure Call where
  callee : Callee
  arguments : List Expr
  deriving DecidableEq

namespace Call

def toExpr (c : Call) : Expr := .call c.callee c.arguments

/-- The call with more arguments at the end. -/
def withArguments (c : Call) (arguments : List Expr) : Call :=
  { c with arguments := c.arguments ++ arguments }

end Call

end JavaSource
