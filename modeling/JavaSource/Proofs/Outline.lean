import JavaSource.Proofs.Rendering
import JavaSource.Proofs.Text.Decoding
import Mathlib.Data.List.Forall2

/-!
# What is left of a node when it is written

Two expressions have the same shape if they are built in the same way from the same pieces, where a
class counts by its spelling, a variable by its name and an integer literal by value, width and
radix.  The receiver of a method reference is the one place where a variable and a class of the same
spelling may stand for each other.

An outline is what tokens can say about a node.  Types and expressions share one kind of outline,
in which a bare class and a variable are both a name.  The module shows that nodes with the same
outline have the same shape (`Expr.sameShape_of_outline`).
-/

namespace JavaSource

/-! ## Shapes -/

/-- Types of the same form whose classes are spelled alike. -/
inductive TypeRef.SameShape (s : Scope) : TypeRef → TypeRef → Prop
  | primitive (p : Primitive) : SameShape s (.primitive p) (.primitive p)
  | named {c d : ClassName} (h : c.spelling s = d.spelling s) : SameShape s (.named c) (.named d)
  | generic {c d : ClassName} {as bs : List TypeRef} (h : c.spelling s = d.spelling s)
      (harguments : List.Forall₂ (SameShape s) as bs) :
      SameShape s (.generic c as) (.generic d bs)
  | array {a b : TypeRef} (h : SameShape s a b) : SameShape s (.array a) (.array b)

inductive Callee.SameShape (s : Scope) : Callee → Callee → Prop
  | direct (name : String) : SameShape s (.direct name) (.direct name)
  | static {t t' : TypeRef} (h : t.SameShape s t') (name : String) :
      SameShape s (.static t name) (.static t' name)
  | create {t t' : TypeRef} (h : t.SameShape s t') : SameShape s (.create t) (.create t')

inductive Expr.SameShape (s : Scope) : Expr → Expr → Prop
  | int {a b : IntLiteral} (hvalue : a.value = b.value) (hwidth : a.width = b.width)
      (hradix : a.radix = b.radix) : SameShape s (.int a) (.int b)
  | str (text : String) : SameShape s (.str text) (.str text)
  | var {v w : Name} (h : v.text = w.text) : SameShape s (.var v) (.var w)
  | array {as bs : List Expr} (h : List.Forall₂ (SameShape s) as bs) :
      SameShape s (.array as) (.array bs)
  | member {t t' : TypeRef} (h : t.SameShape s t') (m : TypeMember) :
      SameShape s (.member t m) (.member t' m)
  | thisMethod (name : String) : SameShape s (.thisMethod name) (.thisMethod name)
  | exprMethod {a b : Expr} (h : SameShape s a b) (name : String) :
      SameShape s (.exprMethod a name) (.exprMethod b name)
  | typeMethod {t t' : TypeRef} (h : t.SameShape s t') (name : String) :
      SameShape s (.typeMethod t name) (.typeMethod t' name)
  | varAsClass {v : Name} {c : ClassName} (h : v.text = c.spelling s) (name : String) :
      SameShape s (.exprMethod (.var v) name) (.typeMethod (.named c) name)
  | classAsVar {v : Name} {c : ClassName} (h : v.text = c.spelling s) (name : String) :
      SameShape s (.typeMethod (.named c) name) (.exprMethod (.var v) name)
  | call {c d : Callee} {as bs : List Expr} (h : c.SameShape s d)
      (harguments : List.Forall₂ (SameShape s) as bs) : SameShape s (.call c as) (.call d bs)

/-! ## Outlines -/

/-- The form of a type, an expression, or of what is called. -/
inductive Outline where
  | primitive (p : Primitive)
  /-- A class, a variable or a called method. -/
  | name (text : String)
  | generic (text : String) (arguments : List Outline)
  | arrayOf (element : Outline)
  | literal (text : String)
  | array (members : List Outline)
  | member (type : Outline) (k : Keyword)
  | this
  | method (receiver : Outline) (name : String)
  | static (type : Outline) (name : String)
  | create (type : Outline)
  | call (callee : Outline) (arguments : List Outline)

mutual

def TypeRef.outline (s : Scope) : TypeRef → Outline
  | .primitive p => .primitive p
  | .named c => .name (c.spelling s)
  | .generic raw arguments => .generic (raw.spelling s) (TypeRef.outlineAll s arguments)
  | .array element => .arrayOf (TypeRef.outline s element)

def TypeRef.outlineAll (s : Scope) : List TypeRef → List Outline
  | [] => []
  | type :: types => TypeRef.outline s type :: TypeRef.outlineAll s types

end

def Callee.outline (s : Scope) : Callee → Outline
  | direct name => .name name
  | static type name => .static (type.outline s) name
  | create type => .create (type.outline s)

mutual

def Expr.outline (s : Scope) : Expr → Outline
  | .int literal => .literal literal.text
  | .str text => .literal (Text.quote text)
  | .var name => .name name.text
  | .array members => .array (Expr.outlineAll s members)
  | .member type m => .member (type.outline s) m.keyword
  | .thisMethod name => .method .this name
  | .exprMethod receiver name => .method (Expr.outline s receiver) name
  | .typeMethod type name => .method (type.outline s) name
  | .call callee arguments => .call (callee.outline s) (Expr.outlineAll s arguments)

def Expr.outlineAll (s : Scope) : List Expr → List Outline
  | [] => []
  | e :: es => Expr.outline s e :: Expr.outlineAll s es

end

/-! ## From outlines to shapes -/

namespace TypeRef

mutual

theorem sameShape_of_outline (s : Scope) :
    ∀ a b : TypeRef, a.outline s = b.outline s → a.SameShape s b
  | primitive p, b, h => by
    cases b <;> simp only [outline, Outline.primitive.injEq, reduceCtorEq] at h
    exact h ▸ .primitive p
  | named c, b, h => by
    cases b <;> simp only [outline, Outline.name.injEq, reduceCtorEq] at h
    exact .named h
  | generic raw arguments, b, h => by
    cases b <;> simp only [outline, Outline.generic.injEq, reduceCtorEq] at h
    exact .generic h.1 (sameShape_of_outlineAll s _ _ h.2)
  | array element, b, h => by
    cases b <;> simp only [outline, Outline.arrayOf.injEq, reduceCtorEq] at h
    exact .array (sameShape_of_outline s _ _ h)

theorem sameShape_of_outlineAll (s : Scope) :
    ∀ as bs : List TypeRef, outlineAll s as = outlineAll s bs →
      List.Forall₂ (SameShape s) as bs
  | [], bs, h => by
    cases bs <;> simp only [outlineAll, reduceCtorEq] at h
    exact .nil
  | a :: as, bs, h => by
    cases bs <;> simp only [outlineAll, List.cons.injEq, reduceCtorEq] at h
    exact .cons (sameShape_of_outline s a _ h.1) (sameShape_of_outlineAll s as _ h.2)

end

theorem outline_ne_this (s : Scope) (t : TypeRef) : t.outline s ≠ .this := by
  cases t <;> simp [outline]

end TypeRef

theorem Callee.sameShape_of_outline {s : Scope} {c d : Callee} (h : c.outline s = d.outline s) :
    c.SameShape s d := by
  cases c with
  | direct name =>
    cases d <;> simp only [outline, Outline.name.injEq, reduceCtorEq] at h
    exact h ▸ .direct name
  | static type name =>
    cases d <;> simp only [outline, Outline.static.injEq, reduceCtorEq] at h
    exact h.2 ▸ .static (TypeRef.sameShape_of_outline s _ _ h.1) name
  | create type =>
    cases d <;> simp only [outline, Outline.create.injEq, reduceCtorEq] at h
    exact .create (TypeRef.sameShape_of_outline s _ _ h)

/-- A number does not start like a string literal. -/
theorem IntLiteral.text_ne_quote (l : IntLiteral) (text : String) : l.text ≠ Text.quote text := by
  intro h
  obtain ⟨d, ds, hd, -, hform⟩ := l.isNumber_text
  rw [h, Text.toList_quote] at hform
  rcases hform with hform | hform
  · rw [← (List.cons.inj hform).1] at hd
    exact absurd hd (by decide)
  · exact absurd (List.cons.inj hform).1 (by decide)

theorem TypeMember.keyword_injective {m n : TypeMember} (h : m.keyword = n.keyword) : m = n := by
  revert h
  cases m <;> cases n <;> decide

namespace Expr

theorem outline_ne_this (s : Scope) (e : Expr) : e.outline s ≠ .this := by
  cases e <;> simp [outline]

/-- Only a variable looks like a type, which then is a bare class. -/
theorem exists_of_outline_eq {s : Scope} {e : Expr} {t : TypeRef}
    (h : e.outline s = t.outline s) :
    ∃ v c, e = var v ∧ t = .named c ∧ v.text = c.spelling s := by
  cases e <;> cases t <;>
    simp only [outline, TypeRef.outline, Outline.name.injEq, reduceCtorEq] at h
  exact ⟨_, _, rfl, rfl, h⟩

mutual

theorem sameShape_of_outline (s : Scope) :
    ∀ a b : Expr, a.outline s = b.outline s → a.SameShape s b
  | int l, b, h => by
    cases b <;> simp only [outline, Outline.literal.injEq, reduceCtorEq] at h
    · obtain ⟨hvalue, hwidth, hradix⟩ := IntLiteral.eq_of_text_eq h
      exact .int hvalue hwidth hradix
    · exact absurd h (l.text_ne_quote _)
  | str text, b, h => by
    cases b <;> simp only [outline, Outline.literal.injEq, reduceCtorEq] at h
    · exact absurd h.symm (IntLiteral.text_ne_quote _ text)
    · exact Text.quote_injective h ▸ .str text
  | var v, b, h => by
    cases b <;> simp only [outline, Outline.name.injEq, reduceCtorEq] at h
    exact .var h
  | array members, b, h => by
    cases b <;> simp only [outline, Outline.array.injEq, reduceCtorEq] at h
    exact .array (sameShape_of_outlineAll s members _ h)
  | member type m, b, h => by
    cases b <;> simp only [outline, Outline.member.injEq, reduceCtorEq] at h
    obtain ⟨htype, hkeyword⟩ := h
    rw [TypeMember.keyword_injective hkeyword]
    exact .member (TypeRef.sameShape_of_outline s type _ htype) _
  | thisMethod name, b, h => by
    cases b <;> simp only [outline, Outline.method.injEq, reduceCtorEq, true_and] at h
    · exact h ▸ .thisMethod name
    · exact absurd h.1.symm (outline_ne_this s _)
    · exact absurd h.1.symm (TypeRef.outline_ne_this s _)
  | exprMethod receiver name, b, h => by
    cases b <;> simp only [outline, Outline.method.injEq, reduceCtorEq] at h
    · exact absurd h.1 (outline_ne_this s receiver)
    · exact h.2 ▸ .exprMethod (sameShape_of_outline s receiver _ h.1) name
    · -- The other receiver is a type, so this one must be a variable.
      obtain ⟨v, c, rfl, rfl, htext⟩ := exists_of_outline_eq h.1
      exact h.2 ▸ .varAsClass htext name
  | typeMethod type name, b, h => by
    cases b <;> simp only [outline, Outline.method.injEq, reduceCtorEq] at h
    · exact absurd h.1 (TypeRef.outline_ne_this s type)
    · obtain ⟨v, c, rfl, rfl, htext⟩ := exists_of_outline_eq h.1.symm
      exact h.2 ▸ .classAsVar htext name
    · exact h.2 ▸ .typeMethod (TypeRef.sameShape_of_outline s type _ h.1) name
  | call callee arguments, b, h => by
    cases b <;> simp only [outline, Outline.call.injEq, reduceCtorEq] at h
    exact .call (Callee.sameShape_of_outline h.1) (sameShape_of_outlineAll s arguments _ h.2)

theorem sameShape_of_outlineAll (s : Scope) :
    ∀ as bs : List Expr, outlineAll s as = outlineAll s bs → List.Forall₂ (SameShape s) as bs
  | [], bs, h => by
    cases bs <;> simp only [outlineAll, reduceCtorEq] at h
    exact .nil
  | a :: as, bs, h => by
    cases bs <;> simp only [outlineAll, List.cons.injEq, reduceCtorEq] at h
    exact .cons (sameShape_of_outline s a _ h.1) (sameShape_of_outlineAll s as _ h.2)

end

end Expr

end JavaSource
