import JavaSource.Expr.Build
import JavaSource.Node
import JavaSource.Proofs.TypeRef.Checked

/-!
# Expressions from the factories

`Expr.Checked` collects the expressions that are made of checked types, of names that a naming
context hands out, and of calls whose method names were checked.  The names in method references
are not checked by any factory, so it is asked of them here that they are identifiers.
-/

namespace JavaSource

namespace Naming

/-- The states that requests, refused ones included, and new beginnings lead to. -/
inductive Reachable : Naming → Prop
  | empty : Reachable empty
  | request {s : Naming} (hs : Reachable s) (context : Nat) (identifier : String) :
      Reachable (s.request context identifier).1
  | reset {s : Naming} (hs : Reachable s) (context : Nat) : Reachable (s.reset context)

/-- The state with a new node. -/
def extend (s : Naming) (context : Nat) (identifier : String) : Naming :=
  { s.setNames context (s.names context ++ [⟨s.next, identifier⟩]) with next := s.next + 1 }

theorem names_extend (s : Naming) (context : Nat) (identifier : String) (other : Nat) :
    (s.extend context identifier).names other =
      if other = context then s.names context ++ [⟨s.next, identifier⟩] else s.names other := rfl

theorem mem_names_extend {s : Naming} {context other : Nat} {identifier : String} {n : Name} :
    n ∈ (s.extend context identifier).names other ↔
      n ∈ s.names other ∨ other = context ∧ n = ⟨s.next, identifier⟩ := by
  rw [names_extend]
  by_cases h : other = context
  · simp [h]
  · simp [h]

/-- A request finds the node of the identifier, makes it, or refuses the identifier. -/
theorem request_cases (s : Naming) (context : Nat) (identifier : String) :
    (∃ name ∈ s.names context, name.text = identifier ∧
      s.request context identifier = (s, .ok name)) ∨
    ((s.names context).find? (·.text = identifier) = none ∧ Identifier.Valid identifier ∧
      s.request context identifier =
        (s.extend context identifier, .ok ⟨s.next, identifier⟩)) ∨
    ((s.names context).find? (·.text = identifier) = none ∧ ¬Identifier.Valid identifier ∧
      ∃ e, s.request context identifier = (s, .error e)) := by
  unfold request
  cases hfind : (s.names context).find? (·.text = identifier) with
  | some name =>
    refine Or.inl ⟨name, List.mem_of_find?_eq_some hfind, ?_, rfl⟩
    simpa using List.find?_some hfind
  | none =>
    cases hcheck : Identifier.check identifier with
    | ok _ => exact Or.inr (Or.inl ⟨rfl, Identifier.check_eq_ok_iff.mp hcheck, rfl⟩)
    | error e =>
      have hvalid : ¬Identifier.Valid identifier := by
        intro h
        have hok : Identifier.check identifier = .ok () := Identifier.check_eq_ok_iff.mpr h
        rw [hcheck] at hok
        cases hok
      exact Or.inr (Or.inr ⟨rfl, hvalid, e, rfl⟩)

/-- Every node in use has an identifier for its text, in whichever order the requests came. -/
theorem Reachable.valid {s : Naming} (h : Reachable s) {context : Nat} {name : Name}
    (hn : name ∈ s.names context) : Identifier.Valid name.text := by
  induction h generalizing context with
  | empty => cases hn
  | @request s hs requested identifier ih =>
    rcases s.request_cases requested identifier with
      ⟨_, _, _, heq⟩ | ⟨_, hvalid, heq⟩ | ⟨_, _, _, heq⟩
    · rw [heq] at hn
      exact ih hn
    · rw [heq] at hn
      rcases mem_names_extend.mp hn with hn | ⟨-, rfl⟩
      · exact ih hn
      · exact hvalid
    · rw [heq] at hn
      exact ih hn
  | @reset s hs cleared ih =>
    have hn : name ∈ if context = cleared then [] else s.names context := hn
    split at hn
    · cases hn
    · exact ih hn

theorem Reachable.request_valid {s : Naming} (hs : Reachable s) {context : Nat}
    {identifier : String} {name : Name} (h : (s.request context identifier).2 = .ok name) :
    Identifier.Valid name.text := by
  rcases s.request_cases context identifier with
    ⟨_, hmem, _, heq⟩ | ⟨_, hvalid, heq⟩ | ⟨_, _, _, heq⟩
  · rw [heq] at h
    cases h
    exact hs.valid hmem
  · rw [heq] at h
    cases h
    exact hvalid
  · rw [heq] at h
    cases h

end Naming

/-- The expressions that the factories hand out, with identifiers in their method references. -/
inductive Expr.Checked : Expr → Prop
  | int (literal : IntLiteral) : Checked (.int literal)
  | str (text : String) : Checked (.str text)
  | var {s : Naming} {context : Nat} {identifier : String} {name : Name} (hs : s.Reachable)
      (h : (s.request context identifier).2 = .ok name) : Checked (.var name)
  | array {members : List Expr} (h : ∀ e ∈ members, Checked e) : Checked (.array members)
  | member {type : TypeRef} (h : type.Checked) (m : TypeMember) : Checked (type.member m)
  | thisMethod {name : String} (h : Identifier.Valid name) : Checked (.thisMethod name)
  | exprMethod {receiver : Expr} {name : String} (hr : Checked receiver)
      (h : Identifier.Valid name) : Checked (.exprMethod receiver name)
  | typeMethod {type : TypeRef} {name : String} (ht : type.Checked)
      (h : Identifier.Valid name) : Checked (.typeMethod type name)
  | callName {name : String} {c : Call} (h : Call.ofName name = .ok c) : Checked c.toExpr
  | callStatic {type : TypeRef} {name : String} {c : Call} (ht : type.Checked)
      (h : type.callStatic name = .ok c) : Checked c.toExpr
  | callTypeName {type name : String} {c : Call} (h : Call.ofTypeName type name = .ok c) :
      Checked c.toExpr
  | callElement {element : Element} {c : Call} (h : Call.ofElement element = .ok c) :
      Checked c.toExpr
  | create {type : TypeRef} (ht : type.Checked) : Checked type.create.toExpr
  | withArguments {c : Call} {arguments : List Expr} (hc : Checked c.toExpr)
      (ha : ∀ e ∈ arguments, Checked e) : Checked (c.withArguments arguments).toExpr

/-- The nodes that the factories hand out. -/
def Node.Checked : Node → Prop
  | type t => t.Checked
  | expr e => e.Checked
  | call c => c.toExpr.Checked

end JavaSource
