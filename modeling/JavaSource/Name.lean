import JavaSource.Error

/-!
# Names of variables

Variables are mentioned by name nodes, and two mentions are the same variable if they are the same
node.  Nodes are handed out per context: within one context an identifier always gives the same
node, and different contexts never share one.
-/

namespace JavaSource

/-- A name node.  The stamp tells nodes with the same text apart. -/
structure Name where
  stamp : Nat
  text : String
  deriving DecidableEq, Repr

namespace Name

/-- The name as it is shown to a developer. -/
def describe (n : Name) : String := "Name(\"" ++ n.text ++ "\")"

end Name

/-- The name nodes that are in use, context by context. -/
structure Naming where
  /-- The stamp of the next node; every node in use has a smaller one. -/
  next : Nat
  /-- The nodes of a context, in the order in which they were asked for. -/
  names : Nat → List Name

namespace Naming

def empty : Naming := ⟨0, fun _ => []⟩

def size (s : Naming) (context : Nat) : Nat := (s.names context).length

def contains (s : Naming) (context : Nat) (identifier : String) : Bool :=
  (s.names context).any (·.text = identifier)

/-- Replaces the nodes of a context. -/
def setNames (s : Naming) (context : Nat) (names : List Name) : Naming :=
  { s with names := fun other => if other = context then names else s.names other }

/-- The node of an identifier in a context, a new one at the first request.  Only a new identifier is
checked.  The state comes back either way, with the error if the identifier was refused. -/
def request (s : Naming) (context : Nat) (identifier : String) : Naming × Except Error Name :=
  match (s.names context).find? (·.text = identifier) with
  | some name => (s, .ok name)
  | none =>
    match Identifier.check identifier with
    | .error e => (s, .error e)
    | .ok () =>
      let name : Name := ⟨s.next, identifier⟩
      ({ s.setNames context (s.names context ++ [name]) with next := s.next + 1 }, .ok name)

/-- Begins a context anew; the nodes that it handed out stay what they are. -/
def reset (s : Naming) (context : Nat) : Naming := s.setNames context []

end Naming

end JavaSource
