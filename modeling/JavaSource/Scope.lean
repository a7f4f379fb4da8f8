import JavaSource.CompilationUnit
import JavaSource.Settings

/-!
# Scopes and the spelling of classes

A class is written as short as its surroundings allow.  A scope is what is asked of the
surroundings; the rules are tried in a fixed order, and the first that applies decides.
-/

namespace JavaSource

/-- What is visible where a class is mentioned. -/
structure Scope where
  package : String
  /-- The package whose classes are visible everywhere. -/
  implicitPackage : String
  /-- Whether an import binds a simple name. -/
  bindsName : String → Bool
  /-- Whether a class, given by its qualified name, is imported. -/
  importsClass : String → Bool
  /-- Whether a class, given by its qualified name, is known to exist. -/
  knowsClass : String → Bool

namespace Scope

/-- What a compilation unit sees under the settings. -/
def ofUnit (u : CompilationUnit) (settings : Settings) : Scope where
  package := u.package
  implicitPackage := settings.implicitPackage
  bindsName := u.imports.binds
  importsClass := u.imports.contains
  knowsClass := u.classes.contains

/-- The scope of a reader that knows the unit but not what its imports stand for. -/
def withoutImports (u : CompilationUnit) : Scope :=
  { ofUnit u .standard with importsClass := fun _ => false }

end Scope

/-- The rules by which a class gets its spelling. -/
inductive Resolution where
  /-- In the package at hand, but an import claims the leading name. -/
  | masked
  /-- In the implicit package, and not hidden by a class of the package at hand. -/
  | implicit
  | samePackage
  | imported
  /-- Only the class at the top of the nesting is imported. -/
  | outermostImported
  | qualified
  deriving DecidableEq, Repr

namespace ClassName

/-- The rule that applies to a class.  What counts for the name at hand is the leading simple name,
which is that of the outermost class. -/
def resolution (c : ClassName) (s : Scope) : Resolution :=
  let leading := c.outermost.simpleName
  if s.package = c.package ∧ s.bindsName leading then .masked
  else if c.package = s.implicitPackage ∧ ¬s.knowsClass (Package.qualify s.package leading) then
    .implicit
  else if s.package = c.package then .samePackage
  else if s.importsClass c.qualifiedName then .imported
  else if c.enclosing?.isSome ∧ s.importsClass c.outermost.qualifiedName then .outermostImported
  else .qualified

/-- How a class is written in a scope.  An import binds the innermost name only. -/
def spelling (c : ClassName) (s : Scope) : String :=
  match c.resolution s with
  | .imported => c.simpleName
  | .implicit => c.joined "."
  | .samePackage => c.joined "."
  | .outermostImported => c.joined "."
  | .masked => c.sourceName
  | .qualified => c.sourceName

end ClassName

end JavaSource
