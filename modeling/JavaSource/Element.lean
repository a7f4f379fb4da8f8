/-!
# Program elements

The elements that a program is made of, as a reflective description names them.  Only methods can
be called.
-/

namespace JavaSource

inductive ElementKind where
  | packageDecl
  | moduleDecl
  | classDecl
  | interfaceDecl
  | enumDecl
  | recordDecl
  | annotationType
  | enumConstant
  | field
  | recordComponent
  | parameter
  | localVariable
  | exceptionParameter
  | resourceVariable
  | bindingVariable
  | typeParameter
  | method
  | constructor
  | staticInitializer
  | instanceInitializer
  | other
  deriving DecidableEq, Repr

namespace ElementKind

/-- The kind in words. -/
def label : ElementKind → String
  | packageDecl => "package"
  | moduleDecl => "module"
  | classDecl => "class"
  | interfaceDecl => "interface"
  | enumDecl => "enum"
  | recordDecl => "record"
  | annotationType => "annotation type"
  | enumConstant => "enum constant"
  | field => "field"
  | recordComponent => "record component"
  | parameter => "parameter"
  | localVariable => "local variable"
  | exceptionParameter => "exception parameter"
  | resourceVariable => "resource variable"
  | bindingVariable => "binding variable"
  | typeParameter => "type parameter"
  | method => "method"
  | constructor => "constructor"
  | staticInitializer => "static initializer"
  | instanceInitializer => "instance initializer"
  | other => "element"

/-- All kinds: packages and types, then what they declare, then what has no name of its own. -/
def all : List ElementKind :=
  [packageDecl, moduleDecl, classDecl, interfaceDecl, enumDecl, recordDecl, annotationType,
   enumConstant, field, recordComponent, parameter, localVariable, exceptionParameter,
   resourceVariable, bindingVariable, typeParameter, method, constructor, staticInitializer,
   instanceInitializer, other]

/-- The kind with the given words. -/
def ofLabel? (words : String) : Option ElementKind := all.find? (·.label = words)

end ElementKind

/-- An element seen by its kind and its simple name. -/
structure Element where
  kind : ElementKind
  name : String
  deriving DecidableEq, Repr

namespace Element

def ofMethod (name : String) : Element := ⟨.method, name⟩

end Element

end JavaSource
