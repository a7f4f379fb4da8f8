import JavaSource.Proofs.Imports
import JavaSource.Proofs.Page

/-!
# What the text of a node depends on

A node meets its surroundings only through the classes that it mentions (`Node.tokens_congr`), and the
rules for one class ask a scope for six answers at most (`Scope.AgreeOn`).  So two units give a node
the same text as soon as they give the same answers about its classes (`Node.render_congr`).

The main theorem is `Node.render_frame`.  A further import, or a further known class, leaves the text
of a node alone unless one of the node's classes is concerned.  Nothing is asked of the unit; in
particular the imports may share any names with each other and with the node's classes.
-/

namespace JavaSource

/-! ## The classes of a node -/

namespace TypeRef

mutual

/-- The classes that a type mentions, in the order in which they are written. -/
def classes : TypeRef → List ClassName
  | primitive _ => []
  | named c => [c]
  | generic raw arguments => raw :: classesAll arguments
  | array element => classes element

def classesAll : List TypeRef → List ClassName
  | [] => []
  | type :: types => classes type ++ classesAll types

end

end TypeRef

namespace Callee

def classes : Callee → List ClassName
  | direct _ => []
  | static type _ => type.classes
  | create type => type.classes

end Callee

namespace Expr

mutual

def classes : Expr → List ClassName
  | int _ => []
  | str _ => []
  | var _ => []
  | array members => classesAll members
  | member type _ => type.classes
  | thisMethod _ => []
  | exprMethod receiver _ => classes receiver
  | typeMethod type _ => type.classes
  | call callee arguments => callee.classes ++ classesAll arguments

def classesAll : List Expr → List ClassName
  | [] => []
  | e :: es => classes e ++ classesAll es

end

end Expr

namespace Node

def classes : Node → List ClassName
  | type t => t.classes
  | expr e => e.classes
  | call c => c.toExpr.classes

end Node

/-! ## Tokens by way of spellings -/

variable {s s' : Scope}

namespace TypeRef

mutual

theorem tokens_congr : ∀ t : TypeRef, (∀ c ∈ t.classes, c.spelling s = c.spelling s') →
    t.tokens s = t.tokens s'
  | primitive p, _ => rfl
  | named c, h => by
    rw [tokens, tokens, h c (by simp [classes])]
  | generic raw arguments, h => by
    obtain ⟨hraw, harguments⟩ := List.forall_mem_cons.mp h
    rw [tokens, tokens, tokensAll_eq, tokensAll_eq, hraw, map_tokens_congr arguments harguments]
  | array element, h => by
    rw [tokens, tokens, tokens_congr element h]

theorem map_tokens_congr : ∀ types : List TypeRef,
    (∀ c ∈ classesAll types, c.spelling s = c.spelling s') →
    types.map (tokens s) = types.map (tokens s')
  | [], _ => rfl
  | type :: types, h => by
    obtain ⟨htype, htypes⟩ := List.forall_mem_append.mp h
    rw [List.map_cons, List.map_cons, tokens_congr type htype, map_tokens_congr types htypes]

end

end TypeRef

theorem Callee.tokens_congr {callee : Callee}
    (h : ∀ c ∈ callee.classes, c.spelling s = c.spelling s') :
    callee.tokens s = callee.tokens s' := by
  cases callee with
  | direct name => rfl
  | static type name => rw [tokens, tokens, type.tokens_congr h]
  | create type => rw [tokens, tokens, type.tokens_congr h]

namespace Expr

mutual

theorem tokens_congr : ∀ e : Expr, (∀ c ∈ e.classes, c.spelling s = c.spelling s') →
    e.tokens s = e.tokens s'
  | int literal, _ => rfl
  | str text, _ => rfl
  | var name, _ => rfl
  | array members, h => by
    rw [tokens, tokens, tokensAll_eq, tokensAll_eq, map_tokens_congr members h]
  | member type m, h => by
    rw [tokens, tokens, type.tokens_congr h]
  | thisMethod name, _ => rfl
  | exprMethod receiver name, h => by
    rw [tokens, tokens, tokens_congr receiver h]
  | typeMethod type name, h => by
    rw [tokens, tokens, type.tokens_congr h]
  | call callee arguments, h => by
    obtain ⟨hcallee, harguments⟩ := List.forall_mem_append.mp h
    rw [tokens, tokens, tokensAll_eq, tokensAll_eq, Callee.tokens_congr hcallee,
      map_tokens_congr arguments harguments]

theorem map_tokens_congr : ∀ es : List Expr,
    (∀ c ∈ classesAll es, c.spelling s = c.spelling s') →
    es.map (tokens s) = es.map (tokens s')
  | [], _ => rfl
  | e :: es, h => by
    obtain ⟨he, hes⟩ := List.forall_mem_append.mp h
    rw [List.map_cons, List.map_cons, tokens_congr e he, map_tokens_congr es hes]

end

end Expr

/-- Scopes that spell the classes of a node alike give it the same tokens. -/
theorem Node.tokens_congr {node : Node}
    (h : ∀ c ∈ node.classes, c.spelling s = c.spelling s') : node.tokens s = node.tokens s' := by
  cases node with
  | type t => exact t.tokens_congr h
  | expr e => exact e.tokens_congr h
  | call c => exact c.toExpr.tokens_congr h

/-! ## Spellings by way of answers -/

/-- Two scopes give the same answers to what the rules ask about a class.  Whether its leading name is
bound is asked in its own package only, and for known classes only if it is in the implicit one. -/
structure Scope.AgreeOn (s s' : Scope) (c : ClassName) : Prop where
  package : s.package = s'.package
  implicitPackage : s.implicitPackage = s'.implicitPackage
  bindsName : s.package = c.package →
    s.bindsName c.outermost.simpleName = s'.bindsName c.outermost.simpleName
  importsClass : s.importsClass c.qualifiedName = s'.importsClass c.qualifiedName
  importsOutermost :
    s.importsClass c.outermost.qualifiedName = s'.importsClass c.outermost.qualifiedName
  knowsClass : c.package = s.implicitPackage →
    s.knowsClass (Package.qualify s.package c.outermost.simpleName)
      = s'.knowsClass (Package.qualify s.package c.outermost.simpleName)

theorem Scope.AgreeOn.resolution {c : ClassName} (h : s.AgreeOn s' c) :
    c.resolution s = c.resolution s' := by
  have hmasked : (s.package = c.package ∧ s.bindsName c.outermost.simpleName = true) ↔
      (s'.package = c.package ∧ s'.bindsName c.outermost.simpleName = true) := by
    rw [← h.package]
    exact and_congr_right fun hp => by rw [h.bindsName hp]
  have himplicit : (c.package = s.implicitPackage ∧
        ¬s.knowsClass (Package.qualify s.package c.outermost.simpleName) = true) ↔
      (c.package = s'.implicitPackage ∧
        ¬s'.knowsClass (Package.qualify s'.package c.outermost.simpleName) = true) := by
    rw [← h.package, ← h.implicitPackage]
    exact and_congr_right fun hp => by rw [h.knowsClass hp]
  simp only [ClassName.resolution, hmasked, himplicit, h.importsClass, h.importsOutermost]
  rw [h.package]

theorem Scope.AgreeOn.spelling {c : ClassName} (h : s.AgreeOn s' c) :
    c.spelling s = c.spelling s' := by
  rw [ClassName.spelling, ClassName.spelling, h.resolution]

/-! ## The text -/

namespace Page

/-- Tokens are written without a look at the unit. -/
theorem writeTokens_withUnit (p : Page) (v : CompilationUnit) (tokens : List Token) :
    { p with unit := v }.writeTokens tokens = { p.writeTokens tokens with unit := v } := by
  induction tokens generalizing p with
  | nil => rfl
  | cons t tokens ih =>
    have hstep : { p with unit := v }.writeToken t = { p.writeToken t with unit := v } := by
      rw [writeToken_eq, writeToken_eq]
      rfl
    show ({ p with unit := v }.writeToken t).writeTokens tokens = _
    rw [hstep, ih]
    rfl

end Page

/-- Units that give the same answers about the classes of a node give it the same text. -/
theorem Node.render_congr {node : Node} {u v : CompilationUnit} {settings : Settings}
    (h : ∀ c ∈ node.classes, (Scope.ofUnit u settings).AgreeOn (.ofUnit v settings) c) :
    node.render u settings = node.render v settings := by
  have htokens : node.tokens (.ofUnit u settings) = node.tokens (.ofUnit v settings) :=
    tokens_congr fun c hc => (h c hc).spelling
  have hpage := (Page.blank u settings).writeTokens_withUnit v (node.tokens (.ofUnit u settings))
  calc node.render u settings
      = (({ Page.blank u settings with unit := v } : Page).writeTokens
          (node.tokens (.ofUnit u settings))).text := by rw [hpage]; rfl
    _ = node.render v settings := by rw [htokens]; rfl

/-! ## One more import, one more class -/

namespace Imports

/-- An addition changes no other simple name. -/
theorem get?_of_add {t t' : Imports} {qualified name : String} (h : t.add qualified = (t', none))
    (hname : name ≠ boundName qualified) : t'.get? name = t.get? name := by
  obtain ⟨-, ⟨-, rfl⟩ | ⟨-, rfl⟩⟩ := add_eq_none_iff.mp h
  · rfl
  · rw [get?_append, get?_singleton, if_neg (Ne.symm hname), Option.or_none]

/-- An addition makes no other class an imported one, even if it binds the same name. -/
theorem contains_of_add {t t' : Imports} {qualified other : String}
    (h : t.add qualified = (t', none)) (hother : other ≠ qualified) :
    t'.contains other = t.contains other := by
  by_cases hname : boundName other = boundName qualified
  · obtain ⟨-, ⟨-, rfl⟩ | ⟨hnone, rfl⟩⟩ := add_eq_none_iff.mp h
    · rfl
    · -- The name was free before and stands for the added class now, so never for the other one.
      have hafter : get? ⟨t.entries ++ [(boundName qualified, qualified)]⟩ (boundName qualified)
          = some qualified := by
        rw [get?_append, hnone, Option.none_or, get?_singleton, if_pos rfl]
      rw [contains, contains, hname, hafter, hnone]
      simp [Ne.symm hother]
  · rw [contains, contains, get?_of_add h hname]

end Imports

/-- A further import changes the text of a node only if it is an import of one of the node's classes
or of the class at the top of its nesting, or if it binds the leading name of a class of the unit's
own package.  A further known class changes it only if it has the name of a class of the implicit
package in the package of the unit. -/
theorem Node.render_frame (node : Node) (u : CompilationUnit) (settings : Settings) :
    (∀ (qualified : String) (v : CompilationUnit), u.withImport qualified = .ok v →
      (∀ c ∈ node.classes, c.qualifiedName ≠ qualified ∧ c.outermost.qualifiedName ≠ qualified ∧
        ¬(c.package = u.package ∧ c.outermost.simpleName = boundName qualified)) →
      node.render v settings = node.render u settings) ∧
    (∀ name : String, node.render (u.withClasses (u.classes.insert name)) settings
        ≠ node.render u settings →
      ∃ c ∈ node.classes, c.package = settings.implicitPackage ∧
        name = Package.qualify u.package c.outermost.simpleName) := by
  refine ⟨?_, ?_⟩
  · intro qualified v hv hunrelated
    obtain ⟨imports, hadd, rfl⟩ := CompilationUnit.withImport_eq_ok_iff.mp hv
    refine render_congr fun c hc => ?_
    obtain ⟨hself, houtermost, hleading⟩ := hunrelated c hc
    exact {
      package := rfl
      implicitPackage := rfl
      bindsName := fun hp =>
        congrArg Option.isSome (Imports.get?_of_add hadd fun heq => hleading ⟨hp.symm, heq⟩)
      importsClass := Imports.contains_of_add hadd hself
      importsOutermost := Imports.contains_of_add hadd houtermost
      knowsClass := fun _ => rfl }
  · intro name hchanged
    refine Decidable.byContradiction fun hnone => hchanged (render_congr fun c hc => ?_)
    exact {
      package := rfl
      implicitPackage := rfl
      bindsName := fun _ => rfl
      importsClass := rfl
      importsOutermost := rfl
      knowsClass := fun hp => by
        have hname : name ≠ Package.qualify u.package c.outermost.simpleName :=
          fun heq => hnone ⟨c, hc, hp, heq⟩
        show (u.classes.insert name).contains (Package.qualify u.package c.outermost.simpleName)
          = u.classes.contains (Package.qualify u.package c.outermost.simpleName)
        rw [KnownClasses.contains_insert, beq_false_of_ne hname, Bool.or_false] }

/-- An import of another class named `Map` leaves `java.util.Map.Entry` alone, inside the arguments of
a call too.  A class `p.String` that becomes known does not leave the implicit `String` alone. -/
theorem Node.render_frame_mapEntry :
    let u : CompilationUnit := ⟨"p", ⟨[("List", "java.util.List")]⟩, .empty⟩
    let v : CompilationUnit := ⟨"p", ⟨[("List", "java.util.List"), ("Map", "q.Map")]⟩, .empty⟩
    let entry : TypeRef := .generic (.nested (.top "java.util" "Map") "Entry") [.string]
    let node := Node.call ⟨.create (.named (.top "java.util" "List")), [.typeMethod entry "of"]⟩
    u.withImport "q.Map" = .ok v ∧ node.render v .standard = node.render u .standard ∧
      node.render (u.withClasses (u.classes.insert "p.String")) .standard
        ≠ node.render u .standard ∧
      ∃ c ∈ node.classes, c.package = "java.lang" ∧
        "p.String" = Package.qualify "p" c.outermost.simpleName := by
  intro u v entry node
  have hv : u.withImport "q.Map" = .ok v := rfl
  have hchanged : node.render (u.withClasses (u.classes.insert "p.String")) .standard
      ≠ node.render u .standard := by decide
  have hframe := node.render_frame u .standard
  exact ⟨hv, hframe.1 "q.Map" v hv (by decide), hchanged, hframe.2 "p.String" hchanged⟩

end JavaSource
