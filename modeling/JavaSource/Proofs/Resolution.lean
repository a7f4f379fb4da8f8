import JavaSource.Node
import JavaSource.Proofs.Imports
import JavaSource.Proofs.TypeRef.Checked

/-!
# What a spelling means

`CompilationUnit.classNamed?` reads a dotted chain the way a program is read: its leading name is
the class that an import binds to it, or else the class of that name in the unit's own package, and
the other names lead inwards from there.  The main theorem is `spelling_denotes`: outside the
implicit and the unnamed package, a class is written by its full name or by a chain that means it.

The implicit and the unnamed package are the business of `captures_iff`.  A class of theirs may be
written without its package although an import of another class claims the leading name.  It happens
where the full name is called for and the class is in the unnamed package, so that the full name is
no longer, and under the rule for the implicit package, which asks for known classes and not for
imports; the theorem says that it happens nowhere else.
-/

namespace JavaSource

namespace ClassName

/-- The rule that gave a class its spelling, with what the rule has found out. -/
inductive SpelledBy (s : Scope) (c : ClassName) : Prop
  | masked (package : s.package = c.package)
      (binds : s.bindsName c.outermost.simpleName = true) (rule : c.resolution s = .masked)
      (text : c.spelling s = c.sourceName)
  | implicit (package : c.package = s.implicitPackage)
      (unmasked : ¬(s.package = c.package ∧ s.bindsName c.outermost.simpleName = true))
      (rule : c.resolution s = .implicit) (text : c.spelling s = c.joined ".")
  | samePackage (package : s.package = c.package)
      (unbound : s.bindsName c.outermost.simpleName = false)
      (rule : c.resolution s = .samePackage) (text : c.spelling s = c.joined ".")
  | imported (imports : s.importsClass c.qualifiedName = true)
      (rule : c.resolution s = .imported) (text : c.spelling s = c.simpleName)
  | outermostImported (imports : s.importsClass c.outermost.qualifiedName = true)
      (rule : c.resolution s = .outermostImported) (text : c.spelling s = c.joined ".")
  | qualified (rule : c.resolution s = .qualified) (text : c.spelling s = c.sourceName)

/-- Every spelling comes from one of the six rules. -/
theorem spelledBy (s : Scope) (c : ClassName) : SpelledBy s c := by
  by_cases hmasked : s.package = c.package ∧ s.bindsName c.outermost.simpleName = true
  · have hrule : c.resolution s = .masked := by simp only [resolution, if_pos hmasked]
    exact .masked hmasked.1 hmasked.2 hrule (by rw [spelling, hrule])
  by_cases himplicit : c.package = s.implicitPackage ∧
      ¬s.knowsClass (Package.qualify s.package c.outermost.simpleName) = true
  · have hrule : c.resolution s = .implicit := by
      simp only [resolution, if_neg hmasked, if_pos himplicit]
    exact .implicit himplicit.1 hmasked hrule (by rw [spelling, hrule])
  by_cases hpackage : s.package = c.package
  · have hunbound : s.bindsName c.outermost.simpleName = false :=
      Bool.eq_false_iff.mpr fun hbinds => hmasked ⟨hpackage, hbinds⟩
    have hrule : c.resolution s = .samePackage := by
      simp only [resolution, if_neg hmasked, if_neg himplicit, if_pos hpackage]
    exact .samePackage hpackage hunbound hrule (by rw [spelling, hrule])
  by_cases himported : s.importsClass c.qualifiedName = true
  · have hrule : c.resolution s = .imported := by
      simp only [resolution, if_neg hmasked, if_neg himplicit, if_neg hpackage, if_pos himported]
    exact .imported himported hrule (by rw [spelling, hrule])
  by_cases houter : c.enclosing?.isSome = true ∧ s.importsClass c.outermost.qualifiedName = true
  · have hrule : c.resolution s = .outermostImported := by
      simp only [resolution, if_neg hmasked, if_neg himplicit, if_neg hpackage, if_neg himported,
        if_pos houter]
    exact .outermostImported houter.2 hrule (by rw [spelling, hrule])
  · have hrule : c.resolution s = .qualified := by
      simp only [resolution, if_neg hmasked, if_neg himplicit, if_neg hpackage, if_neg himported,
        if_neg houter]
    exact .qualified hrule (by rw [spelling, hrule])

end ClassName

/-! ## Reading a chain in a unit -/

/-- The class that an import stands for. -/
def importedClass? (qualified : String) : Option ClassName :=
  match TypeRef.ofClassName qualified.toList with
  | .ok type => type.class?
  | .error _ => none

theorem importedClass?_qualifiedName {c : ClassName} (hw : c.WellFormed) (hd : c.DollarFree) :
    importedClass? c.qualifiedName = some c := by
  rw [importedClass?, TypeRef.ofClassName_qualifiedName hw hd]
  rfl

namespace CompilationUnit

/-- What a simple name means: the class that an import binds to it, and otherwise the class of that
name in the unit's package. -/
def lookup? (u : CompilationUnit) (name : String) : Option ClassName :=
  match u.imports.toList.find? (boundName · = name) with
  | some qualified => importedClass? qualified
  | none => some (.top u.package name)

/-- What a dotted chain means: the first name is looked up, and the others lead inwards. -/
def classNamed? (u : CompilationUnit) (chain : String) : Option ClassName :=
  match Text.fieldsOf '.' chain with
  | [] => none
  | leading :: inner => (u.lookup? leading).map (inner.foldl .nested ·)

variable {u : CompilationUnit}

theorem lookup?_of_binds_eq_false (hu : u.Reachable) {name : String}
    (h : u.imports.binds name = false) : u.lookup? name = some (.top u.package name) := by
  have hnone : u.imports.toList.find? (boundName · = name) = none := by
    rw [List.find?_eq_none]
    intro qualified hq hname
    have hbinds := hu.imports.consistent.binds_iff.mpr ⟨qualified, hq, by simpa using hname⟩
    rw [h] at hbinds
    exact Bool.noConfusion hbinds
  rw [lookup?, hnone]

theorem lookup?_of_mem (hu : u.Reachable) {qualified : String}
    (h : qualified ∈ u.imports.toList) :
    u.lookup? (boundName qualified) = importedClass? qualified := by
  rw [lookup?]
  cases hfind : u.imports.toList.find? (boundName · = boundName qualified) with
  | none =>
    have hne := List.find?_eq_none.mp hfind qualified h
    simp at hne
  | some other =>
    have hname : boundName other = boundName qualified := by simpa using List.find?_some hfind
    have hother := List.mem_of_find?_eq_some hfind
    rw [hu.imports.consistent.eq_of_boundName_eq hother h hname]

theorem lookup?_of_imports (hu : u.Reachable) {c : ClassName} (hw : c.WellFormed)
    (hd : c.DollarFree) (h : u.imports.contains c.qualifiedName = true) :
    u.lookup? c.simpleName = some c := by
  have hmem := hu.imports.consistent.contains_iff.mp h
  rw [← ClassName.boundName_qualifiedName hw hd, lookup?_of_mem hu hmem,
    importedClass?_qualifiedName hw hd]

/-- If the leading name of a chain means the outermost class, the chain means the class. -/
theorem classNamed?_joined {c : ClassName} (hw : c.WellFormed)
    (h : u.lookup? c.outermost.simpleName = some c.outermost) :
    u.classNamed? (c.joined ".") = some c := by
  obtain ⟨inner, hchain⟩ := c.exists_chain
  rw [classNamed?, hw.fieldsOf_joined, hchain]
  show (u.lookup? c.outermost.simpleName).map (inner.foldl .nested ·) = some c
  rw [h, Option.map_some, hw.coherent.outermost_eq, ← hw.coherent.eq_foldl_of_chain hchain]

end CompilationUnit

open CompilationUnit

/-- A class of an ordinary package is written by its full name, or by a chain that means it in the
unit. -/
theorem spelling_denotes {u : CompilationUnit} (hu : u.Reachable) (settings : Settings)
    {c : ClassName} (hc : TypeRef.Checked (.named c)) (hd : c.DollarFree)
    (hnamed : c.package ≠ "") (hordinary : c.package ≠ settings.implicitPackage) :
    ∃ text, (TypeRef.named c).tokens (.ofUnit u settings) = [.ident text] ∧
      (text = c.package ++ "." ++ c.joined "." ∨ u.classNamed? text = some c) := by
  have hw := hc.class
  refine ⟨c.spelling (.ofUnit u settings), rfl, ?_⟩
  have hsource : c.sourceName = c.package ++ "." ++ c.joined "." := Package.qualify_of_ne hnamed _
  cases c.spelledBy (.ofUnit u settings) with
  | masked _ _ _ text => exact Or.inl (text.trans hsource)
  | implicit package _ _ _ => exact absurd package hordinary
  | samePackage package unbound _ text =>
    refine Or.inr ?_
    rw [text]
    refine classNamed?_joined hw ?_
    rw [lookup?_of_binds_eq_false hu unbound, hw.coherent.outermost_eq]
    exact congrArg (fun p => some (ClassName.top p _)) package
  | imported imports _ text =>
    refine Or.inr ?_
    rw [text, classNamed?, hw.fieldsOf_simpleName]
    show (u.lookup? c.simpleName).map (fun d => d) = some c
    rw [lookup?_of_imports hu hw hd imports, Option.map_some]
  | outermostImported imports _ text =>
    refine Or.inr ?_
    rw [text]
    exact classNamed?_joined hw (lookup?_of_imports hu hw.outermost hd.outermost imports)
  | qualified _ text => exact Or.inl (text.trans hsource)

/-- A nested class that is imported by itself is written by its innermost name, which means it. -/
theorem spelling_denotes_mapEntry :
    let u : CompilationUnit := ⟨"p", ⟨[("Entry", "java.util.Map$Entry")]⟩, .empty⟩
    let c : ClassName := .nested (.top "java.util" "Map") "Entry"
    u.Reachable ∧ TypeRef.Checked (.named c) ∧ c.DollarFree ∧ c.package ≠ "" ∧
      c.package ≠ Settings.standard.implicitPackage ∧
      ∃ text, (TypeRef.named c).tokens (.ofUnit u .standard) = [.ident text] ∧
        (text = c.package ++ "." ++ c.joined "." ∨ u.classNamed? text = some c) := by
  intro u c
  have hpackage : ofPackage "p" = .ok ⟨"p", .empty, .empty⟩ := rfl
  have himport : withImport ⟨"p", .empty, .empty⟩ "java.util.Map$Entry" = .ok u := rfl
  have houter : TypeRef.ofClass "java.util" "Map" = .ok (.named (.top "java.util" "Map")) := rfl
  have hnested : TypeRef.nestedClass (.named (.top "java.util" "Map")) "Entry" = .ok (.named c) :=
    rfl
  have hu : u.Reachable := .withImport (.ofPackage hpackage) himport
  have hc : TypeRef.Checked (.named c) := .nestedClass (.ofClass houter) hnested
  exact ⟨hu, hc, by decide, by decide, by decide,
    spelling_denotes hu .standard hc (by decide) (by decide) (by decide)⟩

/-! ## Names that an import takes over -/

/-- An import of neither the class nor its outermost class binds the name. -/
def CompilationUnit.Rebinds (u : CompilationUnit) (c : ClassName) (qualified name : String) :
    Prop :=
  qualified ∈ u.imports.toList ∧ boundName qualified = name ∧ qualified ≠ c.qualifiedName ∧
    qualified ≠ c.outermost.qualifiedName

/-- A class is written without its package, and an import of another class claims the leading
name. -/
def CompilationUnit.Captures (u : CompilationUnit) (settings : Settings) (c : ClassName)
    (qualified : String) : Prop :=
  ∃ text leading inner, (TypeRef.named c).tokens (.ofUnit u settings) = [.ident text] ∧
    (text = c.joined "." ∨ text = c.simpleName) ∧
    Text.fieldsOf '.' text = leading :: inner ∧ u.Rebinds c qualified leading

theorem ClassName.sourceName_ne_joined {c : ClassName} (h : c.package ≠ "") :
    c.sourceName ≠ c.joined "." := by
  rw [sourceName, Package.qualify_of_ne h]
  intro heq
  have hlength := congrArg String.length heq
  simp only [String.length_append] at hlength
  have hdot : ".".length = 1 := rfl
  omega

theorem ClassName.length_simpleName_le (c : ClassName) (sep : String) :
    c.simpleName.length ≤ (c.joined sep).length := by
  cases c with
  | root package name unboxed => exact Nat.le_refl _
  | member outer package name unboxed =>
    rw [joined, simpleName, String.length_append]
    omega

theorem ClassName.sourceName_ne_simpleName {c : ClassName} (h : c.package ≠ "") :
    c.sourceName ≠ c.simpleName := by
  rw [sourceName, Package.qualify_of_ne h]
  intro heq
  have hlength := congrArg String.length heq
  have hle := c.length_simpleName_le "."
  simp only [String.length_append] at hlength
  have hdot : ".".length = 1 := rfl
  omega

/-- A full name shows no package only where the package is the unnamed one. -/
theorem ClassName.package_eq_empty_of_bare {c : ClassName}
    (h : c.sourceName = c.joined "." ∨ c.sourceName = c.simpleName) : c.package = "" := by
  refine Decidable.byContradiction fun hnamed => ?_
  rcases h with h | h
  · exact sourceName_ne_joined hnamed h
  · exact sourceName_ne_simpleName hnamed h

theorem ClassName.sourceName_eq_joined {c : ClassName} (h : c.package = "") :
    c.sourceName = c.joined "." := by
  rw [sourceName, h]
  rfl

theorem ClassName.WellFormed.leading_joined {c : ClassName} (h : c.WellFormed) {leading : String}
    {inner : List String} (hfields : Text.fieldsOf '.' (c.joined ".") = leading :: inner) :
    leading = c.outermost.simpleName := by
  obtain ⟨rest, hrest⟩ := c.exists_chain
  rw [h.fieldsOf_joined, hrest] at hfields
  exact (List.cons.inj hfields).1.symm

/-- Two imports do not bind one name, so where another import binds its name a class is not
imported. -/
theorem CompilationUnit.Reachable.contains_ne_true {u : CompilationUnit} (hu : u.Reachable)
    {c : ClassName} (hw : c.WellFormed) (hd : c.DollarFree) {qualified : String}
    (hmem : qualified ∈ u.imports.toList) (hbound : boundName qualified = c.simpleName)
    (hne : qualified ≠ c.qualifiedName) : ¬u.imports.contains c.qualifiedName = true := by
  intro himports
  have hconsistent := hu.imports.consistent
  have heq : boundName qualified = boundName c.qualifiedName := by
    rw [hbound, ClassName.boundName_qualifiedName hw hd]
  exact hne (hconsistent.eq_of_boundName_eq hmem (hconsistent.contains_iff.mp himports) heq)

theorem captures_of_joined {u : CompilationUnit} {settings : Settings} {c : ClassName}
    (hw : c.WellFormed) {qualified : String}
    (htext : c.spelling (.ofUnit u settings) = c.joined ".")
    (h : u.Rebinds c qualified c.outermost.simpleName) : u.Captures settings c qualified := by
  obtain ⟨inner, hchain⟩ := c.exists_chain
  refine ⟨c.joined ".", c.outermost.simpleName, inner, ?_, Or.inl rfl, ?_, h⟩
  · rw [← htext]
    rfl
  · rw [hw.fieldsOf_joined, hchain]

/-- An import takes over the name of a class exactly if it claims the name of the outermost class,
and either the full name is called for and the class is in the unnamed package, so that it has no
longer name to give way with, or it is the rule for an implicit package other than the unit's that
leaves the package out.  Where a class is found through an import of its own, or through one of its
outermost class, no other import takes the name over. -/
theorem captures_iff {u : CompilationUnit} (hu : u.Reachable) (settings : Settings)
    {c : ClassName} (hc : TypeRef.Checked (.named c)) (hd : c.DollarFree) (qualified : String) :
    u.Captures settings c qualified ↔
      u.Rebinds c qualified c.outermost.simpleName ∧
        ((c.package = "" ∧ (c.resolution (.ofUnit u settings) = .masked ∨
            c.resolution (.ofUnit u settings) = .qualified)) ∨
          (c.package = settings.implicitPackage ∧ u.package ≠ c.package ∧
            c.resolution (.ofUnit u settings) = .implicit)) := by
  have hw := hc.class
  constructor
  · rintro ⟨text, leading, inner, htokens, hbare, hfields, hrebinds⟩
    obtain ⟨hmem, hbound, hself, houtermost⟩ := id hrebinds
    obtain rfl : c.spelling (.ofUnit u settings) = text := by simpa [TypeRef.tokens] using htokens
    have hfull (hsource : c.spelling (.ofUnit u settings) = c.sourceName) :
        c.package = "" ∧ leading = c.outermost.simpleName := by
      have hpackage := ClassName.package_eq_empty_of_bare (hsource ▸ hbare)
      rw [hsource, ClassName.sourceName_eq_joined hpackage] at hfields
      exact ⟨hpackage, hw.leading_joined hfields⟩
    have hbinds : u.imports.binds leading = true :=
      hu.imports.consistent.binds_iff.mpr ⟨qualified, hmem, hbound⟩
    cases c.spelledBy (.ofUnit u settings) with
    | masked _ _ rule text =>
      obtain ⟨hpackage, rfl⟩ := hfull text
      exact ⟨hrebinds, Or.inl ⟨hpackage, Or.inl rule⟩⟩
    | implicit package unmasked rule text =>
      obtain rfl := hw.leading_joined (text ▸ hfields)
      exact ⟨hrebinds, Or.inr ⟨package, fun hpackage => unmasked ⟨hpackage, hbinds⟩, rule⟩⟩
    | samePackage _ unbound _ text =>
      obtain rfl := hw.leading_joined (text ▸ hfields)
      exact absurd (unbound.symm.trans hbinds) Bool.false_ne_true
    | imported imports _ text =>
      rw [text, hw.fieldsOf_simpleName] at hfields
      obtain rfl := (List.cons.inj hfields).1
      exact absurd imports (hu.contains_ne_true hw hd hmem hbound hself)
    | outermostImported imports _ text =>
      obtain rfl := hw.leading_joined (text ▸ hfields)
      exact absurd imports (hu.contains_ne_true hw.outermost hd.outermost hmem hbound houtermost)
    | qualified rule text =>
      obtain ⟨hpackage, rfl⟩ := hfull text
      exact ⟨hrebinds, Or.inl ⟨hpackage, Or.inr rule⟩⟩
  · -- Under each of the three rules the text is the chain.
    rintro ⟨hrebinds, ⟨hpackage, rule | rule⟩ | ⟨-, -, rule⟩⟩
    · refine captures_of_joined hw ?_ hrebinds
      rw [ClassName.spelling, rule]
      exact ClassName.sourceName_eq_joined hpackage
    · refine captures_of_joined hw ?_ hrebinds
      rw [ClassName.spelling, rule]
      exact ClassName.sourceName_eq_joined hpackage
    · refine captures_of_joined hw ?_ hrebinds
      rw [ClassName.spelling, rule]

/-- A unit that imports another `String` writes the one of the implicit package by the same name. -/
theorem captures_string :
    let u : CompilationUnit := ⟨"p", ⟨[("String", "q.String")]⟩, .empty⟩
    let c : ClassName := .top "java.lang" "String"
    u.Reachable ∧ TypeRef.Checked (.named c) ∧ c.DollarFree ∧
      u.Captures .standard c "q.String" := by
  intro u c
  have hpackage : ofPackage "p" = .ok ⟨"p", .empty, .empty⟩ := rfl
  have himport : withImport ⟨"p", .empty, .empty⟩ "q.String" = .ok u := rfl
  exact ⟨.withImport (.ofPackage hpackage) himport, .string, by decide, "String", "String", [],
    by decide, by decide, by decide, by decide, by decide, by decide, by decide⟩

/-- A class of the unnamed package has no other name to give way with. -/
theorem captures_unnamed :
    let u : CompilationUnit := ⟨"p", ⟨[("Foo", "q.Foo")]⟩, .empty⟩
    let c : ClassName := .top "" "Foo"
    u.Reachable ∧ TypeRef.Checked (.named c) ∧ c.DollarFree ∧ u.Captures .standard c "q.Foo" := by
  intro u c
  have hpackage : ofPackage "p" = .ok ⟨"p", .empty, .empty⟩ := rfl
  have himport : withImport ⟨"p", .empty, .empty⟩ "q.Foo" = .ok u := rfl
  have hclass : TypeRef.ofClass "" "Foo" = .ok (.named c) := rfl
  exact ⟨.withImport (.ofPackage hpackage) himport, .ofClass hclass, by decide, "Foo", "Foo", [],
    by decide, by decide, by decide, by decide, by decide, by decide, by decide⟩

/-- An import of `q.Foo` takes over the name of an unnamed package's `Foo`, which is all it has, and
an import of `q.String` that of the `String` of the implicit package. -/
theorem captures_iff_fooString :
    (let u : CompilationUnit := ⟨"p", ⟨[("Foo", "q.Foo")]⟩, .empty⟩
      let c : ClassName := .top "" "Foo"
      u.Reachable ∧ TypeRef.Checked (.named c) ∧ c.DollarFree ∧ u.Captures .standard c "q.Foo" ∧
        u.Rebinds c "q.Foo" "Foo" ∧ c.package = "" ∧
        c.resolution (.ofUnit u .standard) = .qualified) ∧
    (let u : CompilationUnit := ⟨"p", ⟨[("String", "q.String")]⟩, .empty⟩
      let c : ClassName := .top "java.lang" "String"
      u.Reachable ∧ TypeRef.Checked (.named c) ∧ c.DollarFree ∧ u.Captures .standard c "q.String" ∧
        u.Rebinds c "q.String" "String" ∧ c.package = Settings.standard.implicitPackage ∧
        u.package ≠ c.package ∧ c.resolution (.ofUnit u .standard) = .implicit) := by
  constructor
  · obtain ⟨hu, hc, hd, h⟩ := captures_unnamed
    obtain ⟨hrebinds, -⟩ := (captures_iff hu .standard hc hd "q.Foo").mp h
    exact ⟨hu, hc, hd, h, hrebinds, rfl, by decide⟩
  · obtain ⟨hu, hc, hd, h⟩ := captures_string
    obtain ⟨hrebinds, hunnamed | ⟨hpackage, hne, hrule⟩⟩ :=
      (captures_iff hu .standard hc hd "q.String").mp h
    · exact absurd hunnamed.1 (by decide)
    · exact ⟨hu, hc, hd, h, hrebinds, hpackage, hne, hrule⟩

/-- Neither in the implicit nor in the unnamed package are bare names safe from every import. -/
theorem bare_names_not_safe :
    (¬∀ (u : CompilationUnit) (settings : Settings) (c : ClassName) (qualified : String),
      u.Reachable → TypeRef.Checked (.named c) → c.DollarFree →
      c.package = settings.implicitPackage → ¬u.Captures settings c qualified) ∧
    ¬∀ (u : CompilationUnit) (settings : Settings) (c : ClassName) (qualified : String),
      u.Reachable → TypeRef.Checked (.named c) → c.DollarFree →
      c.package = "" → ¬u.Captures settings c qualified := by
  refine ⟨fun hsafe => ?_, fun hsafe => ?_⟩
  · obtain ⟨hu, hc, hd, h⟩ := captures_string
    exact hsafe _ _ _ _ hu hc hd rfl h
  · obtain ⟨hu, hc, hd, h⟩ := captures_unnamed
    exact hsafe _ _ _ _ hu hc hd rfl h

end JavaSource
