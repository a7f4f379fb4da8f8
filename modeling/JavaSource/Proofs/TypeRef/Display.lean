import JavaSource.Proofs.Mentions
import JavaSource.Proofs.Page.Composition

/-!
# The full form of a type and its text on a page

A type has two printers: `display` puts strings together, and `tokens` goes through the rules for
classes and through a page, which may add spaces.  In the tokens of a type no word follows a word,
so the page adds nothing (`Page.Ready`), and the two texts differ only where a class has a shorter
spelling than its source name.

The main theorem is `TypeRef.render_eq_display`: without imports, and for classes of other packages
than the visible ones, there is no shorter spelling.  A class of the unnamed package may be visible,
since its spelling is the same by any rule.  The arguments of a class are arbitrary.
-/

namespace JavaSource

/-! ## Spellings where nothing is visible -/

namespace ClassName

theorem sourceName_of_unnamed {c : ClassName} (h : c.package = "") :
    c.sourceName = c.joined "." := by
  rw [sourceName, h, Package.qualify_empty]

/-- The only rule that shortens the name of a class of the unnamed package is the one for imported
classes. -/
theorem spelling_of_unnamed {c : ClassName} {s : Scope} (hp : c.package = "")
    (himports : s.importsClass c.qualifiedName = false) : c.spelling s = c.sourceName := by
  have hnot : c.resolution s ≠ .imported := by
    unfold resolution
    rw [himports]
    grind
  rw [spelling]
  cases hrule : c.resolution s with
  | imported => exact absurd hrule hnot
  | implicit => exact (sourceName_of_unnamed hp).symm
  | samePackage => exact (sourceName_of_unnamed hp).symm
  | outermostImported => exact (sourceName_of_unnamed hp).symm
  | masked => rfl
  | qualified => rfl

theorem spelling_of_foreign {c : ClassName} {s : Scope} (hp : c.package ≠ s.package)
    (himplicit : c.package ≠ s.implicitPackage) (himports : ∀ name, s.importsClass name = false) :
    c.spelling s = c.sourceName := by
  have hqualified : c.resolution s = .qualified := by
    simp [resolution, Ne.symm hp, himplicit, himports]
  rw [spelling, hqualified]

end ClassName

/-! ## Pages that add nothing -/

namespace Page

/-- No indentation is due, and no word is in the way of the next one. -/
structure Ready (p : Page) : Prop where
  indentation : p.indentation = ""
  apart : p.atLineStart = true ∨ p.endsWithWord = false

variable {p : Page}

theorem ready_blank (u : CompilationUnit) (settings : Settings) : (blank u settings).Ready :=
  ⟨rfl, Or.inl rfl⟩

theorem Ready.gap (h : p.Ready) (t : Token) : p.gap t = "" := by
  unfold Page.gap
  rw [h.indentation, ite_self]
  rcases h.apart with hstart | hword
  · rw [if_pos hstart]
  · rw [if_neg (by simp [hword] : ¬(t.isWord = true ∧ p.endsWithWord = true)), ite_self]

theorem Ready.text_writeToken (h : p.Ready) (t : Token) :
    (p.writeToken t).text = p.text ++ tokenText t := by
  rw [Page.text_writeToken, h.gap, String.append_empty]

theorem text_writeToken_punct (h : p.indentation = "") (sign : Punct) :
    (p.writeToken (.punct sign)).text = p.text ++ tokenText (.punct sign) := by
  have hgap : p.gap (.punct sign) = "" := by
    unfold gap
    rw [h, ite_self]
    simp [Token.isWord]
  rw [text_writeToken, hgap, String.append_empty]

/-- Behind a sign the page is ready for a word. -/
theorem ready_writeToken_punct (h : p.indentation = "") (sign : Punct) :
    (p.writeToken (.punct sign)).Ready := by
  have hlast : ∃ c, (tokenText (.punct sign)).toList.getLast? = some c ∧ isWordChar c = false := by
    cases sign <;> exact ⟨_, rfl, by decide⟩
  obtain ⟨c, hc, hword⟩ := hlast
  refine ⟨?_, Or.inr ?_⟩
  · rw [writeToken_eq]
    exact h
  · rw [endsWithWord, text_writeToken_punct h, String.toList_append, List.getLast?_append, hc]
    exact hword

theorem writeTokens_append (p : Page) (front back : List Token) :
    p.writeTokens (front ++ back) = (p.writeTokens front).writeTokens back :=
  List.foldl_append

theorem Ready.indentation_writeTokens (h : p.Ready) (tokens : List Token) :
    (p.writeTokens tokens).indentation = "" := by
  rw [writeTokens_frame]
  exact h.indentation

end Page

/-! ## The tokens of a type -/

namespace TypeRef

variable {s : Scope}

theorem tokensAll_cons_cons (type next : TypeRef) (types : List TypeRef) :
    tokensAll s (type :: next :: types)
      = tokens s type ++ [.punct .comma] ++ tokensAll s (next :: types) := rfl

theorem displayAll_cons_cons (type next : TypeRef) (types : List TypeRef) :
    displayAll (type :: next :: types) = type.display ++ ", " ++ displayAll (next :: types) := rfl

mutual

/-- Where every class is spelled by its source name, a type adds its full form to the page. -/
theorem text_writeTokens : ∀ (t : TypeRef) {p : Page}, p.Ready →
    (∀ c ∈ t.classes, c.spelling s = c.sourceName) →
    (p.writeTokens (t.tokens s)).text = p.text ++ t.display
  | primitive k, p, hp, _ => hp.text_writeToken (.keyword (.primitive k))
  | named c, p, hp, hc => by
    rw [tokens, hc c (by simp [classes])]
    exact hp.text_writeToken (.ident c.sourceName)
  | generic raw arguments, p, hp, hc => by
    obtain ⟨hraw, harguments⟩ := List.forall_mem_cons.mp hc
    let name : Token := .ident (raw.spelling s)
    let opened := (p.writeToken name).writeToken (.punct .less)
    have hindent : (p.writeToken name).indentation = "" := hp.indentation_writeTokens [name]
    have hopened : opened.Ready := Page.ready_writeToken_punct hindent .less
    calc (p.writeTokens ((generic raw arguments).tokens s)).text
        = ((opened.writeTokens (tokensAll s arguments)).writeToken (.punct .greater)).text := by
          rw [tokens, Page.writeTokens_append, Page.writeTokens_append]
          rfl
      _ = (opened.writeTokens (tokensAll s arguments)).text ++ ">" :=
          Page.text_writeToken_punct (hopened.indentation_writeTokens _) .greater
      _ = opened.text ++ displayAll arguments ++ ">" := by
          rw [text_writeTokensAll arguments hopened harguments]
      _ = (p.writeToken name).text ++ "<" ++ displayAll arguments ++ ">" := by
          rw [show opened.text = (p.writeToken name).text ++ "<" from
            Page.text_writeToken_punct hindent .less]
      _ = p.text ++ (generic raw arguments).display := by
          rw [hp.text_writeToken name, show Page.tokenText name = raw.sourceName from hraw, display]
          simp only [String.append_assoc]
  | array element, p, hp, hc => by
    let written := p.writeTokens (tokens s element)
    have hindent : written.indentation = "" := hp.indentation_writeTokens (tokens s element)
    have hopened := Page.ready_writeToken_punct hindent .openBracket
    calc (p.writeTokens ((array element).tokens s)).text
        = ((written.writeToken (.punct .openBracket)).writeToken (.punct .closeBracket)).text := by
          rw [tokens, Page.writeTokens_append]
          rfl
      _ = written.text ++ "[" ++ "]" := by
          rw [hopened.text_writeToken, Page.text_writeToken_punct hindent]
          rfl
      _ = p.text ++ (array element).display := by
          rw [text_writeTokens element hp hc, display]
          simp only [String.append_assoc]
          rfl

theorem text_writeTokensAll : ∀ (types : List TypeRef) {p : Page}, p.Ready →
    (∀ c ∈ classesAll types, c.spelling s = c.sourceName) →
    (p.writeTokens (tokensAll s types)).text = p.text ++ displayAll types
  | [], p, _, _ => String.append_empty.symm
  | [type], p, hp, hc => by
    rw [tokensAll, displayAll]
    exact text_writeTokens type hp fun c h => hc c (List.mem_append_left _ h)
  | type :: next :: types, p, hp, hc => by
    obtain ⟨htype, htypes⟩ := List.forall_mem_append.mp hc
    let written := p.writeTokens (tokens s type)
    let separated := written.writeToken (.punct .comma)
    have hindent : written.indentation = "" := hp.indentation_writeTokens (tokens s type)
    have hseparated : separated.Ready := Page.ready_writeToken_punct hindent .comma
    calc (p.writeTokens (tokensAll s (type :: next :: types))).text
        = (separated.writeTokens (tokensAll s (next :: types))).text := by
          rw [tokensAll_cons_cons, Page.writeTokens_append, Page.writeTokens_append]
          rfl
      _ = separated.text ++ displayAll (next :: types) :=
          text_writeTokensAll (next :: types) hseparated htypes
      _ = p.text ++ type.display ++ ", " ++ displayAll (next :: types) := by
          rw [← text_writeTokens type hp htype]
          exact congrArg (· ++ _) (Page.text_writeToken_punct hindent .comma)
      _ = p.text ++ displayAll (type :: next :: types) := by
          rw [displayAll_cons_cons]
          simp only [String.append_assoc]

end

/-- Where no class of a type is visible by a shorter name, the type is written in its full form,
whatever classes are known. -/
theorem render_eq_display (t : TypeRef) (u : CompilationUnit) (settings : Settings)
    (himports : u.imports.isEmpty = true)
    (hclasses : ∀ c ∈ t.classes, c.package = "" ∨
      (c.package ≠ u.package ∧ c.package ≠ settings.implicitPackage)) :
    (Node.type t).render u settings = t.display := by
  have hnone (name : String) : (Scope.ofUnit u settings).importsClass name = false := by
    have hempty : u.imports.entries = [] := List.isEmpty_iff.mp himports
    simp [Scope.ofUnit, Imports.contains, Imports.get?, hempty]
  have hspelling : ∀ c ∈ t.classes, c.spelling (.ofUnit u settings) = c.sourceName := by
    intro c hc
    rcases hclasses c hc with hunnamed | ⟨hpackage, himplicit⟩
    · exact ClassName.spelling_of_unnamed hunnamed (hnone _)
    · exact ClassName.spelling_of_foreign hpackage himplicit hnone
  have htext := t.text_writeTokens (Page.ready_blank u settings) hspelling
  exact htext.trans String.empty_append

/-- A class of the unnamed package keeps its form where the unit's package and the implicit package
are both the unnamed one.  Lists of arguments may be empty or hold primitives. -/
theorem render_eq_display_mapEntry :
    let entry : ClassName := .nested (.top "java.util" "Map") "Entry"
    let t : TypeRef := .array (.generic entry
      [.array (.named (.nested (.top "" "Outer") "Inner")), .generic (.top "java.util" "List") [],
        .primitive .int])
    let u : CompilationUnit := ⟨"", .empty, .ofList ["Outer", "java.util.Map"]⟩
    let settings : Settings := ⟨.tab, ""⟩
    u.imports.isEmpty = true ∧
      (∀ c ∈ t.classes, c.package = "" ∨
        (c.package ≠ u.package ∧ c.package ≠ settings.implicitPackage)) ∧
      (Node.type t).render u settings =
        "java.util.Map.Entry<Outer.Inner[], java.util.List<>, int>[]" := by
  intro entry t u settings
  have hclasses : ∀ c ∈ t.classes, c.package = "" ∨
      (c.package ≠ u.package ∧ c.package ≠ settings.implicitPackage) := by decide
  refine ⟨rfl, hclasses, ?_⟩
  rw [render_eq_display t u settings rfl hclasses]
  decide

end TypeRef

end JavaSource
