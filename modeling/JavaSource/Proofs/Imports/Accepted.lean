import JavaSource.Proofs.ClassName.Views
import JavaSource.Proofs.Imports
import JavaSource.Proofs.TypeRef.OfName

/-!
# What an accepted import stands for

An addition checks the package and the simple name that the import will bind, but neither the names
of the classes around it nor what becomes of the dollar signs in the declaration.  The module says
what is missing for the import to be sound.  `accepted_sound_iff`: an accepted name is the name of a
class and has a legal declaration exactly if all its parts between dots and dollar signs are
identifiers.  `addType_sound_iff`: a class is imported under its own names exactly if it has no
dollar sign in them.
-/

namespace JavaSource

/-! ## The parts of a qualified name -/

theorem qualified_cases (qualified : String) :
    ('.' ∉ qualified.toList ∧ (splitQualified qualified).1 = "") ∨
      qualified.toList
        = (splitQualified qualified).1.toList ++ '.' :: Text.afterLast '.' qualified.toList := by
  rw [splitQualified, Text.afterLast]
  cases hs : Text.splitLast? '.' qualified.toList with
  | none => exact Or.inl ⟨Text.splitLast?_eq_none_iff.mp hs, rfl⟩
  | some parts =>
    obtain ⟨before, after⟩ := parts
    refine Or.inr ?_
    simpa using (Text.splitLast?_eq_some_iff.mp hs).1

/-- Unless it starts with a dot, a qualified name is made of the package and the class that it is
cut into. -/
theorem qualify_splitQualified {qualified : String} (h : qualified.toList.head? ≠ some '.') :
    Package.qualify (splitQualified qualified).1
      (String.ofList (Text.afterLast '.' qualified.toList)) = qualified := by
  rcases qualified_cases qualified with ⟨hdot, hpackage⟩ | hlist
  · rw [hpackage, Package.qualify_empty, Text.afterLast_of_notMem hdot, String.ofList_toList]
  · have hpackage : (splitQualified qualified).1 ≠ "" := by
      intro hempty
      rw [hlist, hempty] at h
      exact h rfl
    rw [← String.toList_inj, Package.toList_qualify_of_ne hpackage, String.toList_ofList]
    exact hlist.symm

/-- The simple names after the last dot of a qualified name, outermost first. -/
def classNames (qualified : String) : List String :=
  Text.fieldsOf '$' (String.ofList (Text.afterLast '.' qualified.toList))

namespace ClassName

theorem exists_chain_eq (package : String) {names : List String} (h : names ≠ []) :
    ∃ c : ClassName, c.Coherent ∧ c.package = package ∧ c.chain = names := by
  obtain ⟨leading, inner, rfl⟩ := List.exists_cons_of_ne_nil h
  refine ⟨inner.foldl nested (top package leading),
    (Coherent.top package leading).foldl_nested inner, ?_, ?_⟩
  · rw [package_foldl_nested]
    rfl
  · rw [chain_foldl_nested]
    rfl

theorem WellFormed.afterLast_qualifiedName {c : ClassName} (h : c.WellFormed) :
    Text.afterLast '.' c.qualifiedName.toList = c.binaryName.toList := by
  have hdot := h.dot_notMem_binaryName
  rw [h.coherent.qualifiedName_eq]
  by_cases hp : c.package = ""
  · rw [hp, Package.qualify_empty, Text.afterLast_of_notMem hdot]
  · rw [Package.toList_qualify_of_ne hp, Text.afterLast_append, Text.afterLast_of_notMem hdot]

end ClassName

namespace Imports

/-- The name is read as a class without arguments, and it is the qualified name of that class. -/
def NamesClass (qualified : String) : Prop :=
  ∃ c : ClassName, TypeRef.ofName qualified = .ok (.named c) ∧
    (TypeRef.named c).qualifiedName = qualified

theorem namesClass_qualify {package binary : String} (hpackage : Package.Valid package)
    (hnames : ∀ name ∈ Text.fieldsOf '$' binary, Identifier.Valid name) :
    NamesClass (Package.qualify package binary) := by
  have hne : Text.fieldsOf '$' binary ≠ [] := by
    simp [Text.fieldsOf]
  obtain ⟨c, hcoherent, rfl, hchain⟩ := ClassName.exists_chain_eq package hne
  have hw : c.WellFormed := ⟨hcoherent, hpackage, hchain ▸ hnames⟩
  have hd : c.DollarFree := by
    intro name hname
    rw [hchain] at hname
    obtain ⟨field, hfield, rfl⟩ := List.mem_map.mp hname
    simpa using Text.notMem_of_mem_splitOn hfield
  have hbinary : c.binaryName = binary := by
    have hparts : c.binaryName.toList.splitOn '$' = binary.toList.splitOn '$' := by
      rw [ClassName.binaryName, ClassName.splitOn_joined (by decide) hd, hchain, Text.fieldsOf,
        List.map_map]
      simp [Function.comp_def]
    exact String.toList_inj.mp (Text.splitOn_injective hparts)
  have hqualified : c.qualifiedName = Package.qualify c.package binary := by
    rw [hcoherent.qualifiedName_eq, hbinary]
  refine ⟨c, ?_, hqualified⟩
  rw [← hqualified]
  exact TypeRef.ofNameChars_class hw hd

theorem NamesClass.valid {qualified : String} (h : NamesClass qualified) :
    qualified.toList.head? ≠ some '.' ∧ ∀ name ∈ classNames qualified, Identifier.Valid name := by
  obtain ⟨c, hread, rfl⟩ := h
  have hw : c.WellFormed := by
    cases TypeRef.wellFormed_of_ofNameChars hread with
    | named hw => exact hw
  refine ⟨hw.head?_qualifiedName_ne, ?_⟩
  have hclass : TypeRef.ofClassName c.qualifiedName.toList = .ok (.named c) := by
    rw [← TypeRef.ofNameChars_eq_ofClassName hw]
    exact hread
  obtain ⟨leading, inner, hfields, -, hleading, hinner, -⟩ :=
    (TypeRef.ofClassName_eq_ok_iff hw.splitLast?_qualifiedName).mp hclass
  have hnames : classNames (TypeRef.named c).qualifiedName = leading :: inner := by
    rw [classNames, TypeRef.qualifiedName, hw.afterLast_qualifiedName, Text.fieldsOf,
      String.toList_ofList, hfields]
  rw [hnames]
  exact List.forall_mem_cons.mpr ⟨hleading, hinner⟩

/-- Reading a name whose package is known to be one checks the rest of it: no dot in front, and only
identifiers between the dollar signs. -/
theorem namesClass_iff {qualified : String} (h : Package.Valid (splitQualified qualified).1) :
    NamesClass qualified ↔
      qualified.toList.head? ≠ some '.' ∧ ∀ name ∈ classNames qualified, Identifier.Valid name := by
  refine ⟨NamesClass.valid, ?_⟩
  rintro ⟨hhead, hnames⟩
  rw [← qualify_splitQualified hhead]
  exact namesClass_qualify h hnames

/-- The names after the last dot are the last segments of the declaration. -/
theorem classNames_subset_segments (qualified : String) :
    ∀ name ∈ classNames qualified, name ∈ segments qualified := by
  intro name hname
  rw [classNames, Text.fieldsOf, String.toList_ofList] at hname
  rw [segments, Text.fieldsOf, String.toList_ofList]
  obtain ⟨field, hfield, rfl⟩ := List.mem_map.mp hname
  refine List.mem_map.mpr ⟨field, ?_, rfl⟩
  rw [← Text.splitOn_dotted (Text.notMem_afterLast '.' _)] at hfield
  rcases qualified_cases qualified with ⟨hdot, -⟩ | hlist
  · rw [Text.afterLast_of_notMem hdot] at hfield
    exact hfield
  · rw [hlist, Text.dotted_append, Text.dotted_cons_dot, List.splitOn_append_cons_self]
    exact List.mem_append_right _ hfield

theorem namesClass_of_segments {qualified : String}
    (h : Package.Valid (splitQualified qualified).1)
    (hsegments : ∀ name ∈ segments qualified, Identifier.Valid name) : NamesClass qualified := by
  rw [namesClass_iff h]
  refine ⟨?_, fun name hname => hsegments name (classNames_subset_segments qualified name hname)⟩
  intro hhead
  obtain ⟨rest, hrest⟩ := List.head?_eq_some_iff.mp hhead
  refine head?_ne_dot hsegments ?_
  rw [hrest, String.toList_ofList, Text.dotted_cons_dot]
  rfl

theorem mem_declarations {t : Imports} {qualified : String} (h : qualified ∈ t.toList) :
    declaration qualified ∈ t.declarations :=
  List.mem_map.mpr ⟨qualified, List.mem_mergeSort.mpr h, rfl⟩

/-- An accepted name is declared.  It is the name of a class exactly if it does not start with a dot
and the classes around the imported one have identifiers for names, too; and it is that with a legal
declaration exactly if all its parts between dots and dollar signs are identifiers. -/
theorem accepted_sound_iff {t t' : Imports} {qualified : String}
    (h : t.add qualified = (t', none)) :
    declaration qualified ∈ t'.declarations ∧
      (NamesClass qualified ↔ qualified.toList.head? ≠ some '.' ∧
        ∀ name ∈ classNames qualified, Identifier.Valid name) ∧
      (NamesClass qualified ∧ Legal (declaration qualified) ↔
        ∀ name ∈ segments qualified, Identifier.Valid name) := by
  obtain ⟨⟨hpackage, -⟩, -⟩ := add_eq_none_iff.mp h
  refine ⟨mem_declarations ((mem_toList_add h).mpr (Or.inr rfl)), namesClass_iff hpackage, ?_⟩
  rw [legal_declaration_iff]
  exact and_iff_right_of_imp (namesClass_of_segments hpackage)

/-- A nested class is accepted with its declaration because all its parts are identifiers. -/
theorem accepted_sound_iff_mapEntry :
    empty.add "java.util.Map$Entry" = (⟨[("Entry", "java.util.Map$Entry")]⟩, none) ∧
      declaration "java.util.Map$Entry"
        ∈ (⟨[("Entry", "java.util.Map$Entry")]⟩ : Imports).declarations ∧
      NamesClass "java.util.Map$Entry" ∧ Legal (declaration "java.util.Map$Entry") := by
  have hadd : empty.add "java.util.Map$Entry" = (⟨[("Entry", "java.util.Map$Entry")]⟩, none) := rfl
  have hvalid : ∀ name ∈ segments "java.util.Map$Entry", Identifier.Valid name := by decide
  have hsound := accepted_sound_iff hadd
  exact ⟨hadd, hsound.1, hsound.2.2.mpr hvalid⟩

/-- What is accepted without being sound: a class inside something that is no class, a name with a
dot in front, and a package whose dollar sign falls apart in the declaration. -/
theorem accepted_unsound :
    (∃ t, empty.add "java.util.1Map$Entry" = (t, none) ∧ ¬NamesClass "java.util.1Map$Entry" ∧
      ¬Legal (declaration "java.util.1Map$Entry")) ∧
    (∃ t, empty.add ".A" = (t, none) ∧ ¬NamesClass ".A" ∧ ¬Legal (declaration ".A")) ∧
    ∃ t, empty.add "a$1.C" = (t, none) ∧ NamesClass "a$1.C" ∧ ¬Legal (declaration "a$1.C") := by
  have hnested : Package.Valid (splitQualified "java.util.1Map$Entry").1 := by decide
  have hdot : Package.Valid (splitQualified ".A").1 := by decide
  have hdollar : Package.Valid (splitQualified "a$1.C").1 := by decide
  refine ⟨⟨⟨[("Entry", "java.util.1Map$Entry")]⟩, rfl, ?_, ?_⟩, ⟨⟨[("A", ".A")]⟩, rfl, ?_, ?_⟩,
    ⟨⟨[("C", "a$1.C")]⟩, rfl, ?_, ?_⟩⟩
  · rw [namesClass_iff hnested]
    decide
  · rw [legal_declaration_iff]
    decide
  · rw [namesClass_iff hdot]
    decide
  · rw [legal_declaration_iff]
    decide
  · rw [namesClass_iff hdollar]
    decide
  · rw [legal_declaration_iff]
    decide

end Imports

/-! ## Imports of classes -/

namespace ClassName

theorem WellFormed.splitQualified_fst {c : ClassName} (h : c.WellFormed) :
    (splitQualified c.qualifiedName).1 = c.package := by
  rw [splitQualified, h.splitLast?_qualifiedName]
  exact String.ofList_toList

/-- An import of a class binds what its simple name has after the last dollar sign. -/
theorem WellFormed.boundName_eq_simpleName {c : ClassName} (h : c.WellFormed) :
    boundName c.qualifiedName = boundName c.simpleName := by
  have hdot := (h.names _ c.simpleName_mem_chain).dot_notMem
  rw [boundName_eq, boundName_eq, h.afterLast_qualifiedName, Text.afterLast_of_notMem hdot]
  cases c with
  | root package name unboxed => rfl
  | member outer package name unboxed =>
    rw [toList_binaryName_member, Text.afterLast_append]
    rfl

theorem DollarFree.boundName_simpleName {c : ClassName} (hw : c.WellFormed) (hd : c.DollarFree) :
    boundName c.simpleName = c.simpleName := by
  rw [← hw.boundName_eq_simpleName, boundName_qualifiedName hw hd]

theorem DollarFree.dotted_qualifiedName {c : ClassName} (hw : c.WellFormed) (h : c.DollarFree)
    (hp : '$' ∉ c.package.toList) : Text.dotted c.qualifiedName.toList = c.sourceName.toList := by
  rw [hw.coherent.qualifiedName_eq, sourceName]
  by_cases hempty : c.package = ""
  · rw [hempty, Package.qualify_empty, Package.qualify_empty]
    exact h.dotted_joined
  · rw [Package.toList_qualify_of_ne hempty, Package.toList_qualify_of_ne hempty,
      Text.dotted_append, Text.dotted_cons_dot, Text.dotted_eq_self hp, binaryName, h.dotted_joined]

theorem mem_joined_of_mem {c : ClassName} {name : String} (h : name ∈ c.chain) (sep : String)
    {x : Char} (hx : x ∈ name.toList) : x ∈ (c.joined sep).toList := by
  induction c with
  | root package simple unboxed =>
    rw [chain, List.mem_singleton] at h
    exact h ▸ hx
  | member outer package simple unboxed ih =>
    rw [joined, String.toList_append, List.mem_append]
    rw [chain, List.mem_append, List.mem_singleton] at h
    rcases h with h | rfl
    · refine Or.inl ?_
      rw [String.toList_append]
      exact List.mem_append_left _ (ih h)
    · exact Or.inr hx

/-- The source name shows every character of the package and of the simple names. -/
theorem dollarFree_of_sourceName {c : ClassName} (h : '$' ∉ c.sourceName.toList) :
    '$' ∉ c.package.toList ∧ c.DollarFree := by
  rw [sourceName] at h
  by_cases hempty : c.package = ""
  · rw [hempty, Package.qualify_empty] at h
    exact ⟨by simp [hempty], fun name hname hx => h (mem_joined_of_mem hname "." hx)⟩
  · rw [Package.toList_qualify_of_ne hempty] at h
    refine ⟨fun hx => h (List.mem_append_left _ hx), fun name hname hx => h ?_⟩
    exact List.mem_append_right _ (List.mem_cons_of_mem _ (mem_joined_of_mem hname "." hx))

end ClassName

namespace Imports

theorem declarations_singleton (name qualified : String) :
    declarations ⟨[(name, qualified)]⟩ = [declaration qualified] := by
  simp [declarations, toList]

theorem addType_empty_eq_none_iff {c : ClassName} (hw : c.WellFormed) {t : Imports} :
    empty.addType (.named c) = (t, none) ↔
      Identifier.Valid (boundName c.simpleName) ∧
        t = ⟨[(boundName c.simpleName, c.qualifiedName)]⟩ := by
  show empty.add c.qualifiedName = (t, none) ↔ _
  rw [add_eq_none_iff, Admissible, hw.splitQualified_fst, hw.boundName_eq_simpleName]
  have hnone : empty.get? (boundName c.simpleName) = none := rfl
  rw [hnone]
  simp [hw.package, empty]

/-- An import of a class is accepted if what follows the last dollar sign of its simple name is an
identifier, and binds that.  It binds the simple name, and declares the class by its source name,
exactly if there is no dollar sign in the package and in the simple names. -/
theorem addType_sound_iff {c : ClassName} (h : TypeRef.Checked (.named c)) :
    (∀ t, empty.addType (.named c) = (t, none) ↔
      Identifier.Valid (boundName c.simpleName) ∧
        t = ⟨[(boundName c.simpleName, c.qualifiedName)]⟩) ∧
    ((∃ t, empty.addType (.named c) = (t, none) ∧ t.entries = [(c.simpleName, c.qualifiedName)] ∧
        t.declarations = ["import " ++ c.sourceName ++ ";"]) ↔
      '$' ∉ c.package.toList ∧ c.DollarFree) := by
  have hw := h.class
  refine ⟨fun t => addType_empty_eq_none_iff hw, ?_⟩
  constructor
  · rintro ⟨t, hadd, -, hdeclarations⟩
    obtain ⟨-, rfl⟩ := (addType_empty_eq_none_iff hw).mp hadd
    rw [declarations_singleton, List.singleton_inj, declaration_eq_iff] at hdeclarations
    apply ClassName.dollarFree_of_sourceName
    rw [← hdeclarations]
    exact Text.dollar_notMem_dotted _
  · rintro ⟨hp, hd⟩
    have hname : boundName c.simpleName = c.simpleName := hd.boundName_simpleName hw
    have hvalid : Identifier.Valid (boundName c.simpleName) := by
      rw [hname]
      exact hw.names _ c.simpleName_mem_chain
    refine ⟨_, (addType_empty_eq_none_iff hw).mpr ⟨hvalid, rfl⟩, by rw [hname], ?_⟩
    rw [declarations_singleton, List.singleton_inj, declaration_eq_iff]
    exact hd.dotted_qualifiedName hw hp

theorem addType_sound_iff_mapEntry :
    let c : ClassName := .nested (.top "java.util" "Map") "Entry"
    TypeRef.Checked (.named c) ∧
      Identifier.Valid (boundName c.simpleName) ∧ '$' ∉ c.package.toList ∧ c.DollarFree ∧
      empty.addType (.named c) = (⟨[("Entry", "java.util.Map$Entry")]⟩, none) ∧
      ∃ t, empty.addType (.named c) = (t, none) ∧ t.entries = [(c.simpleName, c.qualifiedName)] ∧
        t.declarations = ["import " ++ c.sourceName ++ ";"] := by
  intro c
  have houter : TypeRef.ofClass "java.util" "Map" = .ok (.named (.top "java.util" "Map")) := rfl
  have hnested : TypeRef.nestedClass (.named (.top "java.util" "Map")) "Entry" = .ok (.named c) :=
    rfl
  have hc : TypeRef.Checked (.named c) := .nestedClass (.ofClass houter) hnested
  have hvalid : Identifier.Valid (boundName c.simpleName) := by decide
  have hp : '$' ∉ c.package.toList := by decide
  have hd : c.DollarFree := by decide
  have hsound := addType_sound_iff hc
  exact ⟨hc, hvalid, hp, hd, (hsound.1 _).mpr ⟨hvalid, by decide⟩, hsound.2.mpr ⟨hp, hd⟩⟩

/-- A dollar sign at the start of a simple name is taken for one that stands before a nested class:
the import binds another name, and what it declares is no class at all. -/
theorem addType_unsound :
    let c : ClassName := .top "p" "$proxy"
    let t : Imports := ⟨[("proxy", "p.$proxy")]⟩
    TypeRef.Checked (.named c) ∧ empty.addType (.named c) = (t, none) ∧
      t.declarations = ["import p..proxy;"] ∧
      ¬∃ t', empty.addType (.named c) = (t', none) ∧
        t'.entries = [(c.simpleName, c.qualifiedName)] ∧
        t'.declarations = ["import " ++ c.sourceName ++ ";"] := by
  intro c t
  have hclass : TypeRef.ofClass "p" "$proxy" = .ok (.named c) := rfl
  have hc : TypeRef.Checked (.named c) := .ofClass hclass
  have hadd : empty.addType (.named c) = (t, none) :=
    (addType_empty_eq_none_iff hc.class).mpr ⟨by decide, by decide⟩
  have hdeclarations : t.declarations = ["import p..proxy;"] := by
    rw [declarations_singleton]
    decide
  refine ⟨hc, hadd, hdeclarations, ?_⟩
  rintro ⟨t', hadd', hentries, -⟩
  rw [hadd] at hadd'
  cases hadd'
  exact absurd hentries (by decide)

end Imports

end JavaSource
