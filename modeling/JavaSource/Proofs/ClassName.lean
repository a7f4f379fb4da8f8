import JavaSource.Imports
import JavaSource.Proofs.Identifier
import JavaSource.Proofs.Text.Fields
import JavaSource.TypeRef.OfName

/-!
# The names of a class

A class stores more than its names: its package once more at every level of nesting, and the primitive
that it unboxes to.  `Coherent` holds of the classes in which all this is as `top` and `nested` store
it, and a coherent class is determined by its package and the chain of simple names that leads to it
(`Coherent.eq_iff`).

The module relates the written forms to these two: cutting a joined name at its separator gives the
chain back (`splitOn_joined`), the qualified name is the binary name inside the package
(`Coherent.qualifiedName_eq`), and for classes without `$` in their simple names a qualified name can
be read back (`splitQualified_qualifiedName`, `ofClassName_qualifiedName`).
-/

namespace JavaSource

/-- Identifiers between dots do not leave room for a dot in front. -/
theorem head?_ne_dot {text : String}
    (h : ∀ name ∈ Text.fieldsOf '.' text, Identifier.Valid name) :
    text.toList.head? ≠ some '.' := by
  intro hhead
  obtain ⟨rest, hrest⟩ := List.head?_eq_some_iff.mp hhead
  have hempty : Identifier.Valid "" := by
    apply h
    rw [Text.fieldsOf, hrest, Text.splitOn_cons_self]
    exact List.mem_cons_self
  exact absurd hempty (by decide)

namespace ClassName

/-- All that is stored is as `top` and `nested` store it. -/
inductive Coherent : ClassName → Prop
  | top (package name : String) : Coherent (top package name)
  | nested {outer : ClassName} (h : Coherent outer) (name : String) : Coherent (nested outer name)

/-- A coherent class with identifiers all along, in a package that is one. -/
structure WellFormed (c : ClassName) : Prop where
  coherent : c.Coherent
  package : Package.Valid c.package
  names : ∀ name ∈ c.chain, Identifier.Valid name

/-- No simple name on the way to the class has the sign that stands before nested classes. -/
def DollarFree (c : ClassName) : Prop := ∀ name ∈ c.chain, '$' ∉ name.toList

instance (c : ClassName) : Decidable c.DollarFree :=
  inferInstanceAs (Decidable (∀ name ∈ c.chain, '$' ∉ name.toList))

/-! ## The chain -/

theorem simpleName_mem_chain (c : ClassName) : c.simpleName ∈ c.chain := by
  cases c with
  | root package name unboxed => simp [chain, simpleName]
  | member outer package name unboxed => simp [chain, simpleName]

/-- The chain starts with the outermost class. -/
theorem exists_chain (c : ClassName) : ∃ inner, c.chain = c.outermost.simpleName :: inner := by
  induction c with
  | root package name unboxed => exact ⟨[], rfl⟩
  | member outer package name unboxed ih =>
    obtain ⟨inner, hchain⟩ := ih
    exact ⟨inner ++ [name], by rw [chain, hchain]; rfl⟩

theorem chain_outermost (c : ClassName) : c.outermost.chain = [c.outermost.simpleName] := by
  induction c with
  | root package name unboxed => rfl
  | member outer package name unboxed ih => exact ih

theorem outermost_simpleName_mem_chain (c : ClassName) : c.outermost.simpleName ∈ c.chain := by
  obtain ⟨inner, hchain⟩ := c.exists_chain
  simp [hchain]

theorem package_foldl_nested (c : ClassName) (inner : List String) :
    (inner.foldl nested c).package = c.package := by
  induction inner generalizing c with
  | nil => rfl
  | cons name inner ih => exact ih (nested c name)

theorem chain_foldl_nested (c : ClassName) (inner : List String) :
    (inner.foldl nested c).chain = c.chain ++ inner := by
  induction inner generalizing c with
  | nil => simp
  | cons name inner ih =>
    rw [List.foldl_cons, ih, chain_nested, List.append_assoc]
    rfl

/-! ## Coherent classes -/

namespace Coherent

variable {c d : ClassName}

theorem foldl_nested (h : c.Coherent) (inner : List String) :
    (inner.foldl ClassName.nested c).Coherent := by
  induction inner generalizing c with
  | nil => exact h
  | cons name inner ih => exact ih (h.nested name)

theorem outermost_eq (h : c.Coherent) :
    c.outermost = ClassName.top c.package c.outermost.simpleName := by
  induction h with
  | top package name => rfl
  | nested _ name ih => exact ih

theorem package_outermost (h : c.Coherent) : c.outermost.package = c.package := by
  rw [h.outermost_eq, package_top]

theorem outermost (h : c.Coherent) : c.outermost.Coherent := by
  rw [h.outermost_eq]
  exact .top _ _

/-- The chain leads from the class at its top to the class. -/
theorem eq_foldl_of_chain (h : c.Coherent) {leading : String} {inner : List String}
    (hchain : c.chain = leading :: inner) :
    c = inner.foldl ClassName.nested (ClassName.top c.package leading) := by
  induction h generalizing inner with
  | top package name =>
    cases hchain
    rfl
  | @nested outer _ name ih =>
    obtain ⟨front, houter⟩ := outer.exists_chain
    rw [chain_nested, houter, List.cons_append, List.cons.injEq] at hchain
    obtain ⟨rfl, rfl⟩ := hchain
    rw [List.foldl_append, package_nested, ← ih houter]
    rfl

/-- A coherent class is determined by its package and its chain. -/
theorem eq_iff (hc : c.Coherent) (hd : d.Coherent) :
    c = d ↔ c.package = d.package ∧ c.chain = d.chain := by
  constructor
  · rintro rfl
    exact ⟨rfl, rfl⟩
  · rintro ⟨hpackage, hchain⟩
    obtain ⟨inner, hinner⟩ := d.exists_chain
    calc c = inner.foldl ClassName.nested (ClassName.top c.package d.outermost.simpleName) :=
          hc.eq_foldl_of_chain (hchain.trans hinner)
      _ = inner.foldl ClassName.nested (ClassName.top d.package d.outermost.simpleName) := by
          rw [hpackage]
      _ = d := (hd.eq_foldl_of_chain hinner).symm

theorem qualifiedName_eq (h : c.Coherent) :
    c.qualifiedName = Package.qualify c.package c.binaryName := by
  induction h with
  | top package name => rfl
  | @nested outer _ name ih =>
    show outer.qualifiedName ++ "$" ++ name
      = Package.qualify outer.package (outer.binaryName ++ "$" ++ name)
    rw [ih]
    by_cases hp : outer.package = ""
    · rw [hp, Package.qualify_empty, Package.qualify_empty]
    · rw [Package.qualify_of_ne hp, Package.qualify_of_ne hp]
      simp only [String.append_assoc]

end Coherent

theorem wellFormed_top {package name : String} (hpackage : Package.Valid package)
    (hname : Identifier.Valid name) : (top package name).WellFormed :=
  ⟨.top package name, hpackage, List.forall_mem_singleton.mpr hname⟩

theorem WellFormed.foldl_nested {c : ClassName} (h : c.WellFormed) {inner : List String}
    (hinner : ∀ name ∈ inner, Identifier.Valid name) : (inner.foldl nested c).WellFormed := by
  refine ⟨h.coherent.foldl_nested inner, ?_, ?_⟩
  · rw [package_foldl_nested]
    exact h.package
  · rw [chain_foldl_nested]
    exact List.forall_mem_append.mpr ⟨h.names, hinner⟩

theorem WellFormed.outermost {c : ClassName} (h : c.WellFormed) : c.outermost.WellFormed := by
  refine ⟨h.coherent.outermost, ?_, ?_⟩
  · rw [h.coherent.package_outermost]
    exact h.package
  · rw [chain_outermost]
    exact List.forall_mem_singleton.mpr (h.names _ c.outermost_simpleName_mem_chain)

theorem DollarFree.outermost {c : ClassName} (h : c.DollarFree) : c.outermost.DollarFree := by
  intro name hn
  rw [chain_outermost, List.mem_singleton] at hn
  subst hn
  exact h _ c.outermost_simpleName_mem_chain

/-! ## Joined names -/

/-- Cutting a joined name at its separator gives the chain back. -/
theorem splitOn_joined {sep : Char} {text : String} (ht : text.toList = [sep]) {c : ClassName}
    (h : ∀ name ∈ c.chain, sep ∉ name.toList) :
    (c.joined text).toList.splitOn sep = c.chain.map String.toList := by
  induction c with
  | root package name unboxed => exact List.splitOn_eq_singleton (h name (by simp [chain]))
  | member outer package name unboxed ih =>
    have hname : sep ∉ name.toList := h name (by simp [chain])
    have houter := ih fun n hn => h n (by simp [chain, hn])
    rw [joined, String.toList_append, String.toList_append, ht, List.append_assoc,
      List.singleton_append, List.splitOn_append_cons_self, houter,
      List.splitOn_eq_singleton hname, chain, List.map_append]
    rfl

theorem toList_binaryName_member (outer : ClassName) (package name : String)
    (unboxed : Option Primitive) :
    (member outer package name unboxed).binaryName.toList
      = outer.binaryName.toList ++ '$' :: name.toList := by
  rw [binaryName, joined, String.toList_append, String.toList_append]
  simp [binaryName]

theorem mem_joined {text : String} {c : ClassName} {x : Char} (h : x ∈ (c.joined text).toList) :
    x ∈ text.toList ∨ ∃ name ∈ c.chain, x ∈ name.toList := by
  induction c with
  | root package name unboxed => exact Or.inr ⟨name, by simp [chain], h⟩
  | member outer package name unboxed ih =>
    rw [joined, String.toList_append, String.toList_append, List.mem_append, List.mem_append] at h
    rcases h with (h | h) | h
    · rcases ih h with h | ⟨n, hn, hx⟩
      · exact Or.inl h
      · exact Or.inr ⟨n, by simp [chain, hn], hx⟩
    · exact Or.inl h
    · exact Or.inr ⟨name, by simp [chain], h⟩

theorem WellFormed.dot_notMem_binaryName {c : ClassName} (h : c.WellFormed) :
    '.' ∉ c.binaryName.toList := by
  intro hx
  rcases mem_joined hx with hx | ⟨name, hn, hx⟩
  · exact absurd hx (by decide)
  · exact (h.names name hn).dot_notMem hx

theorem WellFormed.fieldsOf_joined {c : ClassName} (h : c.WellFormed) :
    Text.fieldsOf '.' (c.joined ".") = c.chain := by
  have hdots : ∀ name ∈ c.chain, '.' ∉ name.toList := fun name hn => (h.names name hn).dot_notMem
  rw [Text.fieldsOf, splitOn_joined (by decide) hdots, List.map_map]
  simp [Function.comp_def]

theorem WellFormed.fieldsOf_simpleName {c : ClassName} (h : c.WellFormed) :
    Text.fieldsOf '.' c.simpleName = [c.simpleName] := by
  have hdot := (h.names _ c.simpleName_mem_chain).dot_notMem
  rw [Text.fieldsOf, List.splitOn_eq_singleton hdot]
  simp

/-! ## Qualified names -/

/-- The last dot of a qualified name stands between package and binary name. -/
theorem WellFormed.splitLast?_qualifiedName {c : ClassName} (h : c.WellFormed) :
    (Text.splitLast? '.' c.qualifiedName.toList).getD ([], c.qualifiedName.toList)
      = (c.package.toList, c.binaryName.toList) := by
  have hdot := h.dot_notMem_binaryName
  rw [h.coherent.qualifiedName_eq]
  by_cases hp : c.package = ""
  · rw [hp, Package.qualify_empty, Text.splitLast?_eq_none_iff.mpr hdot]
    rfl
  · rw [Package.toList_qualify_of_ne hp, Text.splitLast?_append hdot]
    rfl

theorem WellFormed.head?_qualifiedName_ne {c : ClassName} (h : c.WellFormed) :
    c.qualifiedName.toList.head? ≠ some '.' := by
  rw [h.coherent.qualifiedName_eq]
  intro hhead
  by_cases hp : c.package = ""
  · rw [hp, Package.qualify_empty] at hhead
    exact h.dot_notMem_binaryName (List.mem_of_head? hhead)
  · have hsegments := (Package.valid_iff.mp h.package).resolve_left hp
    obtain ⟨x, xs, hlist⟩ : ∃ x xs, c.package.toList = x :: xs :=
      List.exists_cons_of_ne_nil (by simpa using hp)
    refine head?_ne_dot hsegments ?_
    rw [Package.toList_qualify_of_ne hp, hlist] at hhead
    rw [hlist]
    exact hhead

theorem DollarFree.splitLast?_binaryName {c : ClassName} (h : c.DollarFree) :
    ((Text.splitLast? '$' c.binaryName.toList).map Prod.snd).getD c.binaryName.toList
      = c.simpleName.toList := by
  cases c with
  | root package name unboxed =>
    have hname : '$' ∉ name.toList := h name (by simp [chain])
    rw [show (root package name unboxed).binaryName = name from rfl,
      Text.splitLast?_eq_none_iff.mpr hname]
    rfl
  | member outer package name unboxed =>
    have hname : '$' ∉ name.toList := h name (by simp [chain])
    rw [toList_binaryName_member, Text.splitLast?_append hname]
    rfl

theorem splitQualified_qualifiedName {c : ClassName} (hw : c.WellFormed) (hd : c.DollarFree) :
    splitQualified c.qualifiedName = (c.package, c.simpleName) := by
  unfold splitQualified
  rw [hw.splitLast?_qualifiedName]
  show (String.ofList c.package.toList, String.ofList _) = _
  rw [hd.splitLast?_binaryName]
  simp

theorem boundName_qualifiedName {c : ClassName} (hw : c.WellFormed) (hd : c.DollarFree) :
    boundName c.qualifiedName = c.simpleName := by
  rw [boundName, splitQualified_qualifiedName hw hd]

end ClassName

namespace TypeRef

/-! ## Classes from names -/

theorem ofClass_eq_ok_iff {package name : String} {t : TypeRef} :
    ofClass package name = .ok t ↔
      Package.Valid package ∧ Identifier.Valid name ∧ t = named (.top package name) := by
  unfold ofClass
  simp only [bind_eq_ok_iff, Package.check_eq_ok_iff, Identifier.check_eq_ok_iff, exists_and_left,
    exists_const]
  simp [pure, Except.pure, eq_comm]

theorem nestedClass_eq_ok_iff {t t' : TypeRef} {name : String} :
    t.nestedClass name = .ok t' ↔
      ∃ outer, t = named outer ∧ Identifier.Valid name ∧ t' = named (.nested outer name) := by
  cases t with
  | named outer =>
    unfold nestedClass
    simp only [bind_eq_ok_iff, Identifier.check_eq_ok_iff, exists_and_left, exists_const]
    simp [pure, Except.pure, eq_comm]
  | primitive p => simp [nestedClass]
  | generic raw arguments => simp [nestedClass]
  | array element => simp [nestedClass]

/-- A chain of nested classes is refused exactly if one of its names is no identifier. -/
theorem nestedClasses_eq_ok_iff {outer : ClassName} {segments : List String} {t : TypeRef} :
    nestedClasses (named outer) segments = .ok t ↔
      (∀ name ∈ segments, Identifier.Valid name) ∧ t = named (segments.foldl .nested outer) := by
  unfold nestedClasses
  induction segments generalizing outer with
  | nil => simp [pure, Except.pure, eq_comm]
  | cons name segments ih =>
    rw [List.foldlM_cons, bind_eq_ok_iff]
    constructor
    · rintro ⟨t', hnest, hrest⟩
      obtain ⟨outer', heq, hname, rfl⟩ := nestedClass_eq_ok_iff.mp hnest
      cases heq
      obtain ⟨hnames, rfl⟩ := ih.mp hrest
      exact ⟨List.forall_mem_cons.mpr ⟨hname, hnames⟩, rfl⟩
    · rintro ⟨hnames, rfl⟩
      obtain ⟨hname, hnames⟩ := List.forall_mem_cons.mp hnames
      exact ⟨_, nestedClass_eq_ok_iff.mpr ⟨outer, rfl, hname, rfl⟩, ih.mpr ⟨hnames, rfl⟩⟩

/-- What reading a qualified name asks of its parts, and the class that it gives. -/
theorem ofClassName_eq_ok_iff {name package binary : List Char} {t : TypeRef}
    (hsplit : (Text.splitLast? '.' name).getD ([], name) = (package, binary)) :
    ofClassName name = .ok t ↔
      ∃ leading inner, (binary.splitOn '$').map String.ofList = leading :: inner ∧
        Package.Valid (String.ofList package) ∧ Identifier.Valid leading ∧
        (∀ segment ∈ inner, Identifier.Valid segment) ∧
        t = named (inner.foldl .nested (.top (String.ofList package) leading)) := by
  unfold ofClassName
  rw [hsplit]
  dsimp only
  cases hf : binary.splitOn '$' with
  | nil => exact absurd hf (List.splitOn_ne_nil '$' binary)
  | cons first segments =>
    simp only [List.map_cons, List.cons.injEq, and_assoc, exists_and_left, exists_eq_left']
    cases first with
    | nil =>
      have hempty : ¬Identifier.Valid (String.ofList []) := by decide
      simp [hempty]
    | cons c cs =>
      simp only [List.isEmpty_cons, Bool.false_eq_true, if_false, bind_eq_ok_iff,
        ofClass_eq_ok_iff]
      constructor
      · rintro ⟨_, ⟨hpackage, hleading, rfl⟩, hrest⟩
        exact ⟨hpackage, hleading, nestedClasses_eq_ok_iff.mp hrest⟩
      · rintro ⟨hpackage, hleading, hrest⟩
        exact ⟨_, ⟨hpackage, hleading, rfl⟩, nestedClasses_eq_ok_iff.mpr hrest⟩

/-- A qualified name is read back as the class that it was made from. -/
theorem ofClassName_qualifiedName {c : ClassName} (hw : c.WellFormed) (hd : c.DollarFree) :
    ofClassName c.qualifiedName.toList = .ok (named c) := by
  obtain ⟨inner, hchain⟩ := c.exists_chain
  have hnames : ∀ name ∈ c.outermost.simpleName :: inner, Identifier.Valid name :=
    hchain ▸ hw.names
  obtain ⟨hleading, hinner⟩ := List.forall_mem_cons.mp hnames
  rw [ofClassName_eq_ok_iff hw.splitLast?_qualifiedName]
  refine ⟨c.outermost.simpleName, inner, ?_, ?_, hleading, hinner, ?_⟩
  · rw [ClassName.binaryName, ClassName.splitOn_joined (by decide) hd, List.map_map, hchain]
    simp [Function.comp_def]
  · rw [String.ofList_toList]
    exact hw.package
  · rw [String.ofList_toList, ← hw.coherent.eq_foldl_of_chain hchain]

end TypeRef

end JavaSource
