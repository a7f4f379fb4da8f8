import JavaSource.Proofs.TypeRef.Boxing

/-!
# What holds of every type from the factories

The invariant speaks of a type through its parts, the type itself and whatever stands inside it at
any depth, and of a class through its levels, the class itself and the classes around it.  Every
level of every class that is mentioned passes the checks of names, what the levels store agrees, and
type arguments stand only where they may.  The main theorem is `checked_iff`: the factories and the
operations on types make nothing else, and they make all of it, so there is no more to know about
their types than this.
-/

namespace JavaSource

/-! ## The levels of a class -/

namespace ClassName

/-- The class and the classes around it, from the inside out. -/
def levels : ClassName → List ClassName
  | root package name unboxed => [root package name unboxed]
  | member outer package name unboxed => member outer package name unboxed :: outer.levels

theorem self_mem_levels (c : ClassName) : c ∈ c.levels := by
  cases c with
  | root package name unboxed => exact List.mem_singleton.mpr rfl
  | member outer package name unboxed => exact List.mem_cons_self

theorem mem_chain_iff {c : ClassName} {name : String} :
    name ∈ c.chain ↔ ∃ d ∈ c.levels, d.simpleName = name := by
  induction c with
  | root package simple unboxed => simp [chain, levels, simpleName, eq_comm]
  | member outer package simple unboxed ih =>
    rw [chain, List.mem_append, List.mem_singleton, ih, or_comm]
    simp [levels, simpleName, eq_comm]

/-- What the levels store twice is the same every time. -/
structure Agrees (c : ClassName) : Prop where
  /-- One package for all levels. -/
  package : ∀ d ∈ c.levels, d.package = c.package
  /-- What a level remembers to unbox to is what its names say. -/
  unboxed : ∀ d ∈ c.levels, ∀ p, d.unboxed? = some p ↔ d.Wraps p

/-- All levels have identifiers for names and package names for packages, and they agree. -/
structure Proper (c : ClassName) : Prop extends Agrees c where
  names : ∀ d ∈ c.levels, Identifier.check d.simpleName = .ok ()
  packages : ∀ d ∈ c.levels, Package.check d.package = .ok ()

theorem Coherent.agrees {c : ClassName} (h : c.Coherent) : c.Agrees := by
  induction h with
  | top package name =>
    refine ⟨List.forall_mem_singleton.mpr rfl, List.forall_mem_singleton.mpr fun _ => ?_⟩
    exact (Coherent.top package name).unboxed?_eq_some_iff
  | nested h name ih =>
    refine ⟨List.forall_mem_cons.mpr ⟨rfl, ih.package⟩,
      List.forall_mem_cons.mpr ⟨fun _ => ?_, ih.unboxed⟩⟩
    exact (h.nested name).unboxed?_eq_some_iff

/-- Where all levels agree there is nothing in a class that `top` and `nested` would not store. -/
theorem Agrees.coherent {c : ClassName} (h : c.Agrees) : c.Coherent := by
  induction c with
  | root package name unboxed =>
    have htop : unboxed = (top package name).unboxed? := by
      refine Option.ext fun p => ?_
      rw [(Coherent.top package name).unboxed?_eq_some_iff]
      exact h.unboxed _ (self_mem_levels _) p
    have heq : root package name unboxed = top package name := by
      rw [htop]
      rfl
    rw [heq]
    exact .top package name
  | member outer package name unboxed ih =>
    obtain ⟨-, hpackage⟩ := List.forall_mem_cons.mp h.package
    obtain ⟨hself, hunboxed⟩ := List.forall_mem_cons.mp h.unboxed
    obtain rfl : outer.package = package := hpackage outer outer.self_mem_levels
    have hnone : unboxed = none := by
      refine Option.eq_none_iff_forall_ne_some.mpr fun p hp => ?_
      obtain ⟨henclosing, -⟩ := (hself p).mp hp
      cases henclosing
    rw [hnone]
    exact (ih ⟨hpackage, hunboxed⟩).nested name

theorem wellFormed_iff_proper {c : ClassName} : c.WellFormed ↔ c.Proper := by
  constructor
  · intro h
    have hagrees := h.coherent.agrees
    refine ⟨hagrees, fun d hd => ?_, fun d hd => ?_⟩
    · exact Identifier.check_eq_ok_iff.mpr (h.names _ (mem_chain_iff.mpr ⟨d, hd, rfl⟩))
    · rw [hagrees.package d hd]
      exact Package.check_eq_ok_iff.mpr h.package
  · intro h
    refine ⟨h.toAgrees.coherent, ?_, fun name hname => ?_⟩
    · exact Package.check_eq_ok_iff.mp (h.packages c c.self_mem_levels)
    · obtain ⟨d, hd, rfl⟩ := mem_chain_iff.mp hname
      exact Identifier.check_eq_ok_iff.mp (h.names d hd)

/-- The simple names of the classes that a primitive can be taken out of. -/
def wrapperNames : List String :=
  ["Boolean", "Byte", "Short", "Character", "Integer", "Long", "Float", "Double"]

/-- By its names, the class is one of the eight wrappers. -/
def IsWrapper (c : ClassName) : Prop :=
  c.enclosing? = none ∧ c.package = "java.lang" ∧ c.simpleName ∈ wrapperNames

theorem mem_wrapperNames_iff {name : String} :
    name ∈ wrapperNames ↔ ∃ p : Primitive, name = p.wrapper ∧ p ≠ .void := by
  constructor
  · intro h
    have hall : wrapperNames.all (fun name => (Primitive.ofWrapper? name).isSome) = true := by
      decide
    obtain ⟨p, hp⟩ := Option.isSome_iff_exists.mp (List.all_eq_true.mp hall name h)
    obtain ⟨hname, hvoid⟩ := Primitive.ofWrapper?_eq_some_iff.mp hp
    exact ⟨p, hname.symm, hvoid⟩
  · rintro ⟨p, rfl, hvoid⟩
    -- `Void` has the name of a wrapper, but there is nothing in it to take out.
    cases p with
    | void => exact absurd rfl hvoid
    | boolean | byte | short | char | int | long | float | double => decide

theorem isWrapper_iff {c : ClassName} : c.IsWrapper ↔ ∃ p, c.Wraps p := by
  rw [IsWrapper, mem_wrapperNames_iff]
  simp only [Wraps, exists_and_left]

/-- The guard of the type arguments looks at what is remembered, which shows the wrappers. -/
theorem Coherent.unboxed?_eq_none_iff {c : ClassName} (h : c.Coherent) :
    c.unboxed? = none ↔ ¬c.IsWrapper := by
  rw [isWrapper_iff, Option.eq_none_iff_forall_ne_some, not_exists]
  exact forall_congr' fun p => not_congr h.unboxed?_eq_some_iff

end ClassName

namespace TypeRef

/-! ## The parts of a type -/

mutual

/-- The type and the types inside it, at any depth. -/
def parts : TypeRef → List TypeRef
  | primitive p => [primitive p]
  | named c => [named c]
  | generic raw arguments => generic raw arguments :: partsAll arguments
  | array element => array element :: parts element

def partsAll : List TypeRef → List TypeRef
  | [] => []
  | type :: types => parts type ++ partsAll types

end

theorem mem_partsAll_iff {s : TypeRef} {types : List TypeRef} :
    s ∈ partsAll types ↔ ∃ type ∈ types, s ∈ type.parts := by
  induction types with
  | nil => simp [partsAll]
  | cons type types ih =>
    rw [partsAll, List.mem_append, ih]
    simp

/-- What a type shows of itself, without the types inside it. -/
def Sound : TypeRef → Prop
  | primitive _ => True
  | named c => c.Proper
  | generic raw arguments => raw.Proper ∧ ¬raw.IsWrapper ∧ arguments ≠ [] ∧
      ∀ a ∈ arguments, a.isPrimitive = false
  | array _ => True

theorem WellFormed.sound {t : TypeRef} (h : WellFormed t) : ∀ s ∈ t.parts, s.Sound := by
  induction h with
  | primitive p => exact List.forall_mem_singleton.mpr trivial
  | named hc => exact List.forall_mem_singleton.mpr (ClassName.wellFormed_iff_proper.mp hc)
  | generic hraw hwrapper hne hprimitive _ ih =>
    refine List.forall_mem_cons.mpr ⟨⟨ClassName.wellFormed_iff_proper.mp hraw,
      hraw.coherent.unboxed?_eq_none_iff.mp hwrapper, hne, hprimitive⟩, fun s hs => ?_⟩
    obtain ⟨a, ha, hs⟩ := mem_partsAll_iff.mp hs
    exact ih a ha s hs
  | array _ ih => exact List.forall_mem_cons.mpr ⟨trivial, ih⟩

mutual

theorem wellFormed_of_sound : ∀ t : TypeRef, (∀ s ∈ t.parts, s.Sound) → WellFormed t
  | primitive p, _ => .primitive p
  | named c, h => .named (ClassName.wellFormed_iff_proper.mpr (h (named c) List.mem_cons_self))
  | generic raw arguments, h => by
    obtain ⟨⟨hraw, hwrapper, hne, hprimitive⟩, hparts⟩ := List.forall_mem_cons.mp h
    have hraw := ClassName.wellFormed_iff_proper.mpr hraw
    exact .generic hraw (hraw.coherent.unboxed?_eq_none_iff.mpr hwrapper) hne hprimitive
      (forall_wellFormed_of_sound arguments hparts)
  | array element, h => .array (wellFormed_of_sound element (List.forall_mem_cons.mp h).2)

theorem forall_wellFormed_of_sound : ∀ types : List TypeRef,
    (∀ s ∈ partsAll types, s.Sound) → ∀ t ∈ types, WellFormed t
  | [], _ => by simp
  | type :: types, h => by
    obtain ⟨htype, htypes⟩ := List.forall_mem_append.mp h
    exact List.forall_mem_cons.mpr
      ⟨wellFormed_of_sound type htype, forall_wellFormed_of_sound types htypes⟩

end

/-! ## Every sound type can be made -/

theorem checked_of_class {c : ClassName} (h : c.WellFormed) : Checked (named c) := by
  obtain ⟨hcoherent, hpackage, hnames⟩ := h
  induction hcoherent with
  | top package name =>
    have hname : Identifier.Valid name := hnames name (by simp)
    exact .ofClass (ofClass_eq_ok_iff.mpr ⟨hpackage, hname, rfl⟩)
  | @nested outer _ name ih =>
    have houter := ih hpackage fun n hn => hnames n (List.mem_append_left _ hn)
    have hname : Identifier.Valid name := hnames name (by simp)
    exact .nestedClass houter (nestedClass_eq_ok_iff.mpr ⟨outer, rfl, hname, rfl⟩)

theorem WellFormed.checked {t : TypeRef} (h : WellFormed t) : Checked t := by
  induction h with
  | primitive p => exact .primitive p
  | named hc => exact checked_of_class hc
  | generic hraw hwrapper hne hprimitive _ ih =>
    exact .withArguments (checked_of_class hraw) ih
      (withArguments_eq_ok_iff.mpr ⟨_, rfl, hwrapper, hprimitive, (if_neg hne).symm⟩)
  | array _ ih => exact .array ih

/-- The types that can be made by any composition of the factories and the operations on types are
the types all of whose parts are sound. -/
theorem checked_iff {t : TypeRef} : Checked t ↔ ∀ s ∈ t.parts, s.Sound :=
  ⟨fun h => h.wellFormed.sound, fun h => (wellFormed_of_sound t h).checked⟩

end TypeRef

end JavaSource
