import JavaSource.Proofs.TypeRef.Checked

/-!
# Class identity and boxing

A class remembers the primitive that it unboxes to, and three places write it down: the factories for
classes on the top level and for nested classes, and boxing, which writes over what the first of them
has put there.  They agree: the primitive is the one whose wrapper the class is by its names
(`ClassName.Coherent.unboxed?_eq_some_iff`, `boxed_primitive`).  So it does not matter whether a class
was named, put together from its parts, or boxed from a primitive, and package and chain tell it from
all others.  `TypeRef.Checked.canonical` collects what follows for the types that the factories hand
out.
-/

namespace JavaSource

/-! ## Wrappers -/

namespace Primitive

/-- Looking a wrapper up undoes naming it, for all primitives but `void`. -/
theorem ofWrapper?_eq_some_iff {name : String} {p : Primitive} :
    ofWrapper? name = some p ↔ p.wrapper = name ∧ p ≠ void := by
  constructor
  · intro h
    have hname := List.find?_some h
    have hmem := List.mem_filter.mp (List.mem_of_find?_eq_some h)
    exact ⟨of_decide_eq_true hname, of_decide_eq_true hmem.2⟩
  · rintro ⟨rfl, hvoid⟩
    cases p with
    | void => exact absurd rfl hvoid
    | boolean | byte | short | char | int | long | float | double => decide

end Primitive

namespace ClassName

/-- By its names, the class is the wrapper of a primitive that can be taken out of it. -/
def Wraps (c : ClassName) (p : Primitive) : Prop :=
  c.enclosing? = none ∧ c.package = "java.lang" ∧ c.simpleName = p.wrapper ∧ p ≠ .void

theorem unboxed?_top_eq_some_iff {package name : String} {p : Primitive} :
    (top package name).unboxed? = some p ↔
      package = Package.standard ∧ name = p.wrapper ∧ p ≠ .void := by
  show (if package = Package.standard then Primitive.ofWrapper? name else none) = some p ↔ _
  by_cases hpackage : package = Package.standard
  · rw [if_pos hpackage, Primitive.ofWrapper?_eq_some_iff, and_iff_right hpackage, eq_comm]
  · rw [if_neg hpackage]
    simp [hpackage]

/-- What a coherent class remembers can be told from its names. -/
theorem Coherent.unboxed?_eq_some_iff {c : ClassName} (h : c.Coherent) {p : Primitive} :
    c.unboxed? = some p ↔ c.Wraps p := by
  cases h with
  | top package name =>
    rw [unboxed?_top_eq_some_iff]
    exact (and_iff_right rfl).symm
  | nested h name => simp [Wraps]

theorem Coherent.eq_of_wraps {c : ClassName} (h : c.Coherent) {p : Primitive} (hc : c.Wraps p) :
    c = ClassName.top Package.standard p.wrapper := by
  obtain ⟨houter, hpackage, hname, -⟩ := hc
  cases h with
  | top package name =>
    obtain rfl : package = Package.standard := hpackage
    obtain rfl : name = p.wrapper := hname
    rfl
  | nested h name => cases houter

end ClassName

/-! ## Boxing and unboxing -/

namespace TypeRef

theorem unbox_named_of_some {c : ClassName} {p : Primitive} (h : c.unboxed? = some p) :
    (named c).unbox = primitive p := by
  rw [unbox, h]

theorem unbox_named_of_none {c : ClassName} (h : c.unboxed? = none) :
    (named c).unbox = named c := by
  rw [unbox, h]

theorem unbox_named_eq_primitive_iff {c : ClassName} {p : Primitive} :
    (named c).unbox = primitive p ↔ c.unboxed? = some p := by
  cases h : c.unboxed? with
  | none => simp [unbox_named_of_none h]
  | some q => simp [unbox_named_of_some h]

theorem unbox_named_eq_self_iff {c : ClassName} :
    (named c).unbox = named c ↔ c.unboxed? = none := by
  cases h : c.unboxed? with
  | none => simp [unbox_named_of_none h]
  | some q => simp [unbox_named_of_some h]

theorem unbox_unbox (t : TypeRef) : t.unbox.unbox = t.unbox := by
  cases t with
  | named c =>
    cases h : c.unboxed? with
    | none => rw [unbox_named_of_none h, unbox_named_of_none h]
    | some p =>
      rw [unbox_named_of_some h]
      rfl
  | primitive p => rfl
  | generic raw arguments => rfl
  | array element => rfl

theorem boxed_boxed (t : TypeRef) : t.boxed.boxed = t.boxed := by
  cases t <;> rfl

/-- A class that unboxes is the wrapper that its primitive is boxed to, in all that is stored. -/
theorem WellFormed.boxed_unbox {t : TypeRef} (ht : t.WellFormed) (h : t.isPrimitive = false) :
    t.unbox.boxed = t := by
  cases ht with
  | @named c hc =>
    cases hp : c.unboxed? with
    | none =>
      rw [unbox_named_of_none hp]
      rfl
    | some p =>
      have hwraps := hc.coherent.unboxed?_eq_some_iff.mp hp
      rw [unbox_named_of_some hp, boxed_primitive, hc.coherent.eq_of_wraps hwraps]
      rfl
  | primitive p => cases h
  | generic _ _ _ _ _ => rfl
  | array _ => rfl

theorem unbox_boxed {p : Primitive} (h : p ≠ .void) : (primitive p).boxed.unbox = primitive p := by
  rw [boxed_primitive]
  exact unbox_named_of_some (ClassName.unboxed?_top_eq_some_iff.mpr ⟨rfl, rfl, h⟩)

/-- Type arguments are for the classes that stay as they are when they are unboxed. -/
theorem exists_withArguments_eq_ok_iff {t : TypeRef} {arguments : List TypeRef}
    (h : ∀ a ∈ arguments, a.isPrimitive = false) :
    (∃ t', t.withArguments arguments = .ok t') ↔ t.isClass = true ∧ t.unbox = t := by
  simp only [withArguments_eq_ok_iff]
  constructor
  · rintro ⟨t', c, rfl, hnone, -, -⟩
    exact ⟨rfl, unbox_named_of_none hnone⟩
  · rintro ⟨hclass, hunbox⟩
    cases t with
    | named c => exact ⟨_, c, rfl, unbox_named_eq_self_iff.mp hunbox, h, rfl⟩
    | primitive p => cases hclass
    | generic raw arguments => cases hclass
    | array element => cases hclass

/-! ## Any way to make a type -/

/-- What can be told of a type without knowing how it was made. -/
structure Canonical (t : TypeRef) : Prop where
  /-- Two classes are the same, in all that is stored, exactly if package and chain are. -/
  identity : ∀ c d, t = named c → Checked (named d) →
    (t = named d ↔ c.package = d.package ∧ c.chain = d.chain)
  /-- A class is the one that its package and its chain lead to. -/
  rebuilt : ∀ c leading inner, t = named c → c.chain = leading :: inner →
    (do nestedClasses (← ofClass c.package leading) inner) = .ok t
  /-- The wrapper of a primitive is the class that its name leads to. -/
  boxes : ∀ p, t = primitive p → ofClass "java.lang" p.wrapper = .ok t.boxed
  unboxes : ∀ c p, t = named c → (t.unbox = primitive p ↔
    c.enclosing? = none ∧ c.package = "java.lang" ∧ c.simpleName = p.wrapper ∧ p ≠ .void)
  stays : ∀ c, t = named c → (∀ p, t.unbox ≠ primitive p) → t.unbox = t
  unbox_unbox : t.unbox.unbox = t.unbox
  boxed_boxed : t.boxed.boxed = t.boxed
  boxed_unbox : t.isPrimitive = false → t.unbox.boxed = t
  unbox_boxed : ∀ p, t = primitive p → p ≠ .void → t.boxed.unbox = t
  arguments : ∀ arguments, arguments ≠ [] → (∀ a ∈ arguments, a.isPrimitive = false) →
    ((∃ t', t.withArguments arguments = .ok t') ↔ t.isClass = true ∧ t.unbox = t)

theorem ofClass_wrapper (p : Primitive) :
    ofClass Package.standard p.wrapper = .ok (primitive p).boxed := by
  refine ofClass_eq_ok_iff.mpr ⟨by decide, ?_, boxed_primitive p⟩
  cases p <;> decide

/-- The factories build a well-formed class from its package and its chain. -/
theorem ofClass_bind_nestedClasses {c : ClassName} (h : c.WellFormed) {leading : String}
    {inner : List String} (hchain : c.chain = leading :: inner) :
    (do nestedClasses (← ofClass c.package leading) inner) = .ok (named c) := by
  have hnames : ∀ name ∈ leading :: inner, Identifier.Valid name := hchain ▸ h.names
  obtain ⟨hleading, hinner⟩ := List.forall_mem_cons.mp hnames
  refine bind_eq_ok_iff.mpr ⟨_, ofClass_eq_ok_iff.mpr ⟨h.package, hleading, rfl⟩, ?_⟩
  exact nestedClasses_eq_ok_iff.mpr
    ⟨hinner, congrArg named (h.coherent.eq_foldl_of_chain hchain)⟩

/-- However a type was made, its class is known by package and chain, and so is what it unboxes
to. -/
theorem Checked.canonical {t : TypeRef} (h : Checked t) : Canonical t where
  identity := by
    rintro c d rfl hd
    rw [named.injEq]
    exact h.class.coherent.eq_iff hd.class.coherent
  rebuilt := by
    rintro c leading inner rfl hchain
    exact ofClass_bind_nestedClasses h.class hchain
  boxes := by
    rintro p rfl
    exact ofClass_wrapper p
  unboxes := by
    rintro c p rfl
    rw [unbox_named_eq_primitive_iff, h.class.coherent.unboxed?_eq_some_iff]
    rfl
  stays := by
    rintro c rfl hnot
    cases hc : c.unboxed? with
    | none => exact unbox_named_of_none hc
    | some p => exact absurd (unbox_named_of_some hc) (hnot p)
  unbox_unbox := t.unbox_unbox
  boxed_boxed := t.boxed_boxed
  boxed_unbox := h.wellFormed.boxed_unbox
  unbox_boxed := by
    rintro p rfl hvoid
    exact TypeRef.unbox_boxed hvoid
  arguments := fun _ _ hprimitive => exists_withArguments_eq_ok_iff hprimitive

/-- A class named `Long` inside the class that `int` is boxed to is no wrapper, although both names
are those of wrappers, so it takes type arguments. -/
theorem canonical_integerLong :
    let t : TypeRef := .named (.nested (.top "java.lang" "Integer") "Long")
    Checked t ∧ Canonical t ∧ t.unbox = t ∧ ∃ t', t.withArguments [.string] = .ok t' := by
  intro t
  have hnested : (primitive .int).boxed.nestedClass "Long" = .ok t := rfl
  have ht : Checked t := .nestedClass (.boxed (.primitive .int)) hnested
  have harguments := ht.canonical.arguments [.string] (by simp) (by decide)
  exact ⟨ht, ht.canonical, rfl, harguments.mpr ⟨rfl, rfl⟩⟩

end TypeRef

end JavaSource
