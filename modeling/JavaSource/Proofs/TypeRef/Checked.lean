import JavaSource.Proofs.ClassName

/-!
# Types from the factories

`Checked` collects the types that can be made without the bare constructors: primitives, the
classes that a factory accepts, and what the operations on types make of them.  Everything that
is known about such a type follows from `Checked.wellFormed`: every class in it is named by
identifiers, and type arguments stand only where they may.
-/

namespace JavaSource.TypeRef

/-- The types that the factories and the operations on types hand out. -/
inductive Checked : TypeRef → Prop
  | primitive (p : Primitive) : Checked (primitive p)
  | string : Checked string
  | object : Checked object
  | ofClass {package name : String} {t : TypeRef} (h : ofClass package name = .ok t) : Checked t
  | ofName {name : String} {t : TypeRef} (h : ofName name = .ok t) : Checked t
  | nestedClass {t t' : TypeRef} {name : String} (ht : Checked t)
      (h : t.nestedClass name = .ok t') : Checked t'
  | withArguments {t t' : TypeRef} {arguments : List TypeRef} (ht : Checked t)
      (ha : ∀ a ∈ arguments, Checked a) (h : t.withArguments arguments = .ok t') : Checked t'
  | array {t : TypeRef} (ht : Checked t) : Checked (array t)
  | boxed {t : TypeRef} (ht : Checked t) : Checked t.boxed
  | unbox {t : TypeRef} (ht : Checked t) : Checked t.unbox
  | erasure {t : TypeRef} (ht : Checked t) : Checked t.erasure

/-- Classes with well-formed names, and arguments that are not primitive on classes that are not
wrappers. -/
inductive WellFormed : TypeRef → Prop
  | primitive (p : Primitive) : WellFormed (primitive p)
  | named {c : ClassName} (hc : c.WellFormed) : WellFormed (named c)
  | generic {raw : ClassName} {arguments : List TypeRef} (hraw : raw.WellFormed)
      (hwrapper : raw.unboxed? = none) (hne : arguments ≠ [])
      (hprimitive : ∀ a ∈ arguments, a.isPrimitive = false)
      (harguments : ∀ a ∈ arguments, WellFormed a) : WellFormed (generic raw arguments)
  | array {element : TypeRef} (h : WellFormed element) : WellFormed (array element)

/-! ## One lemma for each way to make a type -/

theorem wellFormed_ofStandard {name : String} (h : Identifier.Valid name) :
    WellFormed (ofStandard name) :=
  .named (ClassName.wellFormed_top (by decide) h)

theorem wellFormed_of_ofClass {package name : String} {t : TypeRef}
    (h : ofClass package name = .ok t) : WellFormed t := by
  obtain ⟨hpackage, hname, rfl⟩ := ofClass_eq_ok_iff.mp h
  exact .named (ClassName.wellFormed_top hpackage hname)

theorem WellFormed.nestedClass {t t' : TypeRef} {name : String} (ht : WellFormed t)
    (h : t.nestedClass name = .ok t') : WellFormed t' := by
  obtain ⟨outer, rfl, hname, rfl⟩ := nestedClass_eq_ok_iff.mp h
  cases ht with
  | named houter =>
    have hinner : ∀ n ∈ [name], Identifier.Valid n := fun n hn => List.mem_singleton.mp hn ▸ hname
    exact .named (houter.foldl_nested hinner)

theorem wellFormed_of_ofClassName {name : List Char} {t : TypeRef}
    (h : ofClassName name = .ok t) : WellFormed t := by
  obtain ⟨leading, inner, -, hpackage, hleading, hinner, rfl⟩ := (ofClassName_eq_ok_iff rfl).mp h
  exact .named ((ClassName.wellFormed_top hpackage hleading).foldl_nested hinner)

theorem wellFormed_of_ofNameChars {cs : List Char} {t : TypeRef}
    (h : ofNameChars cs = .ok t) : WellFormed t := by
  fun_induction ofNameChars cs generalizing t
  · next ih =>
    obtain ⟨type, htype, harray⟩ := bind_eq_ok_iff.mp h
    cases harray
    exact .array (ih htype)
  · next p _ =>
    cases h
    exact .primitive p
  · exact wellFormed_of_ofClassName h

/-- Type arguments are accepted on a class that is no wrapper, and none of them is primitive. -/
theorem withArguments_eq_ok_iff {t t' : TypeRef} {arguments : List TypeRef} :
    t.withArguments arguments = .ok t' ↔
      ∃ c, t = named c ∧ c.unboxed? = none ∧ (∀ a ∈ arguments, a.isPrimitive = false) ∧
        t' = if arguments = [] then named c else generic c arguments := by
  cases t with
  | named c =>
    rw [withArguments]
    by_cases hwrapper : c.unboxed? = none
    · cases hfind : arguments.find? isPrimitive with
      | none =>
        have hnone : ∀ a ∈ arguments, a.isPrimitive = false := by simpa using hfind
        simp only [hwrapper, named.injEq, Option.isSome_none, List.isEmpty_iff,
          Bool.false_eq_true, if_false, Except.ok.injEq, true_and, exists_eq_left']
        rw [and_iff_right hnone, eq_comm]
      | some argument =>
        have hargument : argument ∈ arguments := List.mem_of_find?_eq_some hfind
        have hsome : ¬∀ a ∈ arguments, a.isPrimitive = false := by
          intro hall
          have hp := List.find?_some hfind
          rw [hall argument hargument] at hp
          exact Bool.noConfusion hp
        simp [hwrapper, hsome]
    · have hsome : c.unboxed?.isSome = true := Option.isSome_iff_ne_none.mpr hwrapper
      simp [hwrapper, hsome]
  | primitive p => simp [withArguments]
  | generic raw arguments => simp [withArguments]
  | array element => simp [withArguments]

theorem WellFormed.withArguments {t t' : TypeRef} {arguments : List TypeRef} (ht : WellFormed t)
    (ha : ∀ a ∈ arguments, WellFormed a) (h : t.withArguments arguments = .ok t') :
    WellFormed t' := by
  obtain ⟨c, rfl, hwrapper, hprimitive, rfl⟩ := withArguments_eq_ok_iff.mp h
  cases ht with
  | named hc =>
    by_cases hne : arguments = []
    · rw [if_pos hne]
      exact .named hc
    · rw [if_neg hne]
      exact .generic hc hwrapper hne hprimitive ha

/-- What a boxed primitive remembers is what the name of its class stands for. -/
theorem boxed_primitive (p : Primitive) : (primitive p).boxed = ofStandard p.wrapper := by
  cases p <;> rfl

theorem WellFormed.boxed {t : TypeRef} (ht : WellFormed t) : WellFormed t.boxed := by
  cases ht with
  | primitive p =>
    rw [boxed_primitive]
    refine wellFormed_ofStandard ?_
    cases p <;> decide
  | named hc => exact .named hc
  | generic hraw hwrapper hne hprimitive harguments =>
    exact .generic hraw hwrapper hne hprimitive harguments
  | array h => exact .array h

theorem WellFormed.unbox {t : TypeRef} (ht : WellFormed t) : WellFormed t.unbox := by
  cases ht with
  | primitive p => exact .primitive p
  | @named c hc =>
    rw [TypeRef.unbox]
    cases c.unboxed? with
    | some p => exact .primitive p
    | none => exact .named hc
  | generic hraw hwrapper hne hprimitive harguments =>
    exact .generic hraw hwrapper hne hprimitive harguments
  | array h => exact .array h

theorem WellFormed.erasure {t : TypeRef} (ht : WellFormed t) : WellFormed t.erasure := by
  induction ht with
  | primitive p => exact .primitive p
  | named hc => exact .named hc
  | generic hraw _ _ _ _ _ => exact .named hraw
  | array _ ih => exact .array ih

/-! ## The whole run -/

/-- However a type was made, it is well-formed. -/
theorem Checked.wellFormed {t : TypeRef} (h : Checked t) : WellFormed t := by
  induction h with
  | primitive p => exact .primitive p
  | string => exact wellFormed_ofStandard (by decide)
  | object => exact wellFormed_ofStandard (by decide)
  | ofClass h => exact wellFormed_of_ofClass h
  | ofName h => exact wellFormed_of_ofNameChars h
  | nestedClass _ h ih => exact ih.nestedClass h
  | withArguments _ _ h ih iha => exact ih.withArguments iha h
  | array _ ih => exact .array ih
  | boxed _ ih => exact ih.boxed
  | unbox _ ih => exact ih.unbox
  | erasure _ ih => exact ih.erasure

theorem Checked.class {c : ClassName} (h : Checked (named c)) : c.WellFormed := by
  cases h.wellFormed with
  | named hc => exact hc

end JavaSource.TypeRef
