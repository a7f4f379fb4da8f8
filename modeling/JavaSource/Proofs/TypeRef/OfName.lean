import JavaSource.Proofs.TypeRef.Checked

/-!
# Reading the qualified name of a type

A qualified name holds no blank, so trimming leaves it alone; it ends with `[]` exactly if the type is
an array; and no class has a keyword for its qualified name.  Hence reading it takes the same steps
back that writing it took, and arrives at the type without its arguments, which leave no trace in the
name (`TypeRef.ofName_qualifiedName`).
-/

namespace JavaSource

/-! ## Blanks -/

namespace Text

theorem exists_of_inRanges {ranges : List (Nat × Nat)} {n : Nat} (h : inRanges ranges n = true) :
    ∃ range ∈ ranges, range.1 ≤ n ∧ n ≤ range.2 := by
  induction ranges with
  | nil => cases h
  | cons range ranges ih =>
    obtain ⟨first, last⟩ := range
    rw [inRanges] at h
    split at h
    · next hle => exact ⟨(first, last), List.mem_cons_self, by simpa using h, hle⟩
    · obtain ⟨range, hmem, hn⟩ := ih h
      exact ⟨range, List.mem_cons_of_mem _ hmem, hn⟩

/-- No blank is part of a word, which is looked up here in the tables of the character classes. -/
theorem isBlank_of_isPart {c : Char} (h : Identifier.isPart c = true) : isBlank c = false := by
  have htable : blankRanges.all (fun range => (List.range' range.1 (range.2 + 1 - range.1)).all
      fun n => !Identifier.isPart (Char.ofNat n)) = true := by decide +kernel
  refine Bool.eq_false_iff.mpr fun hblank => ?_
  obtain ⟨range, hrange, hlow, hhigh⟩ := exists_of_inRanges hblank
  have hn : c.toNat ∈ List.range' range.1 (range.2 + 1 - range.1) := by
    rw [List.mem_range'_1]
    omega
  have hpart := List.all_eq_true.mp (List.all_eq_true.mp htable range hrange) c.toNat hn
  rw [Char.ofNat_toNat, h] at hpart
  cases hpart

theorem dropBlanks_eq_self {cs : List Char} (h : ∀ c ∈ cs, isBlank c = false) :
    dropBlanks cs = cs := by
  cases cs with
  | nil => rfl
  | cons c cs =>
    have hc := h c List.mem_cons_self
    exact List.dropWhile_cons_of_neg (by simp [hc])

theorem trim_eq_self {cs : List Char} (h : ∀ c ∈ cs, isBlank c = false) : trim cs = cs := by
  rw [trim, dropBlanks_eq_self h, dropBlanks_eq_self fun c hc => h c (List.mem_reverse.mp hc),
    List.reverse_reverse]

end Text

/-! ## The characters of a qualified name -/

theorem Identifier.isPart_of_isReserved {word : String} (h : isReserved word = true) :
    ∀ c ∈ word.toList, isPart c = true := by
  obtain ⟨c, cs, hword, hstart, hcs⟩ := exists_of_isReserved h
  rw [hword]
  exact List.forall_mem_cons.mpr ⟨isPart_of_isStart hstart, hcs⟩

theorem Primitive.isReserved_keyword (p : Primitive) : Identifier.isReserved p.keyword = true := by
  cases p <;> decide

theorem Primitive.ofKeyword?_keyword (p : Primitive) : ofKeyword? p.keyword = some p := by
  cases p <;> decide

theorem Primitive.ofKeyword?_eq_some_iff {word : String} {p : Primitive} :
    ofKeyword? word = some p ↔ p.keyword = word := by
  constructor
  · intro h
    simpa using List.find?_some h
  · rintro rfl
    exact p.ofKeyword?_keyword

namespace Package

theorem Valid.isPart_or_dot {package : String} (h : Valid package) {c : Char}
    (hc : c ∈ package.toList) : Identifier.isPart c = true ∨ c = '.' := by
  rcases valid_iff.mp h with rfl | hsegments
  · cases hc
  · obtain hdot | ⟨field, hfield, hc⟩ :
        c = '.' ∨ ∃ field ∈ package.toList.splitOn '.', c ∈ field := Text.exists_part_of_mem hc
    · exact Or.inr hdot
    · have hvalid := hsegments (String.ofList field) (List.mem_map.mpr ⟨field, hfield, rfl⟩)
      exact Or.inl (hvalid.isPart (by simpa using hc))

end Package

namespace ClassName

theorem WellFormed.isPart_or_dot {c : ClassName} (h : c.WellFormed) {x : Char}
    (hx : x ∈ c.qualifiedName.toList) : Identifier.isPart x = true ∨ x = '.' := by
  have hbinary (hx : x ∈ c.binaryName.toList) : Identifier.isPart x = true := by
    rcases mem_joined hx with hx | ⟨name, hn, hx⟩
    · rw [show x = '$' by simpa using hx]
      decide
    · exact (h.names name hn).isPart hx
  rw [h.coherent.qualifiedName_eq] at hx
  by_cases hp : c.package = ""
  · rw [hp, Package.qualify_empty] at hx
    exact Or.inl (hbinary hx)
  · rw [Package.qualify_of_ne hp, String.toList_append, String.toList_append, List.mem_append,
      List.mem_append] at hx
    rcases hx with (hx | hx) | hx
    · exact h.package.isPart_or_dot hx
    · exact Or.inr (by simpa using hx)
    · exact Or.inl (hbinary hx)

theorem WellFormed.isBlank {c : ClassName} (h : c.WellFormed) :
    ∀ x ∈ c.qualifiedName.toList, Text.isBlank x = false := by
  intro x hx
  rcases h.isPart_or_dot hx with hpart | rfl
  · exact Text.isBlank_of_isPart hpart
  · decide

/-- The name of a class is no keyword: with a package it has a dot, inside another class it has a
dollar sign, and otherwise it is an identifier. -/
theorem WellFormed.ofKeyword? {c : ClassName} (h : c.WellFormed) :
    Primitive.ofKeyword? c.qualifiedName = none := by
  rw [Primitive.ofKeyword?, List.find?_eq_none]
  intro p _ hkeyword
  have hname : p.keyword = c.qualifiedName := by simpa using hkeyword
  have hdot : '.' ∉ p.keyword.toList := by cases p <;> decide
  have hdollar : '$' ∉ p.keyword.toList := by cases p <;> decide
  have hpackage : c.package = "" := by
    refine Decidable.byContradiction fun hp => hdot ?_
    rw [hname, h.coherent.qualifiedName_eq, Package.qualify_of_ne hp]
    simp
  cases c with
  | root package name unboxed =>
    obtain rfl : package = "" := hpackage
    have hvalid : Identifier.Valid p.keyword := hname ▸ h.names name (by simp [chain])
    exact absurd (hvalid.isReserved.symm.trans p.isReserved_keyword) Bool.false_ne_true
  | member outer package name unboxed =>
    refine hdollar ?_
    rw [hname, qualifiedName]
    simp

end ClassName

namespace TypeRef

/-- No `$` in the simple names of the type's own class and the classes around it. -/
def DollarFree : TypeRef → Prop
  | primitive _ => True
  | named c => c.DollarFree
  | generic raw _ => raw.DollarFree
  | array element => element.DollarFree

/-- No type arguments, not even below arrays. -/
def Unparameterized : TypeRef → Prop
  | generic _ _ => False
  | array element => element.Unparameterized
  | _ => True

theorem erasure_erasure (t : TypeRef) : t.erasure.erasure = t.erasure := by
  induction t using erasure.induct with
  | case1 raw arguments => rfl
  | case2 element ih => exact congrArg array ih
  | case3 t hgeneric harray =>
    have hself : t.erasure = t := by rw [erasure] <;> assumption
    rw [hself, hself]

theorem Unparameterized.erasure {t : TypeRef} (h : t.Unparameterized) : t.erasure = t := by
  induction t using erasure.induct with
  | case1 raw arguments => cases h
  | case2 element ih => exact congrArg array (ih h)
  | case3 t hgeneric harray => rw [TypeRef.erasure] <;> assumption

/-! ## One step of the reader -/

theorem dropBrackets?_eq_some_iff {cs rest : List Char} :
    dropBrackets? cs = some rest ↔ cs = rest ++ ['[', ']'] := by
  constructor
  · intro h
    fun_induction dropBrackets? cs generalizing rest with
    | case1 => cases h
    | case2 =>
      cases h
      rfl
    | case3 c cs _ ih =>
      obtain ⟨rest', h', rfl⟩ := Option.map_eq_some_iff.mp h
      rw [ih h']
      rfl
  · rintro rfl
    induction rest with
    | nil => rfl
    | cons c rest ih =>
      rw [List.cons_append, dropBrackets?, ih]
      · rfl
      · intro _ hrest
        have hlength := congrArg List.length hrest
        simp at hlength

/-- A type without `[]`: a keyword, or a class. -/
def ofCore (name : List Char) : Except Error TypeRef :=
  (Primitive.ofKeyword? (String.ofList name)).elim (ofClassName name) fun p => .ok (primitive p)

theorem ofNameChars_eq (cs : List Char) :
    ofNameChars cs = (dropBrackets? (Text.trim cs)).elim (ofCore (Text.trim cs))
      fun element => ofNameChars element >>= fun type => pure (array type) := by
  rw [ofNameChars]
  split
  · next element h =>
    rw [h]
    rfl
  · next h =>
    rw [h, Option.elim_none, ofCore]
    cases Primitive.ofKeyword? (String.ofList (Text.trim cs)) <;> rfl

theorem ofNameChars_of_brackets {element : List Char}
    (h : ∀ c ∈ element ++ ['[', ']'], Text.isBlank c = false) :
    ofNameChars (element ++ ['[', ']']) = ofNameChars element >>= fun type => pure (array type) := by
  rw [ofNameChars_eq, Text.trim_eq_self h, dropBrackets?_eq_some_iff.mpr rfl, Option.elim_some]

theorem dropBrackets?_of_notMem {cs : List Char} (h : ']' ∉ cs) : dropBrackets? cs = none := by
  refine Option.eq_none_iff_forall_ne_some.mpr fun element helement => h ?_
  simp [dropBrackets?_eq_some_iff.mp helement]

theorem ofNameChars_of_notMem {cs : List Char} (hblank : ∀ c ∈ cs, Text.isBlank c = false)
    (hbracket : ']' ∉ cs) : ofNameChars cs = ofCore cs := by
  rw [ofNameChars_eq, Text.trim_eq_self hblank, dropBrackets?_of_notMem hbracket, Option.elim_none]

/-! ## The whole name -/

theorem ofNameChars_keyword (p : Primitive) :
    ofNameChars p.keyword.toList = .ok (primitive p) := by
  have hpart := Identifier.isPart_of_isReserved p.isReserved_keyword
  have hbracket : ']' ∉ p.keyword.toList := fun h => absurd (hpart _ h) (by decide)
  rw [ofNameChars_of_notMem (fun c hc => Text.isBlank_of_isPart (hpart c hc)) hbracket, ofCore,
    String.ofList_toList, p.ofKeyword?_keyword, Option.elim_some]

theorem ofNameChars_eq_ofClassName {c : ClassName} (hw : c.WellFormed) :
    ofNameChars c.qualifiedName.toList = ofClassName c.qualifiedName.toList := by
  have hbracket : ']' ∉ c.qualifiedName.toList := by
    intro h
    rcases hw.isPart_or_dot h with hpart | hdot
    · exact absurd hpart (by decide)
    · exact absurd hdot (by decide)
  rw [ofNameChars_of_notMem hw.isBlank hbracket, ofCore, String.ofList_toList, hw.ofKeyword?,
    Option.elim_none]

theorem ofNameChars_class {c : ClassName} (hw : c.WellFormed) (hd : c.DollarFree) :
    ofNameChars c.qualifiedName.toList = .ok (named c) := by
  rw [ofNameChars_eq_ofClassName hw, ofClassName_qualifiedName hw hd]

theorem WellFormed.isBlank {t : TypeRef} (h : t.WellFormed) :
    ∀ c ∈ t.qualifiedName.toList, Text.isBlank c = false := by
  induction h with
  | primitive p =>
    exact fun c hc =>
      Text.isBlank_of_isPart (Identifier.isPart_of_isReserved p.isReserved_keyword c hc)
  | named hc => exact hc.isBlank
  | generic hraw _ _ _ _ _ => exact hraw.isBlank
  | array _ ih =>
    rw [qualifiedName, String.toList_append, List.forall_mem_append]
    exact ⟨ih, List.forall_mem_cons.mpr ⟨by decide, List.forall_mem_singleton.mpr (by decide)⟩⟩

theorem WellFormed.ofNameChars_qualifiedName {t : TypeRef} (h : t.WellFormed) (hd : t.DollarFree) :
    ofNameChars t.qualifiedName.toList = .ok t.erasure := by
  induction h with
  | primitive p => exact ofNameChars_keyword p
  | named hc => exact ofNameChars_class hc hd
  | generic hraw _ _ _ _ _ => exact ofNameChars_class hraw hd
  | @array element h ih =>
    have hname : (TypeRef.array element).qualifiedName.toList
        = element.qualifiedName.toList ++ ['[', ']'] := by
      rw [qualifiedName, String.toList_append]
      rfl
    have hblank := h.array.isBlank
    rw [hname] at hblank ⊢
    rw [ofNameChars_of_brackets hblank, ih hd]
    rfl

/-- Reading the qualified name of a type gives the type without its arguments.  So types without
arguments are told apart by their qualified names, and there is nothing more to drop of a type
that has lost its arguments. -/
theorem ofName_qualifiedName {t : TypeRef} (h : t.Checked) (hd : t.DollarFree) :
    ofName t.qualifiedName = .ok t.erasure ∧ t.erasure.erasure = t.erasure ∧
      ∀ t' : TypeRef, t'.Checked → t'.DollarFree → t.Unparameterized → t'.Unparameterized →
        t'.qualifiedName = t.qualifiedName → t' = t := by
  have hread := h.wellFormed.ofNameChars_qualifiedName hd
  refine ⟨hread, t.erasure_erasure, ?_⟩
  intro t' h' hd' hplain hplain' hname
  have hread' := h'.wellFormed.ofNameChars_qualifiedName hd'
  rw [hname, hread, hplain.erasure, hplain'.erasure] at hread'
  exact (Except.ok.inj hread').symm

/-- The `$` of a package is read as a part of its name, the one after the last dot as the border
between two classes. -/
theorem ofName_qualifiedName_mapEntry :
    let entry : ClassName := .nested (.top "a$b" "Map") "Entry"
    let t : TypeRef := .array (.generic entry [.string])
    t.Checked ∧ t.DollarFree ∧ t.qualifiedName = "a$b.Map$Entry[]" ∧
      ofName "a$b.Map$Entry[]" = .ok (.array (.named entry)) ∧
      ∀ t' : TypeRef, t'.Checked → t'.DollarFree → t'.Unparameterized →
        t'.qualifiedName = "a$b.Map$Entry[]" → t' = .array (.named entry) := by
  intro entry t
  have houter : ofClass "a$b" "Map" = .ok (named (.top "a$b" "Map")) := rfl
  have hentry : nestedClass (named (.top "a$b" "Map")) "Entry" = .ok (named entry) := rfl
  have hgeneric : (named entry).withArguments [string] = .ok (generic entry [string]) := rfl
  have hchecked : Checked (named entry) := .nestedClass (.ofClass houter) hentry
  have ht : t.Checked :=
    .array (.withArguments hchecked (List.forall_mem_singleton.mpr .string) hgeneric)
  have hd : entry.DollarFree := by decide
  refine ⟨ht, hd, by decide, (ofName_qualifiedName ht hd).1, ?_⟩
  intro t' h' hd' hplain' hname
  exact (ofName_qualifiedName hchecked.array hd).2.2 t' h' hd' trivial hplain' hname

end TypeRef

end JavaSource
