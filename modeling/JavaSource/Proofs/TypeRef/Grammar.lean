import JavaSource.Proofs.TypeRef.OfName

/-!
# The grammar of written types

`Core` says how a type without `[]` is written: by a keyword, or by the segments of a package, each with
a dot behind it, and the simple names of a class with `$` between them.  `Written` puts `[]` behind a
core and blanks around it and before each `[]`.  A name that is written so is read as the type that it
is written for, and nothing else is read but one form that no rule of the grammar has: a dot with no
package before it, which is taken for the unnamed package (`StrayDot`).

The main theorem is `ofName_grammar`.  It says besides that every refusal is about a name that is no
identifier.
-/

namespace JavaSource

/-! ## Blanks at the ends -/

namespace Text

def AllBlank (cs : List Char) : Prop := ∀ c ∈ cs, isBlank c = true

/-- Something that neither starts nor ends with a blank. -/
structure Tight (cs : List Char) : Prop where
  ne_nil : cs ≠ []
  head : ∀ c ∈ cs.head?, isBlank c = false
  last : ∀ c ∈ cs.getLast?, isBlank c = false

theorem tight_of_forall {cs : List Char} (hne : cs ≠ []) (h : ∀ c ∈ cs, isBlank c = false) :
    Tight cs :=
  ⟨hne, fun c hc => h c (List.mem_of_head? hc), fun c hc => h c (List.mem_of_getLast? hc)⟩

theorem Tight.append {cs ds : List Char} (hc : Tight cs) (hd : Tight ds) (between : List Char) :
    Tight (cs ++ between ++ ds) := by
  obtain ⟨c, cs', rfl⟩ := List.exists_cons_of_ne_nil hc.ne_nil
  refine ⟨by simp, hc.head, ?_⟩
  intro x hx
  rw [List.getLast?_append, List.getLast?_eq_some_getLast hd.ne_nil] at hx
  exact hd.last x (List.getLast?_eq_some_getLast hd.ne_nil ▸ hx)

theorem dropBlanks_append {front : List Char} (h : AllBlank front) (rest : List Char) :
    dropBlanks (front ++ rest) = dropBlanks rest := by
  rw [dropBlanks, List.dropWhile_append_of_pos h]
  rfl

theorem Tight.dropBlanks {cs : List Char} (h : Tight cs) (rest : List Char) :
    dropBlanks (cs ++ rest) = cs ++ rest := by
  obtain ⟨c, cs', rfl⟩ := List.exists_cons_of_ne_nil h.ne_nil
  have hc : isBlank c = false := h.head c rfl
  exact List.dropWhile_cons_of_neg (by simp [hc])

theorem Tight.reverse {cs : List Char} (h : Tight cs) : Tight cs.reverse := by
  refine ⟨by simpa using h.ne_nil, ?_, ?_⟩
  · rw [List.head?_reverse]
    exact h.last
  · rw [List.getLast?_reverse]
    exact h.head

theorem Tight.trim {body : List Char} (h : Tight body) {front back : List Char}
    (hfront : AllBlank front) (hback : AllBlank back) : trim (front ++ body ++ back) = body := by
  have hreverse : AllBlank back.reverse := fun c hc => hback c (List.mem_reverse.mp hc)
  have hbody := h.reverse.dropBlanks []
  rw [List.append_nil] at hbody
  rw [Text.trim, List.append_assoc, dropBlanks_append hfront, h.dropBlanks, List.reverse_append,
    dropBlanks_append hreverse, hbody, List.reverse_reverse]

/-- Trimming takes away blanks only. -/
theorem exists_trim (cs : List Char) :
    ∃ front back, cs = front ++ trim cs ++ back ∧ AllBlank front ∧ AllBlank back := by
  refine ⟨cs.takeWhile isBlank, ((dropBlanks cs).reverse.takeWhile isBlank).reverse, ?_, ?_, ?_⟩
  · rw [trim, List.append_assoc, ← List.reverse_append, dropBlanks, dropBlanks,
      List.takeWhile_append_dropWhile, List.reverse_reverse, List.takeWhile_append_dropWhile]
  · exact List.all_eq_true.mp List.all_takeWhile
  · intro c hc
    exact List.all_eq_true.mp List.all_takeWhile c (List.mem_reverse.mp hc)

end Text

/-! ## Names from their segments -/

namespace Package

theorem flatMap_segments {segments : List String} (hne : segments ≠ []) :
    segments.flatMap (fun segment => segment.toList ++ ['.'])
      = ['.'].intercalate (segments.map String.toList) ++ ['.'] := by
  induction segments with
  | nil => exact absurd rfl hne
  | cons segment segments ih =>
    cases segments with
    | nil => simp
    | cons next segments =>
      rw [List.flatMap_cons, ih (by simp)]
      simp [List.intercalate_cons_cons]

theorem valid_intercalate {segments : List String}
    (h : ∀ segment ∈ segments, Identifier.Valid segment) :
    Valid (".".intercalate segments) := by
  rw [valid_iff]
  by_cases hne : segments = []
  · subst hne
    exact Or.inl rfl
  · refine Or.inr ?_
    have hdots : ∀ part ∈ segments.map String.toList, '.' ∉ part := by
      intro part hpart
      obtain ⟨segment, hsegment, rfl⟩ := List.mem_map.mp hpart
      exact (h segment hsegment).dot_notMem
    have hfields : Text.fieldsOf '.' (".".intercalate segments) = segments := by
      rw [Text.fieldsOf, String.toList_intercalate]
      show ((['.'].intercalate (segments.map String.toList)).splitOn '.').map _ = _
      rw [List.splitOn_intercalate _ hdots (by simpa using hne), List.map_map]
      simp [Function.comp_def]
    rw [hfields]
    exact h

end Package

namespace ClassName

theorem toList_binaryName {c : ClassName} (h : c.DollarFree) :
    c.binaryName.toList = ['$'].intercalate (c.chain.map String.toList) := by
  have hparts : c.binaryName.toList.splitOn '$' = c.chain.map String.toList :=
    splitOn_joined (by decide) h
  rw [← hparts, List.intercalate_splitOn]

/-- Segments with dots behind them and names with `$` between them are a qualified name. -/
theorem Coherent.toList_qualifiedName {c : ClassName} (h : c.Coherent) {segments : List String}
    (hsegments : ∀ segment ∈ segments, Identifier.Valid segment) (hd : c.DollarFree)
    (hpackage : c.package = ".".intercalate segments) :
    c.qualifiedName.toList = segments.flatMap (fun segment => segment.toList ++ ['.']) ++
      ['$'].intercalate (c.chain.map String.toList) := by
  rw [h.qualifiedName_eq, ← toList_binaryName hd]
  cases segments with
  | nil =>
    rw [hpackage]
    rfl
  | cons segment segments =>
    have hne : c.package ≠ "" := by
      intro hempty
      have hvalid := hsegments segment List.mem_cons_self
      have hlist := congrArg String.toList (hpackage.symm.trans hempty)
      rw [String.toList_intercalate] at hlist
      cases segments with
      | nil => exact hvalid.toList_ne_nil (by simpa using hlist)
      | cons next segments => simp [List.intercalate_cons_cons] at hlist
    rw [Package.toList_qualify_of_ne hne, hpackage, String.toList_intercalate,
      Package.flatMap_segments (by simp), List.append_assoc]
    rfl

theorem WellFormed.qualifiedName_ne_nil {c : ClassName} (h : c.WellFormed) :
    c.qualifiedName.toList ≠ [] := by
  cases c with
  | root package name unboxed =>
    have hname : name.toList ≠ [] := (h.names name (by simp [chain])).toList_ne_nil
    rw [qualifiedName]
    by_cases hp : package = ""
    · rw [hp, Package.qualify_empty]
      exact hname
    · rw [Package.toList_qualify_of_ne hp]
      simp
  | member outer package name unboxed => simp [qualifiedName]

end ClassName

/-! ## The grammar -/

namespace TypeRef

/-- What may stand between the `$` of a class name. -/
def IsClassName (name : String) : Prop := Identifier.Valid name ∧ '$' ∉ name.toList

instance (name : String) : Decidable (IsClassName name) :=
  inferInstanceAs (Decidable (_ ∧ _))

/-- A type without `[]`. -/
inductive Core : List Char → TypeRef → Prop
  | keyword (p : Primitive) : Core p.keyword.toList (primitive p)
  | named {c : ClassName} (coherent : c.Coherent) {segments : List String}
      (segments_valid : ∀ segment ∈ segments, Identifier.Valid segment)
      (names_valid : ∀ name ∈ c.chain, IsClassName name)
      (package : c.package = ".".intercalate segments) :
      Core (segments.flatMap (fun segment => segment.toList ++ ['.']) ++
        ['$'].intercalate (c.chain.map String.toList)) (named c)

/-- A class of the unnamed package behind a dot. -/
inductive StrayDot : List Char → TypeRef → Prop
  | named {c : ClassName} (coherent : c.Coherent)
      (names_valid : ∀ name ∈ c.chain, IsClassName name) (package : c.package = "") :
      StrayDot ('.' :: ['$'].intercalate (c.chain.map String.toList)) (named c)

variable {core : List Char → TypeRef → Prop}

/-- Each `[]` behind a core makes an array of what is before it, with or without blanks between. -/
inductive Bracketed (core : List Char → TypeRef → Prop) : List Char → TypeRef → Prop
  | core {cs : List Char} {t : TypeRef} (h : core cs t) : Bracketed core cs t
  | array {cs blanks : List Char} {t : TypeRef} (h : Bracketed core cs t)
      (hblanks : Text.AllBlank blanks) : Bracketed core (cs ++ blanks ++ ['[', ']']) (array t)

/-- A core with `[]` behind it and blanks around it. -/
def Written (core : List Char → TypeRef → Prop) (cs : List Char) (t : TypeRef) : Prop :=
  ∃ front body back, cs = front ++ body ++ back ∧ Text.AllBlank front ∧ Text.AllBlank back ∧
    Bracketed core body t

/-- What is known of the characters of a core. -/
def Plain (cs : List Char) : Prop :=
  cs ≠ [] ∧ ∀ c ∈ cs, Identifier.isPart c = true ∨ c = '.'

theorem Plain.isBlank {cs : List Char} (h : Plain cs) : ∀ c ∈ cs, Text.isBlank c = false := by
  intro c hc
  rcases h.2 c hc with hpart | rfl
  · exact Text.isBlank_of_isPart hpart
  · decide

theorem Plain.tight {cs : List Char} (h : Plain cs) : Text.Tight cs :=
  Text.tight_of_forall h.1 h.isBlank

theorem Plain.bracket_notMem {cs : List Char} (h : Plain cs) : ']' ∉ cs := by
  intro hmem
  rcases h.2 _ hmem with hpart | hdot
  · exact absurd hpart (by decide)
  · exact absurd hdot (by decide)

theorem Bracketed.tight (hcore : ∀ cs t, core cs t → Plain cs) {cs : List Char} {t : TypeRef}
    (h : Bracketed core cs t) : Text.Tight cs := by
  induction h with
  | core h => exact (hcore _ _ h).tight
  | array _ _ ih =>
    have hblank : ∀ c ∈ ['[', ']'], Text.isBlank c = false :=
      List.forall_mem_cons.mpr ⟨by decide, List.forall_mem_singleton.mpr (by decide)⟩
    exact ih.append (Text.tight_of_forall (by simp) hblank) _

/-- The first character of a written type that is no blank is the first one of its core. -/
theorem Written.exists_head? (hcore : ∀ cs t, core cs t → Plain cs) {cs : List Char}
    {t : TypeRef} (h : Written core cs t) :
    ∃ text type, core text type ∧ (Text.dropBlanks cs).head? = text.head? := by
  obtain ⟨front, body, back, rfl, hfront, -, hbody⟩ := h
  have hstart (cs rest : List Char) (hcs : cs ≠ []) : (cs ++ rest).head? = cs.head? := by
    obtain ⟨c, cs', rfl⟩ := List.exists_cons_of_ne_nil hcs
    rfl
  have hbracketed : ∃ text type, core text type ∧ body.head? = text.head? := by
    induction hbody with
    | core h => exact ⟨_, _, h, rfl⟩
    | array h _ ih =>
      obtain ⟨text, type, hcoretext, hhead⟩ := ih
      rw [List.append_assoc, hstart _ _ (h.tight hcore).ne_nil]
      exact ⟨text, type, hcoretext, hhead⟩
  have htight := hbody.tight hcore
  rw [List.append_assoc, Text.dropBlanks_append hfront, htight.dropBlanks,
    hstart body back htight.ne_nil]
  exact hbracketed

theorem Bracketed.or {core' : List Char → TypeRef → Prop} {cs : List Char} {t : TypeRef}
    (h : Bracketed (fun cs t => core cs t ∨ core' cs t) cs t) :
    Bracketed core cs t ∨ Bracketed core' cs t := by
  induction h with
  | core h => exact h.imp .core .core
  | array _ hblanks ih => exact ih.imp (.array · hblanks) (.array · hblanks)

theorem Bracketed.mono {core' : List Char → TypeRef → Prop} (hle : ∀ cs t, core cs t → core' cs t)
    {cs : List Char} {t : TypeRef} (h : Bracketed core cs t) : Bracketed core' cs t := by
  induction h with
  | core h => exact .core (hle _ _ h)
  | array _ hblanks ih => exact .array ih hblanks

theorem written_or_iff {core' : List Char → TypeRef → Prop} {cs : List Char} {t : TypeRef} :
    Written (fun cs t => core cs t ∨ core' cs t) cs t ↔ Written core cs t ∨ Written core' cs t := by
  constructor
  · rintro ⟨front, body, back, hcs, hfront, hback, hbody⟩
    rcases hbody.or with h | h
    · exact Or.inl ⟨front, body, back, hcs, hfront, hback, h⟩
    · exact Or.inr ⟨front, body, back, hcs, hfront, hback, h⟩
  · rintro (⟨front, body, back, hcs, hfront, hback, h⟩ | ⟨front, body, back, hcs, hfront, hback, h⟩)
    · exact ⟨front, body, back, hcs, hfront, hback, h.mono fun _ _ => Or.inl⟩
    · exact ⟨front, body, back, hcs, hfront, hback, h.mono fun _ _ => Or.inr⟩

/-! ## Reading a core -/

theorem wellFormed_of_chain {c : ClassName} (hc : c.Coherent) (hpackage : Package.Valid c.package)
    (hnames : ∀ name ∈ c.chain, IsClassName name) : c.WellFormed ∧ c.DollarFree :=
  ⟨⟨hc, hpackage, fun name hn => (hnames name hn).1⟩, fun name hn => (hnames name hn).2⟩

theorem Core.cases {cs : List Char} {t : TypeRef} (h : Core cs t) :
    (∃ p : Primitive, cs = p.keyword.toList ∧ t = primitive p) ∨
      ∃ c : ClassName, c.WellFormed ∧ c.DollarFree ∧ cs = c.qualifiedName.toList ∧ t = .named c := by
  cases h with
  | keyword p => exact Or.inl ⟨p, rfl, rfl⟩
  | @named c coherent segments segments_valid names_valid package =>
    have hvalid : Package.Valid c.package := package ▸ Package.valid_intercalate segments_valid
    obtain ⟨hw, hd⟩ := wellFormed_of_chain coherent hvalid names_valid
    exact Or.inr ⟨c, hw, hd, (coherent.toList_qualifiedName segments_valid hd package).symm, rfl⟩

theorem Core.plain {cs : List Char} {t : TypeRef} (h : Core cs t) : Plain cs := by
  obtain ⟨p, rfl, -⟩ | ⟨c, hw, -, rfl, -⟩ := h.cases
  · refine ⟨by cases p <;> decide, fun c hc => Or.inl ?_⟩
    exact Identifier.isPart_of_isReserved p.isReserved_keyword c hc
  · exact ⟨hw.qualifiedName_ne_nil, fun x hx => hw.isPart_or_dot hx⟩

theorem Core.head?_ne {cs : List Char} {t : TypeRef} (h : Core cs t) : cs.head? ≠ some '.' := by
  obtain ⟨p, rfl, -⟩ | ⟨c, hw, -, rfl, -⟩ := h.cases
  · cases p <;> decide
  · exact hw.head?_qualifiedName_ne

theorem Core.ofCore {cs : List Char} {t : TypeRef} (h : Core cs t) : ofCore cs = .ok t := by
  obtain ⟨p, rfl, rfl⟩ | ⟨c, hw, hd, rfl, rfl⟩ := h.cases
  · rw [TypeRef.ofCore, String.ofList_toList, p.ofKeyword?_keyword, Option.elim_some]
  · rw [TypeRef.ofCore, String.ofList_toList, hw.ofKeyword?, Option.elim_none,
      ofClassName_qualifiedName hw hd]

theorem StrayDot.cases {cs : List Char} {t : TypeRef} (h : StrayDot cs t) :
    ∃ c : ClassName, c.WellFormed ∧ c.DollarFree ∧ c.package = "" ∧
      cs = '.' :: c.binaryName.toList ∧ t = .named c := by
  cases h with
  | @named c coherent names_valid package =>
    have hvalid : Package.Valid c.package := package ▸ rfl
    obtain ⟨hw, hd⟩ := wellFormed_of_chain coherent hvalid names_valid
    exact ⟨c, hw, hd, package, by rw [ClassName.toList_binaryName hd], rfl⟩

theorem StrayDot.plain {cs : List Char} {t : TypeRef} (h : StrayDot cs t) : Plain cs := by
  obtain ⟨c, hw, -, hpackage, rfl, -⟩ := h.cases
  have hname : c.binaryName = c.qualifiedName := by
    rw [hw.coherent.qualifiedName_eq, hpackage, Package.qualify_empty]
  refine ⟨by simp, List.forall_mem_cons.mpr ⟨Or.inr rfl, fun x hx => ?_⟩⟩
  rw [hname] at hx
  exact hw.isPart_or_dot hx

theorem StrayDot.ofCore {cs : List Char} {t : TypeRef} (h : StrayDot cs t) :
    ofCore cs = .ok t := by
  obtain ⟨c, hw, hd, hpackage, rfl, rfl⟩ := h.cases
  have hkeyword : Primitive.ofKeyword? (String.ofList ('.' :: c.binaryName.toList)) = none := by
    refine Option.eq_none_iff_forall_ne_some.mpr fun p hp => ?_
    have hdot : '.' ∉ p.keyword.toList := by cases p <;> decide
    rw [Primitive.ofKeyword?_eq_some_iff.mp hp] at hdot
    simp at hdot
  have hsplit : (Text.splitLast? '.' ('.' :: c.binaryName.toList)).getD
      ([], '.' :: c.binaryName.toList) = ([], c.binaryName.toList) := by
    rw [← List.nil_append ('.' :: c.binaryName.toList),
      Text.splitLast?_append hw.dot_notMem_binaryName]
    rfl
  obtain ⟨inner, hchain⟩ := c.exists_chain
  obtain ⟨hleading, hinner⟩ := List.forall_mem_cons.mp (hchain ▸ hw.names)
  rw [TypeRef.ofCore, hkeyword, Option.elim_none, ofClassName_eq_ok_iff hsplit]
  refine ⟨c.outermost.simpleName, inner, ?_, rfl, hleading, hinner, ?_⟩
  · rw [ClassName.binaryName, ClassName.splitOn_joined (by decide) hd, List.map_map, hchain]
    simp [Function.comp_def]
  · have hfold := hw.coherent.eq_foldl_of_chain hchain
    rw [hpackage] at hfold
    exact congrArg TypeRef.named hfold

/-- The class that is read has the names between the dollar signs for its chain. -/
theorem exists_class_of_ofClassName {cs package binary : List Char} {t : TypeRef}
    (hsplit : (Text.splitLast? '.' cs).getD ([], cs) = (package, binary))
    (h : ofClassName cs = .ok t) :
    Package.Valid (String.ofList package) ∧ ∃ c : ClassName, t = named c ∧ c.Coherent ∧
      c.package = String.ofList package ∧ (∀ name ∈ c.chain, IsClassName name) ∧
      binary = ['$'].intercalate (c.chain.map String.toList) := by
  obtain ⟨leading, inner, hfields, hpackage, hleading, hinner, rfl⟩ :=
    (ofClassName_eq_ok_iff hsplit).mp h
  refine ⟨hpackage, _, rfl, (ClassName.Coherent.top _ _).foldl_nested _,
    ClassName.package_foldl_nested _ _, ?_⟩
  rw [ClassName.chain_foldl_nested]
  show (∀ name ∈ leading :: inner, _) ∧ binary = ['$'].intercalate ((leading :: inner).map _)
  have hvalid := List.forall_mem_cons.mpr ⟨hleading, hinner⟩
  rw [← hfields] at hvalid ⊢
  constructor
  · intro name hname
    refine ⟨hvalid name hname, ?_⟩
    obtain ⟨field, hfield, rfl⟩ := List.mem_map.mp hname
    simpa using Text.notMem_of_mem_splitOn hfield
  · simp [Function.comp_def, List.intercalate_splitOn]

/-- What is read as a type without `[]`. -/
def Readable (cs : List Char) (t : TypeRef) : Prop := Core cs t ∨ StrayDot cs t

theorem Readable.plain {cs : List Char} {t : TypeRef} (h : Readable cs t) : Plain cs := by
  rcases h with h | h
  · exact h.plain
  · exact h.plain

theorem readable_of_ofClassName {cs : List Char} {t : TypeRef} (h : ofClassName cs = .ok t) :
    Readable cs t := by
  cases hsplit : Text.splitLast? '.' cs with
  | none =>
    have hparts : (Text.splitLast? '.' cs).getD ([], cs) = ([], cs) :=
      congrArg (Option.getD · ([], cs)) hsplit
    obtain ⟨-, c, rfl, hc, hpackage, hnames, rfl⟩ := exists_class_of_ofClassName hparts h
    exact Or.inl (@Core.named c hc [] (by simp) hnames hpackage)
  | some parts =>
    obtain ⟨before, after⟩ := parts
    have hparts : (Text.splitLast? '.' cs).getD ([], cs) = (before, after) :=
      congrArg (Option.getD · ([], cs)) hsplit
    obtain ⟨hvalid, c, rfl, hc, hpackage, hnames, rfl⟩ := exists_class_of_ofClassName hparts h
    obtain ⟨rfl, -⟩ := Text.splitLast?_eq_some_iff.mp hsplit
    rcases Package.valid_iff.mp hvalid with hempty | hsegments
    · rw [hempty] at hpackage
      obtain rfl : before = [] := by simpa using hempty
      exact Or.inr (.named hc hnames hpackage)
    · -- The segments between the dots of the package, each with a dot behind it.
      have hfields : (Text.fieldsOf '.' (String.ofList before)).map String.toList
          = before.splitOn '.' := by
        simp [Text.fieldsOf, Function.comp_def]
      have hjoined : c.package = ".".intercalate (Text.fieldsOf '.' (String.ofList before)) := by
        rw [hpackage, ← String.toList_inj, String.toList_intercalate, hfields, String.toList_ofList]
        exact (List.intercalate_splitOn '.').symm
      have hne : Text.fieldsOf '.' (String.ofList before) ≠ [] := by
        simp [Text.fieldsOf]
      have hcore := Core.named hc hsegments hnames hjoined
      rw [Package.flatMap_segments hne, hfields, List.intercalate_splitOn, List.append_assoc] at hcore
      exact Or.inl hcore

theorem ofCore_eq_ok_iff {cs : List Char} {t : TypeRef} : ofCore cs = .ok t ↔ Readable cs t := by
  constructor
  · intro h
    rw [ofCore] at h
    cases hkeyword : Primitive.ofKeyword? (String.ofList cs) with
    | none =>
      rw [hkeyword, Option.elim_none] at h
      exact readable_of_ofClassName h
    | some p =>
      rw [hkeyword, Option.elim_some] at h
      cases h
      have hcs : p.keyword.toList = cs := by
        rw [Primitive.ofKeyword?_eq_some_iff.mp hkeyword, String.toList_ofList]
      exact Or.inl (hcs ▸ .keyword p)
  · rintro (h | h)
    · exact h.ofCore
    · exact h.ofCore

/-! ## Reading the whole name -/

theorem written_of_ofCore {cs : List Char} {t : TypeRef} (h : ofCore (Text.trim cs) = .ok t) :
    Written Readable cs t := by
  obtain ⟨front, back, hcs, hfront, hback⟩ := Text.exists_trim cs
  exact ⟨front, Text.trim cs, back, hcs, hfront, hback, .core (ofCore_eq_ok_iff.mp h)⟩

/-- What is read was written.  Blanks before an element stand before the array, too, and blanks behind it
stand before the brackets. -/
theorem written_of_ofNameChars {cs : List Char} {t : TypeRef} (h : ofNameChars cs = .ok t) :
    Written Readable cs t := by
  fun_induction ofNameChars cs generalizing t
  · next cs name element hbrackets ih =>
    obtain ⟨type, htype, harray⟩ := bind_eq_ok_iff.mp h
    cases harray
    obtain ⟨inner, body, gap, rfl, hinner, hgap, hbody⟩ := ih htype
    obtain ⟨front, back, hcs, hfront, hback⟩ := Text.exists_trim cs
    refine ⟨front ++ inner, body ++ gap ++ ['[', ']'], back, ?_,
      List.forall_mem_append.mpr ⟨hfront, hinner⟩, hback, .array hbody hgap⟩
    rw [hcs]
    show front ++ name ++ back = _
    rw [dropBrackets?_eq_some_iff.mp hbrackets]
    simp only [List.append_assoc]
  · next cs name _ p hkeyword =>
    apply written_of_ofCore
    show ofCore name = .ok t
    rw [ofCore, hkeyword, Option.elim_some]
    exact h
  · next cs name _ hkeyword =>
    apply written_of_ofCore
    show ofCore name = .ok t
    rw [ofCore, hkeyword, Option.elim_none]
    exact h

/-- What is written is read.  The induction peels off the brackets from the right, and the blanks before
them are what the next step trims. -/
theorem Bracketed.ofNameChars {cs : List Char} {t : TypeRef} (h : Bracketed Readable cs t)
    (front back : List Char) (hfront : Text.AllBlank front) (hback : Text.AllBlank back) :
    ofNameChars (front ++ cs ++ back) = .ok t := by
  have htight := h.tight fun _ _ => Readable.plain
  induction h generalizing front back with
  | core h =>
    rw [ofNameChars_eq, htight.trim hfront hback, dropBrackets?_of_notMem h.plain.bracket_notMem,
      Option.elim_none]
    exact ofCore_eq_ok_iff.mpr h
  | @array cs blanks t h hblanks ih =>
    have helement := ih [] blanks (by simp [Text.AllBlank]) hblanks
      (h.tight fun _ _ => Readable.plain)
    rw [ofNameChars_eq, htight.trim hfront hback, dropBrackets?_eq_some_iff.mpr rfl,
      Option.elim_some]
    rw [List.nil_append] at helement
    rw [helement]
    rfl

theorem ofNameChars_eq_ok_iff {cs : List Char} {t : TypeRef} :
    ofNameChars cs = .ok t ↔ Written Core cs t ∨ Written StrayDot cs t := by
  refine Iff.trans ⟨written_of_ofNameChars, ?_⟩ written_or_iff
  rintro ⟨front, body, back, rfl, hfront, hback, hbody⟩
  exact Bracketed.ofNameChars hbody front back hfront hback

/-- No text is of both forms, as the first character shows. -/
theorem Written.not_strayDot {cs : List Char} {t t' : TypeRef} (h : Written Core cs t) :
    ¬Written StrayDot cs t' := by
  intro hstray
  obtain ⟨text, type, hcore, hhead⟩ := h.exists_head? fun _ _ => Core.plain
  obtain ⟨text', type', hdot, hhead'⟩ := hstray.exists_head? fun _ _ => StrayDot.plain
  obtain ⟨c, -, -, -, rfl, -⟩ := hdot.cases
  exact hcore.head?_ne (hhead.symm.trans hhead')

/-! ## Refusals -/

theorem blamesName_ofClass (package name : String) : BlamesName (ofClass package name) :=
  (Package.blamesName_check package).bind fun _ _ =>
    (Identifier.blamesName_check name).bind fun _ _ => blamesName_ok _

theorem blamesName_nestedClasses (outer : ClassName) (segments : List String) :
    BlamesName (nestedClasses (named outer) segments) := by
  unfold nestedClasses
  induction segments generalizing outer with
  | nil => exact blamesName_ok _
  | cons name segments ih =>
    rw [List.foldlM_cons]
    have hnested : BlamesName (nestedClass (named outer) name) :=
      (Identifier.blamesName_check name).bind fun _ _ => blamesName_ok _
    refine hnested.bind fun t ht => ?_
    obtain ⟨_, -, -, rfl⟩ := nestedClass_eq_ok_iff.mp ht
    exact ih _

theorem blamesName_ofClassName (name : List Char) : BlamesName (ofClassName name) := by
  unfold ofClassName
  dsimp only
  split
  · exact blamesName_error _ _
  · split
    · exact blamesName_error _ _
    · refine (blamesName_ofClass _ _).bind fun t ht => ?_
      obtain ⟨-, -, rfl⟩ := ofClass_eq_ok_iff.mp ht
      exact blamesName_nestedClasses _ _

theorem blamesName_ofNameChars (cs : List Char) : BlamesName (ofNameChars cs) := by
  fun_induction ofNameChars cs
  · next ih => exact ih.bind fun _ _ => blamesName_ok _
  · exact blamesName_ok _
  · exact blamesName_ofClassName _

/-! ## The whole theorem -/

/-- A text is read as a type exactly if it is written by the grammar for that type, or has a dot without
a package before its class.  So the grammar is all that is read unless there is such a dot, and whatever
is not read is refused because of a name. -/
theorem ofName_grammar (text : String) :
    (∀ t, ofName text = .ok t ↔ Written Core text.toList t ∨ Written StrayDot text.toList t) ∧
    ((∀ t, ofName text = .ok t ↔ Written Core text.toList t) ↔
      ¬∃ t, Written StrayDot text.toList t) ∧
    ((∃ t, ofName text = .ok t) ∨
      ∃ name problem, ofName text = .error (.invalidIdentifier name problem)) := by
  have hread (t : TypeRef) :
      ofName text = .ok t ↔ Written Core text.toList t ∨ Written StrayDot text.toList t :=
    ofNameChars_eq_ok_iff
  refine ⟨hread, ⟨?_, ?_⟩, ?_⟩
  · rintro hgrammar ⟨t, hstray⟩
    exact ((hgrammar t).mp ((hread t).mpr (Or.inr hstray))).not_strayDot hstray
  · intro hnone t
    rw [hread t]
    exact or_iff_left fun hstray => hnone ⟨t, hstray⟩
  · cases hname : ofName text with
    | ok t => exact Or.inl ⟨t, rfl⟩
    | error e =>
      obtain ⟨name, problem, rfl⟩ := blamesName_ofNameChars text.toList e hname
      exact Or.inr ⟨name, problem, rfl⟩

/-- A dot in front of a class is read although the grammar has no such text. -/
theorem ofName_strayDot :
    ofName ".A" = .ok (named (.top "" "A")) ∧ ¬∃ t, Written Core ".A".toList t := by
  have hcore : StrayDot ".A".toList (named (.top "" "A")) :=
    .named (.top "" "A") (by decide) rfl
  have hstray : Written StrayDot ".A".toList (named (.top "" "A")) :=
    ⟨[], ".A".toList, [], rfl, by simp [Text.AllBlank], by simp [Text.AllBlank], .core hcore⟩
  refine ⟨ofNameChars_eq_ok_iff.mpr (Or.inr hstray), ?_⟩
  rintro ⟨t, ht⟩
  exact ht.not_strayDot hstray

end TypeRef

end JavaSource
