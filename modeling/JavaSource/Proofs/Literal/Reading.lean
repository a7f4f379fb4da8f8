import JavaSource.Literal
import JavaSource.Proofs.Text.Grouping

/-!
# Reading integer literals

`IntLiteral.read` undoes the writing of a literal: the separators go, the suffix gives the width
and the mark the radix, and the digits give the value, by their sign in decimal and as two's
complement otherwise.  The main theorem is `read_text`: reading gives back value, width and radix,
so literals that are written alike differ in the length of their digit groups at most.
-/

namespace JavaSource

namespace Text

/-! ## Digits -/

/-- The value of a lower-case digit. -/
def digitValue (c : Char) : Nat := if c.isDigit then c.toNat - 48 else c.toNat - 87

/-- The number that digits write, the most significant first. -/
def ofDigits (base : Nat) (cs : List Char) : Nat :=
  cs.foldl (fun n c => base * n + digitValue c) 0

theorem ofDigits_append_singleton (base : Nat) (cs : List Char) (c : Char) :
    ofDigits base (cs ++ [c]) = base * ofDigits base cs + digitValue c := by
  rw [ofDigits, List.foldl_append]
  rfl

theorem digitValue_digitChar {d : Nat} (h : d < 16) : digitValue d.digitChar = d := by
  have hall : ∀ e < 16, digitValue e.digitChar = e := by decide
  exact hall d h

/-- Digits read back as the number that they were made from. -/
theorem ofDigits_digits {base : Nat} (hb : 1 < base) (hb' : base ≤ 16) (n : Nat) :
    ofDigits base (digits base n) = n := by
  induction n using Nat.base_induction base hb with
  | single m hm =>
    rw [digits, Nat.toDigits_of_lt_base hm]
    show base * 0 + digitValue m.digitChar = m
    rw [digitValue_digitChar (by omega)]
    omega
  | digit m k hk hm ih =>
    rw [digits, ← Nat.toDigits_append_toDigits hb hm hk, Nat.toDigits_of_lt_base hk,
      ofDigits_append_singleton, ← digits, ih, digitValue_digitChar (by omega)]

theorem mem_digits {base : Nat} (hb : 1 < base) {n : Nat} {c : Char} (h : c ∈ digits base n) :
    ∃ d < base, c = d.digitChar := by
  induction n using Nat.base_induction base hb with
  | single m hm =>
    rw [digits, Nat.toDigits_of_lt_base hm, List.mem_singleton] at h
    exact ⟨m, hm, h⟩
  | digit m k hk hm ih =>
    rw [digits, ← Nat.toDigits_append_toDigits hb hm hk, Nat.toDigits_of_lt_base hk,
      List.mem_append, List.mem_singleton] at h
    rcases h with h | h
    · exact ih h
    · exact ⟨k, hk, h⟩

/-- A property of the sixteen digits is one of all digits. -/
theorem forall_mem_digits {base : Nat} (hb : 1 < base) (hb' : base ≤ 16) {P : Char → Prop}
    (hP : ∀ d < 16, P d.digitChar) (n : Nat) : ∀ c ∈ digits base n, P c := by
  intro c hc
  obtain ⟨d, hd, rfl⟩ := mem_digits hb hc
  exact hP d (by omega)

end Text

namespace IntLiteral

/-! ## The reader -/

/-- The number below and above zero whose two's complement is `magnitude`. -/
def signed (width : Width) (magnitude : Nat) : Int :=
  if 2 * magnitude < width.size then magnitude else magnitude - width.size

/-- Takes the suffix off, which tells the width. -/
def readWidth (cs : List Char) : List Char × Width :=
  if cs.getLast? = some 'L' then (cs.dropLast, .long) else (cs, .int)

/-- Reads a literal without separators and suffix. -/
def readBody (width : Width) : List Char → Int × Radix
  | '0' :: 'x' :: cs => (signed width (Text.ofDigits 16 cs), .hex)
  | '0' :: 'b' :: cs => (signed width (Text.ofDigits 2 cs), .binary)
  | '-' :: cs => (-Text.ofDigits 10 cs, .decimal)
  | cs => (Text.ofDigits 10 cs, .decimal)

/-- The value, width and radix of a written literal. -/
def read (cs : List Char) : Int × Width × Radix :=
  let (body, width) := readWidth (cs.filter (· ≠ separator))
  let (value, radix) := readBody width body
  (value, width, radix)

/-! ## Reading what was written -/

theorem base_bounds (r : Radix) : 1 < r.base ∧ r.base ≤ 16 := by
  cases r <;> decide

theorem forall_mem_plainDigits (l : IntLiteral) {P : Char → Prop}
    (hP : ∀ d < 16, P d.digitChar) : ∀ c ∈ l.plainDigits.toList, P c := by
  obtain ⟨hb, hb'⟩ := base_bounds l.radix
  rw [plainDigits, String.toList_ofList]
  exact Text.forall_mem_digits hb hb' hP l.magnitude

theorem ofDigits_plainDigits (l : IntLiteral) :
    Text.ofDigits l.radix.base l.plainDigits.toList = l.magnitude := by
  obtain ⟨hb, hb'⟩ := base_bounds l.radix
  rw [plainDigits, String.toList_ofList]
  exact Text.ofDigits_digits hb hb' l.magnitude

theorem plainDigits_ne_nil (l : IntLiteral) : l.plainDigits.toList ≠ [] := by
  rw [plainDigits, String.toList_ofList]
  exact Nat.toDigits_ne_nil

/-- The literal between separators and suffix: sign, mark and digits. -/
def body (l : IntLiteral) : List Char :=
  (if l.isNegative then ['-'] else []) ++ l.radix.mark.toList ++ l.plainDigits.toList

theorem filter_text (l : IntLiteral) :
    l.text.toList.filter (· ≠ separator) = l.body ++ l.width.suffix.toList := by
  have hdigits : l.digits.toList.filter (· ≠ separator) = l.plainDigits.toList := by
    refine Text.filter_group l.interval fun hm => ?_
    exact l.forall_mem_plainDigits (P := (· ≠ '_')) (by decide) _ hm rfl
  have hmark : l.radix.mark.toList.filter (· ≠ separator) = l.radix.mark.toList := by
    cases l.radix <;> rfl
  have hsuffix : l.width.suffix.toList.filter (· ≠ separator) = l.width.suffix.toList := by
    cases l.width <;> rfl
  rw [text, String.toList_append, String.toList_append, String.toList_append, List.filter_append,
    List.filter_append, List.filter_append, hdigits, hmark, hsuffix, body]
  cases l.isNegative <;> rfl

theorem suffix_notMem_body (l : IntLiteral) : 'L' ∉ l.body := by
  intro hm
  rw [body, List.mem_append, List.mem_append] at hm
  rcases hm with (hm | hm) | hm
  · cases hneg : l.isNegative <;> simp [hneg] at hm
  · cases hr : l.radix <;> rw [hr] at hm <;> exact absurd hm (by decide)
  · exact l.forall_mem_plainDigits (P := (· ≠ 'L')) (by decide) _ hm rfl

theorem readWidth_body (l : IntLiteral) :
    readWidth (l.body ++ l.width.suffix.toList) = (l.body, l.width) := by
  cases hw : l.width with
  | int =>
    show readWidth (l.body ++ []) = _
    have hlast : l.body.getLast? ≠ some 'L' :=
      fun h => l.suffix_notMem_body (List.mem_of_getLast? h)
    rw [List.append_nil, readWidth, if_neg hlast]
  | long =>
    show readWidth (l.body ++ ['L']) = _
    rw [readWidth, List.getLast?_concat, if_pos rfl, List.dropLast_concat]

/-- The two's complement of a value in its width determines it. -/
theorem signed_emod {width : Width} {value : Int} (h : width.holds value = true) :
    signed width (value % width.size).toNat = value := by
  have hsize : (0 : Int) < width.size := by cases width <;> decide
  obtain ⟨hlow, hhigh⟩ := Width.holds_iff.mp h
  have hnonneg := Int.emod_nonneg value (Int.ne_of_gt hsize)
  have hto : ((value % width.size).toNat : Int) = value % width.size := Int.toNat_of_nonneg hnonneg
  unfold signed
  by_cases hneg : value < 0
  · have hmod : value % width.size = value + width.size := by
      rw [← Int.add_emod_right, Int.emod_eq_of_lt (by omega) (by omega)]
    rw [if_neg (by omega)]
    omega
  · have hmod : value % width.size = value := Int.emod_eq_of_lt (by omega) (by omega)
    rw [if_pos (by omega)]
    omega

theorem readBody_digits (width : Width) {cs : List Char} (h : ∀ c ∈ cs, c.isDigit = true) :
    readBody width cs = ((Text.ofDigits 10 cs : Int), .decimal) := by
  unfold readBody
  split
  · exact absurd (h 'x' (by simp)) (by decide)
  · exact absurd (h 'b' (by simp)) (by decide)
  · exact absurd (h '-' (by simp)) (by decide)
  · rfl

theorem readBody_body (l : IntLiteral) : readBody l.width l.body = (l.value.toInt, l.radix) := by
  have hdigits := l.ofDigits_plainDigits
  have hplain : ∀ c ∈ l.plainDigits.toList, l.radix = .decimal → c.isDigit = true := by
    intro c hc hr
    rw [plainDigits, String.toList_ofList, hr] at hc
    exact Nat.isDigit_of_mem_toDigits (by decide) (by decide) hc
  cases hr : l.radix with
  | hex =>
    have hbody : l.body = '0' :: 'x' :: l.plainDigits.toList := by
      simp [body, isNegative, hr, Radix.mark]
    rw [hr] at hdigits
    rw [hbody, readBody, show Text.ofDigits 16 l.plainDigits.toList = _ from hdigits, magnitude, hr,
      signed_emod l.fits]
  | binary =>
    have hbody : l.body = '0' :: 'b' :: l.plainDigits.toList := by
      simp [body, isNegative, hr, Radix.mark]
    rw [hr] at hdigits
    rw [hbody, readBody, show Text.ofDigits 2 l.plainDigits.toList = _ from hdigits, magnitude, hr,
      signed_emod l.fits]
  | decimal =>
    rw [hr, magnitude_of_decimal hr] at hdigits
    by_cases hneg : l.value.toInt < 0
    · have hbody : l.body = '-' :: l.plainDigits.toList := by
        simp [body, isNegative, hr, Radix.mark, hneg]
      rw [hbody, readBody, show Text.ofDigits 10 l.plainDigits.toList = _ from hdigits]
      congr 1
      omega
    · have hbody : l.body = l.plainDigits.toList := by
        simp [body, isNegative, hr, Radix.mark, hneg]
      rw [hbody, readBody_digits l.width fun c hc => hplain c hc hr,
        show Text.ofDigits 10 l.plainDigits.toList = _ from hdigits]
      congr 1
      omega

/-- Reading a literal gives back its value, width and radix. -/
theorem read_text (l : IntLiteral) : read l.text.toList = (l.value.toInt, l.width, l.radix) := by
  rw [read, filter_text, readWidth_body]
  show ((readBody l.width l.body).1, l.width, (readBody l.width l.body).2) = _
  rw [readBody_body]

/-- Literals that are written alike are alike, but for the length of their groups. -/
theorem eq_of_text_eq {a b : IntLiteral} (h : a.text = b.text) :
    a.value = b.value ∧ a.width = b.width ∧ a.radix = b.radix := by
  have hread := a.read_text
  rw [h, read_text, Prod.mk.injEq, Prod.mk.injEq] at hread
  obtain ⟨hvalue, hwidth, hradix⟩ := hread
  exact ⟨(Int64.toInt_inj.mp hvalue).symm, hwidth.symm, hradix.symm⟩

end IntLiteral

end JavaSource
