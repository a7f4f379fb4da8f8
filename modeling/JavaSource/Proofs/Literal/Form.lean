import JavaSource.Proofs.Identifier
import JavaSource.Proofs.Literal.Reading
import JavaSource.Proofs.Text.Grouping

/-!
# The form of integer literals

Whichever way a literal is made, it is written as a sign, a mark, groups of digits and a suffix, and
reading it gives back what it was made from.  `IntLiteral.Form` lists what a program that holds the
literal may rely on: no digit is redundant or foreign to the radix, separators stand between groups
only, and the number that the digits write fits the width.  The main theorem is
`IntLiteral.form_and_read`.
-/

namespace JavaSource

namespace Text

theorem head?_digits_ne {base : Nat} (hb : 1 < base) (hb' : base ≤ 16) {n : Nat} (hn : n ≠ 0) :
    (digits base n).head? ≠ some '0' := by
  have hdigit : ∀ d < 16, d ≠ 0 → d.digitChar ≠ '0' := by decide
  induction n using Nat.base_induction base hb with
  | single m hm =>
    rw [digits, Nat.toDigits_of_lt_base hm, List.head?_singleton]
    exact fun h => hdigit m (by omega) hn (Option.some.inj h)
  | digit m k hk hm ih =>
    obtain ⟨c, cs, hcs⟩ := List.exists_cons_of_ne_nil (Nat.toDigits_ne_nil (n := m) (b := base))
    have hm' := ih (by omega)
    rw [digits, hcs] at hm'
    rw [digits, ← Nat.toDigits_append_toDigits hb hm hk, hcs]
    exact hm'

/-- Zero is the only number whose digits start with zero. -/
theorem digits_eq_of_head? {base : Nat} (hb : 1 < base) (hb' : base ≤ 16) {n : Nat}
    (h : (digits base n).head? = some '0') : digits base n = ['0'] := by
  by_cases hn : n = 0
  · rw [hn, digits, Nat.toDigits_of_lt_base (by omega)]
    rfl
  · exact absurd h (head?_digits_ne hb hb' hn)

end Text

theorem Radix.base_of_ofBase {base : Nat} {width : Width} {r : Radix}
    (h : ofBase base width = .ok r) : r.base = base := by
  unfold ofBase at h
  split at h <;> cases h <;> rfl

/-- The digits that numbers are written with, as far as the radix goes. -/
def Radix.alphabet (r : Radix) : List Char := "0123456789abcdef".toList.take r.base

theorem Radix.digitChar_mem_alphabet (r : Radix) {d : Nat} (h : d < r.base) :
    d.digitChar ∈ r.alphabet := by
  have hall : ∀ e < r.base, e.digitChar ∈ r.alphabet := by cases r <;> decide
  exact hall d h

namespace IntLiteral

/-- The ways to get a literal: by a base that is accepted, or by a radix for a value of known width. -/
inductive MadeFrom : Int → Width → Nat → Nat → IntLiteral → Prop
  | make {value : Int64} {width : Width} {base interval : Nat} {l : IntLiteral}
      (h : make value width base interval = .ok l) : MadeFrom value.toInt width base interval l
  | ofInt32 (value : Int32) (radix : Radix) (interval : Nat) :
      MadeFrom value.toInt .int radix.base interval (ofInt32 value radix interval)
  | ofInt64 (value : Int64) (radix : Radix) (interval : Nat) :
      MadeFrom value.toInt .long radix.base interval (ofInt64 value radix interval)

theorem of_make {value : Int64} {width : Width} {base interval : Nat} {l : IntLiteral}
    (h : make value width base interval = .ok l) :
    l.value = value ∧ l.width = width ∧ l.radix.base = base ∧ l.interval = interval := by
  unfold make at h
  obtain ⟨radix, hradix, h⟩ := bind_eq_ok_iff.mp h
  split at h
  · cases h
    exact ⟨rfl, rfl, Radix.base_of_ofBase hradix, rfl⟩
  · cases h

theorem MadeFrom.fields {value : Int} {width : Width} {base interval : Nat} {l : IntLiteral}
    (h : MadeFrom value width base interval l) :
    l.value.toInt = value ∧ l.width = width ∧ l.radix.base = base ∧ l.interval = interval := by
  cases h with
  | make h =>
    obtain ⟨hvalue, hrest⟩ := of_make h
    exact ⟨by rw [hvalue], hrest⟩
  | ofInt32 value radix interval => exact ⟨Int32.toInt_toInt64 value, rfl, rfl, rfl⟩
  | ofInt64 value radix interval => exact ⟨rfl, rfl, rfl, rfl⟩

/-! ## The number that the digits write -/

theorem magnitude_lt (l : IntLiteral) : l.magnitude < l.width.size := by
  have hsize : 0 < l.width.size := by cases l.width <;> decide
  by_cases hr : l.radix = .decimal
  · obtain ⟨hlow, hhigh⟩ := Width.holds_iff.mp l.fits
    rw [magnitude_of_decimal hr]
    omega
  · have hlt := Int.emod_lt_of_pos l.value.toInt (show (0 : Int) < l.width.size by omega)
    rw [magnitude_of_ne_decimal hr]
    omega

/-- A decimal literal needs all of its width for the least value only, which has a sign. -/
theorem magnitude_decimal {l : IntLiteral} (h : l.radix = .decimal) :
    2 * l.magnitude < l.width.size ∨ (l.value.toInt < 0 ∧ 2 * l.magnitude = l.width.size) := by
  obtain ⟨hlow, hhigh⟩ := Width.holds_iff.mp l.fits
  rw [magnitude_of_decimal h]
  omega

/-! ## The text -/

/-- How a literal is written, with the groups that its digits come in. -/
structure Form (value : Int) (width : Width) (radix : Radix) (interval : Nat) (text : String)
    (groups : List (List Char)) : Prop where
  text_eq : text.toList = (if radix = .decimal ∧ value < 0 then ['-'] else []) ++ radix.mark.toList ++
    ['_'].intercalate groups ++ width.suffix.toList
  even : Text.EvenGroups interval groups
  digits : ∀ g ∈ groups, ∀ c ∈ g, c ∈ radix.alphabet
  leading : groups.flatten.head? = some '0' → groups.flatten = ['0']
  bits : Text.ofDigits radix.base groups.flatten < width.size
  /-- In decimal there are no digits for the sign, so half of the numbers are out of range. -/
  decimal : radix = .decimal → 2 * Text.ofDigits radix.base groups.flatten < width.size ∨
    (value < 0 ∧ 2 * Text.ofDigits radix.base groups.flatten = width.size)

theorem exists_form (l : IntLiteral) :
    ∃ groups, Form l.value.toInt l.width l.radix l.interval l.text groups := by
  obtain ⟨hb, hb'⟩ := base_bounds l.radix
  have hplain : l.plainDigits.toList = Text.digits l.radix.base l.magnitude := by
    rw [plainDigits, String.toList_ofList]
  have hbytes : ∀ c ∈ l.plainDigits.toList, c.utf8Size = 1 :=
    l.forall_mem_plainDigits (P := fun c => c.utf8Size = 1) (by decide)
  obtain ⟨groups, hgroups, hflatten, heven⟩ :=
    Text.group_eq hbytes l.plainDigits_ne_nil l.interval separator
  have hnumber : Text.ofDigits l.radix.base groups.flatten = l.magnitude := by
    rw [hflatten, l.ofDigits_plainDigits]
  refine ⟨groups, ?_, heven, ?_, ?_, ?_, ?_⟩
  · have hsign : (if l.isNegative then "-" else "").toList
        = if l.radix = .decimal ∧ l.value.toInt < 0 then ['-'] else [] := by
      by_cases hneg : l.radix = .decimal ∧ l.value.toInt < 0
      · simp [isNegative, hneg]
      · rw [if_neg hneg, if_neg (by simpa [isNegative] using hneg)]
        rfl
    rw [text, String.toList_append, String.toList_append, String.toList_append, hsign, digits,
      hgroups]
    rfl
  · intro g hg c hc
    have hmem : c ∈ Text.digits l.radix.base l.magnitude := by
      rw [← hplain, ← hflatten]
      exact List.mem_flatten.mpr ⟨g, hg, hc⟩
    obtain ⟨d, hd, rfl⟩ := Text.mem_digits hb hmem
    exact l.radix.digitChar_mem_alphabet hd
  · rw [hflatten, hplain]
    exact Text.digits_eq_of_head? hb hb'
  · rw [hnumber]
    exact l.magnitude_lt
  · rw [hnumber]
    exact magnitude_decimal

/-- A literal has the form that it was asked for, and reading it gives back the value, the width and
the radix, so no two literals that differ in these are written alike. -/
theorem form_and_read {value : Int} {width : Width} {base interval : Nat} {l : IntLiteral}
    (h : MadeFrom value width base interval l) :
    ∃ radix : Radix, radix.base = base ∧
      (∃ groups, Form value width radix interval l.text groups) ∧
      read l.text.toList = (value, width, radix) ∧
      ∀ value' width' base' interval' l', MadeFrom value' width' base' interval' l' →
        l'.text = l.text → value' = value ∧ width' = width ∧ base' = base := by
  obtain ⟨rfl, rfl, rfl, rfl⟩ := h.fields
  refine ⟨l.radix, rfl, l.exists_form, l.read_text, ?_⟩
  intro value' width' base' interval' l' h' htext
  obtain ⟨rfl, rfl, rfl, rfl⟩ := h'.fields
  obtain ⟨hvalue, hwidth, hradix⟩ := eq_of_text_eq htext
  exact ⟨by rw [hvalue], hwidth, by rw [hradix]⟩

theorem form_and_read_minusOne :
    ∃ l, make (-1) .long 16 4 = .ok l ∧ l.text = "0xffff_ffff_ffff_ffffL" ∧
      ∃ radix : Radix, radix.base = 16 ∧ (∃ groups, Form (-1) .long radix 4 l.text groups) ∧
        read l.text.toList = (-1, .long, radix) := by
  have hmade : make (-1) .long 16 4 = .ok (ofInt64 (-1) .hex 4) := rfl
  obtain ⟨radix, hbase, hform, hread, -⟩ := form_and_read (.make hmade)
  exact ⟨_, hmade, by decide, radix, hbase, hform, hread⟩

end IntLiteral

end JavaSource
