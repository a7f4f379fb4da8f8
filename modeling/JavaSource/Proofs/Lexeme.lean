import JavaSource.Proofs.ClassName
import JavaSource.Text.Written
import JavaSource.Token

/-!
# Scanning text

A scanner that always takes the longest lexeme: a run of word characters, a string literal up to
its first quote that is not escaped, or one of the eleven signs.  The module shows what it makes of
the text of a single token in front of any rest (`Token.scan_text_append`).  Only after a word does
the rest matter, which must not go on with a word character.
-/

namespace JavaSource

/-- What a scanner sees in a text. -/
inductive Lexeme where
  | reserved (word : String)
  | identifier (word : String)
  /-- A number or a string literal, as it is written. -/
  | literal (text : String)
  | punct (p : Punct)
  deriving DecidableEq, Repr

namespace Lexeme

open Identifier (isPart isStart isReserved)

/-! ## The scanner -/

/-- A word with a digit in front is a number, and any other word reserved or an identifier. -/
def ofWord (word : List Char) : Lexeme :=
  if word.head?.any Char.isDigit then literal (String.ofList word)
  else if isReserved (String.ofList word) then reserved (String.ofList word)
  else identifier (String.ofList word)

/-- A string literal after its opening quote: up to the first quote without a backslash before it,
and what follows. -/
def stringEnd? : List Char → Option (List Char × List Char)
  | [] => none
  | '"' :: cs => some (['"'], cs)
  | '\\' :: c :: cs => (stringEnd? cs).map fun (body, rest) => ('\\' :: c :: body, rest)
  | c :: cs => (stringEnd? cs).map fun (body, rest) => (c :: body, rest)

/-- The sign that a text starts with.  No sign is the start of another. -/
def punct? (cs : List Char) : Option (Punct × List Char) :=
  (Punct.all.find? (·.text.toList.isPrefixOf cs)).map fun p => (p, cs.drop p.text.toList.length)

/-- The longest lexeme at the start of a text, and what follows it. -/
def next? : List Char → Option (Lexeme × List Char)
  | [] => none
  | c :: cs =>
    if isPart c then some (ofWord (c :: cs.takeWhile isPart), cs.dropWhile isPart)
    else if c = '"' then
      (stringEnd? cs).map fun (body, rest) => (literal (String.ofList ('"' :: body)), rest)
    else if c = '-' ∧ cs.head?.any Char.isDigit then
      some (literal (String.ofList ('-' :: cs.takeWhile isPart)), cs.dropWhile isPart)
    else (punct? (c :: cs)).map fun (p, rest) => (punct p, rest)

theorem length_of_stringEnd? {cs body rest : List Char} (h : stringEnd? cs = some (body, rest)) :
    rest.length < cs.length := by
  fun_induction stringEnd? cs generalizing body with
  | case1 => cases h
  | case2 cs =>
    cases h
    exact Nat.lt_succ_self _
  | case3 c cs ih =>
    obtain ⟨⟨body', rest'⟩, h', heq⟩ := Option.map_eq_some_iff.mp h
    cases heq
    have := ih h'
    simp only [List.length_cons]
    omega
  | case4 c cs _ _ ih =>
    obtain ⟨⟨body', rest'⟩, h', heq⟩ := Option.map_eq_some_iff.mp h
    cases heq
    have := ih h'
    simp only [List.length_cons]
    omega

theorem length_of_punct? {c : Char} {cs rest : List Char} {p : Punct}
    (h : punct? (c :: cs) = some (p, rest)) : rest.length < (c :: cs).length := by
  obtain ⟨q, -, heq⟩ := Option.map_eq_some_iff.mp h
  cases heq
  have hpos : 0 < p.text.toList.length := by cases p <;> decide
  rw [List.length_drop, List.length_cons]
  omega

theorem length_of_next? {cs rest : List Char} {l : Lexeme} (h : next? cs = some (l, rest)) :
    rest.length < cs.length := by
  cases cs with
  | nil => cases h
  | cons c cs =>
    have hdrop : (cs.dropWhile isPart).length ≤ cs.length := (List.dropWhile_sublist _).length_le
    rw [next?] at h
    split at h
    · cases h
      exact Nat.lt_succ_of_le hdrop
    · split at h
      · obtain ⟨⟨body, rest'⟩, h', heq⟩ := Option.map_eq_some_iff.mp h
        cases heq
        exact Nat.lt_succ_of_lt (length_of_stringEnd? h')
      · split at h
        · cases h
          exact Nat.lt_succ_of_le hdrop
        · obtain ⟨⟨p, rest'⟩, h', heq⟩ := Option.map_eq_some_iff.mp h
          cases heq
          exact length_of_punct? h'

/-- All lexemes of a text.  Spaces are skipped, and what starts no lexeme is refused. -/
def scan (cs : List Char) : Option (List Lexeme) :=
  match cs with
  | [] => some []
  | c :: cs =>
    if c = ' ' then scan cs
    else
      match _h : next? (c :: cs) with
      | none => none
      | some (l, rest) => (scan rest).map (l :: ·)
termination_by cs.length
decreasing_by
  · exact Nat.lt_succ_self _
  · exact length_of_next? _h

theorem scan_nil : scan [] = some [] := by
  rw [scan]

theorem scan_space (cs : List Char) : scan (' ' :: cs) = scan cs := by
  rw [scan, if_pos rfl]

theorem scan_of_next? {cs rest : List Char} {l : Lexeme} (hspace : cs.head? ≠ some ' ')
    (h : next? cs = some (l, rest)) : scan cs = (scan rest).map (l :: ·) := by
  cases cs with
  | nil => cases h
  | cons c cs =>
    have hc : c ≠ ' ' := fun e => hspace (e ▸ rfl)
    rw [scan, if_neg hc]
    split
    · next hnone => exact absurd (h.symm.trans hnone) (by simp)
    · next l' rest' hsome =>
      obtain ⟨rfl, rfl⟩ := Prod.mk.inj (Option.some.inj (h.symm.trans hsome))
      rfl

/-! ## Words -/

/-- No word goes on into the rest. -/
def EndsWord (rest : List Char) : Prop := ∀ c ∈ rest.head?, isPart c = false

theorem endsWord_nil : EndsWord [] := by
  intro c hc
  cases hc

theorem endsWord_cons {c : Char} (h : isPart c = false) (cs : List Char) : EndsWord (c :: cs) := by
  intro d hd
  cases hd
  exact h

theorem takeWhile_word {word rest : List Char} (hw : ∀ c ∈ word, isPart c = true)
    (hr : EndsWord rest) : (word ++ rest).takeWhile isPart = word := by
  rw [List.takeWhile_append_of_pos hw]
  cases rest with
  | nil => simp
  | cons c cs => rw [List.takeWhile_cons_of_neg (by simp [hr c rfl]), List.append_nil]

theorem dropWhile_word {word rest : List Char} (hw : ∀ c ∈ word, isPart c = true)
    (hr : EndsWord rest) : (word ++ rest).dropWhile isPart = rest := by
  rw [List.dropWhile_append_of_pos hw]
  cases rest with
  | nil => rfl
  | cons c cs => rw [List.dropWhile_cons_of_neg (by simp [hr c rfl])]

theorem ne_space_of_isPart {c : Char} (h : isPart c = true) : c ≠ ' ' := by
  rintro rfl
  exact absurd h (by decide)

theorem scan_word {c : Char} {cs rest : List Char} (hw : ∀ x ∈ c :: cs, isPart x = true)
    (hr : EndsWord rest) :
    scan (c :: cs ++ rest) = (scan rest).map (ofWord (c :: cs) :: ·) := by
  obtain ⟨hc, hcs⟩ := List.forall_mem_cons.mp hw
  refine scan_of_next? (fun h => ne_space_of_isPart hc (Option.some.inj h)) ?_
  rw [List.cons_append, next?, if_pos hc, takeWhile_word hcs hr, dropWhile_word hcs hr]

theorem isDigit_iff {c : Char} : c.isDigit = true ↔ 48 ≤ c.toNat ∧ c.toNat ≤ 57 := by
  rw [Char.isDigit, Bool.and_eq_true, decide_eq_true_eq, decide_eq_true_eq]
  exact Iff.rfl

theorem isPart_of_isDigit {c : Char} (h : c.isDigit = true) : isPart c = true := by
  obtain ⟨hl, hu⟩ := isDigit_iff.mp h
  have hnumeric : Text.isNumeric c = true := by
    show (if c.toNat ≤ 0x39 then decide (0x30 ≤ c.toNat) else _) = true
    rw [if_pos hu, decide_eq_true_eq]
    exact hl
  simp [isPart, Text.isAlphanumeric, hnumeric]

theorem not_isDigit_of_isStart {c : Char} (h : isStart c = true) : c.isDigit = false := by
  refine Bool.eq_false_iff.mpr fun hdigit => ?_
  obtain ⟨hl, hu⟩ := isDigit_iff.mp hdigit
  have halphabetic : Text.isAlphabetic c = false := by
    show (if c.toNat ≤ 0x5a then decide (0x41 ≤ c.toNat) else _) = false
    rw [if_pos (by omega), decide_eq_false_iff_not]
    omega
  have hunderscore : c ≠ '_' := by
    rintro rfl
    exact absurd hdigit (by decide)
  have hdollar : c ≠ '$' := by
    rintro rfl
    exact absurd hdigit (by decide)
  simp [isStart, halphabetic, hunderscore, hdollar] at h

/-- A word that starts like an identifier is reserved or an identifier. -/
theorem scan_name {name : String} {c : Char} {cs rest : List Char} (hname : name.toList = c :: cs)
    (hstart : isStart c = true) (hcs : ∀ x ∈ cs, isPart x = true) (hr : EndsWord rest) :
    scan (name.toList ++ rest) = (scan rest).map
      ((if isReserved name then reserved name else identifier name) :: ·) := by
  have hw : ∀ x ∈ c :: cs, isPart x = true :=
    List.forall_mem_cons.mpr ⟨Identifier.isPart_of_isStart hstart, hcs⟩
  have hdigit : (c :: cs).head?.any Char.isDigit = false := not_isDigit_of_isStart hstart
  have hword : ofWord (c :: cs) = if isReserved name then reserved name else identifier name := by
    rw [ofWord, hdigit, ← hname, String.ofList_toList]
    rfl
  rw [hname, scan_word hw hr, hword]

theorem scan_identifier {name : String} (h : Identifier.Valid name) {rest : List Char}
    (hr : EndsWord rest) :
    scan (name.toList ++ rest) = (scan rest).map (identifier name :: ·) := by
  obtain ⟨c, cs, hname, hstart, hcs, hreserved⟩ := Identifier.valid_iff.mp h
  rw [scan_name hname hstart hcs hr, if_neg (by simp [hreserved])]

/-! ## Numbers -/

/-- A digit and word characters after it, with or without a minus before it. -/
def IsNumber (text : List Char) : Prop :=
  ∃ d ds, d.isDigit = true ∧ (∀ c ∈ ds, isPart c = true) ∧ (text = d :: ds ∨ text = '-' :: d :: ds)

theorem scan_number {text rest : List Char} (h : IsNumber text) (hr : EndsWord rest) :
    scan (text ++ rest) = (scan rest).map (literal (String.ofList text) :: ·) := by
  obtain ⟨d, ds, hd, hds, hform⟩ := h
  have hw : ∀ c ∈ d :: ds, isPart c = true :=
    List.forall_mem_cons.mpr ⟨isPart_of_isDigit hd, hds⟩
  rcases hform with rfl | rfl
  · rw [scan_word hw hr, ofWord, if_pos (show (d :: ds).head?.any Char.isDigit = true from hd)]
  · refine scan_of_next? (fun h => absurd (Option.some.inj h) (by decide)) ?_
    have hpart : ¬isPart '-' = true := by decide
    rw [List.cons_append, next?, if_neg hpart, if_neg (by decide),
      if_pos ⟨rfl, show (d :: ds ++ rest).head?.any Char.isDigit = true from hd⟩,
      takeWhile_word hw hr, dropWhile_word hw hr]

/-! ## Signs -/

theorem punct?_text_append (p : Punct) (rest : List Char) :
    punct? (p.text.toList ++ rest) = some (p, rest) := by
  cases p <;> rfl

/-- The first character of a sign is no part of anything else. -/
theorem exists_text_eq_cons (p : Punct) :
    ∃ c cs, p.text.toList = c :: cs ∧ isPart c = false ∧ c ≠ ' ' ∧ c ≠ '"' ∧ c ≠ '-' := by
  cases p <;> exact ⟨_, _, rfl, by decide, by decide, by decide, by decide⟩

theorem scan_punct (p : Punct) (rest : List Char) :
    scan (p.text.toList ++ rest) = (scan rest).map (punct p :: ·) := by
  have hpunct := punct?_text_append p rest
  obtain ⟨c, cs, htext, hpart, hspace, hquote, hminus⟩ := exists_text_eq_cons p
  rw [htext, List.cons_append] at hpunct ⊢
  refine scan_of_next? (fun h => hspace (Option.some.inj h)) ?_
  rw [next?, if_neg (by simp [hpart]), if_neg hquote, if_neg (by simp [hminus]), hpunct]
  rfl

/-! ## String literals -/

theorem stringEnd?_cons {c : Char} (hquote : c ≠ '"') (hslash : c ≠ '\\') (cs : List Char) :
    stringEnd? (c :: cs) = (stringEnd? cs).map fun (body, rest) => (c :: body, rest) := by
  rw [stringEnd?]
  · exact fun e => hquote e
  · exact fun _ _ e => absurd e hslash

theorem hexDigit_ne {d : Nat} (hd : d < 16) : Text.hexDigit d ≠ '"' ∧ Text.hexDigit d ≠ '\\' := by
  have hall : ∀ e < 16, Text.hexDigit e ≠ '"' ∧ Text.hexDigit e ≠ '\\' := by decide
  exact hall d hd

theorem stringEnd?_hexDigits (width n : Nat) (cs : List Char) :
    stringEnd? (Text.hexDigits width n ++ cs)
      = (stringEnd? cs).map fun (body, rest) => (Text.hexDigits width n ++ body, rest) := by
  induction width generalizing n cs with
  | zero => simp [Text.hexDigits]
  | succ width ih =>
    obtain ⟨hquote, hslash⟩ := hexDigit_ne (Nat.mod_lt n (by decide : 0 < 16))
    rw [Text.hexDigits, List.append_assoc, List.singleton_append, ih, stringEnd?_cons hquote hslash,
      Option.map_map]
    simp [Function.comp_def]

/-- The characters that stand for one character of the text do not end the literal. -/
theorem stringEnd?_escape (c : Char) (cs : List Char) :
    stringEnd? (Text.escape c ++ cs)
      = (stringEnd? cs).map fun (body, rest) => (Text.escape c ++ body, rest) := by
  unfold Text.escape
  split
  case h_8 hquote hslash _ _ _ _ _ =>
    split
    · show stringEnd? ('\\' :: 'u' :: (Text.hexDigits 4 c.toNat ++ cs)) = _
      rw [stringEnd?, stringEnd?_hexDigits, Option.map_map]
      rfl
    · exact stringEnd?_cons hquote hslash cs
  all_goals rfl

theorem stringEnd?_flatMap_escape (text rest : List Char) :
    stringEnd? (text.flatMap Text.escape ++ '"' :: rest)
      = some (text.flatMap Text.escape ++ ['"'], rest) := by
  induction text with
  | nil => rfl
  | cons c text ih =>
    rw [List.flatMap_cons, List.append_assoc, stringEnd?_escape, ih, Option.map_some,
      List.append_assoc]

theorem scan_quote (text : String) (rest : List Char) :
    scan ((Text.quote text).toList ++ rest)
      = (scan rest).map (literal (Text.quote text) :: ·) := by
  have hend := stringEnd?_flatMap_escape text.toList rest
  refine scan_of_next? ?_ ?_
  · rw [Text.toList_quote]
    exact fun h => absurd (Option.some.inj h) (by decide)
  · have hpart : ¬isPart '"' = true := by decide
    rw [Text.toList_quote, List.cons_append, List.append_assoc, List.singleton_append, next?,
      if_neg hpart, if_pos rfl, hend, Option.map_some]
    show some (literal (String.ofList ('"' :: _)), rest) = _
    rw [← Text.toList_quote, String.ofList_toList]

end Lexeme

/-! ## Tokens -/

theorem Keyword.isReserved_text (k : Keyword) : Identifier.isReserved k.text = true := by
  cases k with
  | primitive p => cases p <;> decide
  | classWord => decide
  | thisWord => decide
  | superWord => decide
  | newWord => decide

namespace Token

open Lexeme

/-- What a token should be scanned as: names are cut at their dots. -/
def lexemes : Token → List Lexeme
  | keyword k => [.reserved k.text]
  | punct p => [.punct p]
  | ident text => ((Text.fieldsOf '.' text).map Lexeme.identifier).intersperse (.punct .dot)
  | literal text => [.literal text]

/-- A token whose text can be told apart from what stands around it. -/
def Lexical : Token → Prop
  | keyword _ => True
  | punct _ => True
  | ident text => ∀ segment ∈ Text.fieldsOf '.' text, Identifier.Valid segment
  | literal text => IsNumber text.toList ∨ ∃ value, text = Text.quote value

theorem scan_keyword (k : Keyword) {rest : List Char} (hr : EndsWord rest) :
    scan (k.text.toList ++ rest) = (scan rest).map (.reserved k.text :: ·) := by
  obtain ⟨c, cs, hname, hstart, hcs⟩ := Identifier.exists_of_isReserved k.isReserved_text
  rw [scan_name hname hstart hcs hr, if_pos k.isReserved_text]

/-- Names between dots are scanned one by one, and so are the dots. -/
theorem scan_dotted {names : List String} (hne : names ≠ [])
    (hv : ∀ name ∈ names, Identifier.Valid name) {rest : List Char} (hr : EndsWord rest) :
    scan (['.'].intercalate (names.map String.toList) ++ rest)
      = (scan rest).map ((names.map Lexeme.identifier).intersperse (.punct .dot) ++ ·) := by
  induction names with
  | nil => exact absurd rfl hne
  | cons name names ih =>
    obtain ⟨hname, hnames⟩ := List.forall_mem_cons.mp hv
    cases names with
    | nil => simpa using scan_identifier hname hr
    | cons next names =>
      -- The dot ends the first name, so the rest is scanned as if it stood alone.
      have htail := ih (by simp) hnames
      let tail := ['.'].intercalate ((next :: names).map String.toList) ++ rest
      have hdot : scan ('.' :: tail) = (scan tail).map (.punct .dot :: ·) := scan_punct .dot tail
      calc scan (['.'].intercalate ((name :: next :: names).map String.toList) ++ rest)
          = scan (name.toList ++ '.' :: tail) := by
            simp [tail, List.intercalate_cons_cons]
        _ = (scan ('.' :: tail)).map (.identifier name :: ·) :=
            scan_identifier hname (endsWord_cons Identifier.isPart_dot _)
        _ = (scan rest).map
              (((name :: next :: names).map Lexeme.identifier).intersperse (.punct .dot) ++ ·) := by
            rw [hdot, htail, Option.map_map, Option.map_map]
            rfl

theorem fieldsOf_ne_nil (text : String) : Text.fieldsOf '.' text ≠ [] := by
  simp [Text.fieldsOf]

theorem intercalate_fieldsOf (text : String) :
    ['.'].intercalate ((Text.fieldsOf '.' text).map String.toList) = text.toList := by
  rw [Text.fieldsOf, List.map_map]
  simp [Function.comp_def, List.intercalate_splitOn]

/-- A token in front of any rest is scanned as it should be, if no word runs into the rest. -/
theorem scan_text_append {t : Token} (h : t.Lexical) {rest : List Char}
    (hr : t.isWord = true → EndsWord rest) :
    scan (t.text.toList ++ rest) = (scan rest).map (t.lexemes ++ ·) := by
  cases t with
  | keyword k => exact scan_keyword k (hr rfl)
  | punct p => exact scan_punct p rest
  | ident text =>
    have hscan := scan_dotted (fieldsOf_ne_nil text) h (hr rfl)
    rw [intercalate_fieldsOf] at hscan
    exact hscan
  | literal text =>
    rcases h with h | ⟨value, rfl⟩
    · have hscan := scan_number h (hr rfl)
      rw [String.ofList_toList] at hscan
      exact hscan
    · exact scan_quote value rest

end Token

end JavaSource
