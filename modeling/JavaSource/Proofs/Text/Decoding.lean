import JavaSource.Text.Written

/-!
# Decoding string literals

A compiler reads a string literal in two phases.  The first translates characters that are written
by their numbers, as `\u` and four digits, and the second takes the short escapes between the quotes.
In both of them the parity of a run of backslashes decides what the last one of the run means, so the
invariant of the module is that the backslashes before each escaped character are even in number.

`EscapedAs` says once in which ways a character is written; the two phases, the quotes and the
alphabet of a literal are all read off it.  The main theorem is `isLiteralOf_quote`.
-/

namespace JavaSource.Text

/-! ## The two phases -/

/-- A character after the first phase. -/
inductive Symbol where
  | plain (c : Char)
  /-- A character that was written by its number. -/
  | numbered (c : Char)

def Symbol.char : Symbol → Char
  | plain c => c
  | numbered c => c

def hexValue? (c : Char) : Option Nat :=
  if '0' ≤ c ∧ c ≤ '9' then some (c.toNat - '0'.toNat)
  else if 'a' ≤ c ∧ c ≤ 'f' then some (c.toNat - 'a'.toNat + 10)
  else if 'A' ≤ c ∧ c ≤ 'F' then some (c.toNat - 'A'.toNat + 10)
  else none

/-- What is written after a backslash for a character by its number, and the rest.  The `u` may be
repeated.  Half of a surrogate pair is no character. -/
def number? : List Char → Option (Char × List Char)
  | 'u' :: cs => number? cs
  | a :: b :: c :: d :: cs => do
    let h ← hexValue? a
    let i ← hexValue? b
    let j ← hexValue? c
    let k ← hexValue? d
    let n := 16 * (16 * (16 * h + i) + j) + k
    if n.isValidChar then return (Char.ofNat n, cs) else none
  | _ => none

theorem length_of_number? {cs rest : List Char} {x : Char} (h : number? cs = some (x, rest)) :
    rest.length < cs.length := by
  fun_induction number? cs with
  | case1 cs ih =>
    have := ih h
    simp only [List.length_cons]
    omega
  | case2 a b c d cs _ =>
    simp only [Option.bind_eq_bind, Option.bind_eq_some_iff] at h
    obtain ⟨_, _, _, _, _, _, _, _, h⟩ := h
    split at h
    · cases h
      simp only [List.length_cons]
      omega
    · cases h
  | case3 => cases h

/-- The first phase.  A backslash starts a number if `u` follows and an even number of `slashes`
stands right before it. -/
def translate (slashes : Nat) : List Char → Option (List Symbol)
  | [] => some []
  | c :: cs =>
    if c = '\\' ∧ slashes % 2 = 0 ∧ cs.head? = some 'u' then
      match _h : number? cs with
      | some (x, rest) => (translate 0 rest).map (.numbered x :: ·)
      | none => none
    else (translate (if c = '\\' then slashes + 1 else 0) cs).map (.plain c :: ·)
termination_by cs => cs.length
decreasing_by
  · exact Nat.lt_succ_of_lt (length_of_number? _h)
  · exact Nat.lt_succ_self _

/-- The character that is meant by the one after a backslash. -/
def unescaped? : Char → Option Char
  | '"' => some '"'
  | '\\' => some '\\'
  | 'n' => some '\n'
  | 'r' => some '\r'
  | 't' => some '\t'
  | 'b' => some '\x08'
  | 'f' => some '\x0c'
  | _ => none

/-- The second phase, after the opening quote.  The literal stands on one line and must end with the
first quote that is not escaped. -/
def unescape : List Char → Option (List Char)
  | [] => none
  | '"' :: cs => if cs = [] then some [] else none
  | '\\' :: c :: cs => (unescaped? c).bind fun x => (unescape cs).map (x :: ·)
  | c :: cs => if c = '\n' ∨ c = '\r' then none else (unescape cs).map (c :: ·)

/-- The text of a string literal. -/
def decode (literal : String) : Option String :=
  (translate 0 literal.toList).bind fun symbols =>
    match symbols.map Symbol.char with
    | '"' :: cs => (unescape cs).map String.ofList
    | _ => none

/-! ## How a character is written -/

theorem forall_mem_hexDigits {P : Char → Prop} (hP : ∀ d < 16, P (hexDigit d)) (width n : Nat) :
    ∀ c ∈ hexDigits width n, P c := by
  induction width generalizing n with
  | zero => simp [hexDigits]
  | succ width ih =>
    rw [hexDigits, List.forall_mem_append]
    exact ⟨ih (n / 16), by simpa using hP _ (Nat.mod_lt n (by decide))⟩

theorem isControl_lt {c : Char} (h : isControl c = true) : c.toNat < 0x10000 := by
  refine Decidable.byContradiction fun hge => ?_
  have hout : isControl c = false := by
    show (if c.toNat ≤ 0x1f then _ else if c.toNat ≤ 0x9f then _ else false) = false
    rw [if_neg (by omega), if_neg (by omega)]
  rw [hout] at h
  cases h

/-- The three ways in which a literal holds a character. -/
inductive EscapedAs (c : Char) : Prop
  | short (x : Char) (text : escape c = ['\\', x]) (means : unescaped? x = some c)
  | number (control : isControl c = true) (text : escape c = '\\' :: 'u' :: hexDigits 4 c.toNat)
      (harmless : c ∉ ['"', '\\', '\n', '\r'])
  | plain (printable : isControl c = false) (text : escape c = [c])
      (harmless : c ∉ ['"', '\\', '\n', '\r'])

theorem escapedAs (c : Char) : EscapedAs c := by
  by_cases hshort : c ∈ ['"', '\\', '\n', '\r', '\t', '\x08', '\x0c']
  · simp only [List.mem_cons, List.not_mem_nil, or_false] at hshort
    rcases hshort with rfl | rfl | rfl | rfl | rfl | rfl | rfl
    · exact .short '"' rfl rfl
    · exact .short '\\' rfl rfl
    · exact .short 'n' rfl rfl
    · exact .short 'r' rfl rfl
    · exact .short 't' rfl rfl
    · exact .short 'b' rfl rfl
    · exact .short 'f' rfl rfl
  · simp only [List.mem_cons, List.not_mem_nil, or_false, not_or] at hshort
    obtain ⟨hquote, hslash, hnewline, hreturn, htab, hbackspace, hfeed⟩ := hshort
    have hescape : escape c = if isControl c then ['\\', 'u'] ++ hexDigits 4 c.toNat else [c] := by
      rw [escape] <;> assumption
    have harmless : c ∉ ['"', '\\', '\n', '\r'] := by simp [hquote, hslash, hnewline, hreturn]
    cases hcontrol : isControl c with
    | true =>
      rw [hcontrol] at hescape
      exact .number hcontrol hescape harmless
    | false =>
      rw [hcontrol] at hescape
      exact .plain hcontrol hescape harmless

/-- The characters that can follow a backslash in a literal. -/
theorem mem_of_unescaped? {x c : Char} (h : unescaped? x = some c) :
    x ∈ ['"', '\\', 'n', 'r', 't', 'b', 'f'] := by
  unfold unescaped? at h
  split at h <;> simp at h ⊢

theorem isControl_of_mem_escape {c x : Char} (h : x ∈ escape c) : isControl x = false := by
  cases escapedAs c with
  | short y text means =>
    have hall : ['"', '\\', 'n', 'r', 't', 'b', 'f'].all (fun z => !isControl z) = true := by decide
    rw [text, List.mem_cons, List.mem_singleton] at h
    rcases h with rfl | rfl
    · decide
    · simpa using List.all_eq_true.mp hall x (mem_of_unescaped? means)
  | number control text harmless =>
    have hdigits := forall_mem_hexDigits (P := fun z => isControl z = false) (by decide) 4 c.toNat
    rw [text, List.mem_cons, List.mem_cons] at h
    rcases h with rfl | rfl | h
    · decide
    · decide
    · exact hdigits x h
  | plain printable text harmless =>
    rw [text, List.mem_singleton] at h
    rw [h, printable]

/-! ## Quotes -/

/-- How many backslashes a text ends with. -/
def slashes (cs : List Char) : Nat := (cs.reverse.takeWhile (· = '\\')).length

theorem slashes_concat (cs : List Char) (c : Char) :
    slashes (cs ++ [c]) = if c = '\\' then slashes cs + 1 else 0 := by
  rw [slashes, List.reverse_append, List.reverse_singleton, List.singleton_append,
    List.takeWhile_cons]
  by_cases hc : c = '\\'
  · simp [hc, slashes]
  · simp [hc]

/-- An escaped character leaves the backslashes before the next one even in number. -/
theorem slashes_escape {cs : List Char} (h : slashes cs % 2 = 0) (c : Char) :
    slashes (cs ++ escape c) % 2 = 0 := by
  cases escapedAs c with
  | short x text means =>
    rw [text, List.append_cons, slashes_concat, slashes_concat]
    split
    · rw [if_pos rfl]
      omega
    · rfl
  | number control text harmless =>
    have hdigit : ∀ d < 16, hexDigit d ≠ '\\' := by decide
    have hlast : cs ++ escape c = (cs ++ '\\' :: 'u' :: hexDigits 3 (c.toNat / 16)) ++
        [hexDigit (c.toNat % 16)] := by
      rw [text, hexDigits, List.append_assoc]
      rfl
    rw [hlast, slashes_concat, if_neg (hdigit _ (Nat.mod_lt _ (by decide)))]
  | plain printable text harmless =>
    have hc : c ≠ '\\' := fun e => harmless (by simp [e])
    rw [text, slashes_concat, if_neg hc]

theorem eq_of_escape_eq {c : Char} {before after : List Char}
    (h : escape c = before ++ '"' :: after) : before = ['\\'] := by
  have hmem : '"' ∈ escape c := by simp [h]
  cases escapedAs c with
  | short x text means =>
    rw [text] at h
    cases before with
    | nil => simp at h
    | cons y before =>
      obtain ⟨rfl, hx⟩ := List.cons.inj h
      cases before with
      | nil => rfl
      | cons z before => simp at hx
  | number control text harmless =>
    have hdigits := forall_mem_hexDigits (P := (· ≠ '"')) (by decide) 4 c.toNat
    rw [text, List.mem_cons, List.mem_cons] at hmem
    rcases hmem with hmem | hmem | hmem
    · exact absurd hmem (by decide)
    · exact absurd hmem (by decide)
    · exact absurd rfl (hdigits _ hmem)
  | plain printable text harmless =>
    rw [text, List.mem_singleton] at hmem
    exact absurd hmem (fun e => harmless (by simp [← e]))

/-- Between the quotes every quote has an odd number of backslashes before it. -/
theorem slashes_before_quote {text before after : List Char}
    (h : text.flatMap escape ++ ['"'] = before ++ '"' :: after) {cs : List Char}
    (hcs : slashes cs % 2 = 0) : slashes (cs ++ before) % 2 = 0 ↔ after = [] := by
  induction text generalizing cs before with
  | nil =>
    cases before with
    | nil =>
      simp at h
      simp [h, hcs]
    | cons x before => simp at h
  | cons c text ih =>
    rw [List.flatMap_cons, List.append_assoc] at h
    rcases List.append_eq_append_iff.mp h with ⟨mid, hbefore, hrest⟩ | ⟨mid, hescape, hafter⟩
    · rw [hbefore, ← List.append_assoc]
      exact ih hrest (slashes_escape hcs c)
    · cases mid with
      | nil =>
        rw [List.append_nil] at hescape
        have hrest : text.flatMap escape ++ ['"'] = [] ++ '"' :: after := hafter.symm
        have hnext := ih hrest (slashes_escape hcs c)
        rwa [List.append_nil, hescape] at hnext
      | cons x mid =>
        -- The quote is the escaped one, and more follows it.
        obtain ⟨rfl, hrest⟩ := List.cons.inj hafter
        rw [eq_of_escape_eq hescape, slashes_concat, if_pos rfl, hrest]
        constructor
        · intro heven
          omega
        · intro hnil
          simp at hnil

/-! ## The first phase on an escaped character -/

theorem translate_plain {n : Nat} {c : Char} {cs : List Char}
    (h : ¬(c = '\\' ∧ n % 2 = 0 ∧ cs.head? = some 'u')) :
    translate n (c :: cs)
      = (translate (if c = '\\' then n + 1 else 0) cs).map (.plain c :: ·) := by
  rw [translate, if_neg h]

theorem translate_number {n : Nat} (hn : n % 2 = 0) {cs rest : List Char} {x : Char}
    (hu : cs.head? = some 'u') (h : number? cs = some (x, rest)) :
    translate n ('\\' :: cs) = (translate 0 rest).map (.numbered x :: ·) := by
  rw [translate, if_pos ⟨rfl, hn, hu⟩]
  split
  · next y rest' hnumber =>
    rw [h] at hnumber
    cases hnumber
    rfl
  · next hnumber =>
    rw [h] at hnumber
    cases hnumber

theorem hexValue?_hexDigit {d : Nat} (h : d < 16) : hexValue? (hexDigit d) = some d := by
  have hall : ∀ e < 16, hexValue? (hexDigit e) = some e := by decide
  exact hall d h

/-- A control character is read by its number. -/
theorem number?_hexDigits {c : Char} (h : isControl c = true) (cs : List Char) :
    number? ('u' :: (hexDigits 4 c.toNat ++ cs)) = some (c, cs) := by
  have hlt := isControl_lt h
  have hvalue (m : Nat) : hexValue? (hexDigit (m % 16)) = some (m % 16) :=
    hexValue?_hexDigit (Nat.mod_lt m (by decide))
  have hu (m : Nat) : hexDigit (m % 16) ≠ 'u' := by
    have hall : ∀ d < 16, hexDigit d ≠ 'u' := by decide
    exact hall _ (Nat.mod_lt m (by decide))
  rw [number?]
  show number? (hexDigit (c.toNat / 16 / 16 / 16 % 16) :: hexDigit (c.toNat / 16 / 16 % 16) ::
    hexDigit (c.toNat / 16 % 16) :: hexDigit (c.toNat % 16) :: cs) = _
  rw [number?, hvalue, hvalue, hvalue, hvalue]
  · have hnumber : 16 * (16 * (16 * (c.toNat / 16 / 16 / 16 % 16) + c.toNat / 16 / 16 % 16) +
        c.toNat / 16 % 16) + c.toNat % 16 = c.toNat := by omega
    have hvalid : c.toNat.isValidChar := c.valid
    show (if Nat.isValidChar _ then some (Char.ofNat _, cs) else none) = _
    rw [hnumber, if_pos hvalid, Char.ofNat_toNat]
  · exact hu _

/-! ## Both phases -/

/-- After `n` backslashes the two phases take `written` for `text`, by way of `symbols`, and the next
character comes after `m` of them, an even number. -/
structure ReadAs (written text : List Char) (n : Nat) (symbols : List Symbol) (m : Nat) : Prop where
  even : m % 2 = 0
  first : ∀ cs, translate n (written ++ cs) = (translate m cs).map (symbols ++ ·)
  second : ∀ cs, unescape (symbols.map Symbol.char ++ cs) = (unescape cs).map (text ++ ·)
  harmless : ∀ c, Symbol.numbered c ∈ symbols → c ∉ ['"', '\\', '\n', '\r']

theorem unescape_cons {c : Char} (h : c ∉ ['"', '\\', '\n', '\r']) (cs : List Char) :
    unescape (c :: cs) = (unescape cs).map (c :: ·) := by
  simp only [List.mem_cons, List.not_mem_nil, or_false, not_or] at h
  obtain ⟨hquote, hslash, hnewline, hreturn⟩ := h
  rw [unescape, if_neg (by simp [hnewline, hreturn])]
  · exact fun e => hquote e
  · exact fun _ _ e => absurd e hslash

theorem readAs_escape {n : Nat} (hn : n % 2 = 0) (c : Char) :
    ∃ symbols m, ReadAs (escape c) [c] n symbols m := by
  cases escapedAs c with
  | short x text means =>
    have hx : x ≠ 'u' := by
      rintro rfl
      cases means
    refine ⟨[.plain '\\', .plain x], if x = '\\' then n + 1 + 1 else 0, ?_, ?_, ?_, ?_⟩
    · split <;> omega
    · intro cs
      rw [text]
      show translate n ('\\' :: x :: cs) = _
      rw [translate_plain (by simp [hx]), if_pos rfl, translate_plain (by omega), Option.map_map]
      rfl
    · intro cs
      show (unescaped? x).bind _ = _
      rw [means]
      rfl
    · simp
  | number control text harmless =>
    refine ⟨[.numbered c], 0, rfl, ?_, ?_, ?_⟩
    · intro cs
      rw [text]
      exact translate_number hn rfl (number?_hexDigits control cs)
    · exact unescape_cons harmless
    · intro d hd
      cases List.mem_singleton.mp hd
      exact harmless
  | plain printable text harmless =>
    have hslash : c ≠ '\\' := fun e => harmless (by simp [e])
    refine ⟨[.plain c], 0, rfl, ?_, ?_, ?_⟩
    · intro cs
      rw [text]
      show translate n (c :: cs) = _
      rw [translate_plain (by simp [hslash]), if_neg hslash]
      rfl
    · exact unescape_cons harmless
    · simp

theorem readAs_flatMap_escape {n : Nat} (hn : n % 2 = 0) (text : List Char) :
    ∃ symbols m, ReadAs (text.flatMap escape) text n symbols m := by
  induction text generalizing n with
  | nil => exact ⟨[], n, hn, fun cs => by simp, fun cs => by simp, by simp⟩
  | cons c text ih =>
    obtain ⟨first, k, hfirst⟩ := readAs_escape hn c
    obtain ⟨rest, m, hrest⟩ := ih hfirst.even
    refine ⟨first ++ rest, m, hrest.even, ?_, ?_, ?_⟩
    · intro cs
      rw [List.flatMap_cons, List.append_assoc, hfirst.first, hrest.first, Option.map_map]
      simp [Function.comp_def]
    · intro cs
      rw [List.map_append, List.append_assoc, hfirst.second, hrest.second, Option.map_map]
      rfl
    · intro d hd
      rcases List.mem_append.mp hd with hd | hd
      · exact hfirst.harmless d hd
      · exact hrest.harmless d hd

/-- What the first phase makes of a literal, and what the second makes of that. -/
theorem translate_quote (text : String) :
    ∃ symbols, translate 0 (quote text).toList = some (.plain '"' :: symbols) ∧
      unescape (symbols.map Symbol.char) = some text.toList ∧
      ∀ c, Symbol.numbered c ∈ symbols → c ∉ ['"', '\\', '\n', '\r'] := by
  obtain ⟨symbols, m, h⟩ := readAs_flatMap_escape (n := 0) rfl text.toList
  have hclose : translate m ['"'] = some [.plain '"'] := by
    rw [translate_plain (by simp), translate]
    rfl
  refine ⟨symbols ++ [.plain '"'], ?_, ?_, ?_⟩
  · rw [toList_quote, translate_plain (by simp), if_neg (by decide), h.first, hclose]
    rfl
  · rw [List.map_append]
    show unescape (_ ++ ['"']) = _
    rw [h.second]
    show some (text.toList ++ []) = _
    rw [List.append_nil]
  · intro c hc
    refine h.harmless c ?_
    simpa using hc

theorem decode_quote (text : String) : decode (quote text) = some text := by
  obtain ⟨symbols, htranslate, hunescape, -⟩ := translate_quote text
  rw [decode, htranslate]
  show (unescape (symbols.map Symbol.char)).map String.ofList = _
  rw [hunescape, Option.map_some, String.ofList_toList]

theorem quote_injective {a b : String} (h : quote a = quote b) : a = b := by
  have hdecode := decode_quote a
  rw [h, decode_quote] at hdecode
  exact (Option.some.inj hdecode).symm

/-! ## The whole literal -/

/-- A literal that a compiler reads as `text`. -/
structure IsLiteralOf (text literal : String) : Prop where
  printable : ∀ c ∈ literal.toList, isControl c = false
  quoted : ∃ body, literal.toList = '"' :: (body ++ ['"'])
  /-- Behind the first character, a quote without a backslash that escapes it is the last one. -/
  closed : ∀ before after, literal.toList = before ++ '"' :: after → before ≠ [] →
    (slashes before % 2 = 0 ↔ after = [])
  decode : decode literal = some text
  harmless : ∀ symbols, translate 0 literal.toList = some symbols →
    ∀ c, Symbol.numbered c ∈ symbols → c ∉ ['"', '\\', '\n', '\r']

theorem isLiteralOf_quote (text : String) : IsLiteralOf text (quote text) := by
  refine ⟨?_, ⟨_, toList_quote text⟩, ?_, decode_quote text, ?_⟩
  · intro c hc
    rw [toList_quote, List.mem_cons, List.mem_append, List.mem_singleton, List.mem_flatMap] at hc
    rcases hc with rfl | ⟨d, -, hc⟩ | rfl
    · decide
    · exact isControl_of_mem_escape hc
    · decide
  · intro before after h hne
    obtain ⟨x, before, rfl⟩ := List.exists_cons_of_ne_nil hne
    rw [toList_quote] at h
    obtain ⟨rfl, hrest⟩ := List.cons.inj h
    have hquote : slashes ['"'] % 2 = 0 := rfl
    exact slashes_before_quote hrest hquote
  · obtain ⟨symbols, htranslate, -, hharmless⟩ := translate_quote text
    intro symbols' h c hc
    rw [htranslate] at h
    cases h
    refine hharmless c ?_
    simpa using hc

end JavaSource.Text
