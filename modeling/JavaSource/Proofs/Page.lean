import JavaSource.Page
import JavaSource.Proofs.Lexeme

/-!
# Scanning a page

A token is written behind a gap (`Page.writeToken_eq`), and the gap is there for the scanner: as
long as a page ends with a word character, whatever is written next starts with none.  With that as
the invariant of the run, the text of any tokens that can be told apart is scanned as these tokens
(`Page.scan_writeTokens`).
-/

namespace JavaSource

open Lexeme
open Identifier (isPart)

theorem isWordChar_of_isPart {c : Char} (h : isPart c = true) : isWordChar c = true := by
  unfold isPart at h
  unfold isWordChar
  rw [h]
  rfl

/-! ## The ends of a token -/

namespace Token

theorem getLast?_word {word : List Char} (hne : word ≠ []) (hw : ∀ c ∈ word, isPart c = true) :
    ∃ c, word.getLast? = some c ∧ isPart c = true := by
  have hlast := List.getLast?_eq_some_getLast hne
  exact ⟨_, hlast, hw _ (List.mem_of_getLast? hlast)⟩

/-- Names between dots end like the last of them. -/
theorem getLast?_dotted {names : List String} (hne : names ≠ [])
    (hv : ∀ name ∈ names, Identifier.Valid name) :
    ∃ c, (['.'].intercalate (names.map String.toList)).getLast? = some c ∧ isPart c = true := by
  induction names with
  | nil => exact absurd rfl hne
  | cons name names ih =>
    obtain ⟨hname, hnames⟩ := List.forall_mem_cons.mp hv
    cases names with
    | nil =>
      obtain ⟨c, hc, hpart⟩ := getLast?_word hname.toList_ne_nil fun c hc => hname.isPart hc
      exact ⟨c, by simpa using hc, hpart⟩
    | cons next names =>
      obtain ⟨c, hc, hpart⟩ := ih (by simp) hnames
      refine ⟨c, ?_, hpart⟩
      rw [List.map_cons, List.map_cons, List.intercalate_cons_cons, ← List.map_cons,
        List.getLast?_append, hc]
      rfl

theorem getLast?_number {text : List Char} (h : IsNumber text) :
    ∃ c, text.getLast? = some c ∧ isPart c = true := by
  obtain ⟨d, ds, hd, hds, hform⟩ := h
  have hw : ∀ c ∈ d :: ds, isPart c = true :=
    List.forall_mem_cons.mpr ⟨isPart_of_isDigit hd, hds⟩
  rcases hform with rfl | rfl
  · exact getLast?_word (by simp) hw
  · rw [List.getLast?_cons_cons]
    exact getLast?_word (by simp) hw

/-- Every word ends with a character after which the next word is kept away. -/
theorem Lexical.getLast? {t : Token} (h : t.Lexical) (hw : t.isWord = true) :
    ∃ c, t.text.toList.getLast? = some c ∧ isWordChar c = true := by
  have hpart : (∃ c, t.text.toList.getLast? = some c ∧ isPart c = true) →
      ∃ c, t.text.toList.getLast? = some c ∧ isWordChar c = true :=
    fun ⟨c, hc, hpart⟩ => ⟨c, hc, isWordChar_of_isPart hpart⟩
  cases t with
  | keyword k =>
    obtain ⟨c, cs, hname, hstart, hcs⟩ := Identifier.exists_of_isReserved k.isReserved_text
    refine hpart ?_
    rw [text, hname]
    exact getLast?_word (by simp)
      (List.forall_mem_cons.mpr ⟨Identifier.isPart_of_isStart hstart, hcs⟩)
  | punct p => cases hw
  | ident text =>
    have hlast := getLast?_dotted (fieldsOf_ne_nil text) h
    rw [intercalate_fieldsOf] at hlast
    exact hpart hlast
  | literal text =>
    rcases h with h | ⟨value, rfl⟩
    · exact hpart (getLast?_number h)
    · -- The closing quote is no part of a word, but words keep away from it all the same.
      refine ⟨'"', ?_, by decide⟩
      rw [text, Text.toList_quote, ← List.cons_append, List.getLast?_concat]

theorem Lexical.text_ne {t : Token} (h : t.Lexical) : t.text ≠ "" := by
  intro hempty
  cases hw : t.isWord with
  | true =>
    obtain ⟨c, hc, -⟩ := h.getLast? hw
    rw [hempty] at hc
    cases hc
  | false =>
    cases t with
    | punct p => cases p <;> exact absurd hempty (by decide)
    | keyword k => cases hw
    | ident text => cases hw
    | literal text => cases hw

end Token

/-! ## Writing one token -/

namespace Page

/-- What stands between a page's text and the next token. -/
def gap (p : Page) (t : Token) : String :=
  if p.atLineStart then if tokenText t = "" then "" else p.indentation
  else if t.isWord ∧ p.endsWithWord then " " else ""

theorem write_eq (p : Page) (text : String) :
    p.write text = { p with
      text := p.text ++ (if p.atLineStart ∧ text ≠ "" then p.indentation else "") ++ text
      atLineStart := p.atLineStart && text == "" } := by
  unfold write
  by_cases htext : text = ""
  · simp [htext]
  · by_cases hstart : p.atLineStart = true
    · simp [htext, hstart]
    · simp [htext, hstart]

/-- A token adds its gap and its text, and starts the line unless it has no text. -/
theorem writeToken_eq (p : Page) (t : Token) :
    p.writeToken t = { p with
      text := p.text ++ p.gap t ++ tokenText t
      atLineStart := p.atLineStart && tokenText t == "" } := by
  unfold writeToken gap
  rw [write_eq, write_eq]
  by_cases hstart : p.atLineStart = true
  · by_cases htext : tokenText t = ""
    · simp [hstart, htext]
    · simp [hstart, htext]
  · by_cases hwords : t.isWord = true ∧ p.endsWithWord = true
    · simp [hstart, hwords]
    · rw [if_neg fun h => hwords ⟨h.1, h.2.2⟩, if_neg hstart, if_neg hwords,
        if_neg fun h => hstart h.1]

theorem text_writeToken (p : Page) (t : Token) :
    (p.writeToken t).text = p.text ++ p.gap t ++ tokenText t := by
  rw [writeToken_eq]

theorem atLineStart_writeToken (p : Page) {t : Token} (h : tokenText t ≠ "") :
    (p.writeToken t).atLineStart = false := by
  rw [writeToken_eq]
  simp [h]

theorem tokenText_ne {t : Token} (h : t.Lexical) : tokenText t ≠ "" := by
  unfold tokenText
  split
  · decide
  · exact h.text_ne

theorem tokenText_of_isWord {t : Token} (h : t.isWord = true) : tokenText t = t.text := by
  cases t with
  | punct p => cases h
  | keyword k => rfl
  | ident text => rfl
  | literal text => rfl

theorem endsWithWord_writeToken (p : Page) {t : Token} (h : t.Lexical) (hw : t.isWord = true) :
    (p.writeToken t).endsWithWord = true := by
  obtain ⟨c, hc, hword⟩ := h.getLast? hw
  rw [endsWithWord, text_writeToken, tokenText_of_isWord hw, String.toList_append,
    List.getLast?_append, hc]
  exact hword

/-! ## Scanning one token -/

theorem scan_tokenText {t : Token} (h : t.Lexical) {rest : List Char}
    (hr : t.isWord = true → EndsWord rest) :
    scan ((tokenText t).toList ++ rest) = (scan rest).map (t.lexemes ++ ·) := by
  by_cases hcomma : t = .punct .comma
  · subst hcomma
    show scan (Punct.comma.text.toList ++ ' ' :: rest) = _
    rw [scan_punct, scan_space]
    rfl
  · have htext : tokenText t = t.text := by
      unfold tokenText
      split
      · exact absurd rfl hcomma
      · rfl
    rw [htext]
    exact t.scan_text_append h hr

theorem scan_gap {p : Page} (hp : p.atLineStart = true → p.indentation = "") (t : Token)
    (cs : List Char) : scan ((p.gap t).toList ++ cs) = scan cs := by
  unfold gap
  split
  · next hstart =>
    rw [hp hstart, ite_self]
    rfl
  · split
    · exact scan_space cs
    · rfl

/-- Nothing that is written after a word character goes on with one. -/
theorem endsWord_gap {p : Page} (hstart : p.atLineStart = false) (hword : p.endsWithWord = true)
    (t : Token) (cs : List Char) :
    EndsWord ((p.gap t).toList ++ ((tokenText t).toList ++ cs)) := by
  unfold gap
  rw [if_neg (by simp [hstart])]
  by_cases hw : t.isWord = true
  · rw [if_pos ⟨hw, hword⟩]
    exact endsWord_cons (by decide) _
  · rw [if_neg fun h => hw h.1]
    cases t with
    | punct p => cases p <;> exact endsWord_cons (by decide) _
    | keyword k => exact absurd rfl hw
    | ident text => exact absurd rfl hw
    | literal text => exact absurd rfl hw

/-! ## The whole run -/

/-- The text that a run adds to a page is scanned as the tokens of the run.  What the page ends with
before the run is the only thing that the next token needs to know of it. -/
theorem scan_writeTokens {tokens : List Token} (h : ∀ t ∈ tokens, t.Lexical) {p : Page}
    (hp : p.atLineStart = true → p.indentation = "") :
    ∃ added : String, (p.writeTokens tokens).text = p.text ++ added ∧
      scan added.toList = some (tokens.flatMap Token.lexemes) ∧
      (p.atLineStart = false → p.endsWithWord = true → EndsWord added.toList) := by
  induction tokens generalizing p with
  | nil => exact ⟨"", by simp [writeTokens], scan_nil, fun _ _ => endsWord_nil⟩
  | cons t tokens ih =>
    obtain ⟨ht, htokens⟩ := List.forall_mem_cons.mp h
    -- Past its first token a page is never at the start of a line, so the rest of the run adds no
    -- indentation.
    have hstart' : (p.writeToken t).atLineStart = false :=
      p.atLineStart_writeToken (tokenText_ne ht)
    obtain ⟨added, htext, hscan, hends⟩ :=
      ih htokens (p := p.writeToken t) fun hs => absurd (hstart'.symm.trans hs) (by decide)
    have hlist : (p.gap t ++ tokenText t ++ added).toList
        = (p.gap t).toList ++ ((tokenText t).toList ++ added.toList) := by
      rw [String.toList_append, String.toList_append, List.append_assoc]
    refine ⟨p.gap t ++ tokenText t ++ added, ?_, ?_, ?_⟩
    · show ((p.writeToken t).writeTokens tokens).text = _
      rw [htext, text_writeToken]
      simp only [String.append_assoc]
    · have hword (hw : t.isWord = true) : EndsWord added.toList :=
        hends hstart' (p.endsWithWord_writeToken ht hw)
      rw [hlist, scan_gap hp, scan_tokenText ht hword, hscan]
      rfl
    · intro hstart hword
      rw [hlist]
      exact endsWord_gap hstart hword t added.toList

end Page

end JavaSource
