import JavaSource.Proofs.Page

/-!
# Pages line by line

A page keeps a flag for whether its last line has text, and writes the indentation with the first
text that comes.  What results can be said without any state: `lines` sorts the texts of a run into
lines, each text with the level at which it was written, and `lineText` puts one line together.

The main theorem is `Page.run_laidOut`.  Its step lemma (`continued_take`) says that a stroke and
the lines that are still to come give the same page as the lines with the stroke in front.  What
makes lines independent of each other is that a line has begun as soon as it has a character, so
that the last character of the page is then one of the line's own (`foldl_join_append`).
-/

namespace JavaSource.Page

/-! ## Runs -/

/-- What can be done to a page. -/
inductive Action where
  | line (text : String)
  | newline
  | indent
  | dedent
  | node (node : Node)
  | raw (text : String)
  | token (token : Token)

def act (p : Page) : Action → Page
  | .line text => p.writeLine text
  | .newline => p.newline
  | .indent => p.indent
  | .dedent => p.dedent
  | .node node => p.writeNode node
  | .raw text => p.write text
  | .token token => p.writeToken token

def run (p : Page) (actions : List Action) : Page := actions.foldl act p

/-! ## Lines -/

/-- The least that an action can do; a word is kept away from a word in front of it. -/
inductive Stroke where
  | text (text : String) (isWord : Bool)
  | newline
  | indent
  | dedent

/-- A comma takes a blank along, and other tokens are written as they are. -/
def Stroke.ofToken : Token → Stroke
  | .punct .comma => .text ", " false
  | t => .text t.text t.isWord

/-- What an action consists of. -/
def Action.strokes (s : Scope) : Action → List Stroke
  | line text => [.text text false, .newline]
  | newline => [.newline]
  | indent => [.indent]
  | dedent => [.dedent]
  | node n => (n.tokens s).map .ofToken
  | raw text => [.text text false]
  | token t => [.ofToken t]

/-- A text on a line, with the level in force when it was written. -/
structure Piece where
  level : Nat
  text : String
  isWord : Bool

/-- The lines that strokes write from a level on.  The first is the rest of the line at hand, and
the last is still open.  The level goes up and down with the indents and dedents, but not below
none. -/
def lines : (level : Nat) → List Stroke → List (List Piece)
  | _, [] => [[]]
  | level, .text text isWord :: strokes =>
    (lines level strokes).modifyHead (⟨level, text, isWord⟩ :: ·)
  | level, .newline :: strokes => [] :: lines level strokes
  | level, .indent :: strokes => lines (level + 1) strokes
  | level, .dedent :: strokes => lines (level - 1) strokes

/-- What stands between the text of a line and a further piece. -/
def Piece.gapAfter (piece : Piece) (text : String) : String :=
  if piece.isWord ∧ text.toList.getLast?.any isWordChar then " " else ""

/-- The text of a line with one more piece behind it. -/
def Piece.join (text : String) (piece : Piece) : String :=
  text ++ piece.gapAfter text ++ piece.text

/-- The text of a line: nothing if all its pieces are empty.  Otherwise its first text stands behind
the indentation for the level at which that text was written, and the others follow. -/
def lineText (step : String) (line : List Piece) : String :=
  match line.dropWhile (·.text = "") with
  | [] => ""
  | first :: rest =>
    String.join (List.replicate first.level step) ++ rest.foldl Piece.join first.text

/-! ## One line -/

/-- What a line grows to depends on its end only, so text in front of it can be set apart. -/
theorem foldl_join_append {text : String} (h : text ≠ "") (front : String) (pieces : List Piece) :
    pieces.foldl Piece.join (front ++ text) = front ++ pieces.foldl Piece.join text := by
  induction pieces generalizing text with
  | nil => rfl
  | cons piece pieces ih =>
    have hne : text.toList ≠ [] := fun hnil => h (String.toList_eq_nil_iff.mp hnil)
    have hlast : (front ++ text).toList.getLast? = text.toList.getLast? := by
      rw [String.toList_append, List.getLast?_append, List.getLast?_eq_some_getLast hne]
      rfl
    have hjoin : Piece.join (front ++ text) piece = front ++ Piece.join text piece := by
      rw [Piece.join, Piece.join, Piece.gapAfter, hlast, ← Piece.gapAfter]
      simp only [String.append_assoc]
    have hjoin_ne : Piece.join text piece ≠ "" := by
      simp [Piece.join, h]
    rw [List.foldl_cons, List.foldl_cons, hjoin, ih hjoin_ne]

theorem lineText_cons_of_empty (step : String) {piece : Piece} (h : piece.text = "")
    (line : List Piece) : lineText step (piece :: line) = lineText step line := by
  rw [lineText, lineText, List.dropWhile_cons_of_pos (by simp [h])]

theorem lineText_cons_of_ne (step : String) {piece : Piece} (h : piece.text ≠ "")
    (line : List Piece) :
    lineText step (piece :: line)
      = String.join (List.replicate piece.level step) ++ line.foldl Piece.join piece.text := by
  rw [lineText, List.dropWhile_cons_of_neg (by simp [h])]

theorem exists_foldl_join (text : String) (pieces : List Piece) :
    ∃ more, pieces.foldl Piece.join text = text ++ more := by
  induction pieces generalizing text with
  | nil => exact ⟨"", String.append_empty.symm⟩
  | cons piece pieces ih =>
    obtain ⟨more, hmore⟩ := ih (Piece.join text piece)
    refine ⟨piece.gapAfter text ++ piece.text ++ more, hmore.trans ?_⟩
    simp only [Piece.join, String.append_assoc]

/-- A line without text is empty.  Any other starts with the indentation for the level of its first
text and, without a space between them, that text. -/
inductive LaidOut (step : String) (line : List Piece) : Prop
  | blank (hline : ∀ piece ∈ line, piece.text = "") (h : lineText step line = "")
  | begun {empty rest : List Piece} {first : Piece} {more : String}
      (hline : line = empty ++ first :: rest) (hempty : ∀ piece ∈ empty, piece.text = "")
      (hfirst : first.text ≠ "")
      (h : lineText step line
        = String.join (List.replicate first.level step) ++ first.text ++ more)

theorem laidOut (step : String) (line : List Piece) : LaidOut step line := by
  induction line with
  | nil => exact .blank (by simp) rfl
  | cons piece line ih =>
    by_cases htext : piece.text = ""
    · have hskip := lineText_cons_of_empty step htext line
      cases ih with
      | blank hline h => exact .blank (List.forall_mem_cons.mpr ⟨htext, hline⟩) (hskip.trans h)
      | begun hline hempty hfirst h =>
        exact .begun (congrArg (piece :: ·) hline) (List.forall_mem_cons.mpr ⟨htext, hempty⟩)
          hfirst (hskip.trans h)
    · obtain ⟨more, hmore⟩ := exists_foldl_join piece.text line
      have hbegun := lineText_cons_of_ne step htext line
      rw [hmore, ← String.append_assoc] at hbegun
      exact .begun (List.nil_append _).symm (List.forall_mem_nil _) htext hbegun

theorem lines_ne_nil (level : Nat) (strokes : List Stroke) : lines level strokes ≠ [] := by
  fun_induction lines level strokes with
  | case1 => simp
  | case2 level text isWord strokes ih => simpa using ih
  | case3 => simp
  | case4 level strokes ih => exact ih
  | case5 level strokes ih => exact ih

/-! ## One stroke -/

/-- The page after a stroke. -/
def take (p : Page) : Stroke → Page
  | .text text isWord => if isWord then p.writeToken (.literal text) else p.write text
  | .newline => p.newline
  | .indent => p.indent
  | .dedent => p.dedent

def takeAll (p : Page) (strokes : List Stroke) : Page := strokes.foldl take p

variable {p : Page} {text : String}

theorem take_text_of_empty (hstart : p.atLineStart = true) (isWord : Bool) :
    p.take (.text "" isWord) = p := by
  cases isWord with
  | false => rfl
  | true => simp [take, writeToken, write, tokenText, Token.text, hstart]

/-- The first text of a line stands behind the indentation. -/
theorem take_text_of_ne (hstart : p.atLineStart = true) (h : text ≠ "") (isWord : Bool) :
    p.take (.text text isWord) = { p with
      text := p.text ++ (p.indentation ++ text), atLineStart := false } := by
  cases isWord with
  | false => simp [take, write, hstart, h, String.append_assoc]
  | true => simp [take, writeToken, write, tokenText, Token.text, hstart, h, String.append_assoc]

theorem take_text_of_begun (hbegun : p.atLineStart = false) (isWord : Bool) :
    p.take (.text text isWord) = { p with text := Piece.join p.text ⟨p.level, text, isWord⟩ } := by
  cases isWord with
  | false =>
    show p.write text = _
    rw [write_eq, Piece.join, Piece.gapAfter]
    simp [hbegun]
  | true =>
    show p.writeToken (.literal text) = _
    rw [writeToken_eq, Piece.join, Piece.gapAfter]
    simp [gap, tokenText, Token.text, Token.isWord, endsWithWord, hbegun]

/-- A text is added, perhaps with something in front of it, and nothing changes but the line. -/
theorem exists_take_text (p : Page) (text : String) (isWord : Bool) :
    ∃ added start, p.take (.text text isWord)
      = { p with text := p.text ++ added, atLineStart := start } := by
  cases isWord with
  | false =>
    have hwrite := p.write_eq text
    rw [String.append_assoc] at hwrite
    exact ⟨_, _, hwrite⟩
  | true =>
    have hwrite := p.writeToken_eq (.literal text)
    rw [String.append_assoc] at hwrite
    exact ⟨_, _, hwrite⟩

/-- The page's text when `line` is written behind it, without a line end. -/
def finishLine (p : Page) (line : List Piece) : String :=
  if p.atLineStart then p.text ++ lineText p.settings.indent.text line
  else line.foldl Piece.join p.text

theorem finishLine_nil (p : Page) : p.finishLine [] = p.text := by
  rw [finishLine]
  split
  · exact String.append_empty
  · rfl

theorem finishLine_take_text (p : Page) (text : String) (isWord : Bool) (line : List Piece) :
    (p.take (.text text isWord)).finishLine line
      = p.finishLine (⟨p.level, text, isWord⟩ :: line) := by
  cases hstart : p.atLineStart with
  | false =>
    rw [take_text_of_begun hstart, finishLine, finishLine, hstart]
    rfl
  | true =>
    by_cases h : text = ""
    · subst h
      rw [take_text_of_empty hstart, finishLine, finishLine, if_pos hstart, if_pos hstart,
        lineText_cons_of_empty _ rfl]
    · rw [take_text_of_ne hstart h, finishLine, finishLine, if_neg (by simp), if_pos hstart,
        lineText_cons_of_ne _ h, foldl_join_append (by simp [h]), foldl_join_append h]
      rfl

/-- The page's text when `lines` are written behind it. -/
def continued (p : Page) : List (List Piece) → String
  | [] => p.text
  | line :: later =>
    "\n".intercalate (p.finishLine line :: later.map (lineText p.settings.indent.text))

/-- A stroke and the lines to come are the lines with the stroke in front. -/
theorem continued_take (p : Page) (stroke : Stroke) (strokes : List Stroke) :
    (p.take stroke).continued (lines (p.take stroke).level strokes)
      = p.continued (lines p.level (stroke :: strokes)) := by
  cases stroke with
  | text text isWord =>
    obtain ⟨added, start, htake⟩ := p.exists_take_text text isWord
    have hlevel : (p.take (.text text isWord)).level = p.level := by rw [htake]
    have hsettings : (p.take (.text text isWord)).settings = p.settings := by rw [htake]
    obtain ⟨line, later, hlines⟩ := List.exists_cons_of_ne_nil (lines_ne_nil p.level strokes)
    rw [hlevel, lines, hlines, List.modifyHead_cons, continued, continued, finishLine_take_text,
      hsettings]
  | newline =>
    obtain ⟨line, later, hlines⟩ := List.exists_cons_of_ne_nil (lines_ne_nil p.level strokes)
    show p.newline.continued (lines p.level strokes) = p.continued ([] :: lines p.level strokes)
    rw [hlines, continued, continued, finishLine_nil, List.map_cons,
      String.intercalate_cons_cons, ← String.intercalate_cons_append]
    rfl
  | indent => rfl
  | dedent => rfl

theorem continued_blank (u : CompilationUnit) (settings : Settings) {written : List (List Piece)}
    (h : written ≠ []) :
    (blank u settings).continued written
      = "\n".intercalate (written.map (lineText settings.indent.text)) := by
  obtain ⟨line, later, rfl⟩ := List.exists_cons_of_ne_nil h
  have hline : (blank u settings).finishLine line = lineText settings.indent.text line :=
    String.empty_append
  rw [continued, hline]
  rfl

theorem text_takeAll (p : Page) (strokes : List Stroke) :
    (p.takeAll strokes).text = p.continued (lines p.level strokes) := by
  induction strokes generalizing p with
  | nil => exact p.finishLine_nil.symm
  | cons stroke strokes ih => exact (ih (p.take stroke)).trans (p.continued_take stroke strokes)

/-! ## Actions -/

theorem ofToken_eq (t : Token) : Stroke.ofToken t = .text (tokenText t) t.isWord := by
  cases t with
  | punct sign => cases sign <;> rfl
  | _ => rfl

theorem take_ofToken (p : Page) (t : Token) : p.take (.ofToken t) = p.writeToken t := by
  rw [ofToken_eq]
  cases t <;> rfl

theorem takeAll_ofToken (p : Page) (tokens : List Token) :
    p.takeAll (tokens.map .ofToken) = p.writeTokens tokens := by
  rw [takeAll, List.foldl_map]
  simp only [take_ofToken]
  rfl

theorem act_eq (p : Page) (a : Action) : p.act a = p.takeAll (a.strokes p.scope) := by
  cases a with
  | node n => exact (p.takeAll_ofToken (n.tokens p.scope)).symm
  | token t => exact (p.take_ofToken t).symm
  | line text => rfl
  | newline => rfl
  | indent => rfl
  | dedent => rfl
  | raw text => rfl

theorem scope_take (p : Page) (stroke : Stroke) : (p.take stroke).scope = p.scope := by
  cases stroke with
  | text text isWord =>
    obtain ⟨added, start, htake⟩ := p.exists_take_text text isWord
    rw [htake]
    rfl
  | newline => rfl
  | indent => rfl
  | dedent => rfl

theorem scope_takeAll (p : Page) (strokes : List Stroke) : (p.takeAll strokes).scope = p.scope := by
  induction strokes generalizing p with
  | nil => rfl
  | cons stroke strokes ih => exact (ih (p.take stroke)).trans (p.scope_take stroke)

/-- The scope stays, so the strokes of a run are known before it. -/
theorem run_eq (p : Page) (actions : List Action) :
    p.run actions = p.takeAll (actions.flatMap (Action.strokes p.scope)) := by
  induction actions generalizing p with
  | nil => rfl
  | cons a actions ih =>
    have hscope : (p.act a).scope = p.scope := by rw [act_eq, scope_takeAll]
    calc (p.act a).run actions
        = (p.act a).takeAll (actions.flatMap (Action.strokes p.scope)) := by rw [ih, hscope]
      _ = p.takeAll (a.strokes p.scope ++ actions.flatMap (Action.strokes p.scope)) := by
          rw [act_eq, takeAll, takeAll, takeAll, List.foldl_append]

/-! ## Appending -/

theorem exists_text_take (p : Page) (stroke : Stroke) :
    ∃ added, (p.take stroke).text = p.text ++ added := by
  cases stroke with
  | text text isWord =>
    obtain ⟨added, start, htake⟩ := p.exists_take_text text isWord
    exact ⟨added, by rw [htake]⟩
  | newline => exact ⟨"\n", rfl⟩
  | indent => exact ⟨"", String.append_empty.symm⟩
  | dedent => exact ⟨"", String.append_empty.symm⟩

theorem exists_text_takeAll (p : Page) (strokes : List Stroke) :
    ∃ added, (p.takeAll strokes).text = p.text ++ added := by
  induction strokes generalizing p with
  | nil => exact ⟨"", String.append_empty.symm⟩
  | cons stroke strokes ih =>
    obtain ⟨first, hfirst⟩ := p.exists_text_take stroke
    obtain ⟨rest, hrest⟩ := ih (p.take stroke)
    refine ⟨first ++ rest, ?_⟩
    rw [← String.append_assoc, ← hfirst]
    exact hrest

/-- A page after any run is its lines, each of them laid out by itself, and no action takes back
what was written before it.  A line is empty, or it is its indentation with its first text right
behind. -/
theorem run_laidOut (u : CompilationUnit) (settings : Settings) (actions : List Action) :
    let written := lines 0 (actions.flatMap (Action.strokes (.ofUnit u settings)))
    ((blank u settings).run actions).text
        = "\n".intercalate (written.map (lineText settings.indent.text)) ∧
      (∀ (p : Page) (a : Action), ∃ added, (p.act a).text = p.text ++ added) ∧
      ∀ line ∈ written, LaidOut settings.indent.text line := by
  intro written
  refine ⟨?_, fun p a => ?_, fun line _ => laidOut _ line⟩
  · rw [run_eq, text_takeAll]
    exact continued_blank u settings (lines_ne_nil _ _)
  · rw [act_eq]
    exact p.exists_text_takeAll _

-- Two levels are in force when the second line gets its first text, and the dedent comes too late
-- for it.  The line after it has none.
example :
    ((blank ⟨"", .empty, .ofList []⟩ .standard).run
      [.line "a", .indent, .raw "", .indent, .token (.ident "b"), .dedent,
        .token (.keyword .newWord), .newline, .token (.ident ""), .newline]).text
      = "a\n        b new\n\n" := by
  decide

end JavaSource.Page
