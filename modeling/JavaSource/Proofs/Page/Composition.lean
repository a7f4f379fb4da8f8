import JavaSource.Proofs.Rendering

/-!
# Writing a node behind other text

What a node adds to a page is the text that it has on a blank page, whatever the page holds already.
Only the first step of the run can tell the two pages apart: it writes the indentation if the line is
still empty, and a space if two words would meet.  From the first text on, the page goes on from the
blank one (`Page.Continues`), and every token keeps it so.

The main theorem is `Page.writeNode_eq`.  It covers names that no factory checks, such as the empty
name of a called method, which writes nothing and leaves its line empty.  What saves the statement is
that a sign always follows such a name (`Token.Leads`).
-/

namespace JavaSource

/-! ## Nodes that can be built

Classes are always checked, and so are the names of variables.  Everything else may come from the
bare constructors, with any type arguments and any method names. -/

inductive TypeRef.Buildable : TypeRef → Prop
  | checked {t : TypeRef} (h : t.Checked) : Buildable t
  | generic {raw : ClassName} {arguments : List TypeRef} (hraw : Checked (.named raw))
      (ha : ∀ a ∈ arguments, Buildable a) : Buildable (.generic raw arguments)
  | array {t : TypeRef} (h : Buildable t) : Buildable (.array t)

inductive Callee.Buildable : Callee → Prop
  | direct (name : String) : Buildable (.direct name)
  | static {type : TypeRef} (h : type.Buildable) (name : String) : Buildable (.static type name)
  | create {type : TypeRef} (h : type.Buildable) : Buildable (.create type)

inductive Expr.Buildable : Expr → Prop
  | int (literal : IntLiteral) : Buildable (.int literal)
  | str (text : String) : Buildable (.str text)
  | var {s : Naming} {context : Nat} {identifier : String} {name : Name} (hs : s.Reachable)
      (h : (s.request context identifier).2 = .ok name) : Buildable (.var name)
  | array {members : List Expr} (h : ∀ e ∈ members, Buildable e) : Buildable (.array members)
  | member {type : TypeRef} (h : type.Buildable) (m : TypeMember) : Buildable (.member type m)
  | thisMethod (name : String) : Buildable (.thisMethod name)
  | exprMethod {receiver : Expr} (h : Buildable receiver) (name : String) :
      Buildable (.exprMethod receiver name)
  | typeMethod {type : TypeRef} (h : type.Buildable) (name : String) :
      Buildable (.typeMethod type name)
  | call {callee : Callee} {arguments : List Expr} (h : callee.Buildable)
      (ha : ∀ e ∈ arguments, Buildable e) : Buildable (.call callee arguments)

def Node.Buildable : Node → Prop
  | type t => t.Buildable
  | expr e => e.Buildable
  | call c => c.toExpr.Buildable

/-! ## How the tokens of a node begin -/

/-- The first token has a text, or a sign comes right behind it. -/
inductive Token.Leads : List Token → Prop
  | text {t : Token} (h : Page.tokenText t ≠ "") (rest : List Token) : Leads (t :: rest)
  | sign (t : Token) (p : Punct) (rest : List Token) : Leads (t :: .punct p :: rest)

theorem Token.Leads.append {tokens : List Token} (h : Leads tokens) (more : List Token) :
    Leads (tokens ++ more) := by
  cases h with
  | text h rest => exact .text h (rest ++ more)
  | sign t p rest => exact .sign t p (rest ++ more)

theorem Token.leads_of_lexical {tokens : List Token} (hne : tokens ≠ [])
    (h : ∀ t ∈ tokens, t.Lexical) : Leads tokens := by
  obtain ⟨t, rest, rfl⟩ := List.exists_cons_of_ne_nil hne
  exact .text (Page.tokenText_ne (h t List.mem_cons_self)) rest

theorem TypeRef.tokens_ne_nil (s : Scope) (t : TypeRef) : t.tokens s ≠ [] := by
  cases t <;> simp [tokens]

theorem TypeRef.Buildable.leads {t : TypeRef} (h : t.Buildable) (s : Scope) :
    Token.Leads (t.tokens s) := by
  induction h with
  | @checked t h => exact Token.leads_of_lexical (t.tokens_ne_nil s) (h.lexical s)
  | generic _ _ _ =>
    rw [tokens]
    exact .sign _ .less _
  | array _ ih =>
    rw [tokens]
    exact ih.append _

theorem Callee.Buildable.leads {c : Callee} (h : c.Buildable) (s : Scope) (rest : List Token) :
    Token.Leads (c.tokens s ++ [.punct .openParen] ++ rest) := by
  cases h with
  | direct name => exact .sign (.ident name) .openParen rest
  | static h name =>
    rw [tokens]
    exact (((h.leads s).append _).append _).append _
  | create h => exact .text (t := .keyword .newWord) (by decide) _

theorem Expr.Buildable.leads {e : Expr} (h : e.Buildable) (s : Scope) :
    Token.Leads (e.tokens s) := by
  induction h with
  | int literal => exact Token.leads_of_lexical (by simp [tokens]) ((Checked.int literal).lexical s)
  | str text => exact Token.leads_of_lexical (by simp [tokens]) ((Checked.str text).lexical s)
  | var hs h => exact Token.leads_of_lexical (by simp [tokens]) ((Checked.var hs h).lexical s)
  | array _ _ =>
    rw [tokens]
    exact .text (t := .punct .openBrace) (by decide) _
  | member h m =>
    rw [tokens]
    exact (h.leads s).append _
  | thisMethod name => exact .text (t := .keyword .thisWord) (by decide) _
  | exprMethod _ name ih =>
    rw [tokens]
    exact ih.append _
  | typeMethod h name =>
    rw [tokens]
    exact (h.leads s).append _
  | call h _ _ =>
    rw [tokens, List.append_assoc]
    exact h.leads s _

theorem Node.Buildable.leads {node : Node} (h : node.Buildable) (s : Scope) :
    Token.Leads (node.tokens s) := by
  cases node with
  | type t => exact TypeRef.Buildable.leads h s
  | expr e => exact Expr.Buildable.leads h s
  | call c => exact Expr.Buildable.leads h s

/-! ## Two pages side by side -/

namespace Page

/-- Both pages are inside a line, and the one holds what the other does behind some text. -/
structure Continues (before : String) (q p : Page) : Prop where
  text : p.text = before ++ q.text
  text_ne : q.text ≠ ""
  left : q.atLineStart = false
  right : p.atLineStart = false

variable {before : String} {p q : Page}

theorem Continues.gap (h : Continues before q p) (t : Token) : p.gap t = q.gap t := by
  have hne : q.text.toList ≠ [] := fun hnil => h.text_ne (String.toList_eq_nil_iff.mp hnil)
  have hword : p.endsWithWord = q.endsWithWord := by
    rw [endsWithWord, endsWithWord, h.text, String.toList_append, List.getLast?_append,
      List.getLast?_eq_some_getLast hne]
    rfl
  rw [Page.gap, Page.gap, h.left, h.right, hword]
  rfl

theorem Continues.writeToken (h : Continues before q p) (t : Token) :
    Continues before (q.writeToken t) (p.writeToken t) := by
  rw [writeToken_eq, writeToken_eq, h.gap t]
  refine ⟨?_, ?_, ?_, ?_⟩
  · simp only [h.text, String.append_assoc]
  · simp [h.text_ne]
  · simp [h.left]
  · simp [h.right]

theorem Continues.writeTokens (h : Continues before q p) (tokens : List Token) :
    Continues before (q.writeTokens tokens) (p.writeTokens tokens) := by
  induction tokens generalizing p q with
  | nil => exact h
  | cons t tokens ih => exact ih (h.writeToken t)

/-- Tokens leave everything but the text and the state of the line as it was. -/
theorem writeTokens_frame (p : Page) (tokens : List Token) :
    p.writeTokens tokens = { p with
      text := (p.writeTokens tokens).text
      atLineStart := (p.writeTokens tokens).atLineStart } := by
  induction tokens generalizing p with
  | nil => rfl
  | cons t tokens ih =>
    calc (p.writeToken t).writeTokens tokens
        = { p.writeToken t with
            text := ((p.writeToken t).writeTokens tokens).text
            atLineStart := ((p.writeToken t).writeTokens tokens).atLineStart } := ih _
      _ = { p with
            text := ((p.writeToken t).writeTokens tokens).text
            atLineStart := ((p.writeToken t).writeTokens tokens).atLineStart } := by
          rw [writeToken_eq]

/-- What stands between a page's text and the tokens of a node. -/
def leadIn (p : Page) (tokens : List Token) : String :=
  if p.atLineStart then p.indentation
  else if tokens.head?.any Token.isWord ∧ p.endsWithWord then " " else ""

theorem gap_blank (u : CompilationUnit) (settings : Settings) (t : Token) :
    (blank u settings).gap t = "" := by
  show (if tokenText t = "" then "" else "") = ""
  rw [ite_self]

theorem continues_of_text (p : Page) {t : Token} (h : tokenText t ≠ "") (rest : List Token) :
    Continues (p.text ++ p.leadIn (t :: rest)) ((blank p.unit p.settings).writeToken t)
      (p.writeToken t) := by
  have hgap : p.gap t = p.leadIn (t :: rest) := by
    rw [gap, leadIn, if_neg h]
    rfl
  rw [writeToken_eq, writeToken_eq, gap_blank, hgap]
  refine ⟨?_, ?_, ?_, ?_⟩
  · simp [blank]
  · simpa [blank] using h
  · simp [h]
  · simp [h]

/-- A first token without text writes the space that keeps words apart, but not the indentation,
which is left to the sign behind it. -/
theorem continues_of_sign (p : Page) {t : Token} (h : tokenText t = "") (sign : Punct)
    (rest : List Token) :
    Continues (p.text ++ p.leadIn (t :: .punct sign :: rest))
      (((blank p.unit p.settings).writeToken t).writeToken (.punct sign))
      ((p.writeToken t).writeToken (.punct sign)) := by
  have hsign : tokenText (.punct sign) ≠ "" := by cases sign <;> decide
  have hblank : (blank p.unit p.settings).writeToken t = blank p.unit p.settings := by
    rw [writeToken_eq, gap_blank, h]
    rfl
  have hpage : p.writeToken t = { p with text := p.text ++ p.gap t } := by
    rw [writeToken_eq, h]
    simp
  have hnext := continues_of_text { p with text := p.text ++ p.gap t } hsign rest
  have hlead : p.gap t ++ leadIn { p with text := p.text ++ p.gap t } (.punct sign :: rest)
      = p.leadIn (t :: .punct sign :: rest) := by
    unfold gap leadIn
    by_cases hstart : p.atLineStart = true
    · rw [if_pos hstart, if_pos h, if_pos hstart, if_pos hstart]
      exact String.empty_append
    · rw [if_neg hstart, if_neg hstart, if_neg hstart]
      exact String.append_empty
  rw [hblank, hpage, ← hlead, ← String.append_assoc]
  exact hnext

theorem writeTokens_eq {tokens : List Token} (h : Token.Leads tokens) (p : Page) :
    p.writeTokens tokens = { p with
      text := p.text ++ p.leadIn tokens ++ ((blank p.unit p.settings).writeTokens tokens).text
      atLineStart := false } := by
  have hcontinues : Continues (p.text ++ p.leadIn tokens)
      ((blank p.unit p.settings).writeTokens tokens) (p.writeTokens tokens) := by
    cases h with
    | text h rest => exact (p.continues_of_text h rest).writeTokens rest
    | sign t s rest =>
      by_cases htext : tokenText t = ""
      · exact (p.continues_of_sign htext s rest).writeTokens rest
      · exact (p.continues_of_text htext _).writeTokens (.punct s :: rest)
  rw [writeTokens_frame, hcontinues.text, hcontinues.right]

/-- Writing a node adds the text that the node has on a blank page, behind the indentation or a
space where one is due, and changes nothing else but that the line has begun. -/
theorem writeNode_eq {node : Node} (h : node.Buildable) (p : Page) :
    p.writeNode node = { p with
      text := p.text ++ p.leadIn (node.tokens p.scope) ++ node.render p.unit p.settings
      atLineStart := false } :=
  writeTokens_eq (h.leads p.scope) p

/-- A call without a name is still kept away from the word before it, and the line that it starts is
indented by its parenthesis. -/
theorem writeNode_eq_noName :
    let node := Node.call ⟨.direct "", [.str "x"]⟩
    let p := (blank .empty .standard).indent.write "return"
    node.Buildable ∧ (p.writeNode node).text = "    return (\"x\")" ∧
      (p.newline.writeNode node).text = "    return\n    (\"x\")" := by
  intro node p
  have hnode : node.Buildable :=
    Expr.Buildable.call (.direct "") (List.forall_mem_singleton.mpr (.str "x"))
  refine ⟨hnode, ?_, ?_⟩
  · rw [writeNode_eq hnode]
    decide
  · rw [writeNode_eq hnode]
    decide

end Page

end JavaSource
