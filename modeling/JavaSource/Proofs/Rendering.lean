import JavaSource.Proofs.Expr.Checked
import JavaSource.Proofs.Literal.Reading
import JavaSource.Proofs.Page

/-!
# Rendered nodes, scanned again

Every token of a node from the factories can be told apart from its neighbours: spellings are
identifiers between dots, and literals are numbers or quoted.  So the text of such a node is scanned
as the tokens that the node is made of, in every unit and under all settings (`scan_render`).
-/

namespace JavaSource

open Identifier (isPart)

/-! ## Numbers -/

namespace IntLiteral

/-- The digits start with a digit of the radix, and separators are word characters. -/
theorem exists_digits_eq_cons (l : IntLiteral) :
    ∃ d ds, l.digits.toList = d :: ds ∧ d ∈ l.plainDigits.toList ∧
      ∀ c ∈ d :: ds, isPart c = true := by
  have hdigit : ∀ c ∈ l.plainDigits.toList, isPart c = true :=
    l.forall_mem_plainDigits (P := fun c => isPart c = true) (by decide)
  obtain ⟨d, plain, hplain⟩ := List.exists_cons_of_ne_nil l.plainDigits_ne_nil
  rw [hplain] at hdigit ⊢
  have hgroup : ∃ ds, l.digits.toList = d :: ds ∧ ∀ c ∈ ds, c = separator ∨ c ∈ plain :=
    Text.exists_group_eq_cons l.interval hplain
  obtain ⟨ds, hds, hmem⟩ := hgroup
  refine ⟨d, ds, hds, List.mem_cons_self, ?_⟩
  intro c hc
  rcases List.mem_cons.mp hc with rfl | hc
  · exact hdigit c List.mem_cons_self
  · rcases hmem c hc with rfl | hc
    · decide
    · exact hdigit c (List.mem_cons_of_mem d hc)

theorem isNumber_text (l : IntLiteral) : Lexeme.IsNumber l.text.toList := by
  obtain ⟨d, ds, hdigits, hd, hpart⟩ := l.exists_digits_eq_cons
  have hsuffix : ∀ c ∈ l.width.suffix.toList, isPart c = true := by
    rw [← List.all_eq_true]
    cases l.width <;> decide
  have htail : ∀ c ∈ l.digits.toList ++ l.width.suffix.toList, isPart c = true := by
    intro c hc
    rcases List.mem_append.mp hc with hc | hc
    · exact hpart c (hdigits ▸ hc)
    · exact hsuffix c hc
  have htext : l.text.toList = (if l.isNegative then ['-'] else []) ++
      (l.radix.mark.toList ++ (l.digits.toList ++ l.width.suffix.toList)) := by
    rw [text, String.toList_append, String.toList_append, String.toList_append]
    cases l.isNegative <;> simp
  rw [htext]
  cases hr : l.radix with
  | decimal =>
    have hdigit : d.isDigit = true := by
      rw [plainDigits, String.toList_ofList, hr] at hd
      exact Nat.isDigit_of_mem_toDigits (by decide) (by decide) hd
    rw [hdigits] at htail ⊢
    refine ⟨d, ds ++ l.width.suffix.toList, hdigit,
      fun c hc => htail c (List.mem_cons_of_mem d hc), ?_⟩
    cases l.isNegative with
    | true => exact Or.inr rfl
    | false => exact Or.inl rfl
  | hex =>
    have hpositive : l.isNegative = false := by simp [isNegative, hr]
    rw [hpositive]
    exact ⟨'0', 'x' :: _, by decide, List.forall_mem_cons.mpr ⟨by decide, htail⟩, Or.inl rfl⟩
  | binary =>
    have hpositive : l.isNegative = false := by simp [isNegative, hr]
    rw [hpositive]
    exact ⟨'0', 'b' :: _, by decide, List.forall_mem_cons.mpr ⟨by decide, htail⟩, Or.inl rfl⟩

end IntLiteral

/-! ## Names -/

namespace ClassName

/-- Whichever rule applies, there are identifiers between the dots. -/
theorem WellFormed.spelling {c : ClassName} (hc : c.WellFormed) (s : Scope) :
    ∀ segment ∈ Text.fieldsOf '.' (c.spelling s), Identifier.Valid segment := by
  have hjoined : ∀ segment ∈ Text.fieldsOf '.' (c.joined "."), Identifier.Valid segment := by
    rw [hc.fieldsOf_joined]
    exact hc.names
  have hsource : ∀ segment ∈ Text.fieldsOf '.' c.sourceName, Identifier.Valid segment := by
    by_cases hp : c.package = ""
    · rw [sourceName, hp, Package.qualify_empty]
      exact hjoined
    · have hpackage := (Package.valid_iff.mp hc.package).resolve_left hp
      -- The dots of a full name are those of the package, the one after it, and those of the chain.
      have hfields : Text.fieldsOf '.' c.sourceName
          = Text.fieldsOf '.' c.package ++ Text.fieldsOf '.' (c.joined ".") := by
        have hlist : c.sourceName.toList = c.package.toList ++ '.' :: (c.joined ".").toList := by
          rw [sourceName, Package.qualify_of_ne hp, String.toList_append, String.toList_append]
          simp
        rw [Text.fieldsOf, hlist, List.splitOn_append_cons_self, List.map_append]
        rfl
      rw [hfields]
      exact fun segment hm => (List.mem_append.mp hm).elim (hpackage segment) (hjoined segment)
  rw [ClassName.spelling]
  cases c.resolution s with
  | imported =>
    rw [hc.fieldsOf_simpleName]
    exact fun segment hm => List.mem_singleton.mp hm ▸ hc.names _ c.simpleName_mem_chain
  | implicit => exact hjoined
  | samePackage => exact hjoined
  | outermostImported => exact hjoined
  | masked => exact hsource
  | qualified => exact hsource

end ClassName

theorem Token.lexical_ident {name : String} (h : Identifier.Valid name) :
    (Token.ident name).Lexical := by
  intro segment hm
  rw [Text.fieldsOf, List.splitOn_eq_singleton h.dot_notMem, List.map_singleton,
    String.ofList_toList, List.mem_singleton] at hm
  exact hm ▸ h

theorem Token.lexical_intercalate_iff {tokens : List (List Token)} :
    (∀ t ∈ [Token.punct .comma].intercalate tokens, t.Lexical) ↔
      ∀ ts ∈ tokens, ∀ t ∈ ts, t.Lexical := by
  induction tokens with
  | nil => simp
  | cons ts tokens ih =>
    cases tokens with
    | nil => simp
    | cons next tokens =>
      have hcomma : ∀ t ∈ [Token.punct .comma], t.Lexical := by simp [Token.Lexical]
      rw [List.intercalate_cons_cons, List.forall_mem_append, List.forall_mem_append, ih,
        and_iff_left hcomma]
      constructor
      · exact fun h => List.forall_mem_cons.mpr h
      · exact fun h => List.forall_mem_cons.mp h

/-! ## The tokens of types -/

namespace TypeRef

theorem WellFormed.lexical {type : TypeRef} (h : WellFormed type) (s : Scope) :
    ∀ t ∈ type.tokens s, t.Lexical := by
  induction h with
  | primitive p => simp [tokens, Token.Lexical]
  | named hc =>
    rw [tokens, List.forall_mem_singleton]
    exact hc.spelling s
  | generic hraw _ _ _ _ ih =>
    rw [tokens, List.forall_mem_append, List.forall_mem_append, tokensAll_eq,
      Token.lexical_intercalate_iff, List.forall_mem_map]
    exact ⟨⟨by simpa [Token.Lexical] using hraw.spelling s, ih⟩, by simp [Token.Lexical]⟩
  | array _ ih =>
    rw [tokens, List.forall_mem_append]
    exact ⟨ih, by simp [Token.Lexical]⟩

theorem Checked.lexical {type : TypeRef} (h : Checked type) (s : Scope) :
    ∀ t ∈ type.tokens s, t.Lexical :=
  h.wellFormed.lexical s

end TypeRef

/-! ## The tokens of expressions -/

namespace Expr

theorem lexical_call_iff (s : Scope) {callee : Callee} {arguments : List Expr} :
    (∀ t ∈ (call callee arguments).tokens s, t.Lexical) ↔
      (∀ t ∈ callee.tokens s, t.Lexical) ∧ ∀ e ∈ arguments, ∀ t ∈ e.tokens s, t.Lexical := by
  rw [tokens, List.forall_mem_append, List.forall_mem_append, List.forall_mem_append,
    tokensAll_eq, Token.lexical_intercalate_iff, List.forall_mem_map]
  simp [Token.Lexical]

theorem lexical_reference {receiver : List Token} {name : String}
    (hr : ∀ t ∈ receiver, t.Lexical) (h : Identifier.Valid name) :
    ∀ t ∈ receiver ++ [.punct .doubleColon, .ident name], t.Lexical := by
  rw [List.forall_mem_append]
  exact ⟨hr, by simpa [Token.Lexical] using Token.lexical_ident h⟩

end Expr

namespace Call

theorem ofName_eq_ok_iff {name : String} {c : Call} :
    ofName name = .ok c ↔ Identifier.Valid name ∧ c = ⟨.direct name, []⟩ := by
  unfold ofName
  simp only [bind_eq_ok_iff, Identifier.check_eq_ok_iff, exists_and_left, exists_const]
  simp [pure, Except.pure, eq_comm]

theorem callStatic_eq_ok_iff {type : TypeRef} {name : String} {c : Call} :
    type.callStatic name = .ok c ↔
      Identifier.Valid name ∧ c = ⟨.static type.erasure name, []⟩ := by
  unfold TypeRef.callStatic
  simp only [bind_eq_ok_iff, Identifier.check_eq_ok_iff, exists_and_left, exists_const]
  simp [pure, Except.pure, eq_comm]

theorem lexical_ofName {name : String} {c : Call} (h : ofName name = .ok c) (s : Scope) :
    ∀ t ∈ c.toExpr.tokens s, t.Lexical := by
  obtain ⟨hname, rfl⟩ := ofName_eq_ok_iff.mp h
  rw [toExpr, Expr.lexical_call_iff]
  exact ⟨by simpa [Callee.tokens] using Token.lexical_ident hname, by simp⟩

theorem lexical_callStatic {type : TypeRef} {name : String} {c : Call} (ht : type.Checked)
    (h : type.callStatic name = .ok c) (s : Scope) : ∀ t ∈ c.toExpr.tokens s, t.Lexical := by
  obtain ⟨hname, rfl⟩ := callStatic_eq_ok_iff.mp h
  rw [toExpr, Expr.lexical_call_iff, Callee.tokens, List.forall_mem_append]
  exact ⟨⟨ht.erasure.lexical s, by simpa [Token.Lexical] using Token.lexical_ident hname⟩, by simp⟩

end Call

theorem Expr.Checked.lexical {e : Expr} (h : e.Checked) (s : Scope) :
    ∀ t ∈ e.tokens s, t.Lexical := by
  induction h with
  | int literal =>
    rw [tokens, List.forall_mem_singleton]
    exact Or.inl literal.isNumber_text
  | str text =>
    rw [tokens, List.forall_mem_singleton]
    exact Or.inr ⟨text, rfl⟩
  | var hs h =>
    rw [tokens, List.forall_mem_singleton]
    exact Token.lexical_ident (hs.request_valid h)
  | array _ ih =>
    rw [tokens, List.forall_mem_append, List.forall_mem_append, tokensAll_eq,
      Token.lexical_intercalate_iff, List.forall_mem_map]
    exact ⟨⟨by simp [Token.Lexical], ih⟩, by simp [Token.Lexical]⟩
  | member h m =>
    rw [TypeRef.member, tokens, List.forall_mem_append]
    exact ⟨h.erasure.lexical s, by simp [Token.Lexical]⟩
  | thisMethod h =>
    have hthis : ∀ t ∈ [Token.keyword .thisWord], t.Lexical := by simp [Token.Lexical]
    exact lexical_reference hthis h
  | exprMethod _ h ih => exact lexical_reference ih h
  | typeMethod ht h => exact lexical_reference (ht.lexical s) h
  | callName h => exact Call.lexical_ofName h s
  | callStatic ht h => exact Call.lexical_callStatic ht h s
  | callTypeName h =>
    obtain ⟨type, htype, h⟩ := bind_eq_ok_iff.mp h
    exact Call.lexical_callStatic (.ofName htype) h s
  | @callElement element c h =>
    unfold Call.ofElement at h
    split at h
    · exact Call.lexical_ofName h s
    · cases h
  | create ht =>
    rw [Call.toExpr, lexical_call_iff]
    exact ⟨by simpa [TypeRef.create, Callee.tokens, Token.Lexical] using ht.lexical s,
      by simp [TypeRef.create]⟩
  | withArguments _ _ ih iha =>
    rw [Call.toExpr, lexical_call_iff] at ih ⊢
    refine ⟨ih.1, ?_⟩
    rw [Call.withArguments, List.forall_mem_append]
    exact ⟨ih.2, iha⟩

theorem Node.Checked.lexical {node : Node} (h : node.Checked) (s : Scope) :
    ∀ t ∈ node.tokens s, t.Lexical := by
  cases node with
  | type t => exact TypeRef.Checked.lexical h s
  | expr e => exact Expr.Checked.lexical h s
  | call c => exact Expr.Checked.lexical h s

/-! ## The text of a node -/

/-- Scanning the text of a node gives the tokens of the node, cut at the dots of their names.
Keywords are reserved words, and no part of a name is one. -/
theorem scan_render {node : Node} (h : node.Checked) (u : CompilationUnit) (settings : Settings) :
    Lexeme.scan (node.render u settings).toList
        = some ((node.tokens (.ofUnit u settings)).flatMap Token.lexemes) ∧
      (∀ k, Token.keyword k ∈ node.tokens (.ofUnit u settings) →
        Identifier.isReserved k.text = true) ∧
      ∀ text, Token.ident text ∈ node.tokens (.ofUnit u settings) →
        ∀ segment ∈ Text.fieldsOf '.' text, Identifier.isReserved segment = false := by
  have hlexical := h.lexical (.ofUnit u settings)
  refine ⟨?_, fun k _ => k.isReserved_text, fun text hm segment hs => ?_⟩
  · obtain ⟨added, htext, hscan, -⟩ :=
      Page.scan_writeTokens hlexical (p := .blank u settings) fun _ => rfl
    have hrender : node.render u settings = added := by
      show ((Page.blank u settings).writeTokens (node.tokens (.ofUnit u settings))).text = added
      rw [htext]
      exact String.empty_append
    rw [hrender]
    exact hscan
  · exact Identifier.Valid.isReserved (hlexical _ hm segment hs)

/-- A constructor call with type arguments, a method reference and a quote inside a literal. -/
theorem scan_render_newEntry :
    let entry := ClassName.nested (.top "p" "Map") "Entry"
    let type := TypeRef.generic entry [.string, .array (.primitive .int)]
    let node := Node.call ⟨.create type, [.exprMethod (.var ⟨0, "x"⟩) "run", .str "\""]⟩
    node.Checked ∧ Lexeme.scan (node.render .empty .standard).toList =
      some [.reserved "new", .identifier "p", .punct .dot, .identifier "Map", .punct .dot,
        .identifier "Entry", .punct .less, .identifier "String", .punct .comma, .reserved "int",
        .punct .openBracket, .punct .closeBracket, .punct .greater, .punct .openParen,
        .identifier "x", .punct .doubleColon, .identifier "run", .punct .comma,
        .literal "\"\\\"\"", .punct .closeParen] := by
  intro entry type node
  have hmap : TypeRef.ofClass "p" "Map" = .ok (.named (.top "p" "Map")) := rfl
  have hnested : (TypeRef.named (.top "p" "Map")).nestedClass "Entry" = .ok (.named entry) := rfl
  have hentry : (TypeRef.named entry).Checked := .nestedClass (.ofClass hmap) hnested
  have htype : type.Checked := by
    have harguments : (TypeRef.named entry).withArguments [.string, .array (.primitive .int)]
        = .ok type := rfl
    refine .withArguments hentry ?_ harguments
    simp only [List.forall_mem_cons]
    exact ⟨.string, .array (.primitive .int), by simp⟩
  have hname : (Expr.var ⟨0, "x"⟩).Checked :=
    .var .empty (show (Naming.empty.request 0 "x").2 = .ok ⟨0, "x"⟩ from rfl)
  have hnode : node.Checked := by
    refine .withArguments (Expr.Checked.create htype) ?_
    simp only [List.forall_mem_cons]
    exact ⟨.exprMethod hname (by decide), .str _, by simp⟩
  exact ⟨hnode, (scan_render hnode .empty .standard).1.trans (by decide)⟩

end JavaSource
