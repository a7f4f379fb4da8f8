import JavaSource.Proofs.Outline

/-!
# Reading tokens

A reader that takes one token at a time and never looks ahead.  It keeps what it has read since the
last opening sign or comma, and for every group that is still open what the group is and what it
holds so far.  Run over the tokens of a node, it ends with the outline of the node
(`TypeRef.run_tokens`, `Expr.reads_tokens`), so nodes with the same tokens have the same outline,
and with it the same shape (`sameShape_of_tokens_eq`).
-/

namespace JavaSource

/-! ## The reader -/

/-- What commas divide, and what it becomes with its last sign. -/
inductive Group where
  | generic (text : String)
  | array
  | call (callee : Outline)

namespace Group

def closing : Group → Punct
  | generic _ => .greater
  | array => .closeBrace
  | call _ => .closeParen

def close : Group → List Outline → Outline
  | generic text, items => .generic text items
  | array, items => .array items
  | call callee, items => .call callee items

end Group

/-- A group that is still open, with the items before the last comma. -/
structure Frame where
  group : Group
  items : List Outline
  /-- Whether the group is part of a type that `new` stands before. -/
  fresh : Bool

/-- What has been read since the last opening sign or comma. -/
inductive Focus where
  | start
  | operand (o : Outline)
  | bracket (o : Outline)
  | dot (o : Outline)
  | colons (o : Outline)

structure Reader where
  stack : List Frame
  /-- Whether `new` stands before the operand. -/
  fresh : Bool
  focus : Focus

namespace Reader

/-- Starts a group in which nothing is read yet. -/
def push (r : Reader) (group : Group) (fresh : Bool) : Reader :=
  ⟨⟨group, [], fresh⟩ :: r.stack, false, .start⟩

/-- Ends the innermost group, with the last of its items if there is one. -/
def pop? (r : Reader) (sign : Punct) (last : List Outline) : Option Reader :=
  match r.stack with
  | [] => none
  | frame :: stack =>
    if sign = frame.group.closing then
      some ⟨stack, frame.fresh, .operand (frame.group.close (frame.items ++ last))⟩
    else none

def comma? (r : Reader) (item : Outline) : Option Reader :=
  match r.stack with
  | [] => none
  | frame :: stack => some ⟨{ frame with items := frame.items ++ [item] } :: stack, false, .start⟩

/-- Starts the type arguments of a class. -/
def less? (r : Reader) : Outline → Option Reader
  | .name text => some (r.push (.generic text) r.fresh)
  | _ => none

def step (r : Reader) (t : Token) : Option Reader :=
  match r.focus, t with
  | .start, .keyword (.primitive p) => some { r with focus := .operand (.primitive p) }
  | .start, .keyword .thisWord => some { r with focus := .operand .this }
  | .start, .keyword .newWord => some { r with fresh := true }
  | .start, .ident text => some { r with focus := .operand (.name text) }
  | .start, .literal text => some { r with focus := .operand (.literal text) }
  | .start, .punct .openBrace => some (r.push .array r.fresh)
  | .start, .punct sign => r.pop? sign []
  | .operand o, .punct .less => r.less? o
  | .operand o, .punct .openParen =>
    some (r.push (.call (if r.fresh then .create o else o)) false)
  | .operand o, .punct .openBracket => some { r with focus := .bracket o }
  | .operand o, .punct .dot => some { r with focus := .dot o }
  | .operand o, .punct .doubleColon => some { r with focus := .colons o }
  | .operand o, .punct .comma => r.comma? o
  | .operand o, .punct sign => r.pop? sign [o]
  | .bracket o, .punct .closeBracket => some { r with focus := .operand (.arrayOf o) }
  | .dot o, .keyword k => some { r with focus := .operand (.member o k) }
  | .dot o, .ident name => some { r with focus := .operand (.static o name) }
  | .colons o, .ident name => some { r with focus := .operand (.method o name) }
  | _, _ => none

def run (r : Reader) (tokens : List Token) : Option Reader := tokens.foldlM step r

theorem run_append {r r' : Reader} {tokens : List Token} (h : r.run tokens = some r')
    (rest : List Token) : r.run (tokens ++ rest) = r'.run rest := by
  rw [run, List.foldlM_append, ← run, h]
  rfl

/-! ## Groups -/

/-- Wherever an operand may begin, the tokens are read as one with the given outline. -/
def Reads (tokens : List Token) (o : Outline) : Prop :=
  ∀ stack, run ⟨stack, false, .start⟩ tokens = some ⟨stack, false, .operand o⟩

theorem step_closing (g : Group) (items : List Outline) (fresh : Bool) (stack : List Frame)
    (o : Outline) :
    step ⟨⟨g, items, fresh⟩ :: stack, false, .operand o⟩ (.punct g.closing)
      = some ⟨stack, fresh, .operand (g.close (items ++ [o]))⟩ := by
  cases g <;> rfl

theorem step_closing_empty (g : Group) (fresh : Bool) (stack : List Frame) :
    step ⟨⟨g, [], fresh⟩ :: stack, false, .start⟩ (.punct g.closing)
      = some ⟨stack, fresh, .operand (g.close [])⟩ := by
  cases g <;> rfl

theorem run_items (g : Group) (fresh : Bool) (stack : List Frame) {tokens : List Token}
    {o : Outline} {tail : List (List Token)} {os : List Outline} (h : Reads tokens o)
    (htail : List.Forall₂ Reads tail os) (items : List Outline) :
    run ⟨⟨g, items, fresh⟩ :: stack, false, .start⟩
        ([Token.punct .comma].intercalate (tokens :: tail) ++ [.punct g.closing])
      = some ⟨stack, fresh, .operand (g.close (items ++ o :: os))⟩ := by
  -- On the items after the first; those already read are kept in the frame.
  induction htail generalizing tokens o items with
  | nil =>
    rw [List.intercalate_singleton, run_append (h _)]
    show (step _ _).bind some = _
    rw [step_closing]
    rfl
  | @cons next o' tail os hnext _ ih =>
    have hcomma : run ⟨⟨g, items, fresh⟩ :: stack, false, .operand o⟩ [.punct .comma]
        = some ⟨⟨g, items ++ [o], fresh⟩ :: stack, false, .start⟩ := rfl
    rw [List.intercalate_cons_cons, List.append_assoc, List.append_assoc, run_append (h _),
      run_append hcomma, ih hnext (items ++ [o]), List.append_assoc]
    rfl

/-- A group is read as what it holds, whatever stands around it. -/
theorem run_group (g : Group) (fresh : Bool) (stack : List Frame) {tokens : List (List Token)}
    {os : List Outline} (h : List.Forall₂ Reads tokens os) :
    run ⟨⟨g, [], fresh⟩ :: stack, false, .start⟩
        ([Token.punct .comma].intercalate tokens ++ [.punct g.closing])
      = some ⟨stack, fresh, .operand (g.close os)⟩ := by
  cases h with
  | nil =>
    show (step _ _).bind some = _
    rw [step_closing_empty]
    rfl
  | cons hfirst htail => exact run_items g fresh stack hfirst htail []

end Reader

open Reader

/-! ## Types -/

namespace TypeRef

mutual

/-- A type is read the same with and without `new` before it. -/
theorem run_tokens (s : Scope) : ∀ (t : TypeRef) (stack : List Frame) (fresh : Bool),
    run ⟨stack, fresh, .start⟩ (t.tokens s) = some ⟨stack, fresh, .operand (t.outline s)⟩
  | primitive p, stack, fresh => rfl
  | named c, stack, fresh => rfl
  | generic raw arguments, stack, fresh => by
    have hgroup := run_group (.generic (raw.spelling s)) fresh stack (reads_tokensAll s arguments)
    rw [tokens, tokensAll_eq, List.append_assoc]
    exact hgroup
  | array element, stack, fresh => by
    rw [tokens, run_append (run_tokens s element stack fresh)]
    rfl

theorem reads_tokensAll (s : Scope) : ∀ types : List TypeRef,
    List.Forall₂ Reads (types.map (tokens s)) (outlineAll s types)
  | [] => .nil
  | type :: types => .cons (fun stack => run_tokens s type stack false) (reads_tokensAll s types)

end

end TypeRef

/-! ## Expressions -/

/-- After the opening sign the reader is in the group of the call. -/
theorem Callee.run_tokens (s : Scope) (callee : Callee) (stack : List Frame) :
    run ⟨stack, false, .start⟩ (callee.tokens s ++ [.punct .openParen])
      = some ⟨⟨.call (callee.outline s), [], false⟩ :: stack, false, .start⟩ := by
  cases callee with
  | direct name => rfl
  | static type name =>
    rw [tokens, List.append_assoc, run_append (type.run_tokens s stack false)]
    rfl
  | create type =>
    have hnew : run ⟨stack, false, .start⟩ [.keyword .newWord] = some ⟨stack, true, .start⟩ := rfl
    rw [tokens, List.append_assoc, run_append hnew, run_append (type.run_tokens s stack true)]
    rfl

namespace Expr

mutual

theorem reads_tokens (s : Scope) : ∀ e : Expr, Reads (e.tokens s) (e.outline s)
  | int literal, stack => rfl
  | str text, stack => rfl
  | var name, stack => rfl
  | array members, stack => by
    have hgroup := run_group .array false stack (reads_tokensAll s members)
    rw [tokens, tokensAll_eq, List.append_assoc]
    exact hgroup
  | member type m, stack => by
    rw [tokens, run_append (type.run_tokens s stack false)]
    rfl
  | thisMethod name, stack => rfl
  | exprMethod receiver name, stack => by
    rw [tokens, run_append (reads_tokens s receiver stack)]
    rfl
  | typeMethod type name, stack => by
    rw [tokens, run_append (type.run_tokens s stack false)]
    rfl
  | call callee arguments, stack => by
    have hgroup := run_group (.call (callee.outline s)) false stack (reads_tokensAll s arguments)
    rw [tokens, tokensAll_eq, List.append_assoc, run_append (callee.run_tokens s stack)]
    exact hgroup

theorem reads_tokensAll (s : Scope) : ∀ es : List Expr,
    List.Forall₂ Reads (es.map (tokens s)) (outlineAll s es)
  | [] => .nil
  | e :: es => .cons (reads_tokens s e) (reads_tokensAll s es)

end

end Expr

/-- Expressions with the same tokens have the same shape. -/
theorem sameShape_of_tokens_eq (u : CompilationUnit) (settings : Settings) {a b : Expr}
    (h : a.tokens (.ofUnit u settings) = b.tokens (.ofUnit u settings)) :
    a.SameShape (.ofUnit u settings) b := by
  have ha := a.reads_tokens (.ofUnit u settings) []
  have hb := b.reads_tokens (.ofUnit u settings) []
  rw [h, hb] at ha
  have houtline : b.outline (.ofUnit u settings) = a.outline (.ofUnit u settings) := by
    injection ha with ha
    injection ha with _ _ hfocus
    injection hfocus
  exact a.sameShape_of_outline _ b houtline.symm

/-- A variable and a class of the package at hand are one receiver, and groups of four digits leave
a single digit alone. -/
theorem sameShape_of_tokens_eq_receiver :
    let u : CompilationUnit := ⟨"p", .empty, .empty⟩
    let s := Scope.ofUnit u .standard
    let a := Expr.array [.exprMethod (.var ⟨0, "x"⟩) "m", .ofInt32 .hex 1 0]
    let b := Expr.array [.typeMethod (.named (.top "p" "x")) "m", .ofInt32 .hex 1 4]
    a ≠ b ∧ a.tokens s = b.tokens s ∧ a.SameShape s b := by
  intro u s a b
  have htokens : a.tokens s = b.tokens s := by decide
  exact ⟨by decide, htokens, sameShape_of_tokens_eq u .standard htokens⟩

end JavaSource
