import JavaSource.Proofs.Expr.Checked
import Mathlib.Data.Finset.Card

/-!
# The identity of name nodes

Contexts are asked for nodes, or for expressions that mention them, in any order.  A node is made at
the first request for an identifier in a context and handed out again at every later one, which no
longer looks at the identifier.  `Sound` is what every request keeps: no text twice in a context,
and no stamp twice anywhere.  Since nodes stay where they are, two answers of a run can be compared
in its last state, and `run_interned` says that they are the same node exactly if context and
identifier are.
-/

namespace JavaSource.Naming

/-! ## States -/

/-- Nodes are told apart by their texts in a context, and by their stamps everywhere. -/
structure Sound (s : Naming) : Prop where
  texts : ∀ context, ((s.names context).map Name.text).Nodup
  below : ∀ context, ∀ n ∈ s.names context, n.stamp < s.next
  apart : ∀ {context other : Nat} {n m : Name}, n ∈ s.names context → m ∈ s.names other →
    n.stamp = m.stamp → context = other ∧ n = m

theorem Sound.stamp_eq_iff {s : Naming} (h : s.Sound) {context other : Nat} {n m : Name}
    (hn : n ∈ s.names context) (hm : m ∈ s.names other) : n.stamp = m.stamp ↔ n = m :=
  ⟨fun hstamp => (h.apart hn hm hstamp).2, congrArg Name.stamp⟩

theorem Sound.eq_iff {s : Naming} (h : s.Sound) {context other : Nat} {n m : Name}
    (hn : n ∈ s.names context) (hm : m ∈ s.names other) :
    n = m ↔ context = other ∧ n.text = m.text := by
  constructor
  · rintro rfl
    exact ⟨(h.apart hn hm rfl).1, rfl⟩
  · rintro ⟨rfl, htext⟩
    exact List.inj_on_of_nodup_map (h.texts context) hn hm htext

theorem Sound.extend {s : Naming} (h : s.Sound) {context : Nat} {identifier : String}
    (hnew : (s.names context).find? (·.text = identifier) = none) :
    (s.extend context identifier).Sound where
  texts := by
    intro other
    rw [names_extend]
    split
    · rw [List.map_append, List.nodup_append]
      refine ⟨h.texts context, by simp, ?_⟩
      intro text htext fresh hfresh heq
      obtain ⟨n, hn, rfl⟩ := List.mem_map.mp htext
      have hidentifier : n.text = identifier := by
        simpa using heq.trans (List.mem_singleton.mp hfresh)
      exact absurd hidentifier (by simpa using List.find?_eq_none.mp hnew n hn)
    · exact h.texts other
  below := by
    intro other n hn
    show n.stamp < s.next + 1
    rcases mem_names_extend.mp hn with hn | ⟨-, rfl⟩
    · have hlt := h.below other n hn
      omega
    · exact Nat.lt_succ_self s.next
  apart := by
    intro c d n m hn hm hstamp
    rcases mem_names_extend.mp hn with hold | ⟨rfl, rfl⟩
    · rcases mem_names_extend.mp hm with hold' | ⟨-, rfl⟩
      · exact h.apart hold hold' hstamp
      · -- The stamp of a new node is larger than all stamps in use.
        have hlt := h.below c n hold
        simp only at hstamp
        omega
    · rcases mem_names_extend.mp hm with hold' | ⟨rfl, rfl⟩
      · have hlt := h.below d m hold'
        simp only at hstamp
        omega
      · exact ⟨rfl, rfl⟩

theorem Sound.reset {s : Naming} (h : s.Sound) (context : Nat) : (s.reset context).Sound := by
  have hsub (other : Nat) : ((s.reset context).names other).Sublist (s.names other) := by
    show (if other = context then [] else s.names other).Sublist (s.names other)
    split
    · exact List.nil_sublist _
    · exact List.Sublist.refl _
  refine ⟨fun other => ?_, fun other n hn => ?_, fun hn hm => ?_⟩
  · exact (h.texts other).sublist ((hsub other).map Name.text)
  · exact h.below other n ((hsub other).mem hn)
  · exact h.apart ((hsub _).mem hn) ((hsub _).mem hm)

theorem Reachable.sound {s : Naming} (h : Reachable s) : s.Sound := by
  induction h with
  | empty =>
    refine ⟨fun _ => List.nodup_nil, fun _ n hn => ?_, fun hn => ?_⟩
    · cases hn
    · cases hn
  | @request s _ context identifier ih =>
    rcases s.request_cases context identifier with ⟨_, _, _, heq⟩ | ⟨hnew, _, heq⟩ | ⟨_, _, _, heq⟩
    · rw [heq]
      exact ih
    · rw [heq]
      exact ih.extend hnew
    · rw [heq]
      exact ih
  | reset _ context ih => exact ih.reset context

/-! ## Requests -/

structure Request where
  context : Nat
  identifier : String
  /-- Whether an expression is asked for, and not the bare node. -/
  inExpr : Bool

inductive Answer where
  | node (name : Name)
  | expr (e : Expr)

namespace Answer

/-- The node that was handed out. -/
def name? : Answer → Option Name
  | node name => some name
  | expr e => e.name?

end Answer

/-- The state that a request leaves, refused or not, and its answer. -/
def ask (s : Naming) (r : Request) : Naming × Except Error Answer :=
  if r.inExpr then
    let (s, e) := s.mention r.context r.identifier
    (s, e.map .expr)
  else
    let (s, name) := s.request r.context r.identifier
    (s, name.map .node)

def run (s : Naming) (requests : List Request) : Naming :=
  requests.foldl (fun s r => (s.ask r).1) s

/-- The requests with their answers. -/
def transcript (s : Naming) : List Request → List (Request × Except Error Answer)
  | [] => []
  | r :: requests => (r, (s.ask r).2) :: transcript (s.ask r).1 requests

/-- The identifiers that a context was asked for, repetitions included and other names left out. -/
def asked (context : Nat) (requests : List Request) : List String :=
  (requests.filter fun r => r.context = context ∧ Identifier.Valid r.identifier).map
    Request.identifier

/-- What is handed out is the node, alone or in the expression that mentions it. -/
def Request.answer (r : Request) (name : Name) : Answer :=
  if r.inExpr then .expr (.var name) else .node name

theorem name?_answer (r : Request) (name : Name) : (r.answer name).name? = some name := by
  rw [Request.answer]
  split <;> rfl

theorem ask_eq (s : Naming) (r : Request) :
    s.ask r = ((s.request r.context r.identifier).1,
      (s.request r.context r.identifier).2.map r.answer) := by
  rw [ask, mention]
  obtain ⟨left, found⟩ := s.request r.context r.identifier
  cases hr : r.inExpr with
  | false =>
    have hanswer : r.answer = Answer.node := funext fun _ => by simp [Request.answer, hr]
    rw [hanswer]
    rfl
  | true =>
    have hanswer : r.answer = Answer.expr ∘ Expr.var :=
      funext fun _ => by simp [Request.answer, hr]
    rw [hanswer]
    cases found <;> rfl

theorem ask_cases (s : Naming) (r : Request) :
    (∃ name ∈ s.names r.context, name.text = r.identifier ∧ s.ask r = (s, .ok (r.answer name))) ∨
    (Identifier.Valid r.identifier ∧
      s.ask r = (s.extend r.context r.identifier, .ok (r.answer ⟨s.next, r.identifier⟩))) ∨
    (¬Identifier.Valid r.identifier ∧ ∃ e, s.ask r = (s, .error e)) := by
  rw [ask_eq]
  rcases s.request_cases r.context r.identifier with
    ⟨name, hname, htext, heq⟩ | ⟨-, hvalid, heq⟩ | ⟨-, hvalid, e, heq⟩
  · rw [heq]
    exact Or.inl ⟨name, hname, htext, rfl⟩
  · rw [heq]
    exact Or.inr (Or.inl ⟨hvalid, rfl⟩)
  · rw [heq]
    exact Or.inr (Or.inr ⟨hvalid, e, rfl⟩)

theorem Reachable.ask {s : Naming} (hs : s.Reachable) (r : Request) : (s.ask r).1.Reachable := by
  rw [ask_eq]
  exact hs.request r.context r.identifier

/-- A node that is found was made for an identifier, so it does no harm that the name is not checked
again. -/
theorem Reachable.exists_ask_eq_ok_iff {s : Naming} (hs : s.Reachable) (r : Request) :
    (∃ answer, (s.ask r).2 = .ok answer) ↔ Identifier.Valid r.identifier := by
  rcases s.ask_cases r with
    ⟨name, hname, htext, hask⟩ | ⟨hvalid, hask⟩ | ⟨hvalid, e, hask⟩
  · have hvalid : Identifier.Valid r.identifier := htext ▸ hs.valid hname
    simp [hask, hvalid]
  · simp [hask, hvalid]
  · simp [hask, hvalid]

theorem mem_names_ask {s : Naming} {context : Nat} {name : Name} (h : name ∈ s.names context)
    (r : Request) : name ∈ (s.ask r).1.names context := by
  rcases s.ask_cases r with ⟨_, _, _, hask⟩ | ⟨_, hask⟩ | ⟨_, _, hask⟩
  · rw [hask]
    exact h
  · rw [hask]
    exact mem_names_extend.mpr (Or.inl h)
  · rw [hask]
    exact h

theorem exists_of_ask_eq_ok {s : Naming} {r : Request} {answer : Answer}
    (h : (s.ask r).2 = .ok answer) :
    ∃ name ∈ (s.ask r).1.names r.context, answer = r.answer name ∧ name.text = r.identifier := by
  rcases s.ask_cases r with ⟨name, hname, htext, hask⟩ | ⟨-, hask⟩ | ⟨-, e, hask⟩
  · rw [hask] at h ⊢
    exact ⟨name, hname, (Except.ok.inj h).symm, htext⟩
  · rw [hask] at h ⊢
    exact ⟨_, mem_names_extend.mpr (Or.inr ⟨rfl, rfl⟩), (Except.ok.inj h).symm, rfl⟩
  · rw [hask] at h
    cases h

theorem contains_iff {s : Naming} {context : Nat} {identifier : String} :
    s.contains context identifier = true ↔ identifier ∈ (s.names context).map Name.text := by
  simp [contains]

theorem contains_ask_iff {s : Naming} {r : Request} {context : Nat} {identifier : String} :
    (s.ask r).1.contains context identifier = true ↔
      s.contains context identifier = true ∨
        (r.context = context ∧ Identifier.Valid r.identifier) ∧ r.identifier = identifier := by
  rcases s.ask_cases r with
    ⟨name, hname, htext, hask⟩ | ⟨hvalid, hask⟩ | ⟨hvalid, e, hask⟩
  · rw [hask]
    refine (or_iff_left_of_imp ?_).symm
    rintro ⟨⟨rfl, -⟩, rfl⟩
    exact contains_iff.mpr (List.mem_map.mpr ⟨name, hname, htext⟩)
  · rw [hask, contains_iff, contains_iff, List.mem_map, List.mem_map]
    simp only [mem_names_extend]
    constructor
    · rintro ⟨name, hname | ⟨rfl, rfl⟩, htext⟩
      · exact Or.inl ⟨name, hname, htext⟩
      · exact Or.inr ⟨⟨rfl, hvalid⟩, htext⟩
    · rintro (⟨name, hname, htext⟩ | ⟨⟨rfl, -⟩, htext⟩)
      · exact ⟨name, Or.inl hname, htext⟩
      · exact ⟨_, Or.inr ⟨rfl, rfl⟩, htext⟩
  · rw [hask]
    exact (or_iff_left fun h => hvalid h.1.2).symm

/-! ## Runs -/

theorem Reachable.run {s : Naming} (hs : s.Reachable) (requests : List Request) :
    (s.run requests).Reachable := by
  induction requests generalizing s with
  | nil => exact hs
  | cons r requests ih => exact ih (hs.ask r)

theorem mem_names_run {s : Naming} {context : Nat} {name : Name} (h : name ∈ s.names context)
    (requests : List Request) : name ∈ (s.run requests).names context := by
  induction requests generalizing s with
  | nil => exact h
  | cons r requests ih => exact ih (mem_names_ask h r)

theorem map_fst_transcript (s : Naming) (requests : List Request) :
    (s.transcript requests).map Prod.fst = requests := by
  induction requests generalizing s with
  | nil => rfl
  | cons r requests ih => exact congrArg (r :: ·) (ih _)

/-- The answers of a run, one by one, whatever was asked for before. -/
theorem Reachable.exists_answer_iff {s : Naming} (hs : s.Reachable) {requests : List Request}
    {r : Request} {answer : Except Error Answer} (h : (r, answer) ∈ s.transcript requests) :
    (∃ a, answer = .ok a) ↔ Identifier.Valid r.identifier := by
  induction requests generalizing s with
  | nil => cases h
  | cons first requests ih =>
    rcases List.mem_cons.mp h with heq | h
    · cases heq
      exact hs.exists_ask_eq_ok_iff r
    · exact ih (hs.ask first) h

/-- A node that was handed out is in its context in the end. -/
theorem exists_of_mem_transcript {s : Naming} {requests : List Request} {r : Request}
    {answer : Answer} (h : (r, .ok answer) ∈ s.transcript requests) :
    ∃ name ∈ (s.run requests).names r.context,
      answer = r.answer name ∧ name.text = r.identifier := by
  induction requests generalizing s with
  | nil => cases h
  | cons first requests ih =>
    rcases List.mem_cons.mp h with heq | h
    · obtain ⟨rfl, hok⟩ := Prod.mk.inj heq
      obtain ⟨name, hname, hanswer⟩ := exists_of_ask_eq_ok hok.symm
      exact ⟨name, mem_names_run hname requests, hanswer⟩
    · exact ih h

theorem contains_run_iff {s : Naming} {requests : List Request} {context : Nat}
    {identifier : String} :
    (s.run requests).contains context identifier = true ↔
      s.contains context identifier = true ∨ identifier ∈ asked context requests := by
  induction requests generalizing s with
  | nil => simp [run, asked]
  | cons r requests ih =>
    have hasked : identifier ∈ asked context (r :: requests) ↔
        (r.context = context ∧ Identifier.Valid r.identifier) ∧ r.identifier = identifier ∨
          identifier ∈ asked context requests := by
      simp only [asked, List.mem_map, List.mem_filter, decide_eq_true_eq, List.mem_cons]
      constructor
      · rintro ⟨other, ⟨rfl | hmem, hcontext⟩, hidentifier⟩
        · exact Or.inl ⟨hcontext, hidentifier⟩
        · exact Or.inr ⟨other, ⟨hmem, hcontext⟩, hidentifier⟩
      · rintro (⟨hcontext, hidentifier⟩ | ⟨other, ⟨hmem, hcontext⟩, hidentifier⟩)
        · exact ⟨r, ⟨Or.inl rfl, hcontext⟩, hidentifier⟩
        · exact ⟨other, ⟨Or.inr hmem, hcontext⟩, hidentifier⟩
    rw [hasked, ← or_assoc, ← contains_ask_iff]
    exact ih

/-- What can be told of the answers to requests to new contexts, and of the contexts after them. -/
structure Interned (requests : List Request) : Prop where
  complete : (empty.transcript requests).map Prod.fst = requests
  answered : ∀ r answer, (r, answer) ∈ empty.transcript requests →
    ((∃ a, answer = .ok a) ↔ Identifier.Valid r.identifier)
  named : ∀ r a, (r, .ok a) ∈ empty.transcript requests →
    ∃ name, a.name? = some name ∧ name.text = r.identifier
  /-- Two nodes are the same, and two stamps, exactly if context and identifier are. -/
  identity : ∀ r a name r' a' name',
    (r, .ok a) ∈ empty.transcript requests → a.name? = some name →
    (r', .ok a') ∈ empty.transcript requests → a'.name? = some name' →
      (name = name' ↔ r.context = r'.context ∧ r.identifier = r'.identifier) ∧
        (name.stamp = name'.stamp ↔ name = name')
  failed : ∀ r e, ((empty.run requests).ask r).2 = .error e →
    ((empty.run requests).ask r).1 = empty.run requests
  size : ∀ context, (empty.run requests).size context = (asked context requests).toFinset.card
  contains : ∀ context identifier, (empty.run requests).contains context identifier = true ↔
    identifier ∈ asked context requests

theorem Sound.size_eq {s : Naming} (h : s.Sound) {context : Nat} {identifiers : List String}
    (hmem : ∀ identifier, s.contains context identifier = true ↔ identifier ∈ identifiers) :
    s.size context = identifiers.toFinset.card := by
  have heq : ((s.names context).map Name.text).toFinset = identifiers.toFinset := by
    ext identifier
    rw [List.mem_toFinset, List.mem_toFinset, ← contains_iff, hmem]
  rw [← heq, List.toFinset_card_of_nodup (h.texts context), List.length_map, size]

theorem ask_eq_of_error {s : Naming} {r : Request} {e : Error} (h : (s.ask r).2 = .error e) :
    (s.ask r).1 = s := by
  rcases s.ask_cases r with ⟨_, _, _, hask⟩ | ⟨_, hask⟩ | ⟨_, _, hask⟩
  · rw [hask]
  · rw [hask] at h
    cases h
  · rw [hask]

/-- However the requests to the contexts are mixed, a node stands for one context and one
identifier. -/
theorem run_interned (requests : List Request) : Interned requests := by
  have hreachable : (empty.run requests).Reachable := Reachable.empty.run requests
  have hsound := hreachable.sound
  have hcontains (context : Nat) (identifier : String) :
      (empty.run requests).contains context identifier = true ↔
        identifier ∈ asked context requests := by
    rw [contains_run_iff]
    exact or_iff_right (by simp [Naming.contains, empty])
  refine ⟨map_fst_transcript _ _, fun r answer h => Reachable.empty.exists_answer_iff h, ?_, ?_,
    fun r e h => ask_eq_of_error h, fun context => hsound.size_eq (hcontains context), hcontains⟩
  · intro r a h
    obtain ⟨name, -, rfl, htext⟩ := exists_of_mem_transcript h
    exact ⟨name, name?_answer r name, htext⟩
  · intro r a name r' a' name' h hname h' hname'
    obtain ⟨found, hmem, rfl, htext⟩ := exists_of_mem_transcript h
    obtain ⟨found', hmem', rfl, htext'⟩ := exists_of_mem_transcript h'
    rw [name?_answer] at hname hname'
    cases hname
    cases hname'
    refine ⟨?_, hsound.stamp_eq_iff hmem hmem'⟩
    rw [← htext, ← htext']
    exact hsound.eq_iff hmem hmem'

end JavaSource.Naming
