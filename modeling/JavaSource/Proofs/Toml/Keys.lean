import JavaSource.Toml.Reader
import Mathlib.Data.List.Nodup

/-!
# The keys of a document

`Reader.Lawful` says what may be relied on in a reader: no document has a key twice, and the entries
are handed on in ascending order of their keys.  The rest of the module shows that the standard reader
is lawful (`Reader.lawful_standard`).

A document that it has read has no key twice (`distinct_ofText?`).  Statements change a table through
`changeAt`, which either hands the table to a change or puts one entry into it, so it is enough to
look at the changes that statements make (`Distinct.changeAt`), and then to follow a run of
statements.
-/

namespace JavaSource.Toml

def keys (entries : List Entry) : List String := entries.map fun e => e.key.text

/-- No key twice. -/
def Distinct (entries : List Entry) : Prop := (keys entries).Nodup

/-- What may be relied on in a reader. -/
structure Reader.Lawful (reader : Reader) : Prop where
  distinct : ∀ {text : String} {document : Document}, reader.read? text = some document →
    Distinct document
  /-- The entries that are handed on are those of the document. -/
  perm : ∀ document : Document, (reader.visit document).Perm document
  ascending : ∀ document : Document,
    (reader.visit document).Pairwise fun a b => a.key.text ≤ b.key.text

variable {entries result : List Entry}

/-! ## One entry -/

theorem keys_cons (entry : Entry) (entries : List Entry) :
    keys (entry :: entries) = entry.key.text :: keys entries := rfl

theorem keys_concat (entries : List Entry) (entry : Entry) :
    keys (entries ++ [entry]) = keys entries ++ [entry.key.text] := List.map_append

theorem keys_put (entry : Entry) (entries : List Entry) :
    keys (put entry entries) =
      if entry.key.text ∈ keys entries then keys entries else keys entries ++ [entry.key.text] := by
  induction entries with
  | nil => rfl
  | cons e entries ih =>
    rw [put]
    by_cases h : e.key.text = entry.key.text
    · simp [keys_cons, h]
    · rw [if_neg h, keys_cons, keys_cons, ih]
      by_cases hin : entry.key.text ∈ keys entries
      · rw [if_pos hin, if_pos (List.mem_cons_of_mem _ hin)]
      · rw [if_neg hin, if_neg (by simp [hin, Ne.symm h])]
        rfl

theorem Distinct.concat (h : Distinct entries) {entry : Entry}
    (hnew : entry.key.text ∉ keys entries) : Distinct (entries ++ [entry]) := by
  rw [Distinct, keys_concat, ← List.concat_eq_append]
  exact List.Nodup.concat hnew h

theorem Distinct.put (h : Distinct entries) (entry : Entry) : Distinct (put entry entries) := by
  rw [Distinct, keys_put]
  split
  · exact h
  · next hnew =>
    rw [← keys_concat]
    exact h.concat hnew

theorem Distinct.bind_put {α : Type} {x : Option α} {entry : α → Entry} (h : Distinct entries)
    (hresult : (x.bind fun a => some (Toml.put (entry a) entries)) = some result) :
    Distinct result := by
  obtain ⟨a, -, hput⟩ := Option.bind_eq_some_iff.mp hresult
  cases hput
  exact h.put (entry a)

theorem find?_eq_none_iff {key : Key} : find? key entries = none ↔ key.text ∉ keys entries := by
  simp only [find?, keys, List.find?_eq_none, decide_eq_true_eq, List.mem_map, not_exists, not_and]

/-! ## One statement -/

/-- On the way to a table further in, an entry of the table at hand is replaced or a new one is
added.  Only at the end of the way it is the change that decides. -/
theorem Distinct.changeAt {missing : Origin} {change : Origin → List Entry → Option (List Entry)}
    (hchange : ∀ {origin inner inner'}, change origin inner = some inner' → Distinct inner →
      Distinct inner')
    {origin : Origin} {path : List Key} (h : Distinct entries)
    (hresult : changeAt missing change origin path entries = some result) : Distinct result := by
  cases path with
  | nil => exact hchange hresult h
  | cons key path =>
    rw [Toml.changeAt] at hresult
    split at hresult
    · exact h.bind_put hresult
    · split at hresult
      · cases hresult
      · exact h.bind_put hresult
    · split at hresult
      · cases hresult
      · exact h.bind_put hresult
    · cases hresult

theorem Distinct.assign {path : List Key} {entry : Entry} (h : Distinct entries)
    (hresult : assign path entry entries = some result) : Distinct result := by
  refine h.changeAt (fun hchange hinner => ?_) hresult
  split at hchange
  · cases hchange
  · next hnew =>
    cases hchange
    refine hinner.concat (find?_eq_none_iff.mp ?_)
    exact Option.not_isSome_iff_eq_none.mp fun hsome => hnew (Or.inl hsome)

theorem Distinct.openTable {path : List Key} {key : Key} {span : Span} (h : Distinct entries)
    (hresult : openTable path key span entries = some result) : Distinct result := by
  refine h.changeAt (fun hchange hinner => ?_) hresult
  split at hchange
  · next hnone =>
    cases hchange
    exact hinner.concat (find?_eq_none_iff.mp hnone)
  · cases hchange
    exact hinner.put _
  · cases hchange

theorem Distinct.openElement {path : List Key} {key : Key} {span : Span} (h : Distinct entries)
    (hresult : openElement path key span entries = some result) : Distinct result := by
  refine h.changeAt (fun hchange hinner => ?_) hresult
  split at hchange
  · next hnone =>
    cases hchange
    exact hinner.concat (find?_eq_none_iff.mp hnone)
  · cases hchange
    exact hinner.put _
  · cases hchange

/-! ## Whole documents -/

theorem Distinct.runStatements {opened : List Key} {statements : List Statement}
    (h : Distinct entries) (hresult : runStatements opened statements entries = some result) :
    Distinct result := by
  induction statements generalizing opened entries with
  | nil =>
    cases hresult
    exact h
  | cons statement statements ih =>
    cases statement with
    | assign path entry =>
      obtain ⟨next, hnext, hrest⟩ := Option.bind_eq_some_iff.mp hresult
      exact ih (h.changeAt (fun hchange hinner => hinner.assign hchange) hnext) hrest
    | openTable path key span =>
      obtain ⟨next, hnext, hrest⟩ := Option.bind_eq_some_iff.mp hresult
      exact ih (h.openTable hnext) hrest
    | openElement path key span =>
      obtain ⟨next, hnext, hrest⟩ := Option.bind_eq_some_iff.mp hresult
      exact ih (h.openElement hnext) hrest

/-- A document that was read has no key twice. -/
theorem distinct_ofText? {text : String} {document : Document}
    (h : Document.ofText? text = some document) : Distinct document := by
  obtain ⟨statements, -, hrun⟩ := Option.bind_eq_some_iff.mp h
  have hempty : Distinct [] := List.nodup_nil
  exact hempty.runStatements hrun

/-! ## The standard reader -/

namespace Reader

theorem pairwise_inKeyOrder (document : Document) :
    (inKeyOrder document).Pairwise fun a b => a.key.text ≤ b.key.text := by
  have hle : (inKeyOrder document).Pairwise fun a b => decide (a.key.text ≤ b.key.text) = true := by
    apply List.pairwise_mergeSort
    · intro a b c hab hbc
      simp only [decide_eq_true_eq] at hab hbc ⊢
      exact String.le_trans hab hbc
    · intro a b
      simp only [Bool.or_eq_true, decide_eq_true_eq]
      exact String.le_total a.key.text b.key.text
  exact hle.imp fun hab => decide_eq_true_eq.mp hab

theorem lawful_standard : standard.Lawful where
  distinct := distinct_ofText?
  perm := fun _ => List.mergeSort_perm _ _
  ascending := pairwise_inKeyOrder

end Reader

end JavaSource.Toml
