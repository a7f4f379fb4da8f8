import JavaSource.Toml.Value

/-!
# Building TOML tables

A key may be assigned once, and a table may be opened once.  Headers and dotted keys walk from a
table to the tables inside it and create those that are missing; how a table came about decides
whether they may pass or end in it.
-/

namespace JavaSource.Toml

/-- Replaces the entry of `entry`'s key, or adds it at the end. -/
def put (entry : Entry) : List Entry → List Entry
  | [] => [entry]
  | e :: entries => if e.key.text = entry.key.text then entry :: entries else e :: put entry entries

def find? (key : Key) (entries : List Entry) : Option Entry :=
  entries.find? (·.key.text = key.text)

/-- Changes the table at the end of `path`, which starts at `entries`, a table of the origin
`origin`.  Missing tables are created with the origin `missing`.  A dotted key (`missing` is
`dotted`) does not enter a table that has a header; nothing enters a table between braces. -/
def changeAt (missing : Origin) (change : Origin → List Entry → Option (List Entry)) :
    Origin → List Key → List Entry → Option (List Entry)
  | origin, [], entries => change origin entries
  | _, key :: path, entries =>
    match find? key entries with
    | none => do
      let inner ← changeAt missing change missing path []
      return put (key, key.span, .table missing inner) entries
    | some (found, span, .table origin inner) =>
      if origin = .braces ∨ (origin = .header ∧ missing = .dotted) then none
      else do
        let inner ← changeAt missing change origin path inner
        return put (found, span, .table origin inner) entries
    | some (found, span, .tables elements) =>
      match elements.getLast? with
      | none => none
      | some last => do
        let last ← changeAt missing change .header path last
        return put (found, span, .tables (elements.dropLast ++ [last])) entries
    | some _ => none

/-- Assigns a value to a key, dotted if `path` is not empty. The key must be new, and the table
that a dotted key ends in must be one that dotted keys made. -/
def assign (path : List Key) (entry : Entry) (entries : List Entry) : Option (List Entry) :=
  changeAt .dotted
    (fun origin inner =>
      if (find? entry.key inner).isSome ∨ (path ≠ [] ∧ origin ≠ .dotted) then none
      else some (inner ++ [entry]))
    .header path entries

/-- Opens the table of a header.  A table that was only implied so far is opened where it is. -/
def openTable (path : List Key) (key : Key) (span : Span) (entries : List Entry) :
    Option (List Entry) :=
  changeAt .implied
    (fun _ inner =>
      match find? key inner with
      | none => some (inner ++ [(key, span, .table .header [])])
      | some (_, _, .table .implied kept) => some (put (key, span, .table .header kept) inner)
      | some _ => none)
    .header path entries

/-- Opens one more table of the array of tables of a double header. -/
def openElement (path : List Key) (key : Key) (span : Span) (entries : List Entry) :
    Option (List Entry) :=
  changeAt .implied
    (fun _ inner =>
      match find? key inner with
      | none => some (inner ++ [(key, span, .tables [[]])])
      | some (found, old, .tables elements) =>
        some (put (found, old, .tables (elements ++ [[]])) inner)
      | some _ => none)
    .header path entries

/-- Changes the table that the last header opened, which `path` leads to. -/
def changeOpened (path : List Key) (change : List Entry → Option (List Entry))
    (entries : List Entry) : Option (List Entry) :=
  changeAt .implied (fun _ inner => change inner) .header path entries

end JavaSource.Toml
