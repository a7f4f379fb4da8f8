import JavaSource.Toml.Quoted
import JavaSource.Toml.Table

/-!
# Reading TOML documents

A document is read line by line into statements: assignments and headers.  The statements are then
carried out on the empty table, which is where repeated keys and tables are refused.
`Document.ofText?` is the whole reader.
-/

namespace JavaSource.Toml

/-- The length of a text in UTF-8 bytes. -/
def utf8Length (cs : List Char) : Nat := cs.foldr (fun c n => c.utf8Size + n) 0

/-- The stretch from `cs` to `rest`, both of which reach to the end of a text of `total` bytes. -/
def spanTo (total : Nat) (cs rest : List Char) : Span :=
  ⟨total - utf8Length cs, utf8Length cs - utf8Length rest⟩

def isInlineBlank (c : Char) : Bool := c == ' ' || c == '\t'

def dropInlineBlanks (cs : List Char) : List Char := cs.dropWhile isInlineBlank

/-- Drops blanks, line ends and comments, as they may stand inside brackets. -/
def dropTrivia : (inComment : Bool) → List Char → List Char
  | _, [] => []
  | _, '\n' :: cs => dropTrivia false cs
  | _, '\r' :: '\n' :: cs => dropTrivia false cs
  | true, c :: cs => if isPlain c then dropTrivia true cs else c :: cs
  | false, c :: cs =>
    if isInlineBlank c then dropTrivia false cs
    else if c = '#' then dropTrivia true cs
    else c :: cs

/-! ## Keys -/

def isBareKeyPart (c : Char) : Bool := c.isAlphanum || c == '-' || c == '_'

/-- Reads one part of a key. -/
def keyPart? (total : Nat) (cs : List Char) : Option (Key × List Char) :=
  let bare := cs.takeWhile isBareKeyPart
  if bare.isEmpty then
    (line? cs).map fun (text, rest) => (⟨text, spanTo total cs rest⟩, rest)
  else
    let rest := cs.dropWhile isBareKeyPart
    some (⟨String.ofList bare, spanTo total cs rest⟩, rest)

/-- Reads the parts of a key and the blanks after it: what leads to its last part, and that part. -/
def key? (total : Nat) (cs : List Char) : Option (List Key × Key × List Char) := do
  let (part, rest) ← keyPart? total cs
  match dropInlineBlanks rest with
  | '.' :: more =>
    let next := dropInlineBlanks more
    if _h : next.length < cs.length then
      let (path, last, rest) ← key? total next
      return (part :: path, last, rest)
    else none
  | rest => return ([], part, rest)
termination_by cs.length

/-! ## Values -/

/-- Reads what stands between brackets: items with commas between them, the last of which may be
followed by one. -/
def items? {α : Type} (close : Char) (item? : List Char → Option (α × List Char))
    (cs : List Char) : Option (List α × List Char) :=
  match dropTrivia false cs with
  | [] => none
  | c :: rest =>
    if c = close then some ([], rest)
    else do
      let (item, rest) ← item? (c :: rest)
      match dropTrivia false rest with
      | [] => none
      | d :: rest =>
        if d = close then return ([item], rest)
        else if _h : d = ',' ∧ rest.length < cs.length then
          let (items, rest) ← items? close item? rest
          return (item :: items, rest)
        else none
termination_by cs.length
decreasing_by exact _h.2

/-- Reads `key = value`, with the blanks around the equals sign. -/
def assignment? (total : Nat) (value? : List Char → Option (Value × List Char))
    (cs : List Char) : Option ((List Key × Entry) × List Char) := do
  let (path, key, rest) ← key? total cs
  let rest ← expect? '=' rest
  let start := dropInlineBlanks rest
  let (value, rest) ← value? start
  return ((path, key, spanTo total start rest, value), rest)

/-- How deep arrays and tables between braces may stand in each other. -/
def maxNesting : Nat := 80

/-- Reads a value in which brackets nest at most `nesting` deep. -/
def value? (total : Nat) : (nesting : Nat) → List Char → Option (Value × List Char)
  | nesting, '[' :: cs =>
    match nesting with
    | 0 => none
    | nesting + 1 => do
      let (items, rest) ← items? ']' (value? total nesting) cs
      return (.array items, rest)
  | nesting, '\x7b' :: cs =>
    match nesting with
    | 0 => none
    | nesting + 1 => do
      let (fields, rest) ← items? '\x7d' (assignment? total (value? total nesting)) cs
      let entries ← fields.foldlM (fun entries field => assign field.1 field.2 entries) []
      return (.table .braces entries, rest)
  | _, '"' :: cs => (string? ('"' :: cs)).map fun (text, rest) => (.string text, rest)
  | _, '\x27' :: cs => (string? ('\x27' :: cs)).map fun (text, rest) => (.string text, rest)
  | _, cs =>
    let (run, rest) := takeScalar cs
    (scalar? run).map (·, rest)

/-! ## Statements -/

inductive Statement where
  | assign (path : List Key) (entry : Entry)
  | openTable (path : List Key) (key : Key) (span : Span)
  | openElement (path : List Key) (key : Key) (span : Span)

/-- Reads the rest of a line: blanks, perhaps a comment, and the line end or the end of the
text. -/
def lineEnd? (cs : List Char) : Option (List Char) :=
  let rest :=
    match dropInlineBlanks cs with
    | '#' :: comment => comment.dropWhile isPlain
    | rest => rest
  if rest = [] then some [] else newline? rest

/-- Reads the statement that a line begins with. -/
def statement? (total : Nat) : List Char → Option (Statement × List Char)
  | '[' :: '[' :: cs => do
    let (path, key, rest) ← key? total (dropInlineBlanks cs)
    let rest ← expect? ']' rest
    let rest ← expect? ']' rest
    return (.openElement path key (spanTo total ('[' :: '[' :: cs) rest), rest)
  | '[' :: cs => do
    let (path, key, rest) ← key? total (dropInlineBlanks cs)
    let rest ← expect? ']' rest
    return (.openTable path key (spanTo total ('[' :: cs) rest), rest)
  | cs => do
    let ((path, entry), rest) ← assignment? total (value? total maxNesting) cs
    return (.assign path entry, rest)

/-- Reads all lines; a line holds at most one statement. -/
def statements? (total : Nat) (cs : List Char) : Option (List Statement) :=
  if cs = [] then some []
  else do
    let (statement, rest) ←
      match lineEnd? cs with
      | some rest => some ([], rest)
      | none => do
        let (statement, rest) ← statement? total (dropInlineBlanks cs)
        let rest ← lineEnd? rest
        some ([statement], rest)
    if _h : rest.length < cs.length then
      let statements ← statements? total rest
      return statement ++ statements
    else none
termination_by cs.length

/-- Carries out statements on a document; `opened` leads to the table of the last header. -/
def runStatements : (opened : List Key) → List Statement → Document → Option Document
  | _, [], entries => some entries
  | opened, .assign path entry :: rest, entries => do
    let entries ← changeOpened opened (Toml.assign path entry) entries
    runStatements opened rest entries
  | _, .openTable path key span :: rest, entries => do
    let entries ← Toml.openTable path key span entries
    runStatements (path ++ [key]) rest entries
  | _, .openElement path key span :: rest, entries => do
    let entries ← Toml.openElement path key span entries
    runStatements (path ++ [key]) rest entries

namespace Document

/-- Reads a document, or nothing if the text is not TOML.  A byte order mark in front is not part
of it, but counts in the positions. -/
def ofText? (text : String) : Option Document := do
  let body :=
    match text.toList with
    | '\ufeff' :: cs => cs
    | cs => cs
  let statements ← statements? text.utf8ByteSize body
  runStatements [] statements []

end Document

end JavaSource.Toml
