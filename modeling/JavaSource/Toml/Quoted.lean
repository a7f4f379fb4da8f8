import JavaSource.Toml.Scalar

/-!
# TOML strings

Basic strings stand between double quotes and know escapes; literal strings stand between single
quotes and know none.  Both have a form over several lines between three quotes.  A string is read
in two steps: its end is found first, and then what stands between is decoded.
-/

namespace JavaSource.Toml

/-- Characters that may stand in strings and comments as they are: no control characters but the
tab. -/
def isPlain (c : Char) : Bool := c == '\t' || (0x20 ≤ c.toNat && c.toNat != 0x7f)

/-- Whether `cs` holds plain characters and line ends only. -/
def isPlainText : List Char → Bool
  | [] => true
  | '\n' :: cs => isPlainText cs
  | '\r' :: '\n' :: cs => isPlainText cs
  | c :: cs => isPlain c && isPlainText cs

/-- Takes a line end off the front. -/
def newline? : List Char → Option (List Char)
  | '\n' :: cs => some cs
  | '\r' :: '\n' :: cs => some cs
  | _ => none

/-- Cuts at the first double quote that no backslash stands before. -/
def cutBasic? : List Char → Option (List Char × List Char)
  | [] => none
  | '"' :: rest => some ([], rest)
  | '\\' :: c :: cs => (cutBasic? cs).map fun (body, rest) => ('\\' :: c :: body, rest)
  | c :: cs => (cutBasic? cs).map fun (body, rest) => (c :: body, rest)

/-- Cuts at the first three quotes in a row; up to two quotes before them belong to the text.
Where `escapes` holds, a backslash protects the character after it. -/
def cutLines? (quote : Char) (escapes : Bool) : List Char → Option (List Char × List Char)
  | [] => none
  | c :: cs =>
    if escapes ∧ c = '\\' then
      match cs with
      | [] => none
      | d :: cs => (cutLines? quote escapes cs).map fun (body, rest) => (c :: d :: body, rest)
    else
      match cs with
      | d :: e :: rest =>
        if c = quote ∧ d = quote ∧ e = quote ∧ rest.head? ≠ some quote then some ([], rest)
        else if c = quote ∧ d = quote ∧ e = quote ∧ rest.take 3 = [quote, quote, quote] then
          some ([quote, quote], rest.drop 2)
        else (cutLines? quote escapes (d :: e :: rest)).map fun (body, rest) => (c :: body, rest)
      | _ => none

/-- The character that a one-letter escape stands for. -/
def shortEscape? : Char → Option Char
  | 'b' => some '\x08'
  | 't' => some '\t'
  | 'n' => some '\n'
  | 'f' => some '\x0c'
  | 'r' => some '\r'
  | 'e' => some '\x1b'
  | '"' => some '"'
  | '\\' => some '\\'
  | _ => none

/-- The character with a code point given in hexadecimal; surrogates are none. -/
def codePoint? (digits : List Char) : Option Char := do
  let n ← natural? 16 digits
  if n.isValidChar then some (Char.ofNat n) else none

/-- Where the decoder of a basic string stands. -/
inductive DecodeState where
  | text
  /-- After a backslash that is the last visible character of its line. -/
  | lineEnd
  /-- In the blanks and line ends that such a backslash removes. -/
  | skipped
  deriving DecidableEq, Repr

/-- Decodes what stands in a basic string; line ends are allowed where `lines` holds. -/
def decodeBasic? (lines : Bool) : DecodeState → List Char → Option (List Char)
  | .lineEnd, [] => none
  | _, [] => some []
  | .lineEnd, '\n' :: cs => decodeBasic? lines .skipped cs
  | .lineEnd, '\r' :: '\n' :: cs => decodeBasic? lines .skipped cs
  | .lineEnd, c :: cs =>
    if c = ' ' ∨ c = '\t' then decodeBasic? lines .lineEnd cs else none
  | _, '\\' :: 'x' :: a :: b :: cs => do
    let c ← codePoint? [a, b]
    (decodeBasic? lines .text cs).map (c :: ·)
  | _, '\\' :: 'u' :: a :: b :: c :: d :: cs => do
    let c ← codePoint? [a, b, c, d]
    (decodeBasic? lines .text cs).map (c :: ·)
  | _, '\\' :: 'U' :: a :: b :: c :: d :: e :: f :: g :: h :: cs => do
    let c ← codePoint? [a, b, c, d, e, f, g, h]
    (decodeBasic? lines .text cs).map (c :: ·)
  | _, '\\' :: c :: cs =>
    match shortEscape? c with
    | some c => (decodeBasic? lines .text cs).map (c :: ·)
    | none => if lines then decodeBasic? lines .lineEnd (c :: cs) else none
  | state, '\n' :: cs =>
    if state = .skipped then decodeBasic? lines state cs
    else if lines then (decodeBasic? lines .text cs).map ('\n' :: ·)
    else none
  | state, '\r' :: '\n' :: cs =>
    if state = .skipped then decodeBasic? lines state cs
    else if lines then (decodeBasic? lines .text cs).map fun text => '\r' :: '\n' :: text
    else none
  | state, c :: cs =>
    if state = .skipped ∧ (c = ' ' ∨ c = '\t') then decodeBasic? lines state cs
    else if isPlain c ∧ c ≠ '\\' then (decodeBasic? lines .text cs).map (c :: ·)
    else none

/-- A line end right after the opening quotes is not part of the text. -/
def dropFirstNewline (cs : List Char) : List Char := (newline? cs).getD cs

/-- Reads a string on one line, as keys may be too. -/
def line? : List Char → Option (String × List Char)
  | '"' :: cs => do
    let (body, rest) ← cutBasic? cs
    let text ← decodeBasic? false .text body
    return (String.ofList text, rest)
  | '\x27' :: cs => do
    let rest ← expect? '\x27' (cs.dropWhile (· ≠ '\x27'))
    let body := cs.takeWhile (· ≠ '\x27')
    if body.all isPlain then some (String.ofList body, rest) else none
  | _ => none

/-- Reads a string of any of the four kinds. -/
def string? : List Char → Option (String × List Char)
  | '"' :: '"' :: '"' :: cs => do
    let (body, rest) ← cutLines? '"' true cs
    let text ← decodeBasic? true .text (dropFirstNewline body)
    return (String.ofList text, rest)
  | '\x27' :: '\x27' :: '\x27' :: cs => do
    let (body, rest) ← cutLines? '\x27' false cs
    if isPlainText body then some (String.ofList (dropFirstNewline body), rest) else none
  | cs => line? cs

end JavaSource.Toml
