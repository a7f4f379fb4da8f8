import JavaSource.Text.CharClass

/-!
# Written numbers and strings

How values stand in a program or in a message.

* Numbers are written by decimal digits, with a minus before negative ones.
* Long runs of digits are cut into groups of one length, counted from the right.  The length of the
  text is taken in UTF-8 bytes and positions in characters, which is the same thing for digits.
* A text is written between double quotes.  Quotes, backslashes and the control characters that
  have a short escape are written with it, and every other control character as `\u` and four
  hexadecimal digits, so a literal never holds a control character.
-/

namespace JavaSource.Text

/-! ## Numbers -/

/-- The digits of `n` in a base up to 16, lower-case, the most significant first. -/
def digits (base n : Nat) : List Char := Nat.toDigits base n

def natural (n : Nat) : String := String.ofList (digits 10 n)

def integer (i : Int) : String := if i < 0 then "-" ++ natural i.natAbs else natural i.natAbs

/-! ## Digit groups -/

/-- Writes `sep` before each character whose distance to `total` is a multiple of `interval`,
except in front of the text; the first character is at `position`. -/
def groupFrom (total interval : Nat) (sep : Char) : Nat → List Char → List Char
  | _, [] => []
  | position, c :: cs =>
    let rest := c :: groupFrom total interval sep (position + 1) cs
    if 0 < position ∧ (total - position) % interval = 0 then sep :: rest else rest

/-- The text with `sep` between groups of `interval` characters; an interval of zero, or one that
the whole text fits in, leaves it as it is. -/
def group (digits : String) (interval : Nat) (sep : Char) : String :=
  if interval = 0 ∨ digits.utf8ByteSize ≤ interval then digits
  else String.ofList (groupFrom digits.utf8ByteSize interval sep 0 digits.toList)

/-! ## String literals -/

/-- The lower-case digit of `d < 16`. -/
def hexDigit (d : Nat) : Char := if d < 10 then Char.ofNat (48 + d) else Char.ofNat (87 + d)

/-- The last `width` hexadecimal digits of `n`, the most significant first. -/
def hexDigits : Nat → Nat → List Char
  | 0, _ => []
  | width + 1, n => hexDigits width (n / 16) ++ [hexDigit (n % 16)]

/-- The characters that stand for `c` inside a string literal. -/
def escape (c : Char) : List Char :=
  match c with
  | '"' => ['\\', '"']
  | '\\' => ['\\', '\\']
  | '\n' => ['\\', 'n']
  | '\r' => ['\\', 'r']
  | '\t' => ['\\', 't']
  | '\x08' => ['\\', 'b']
  | '\x0c' => ['\\', 'f']
  | c => if isControl c then ['\\', 'u'] ++ hexDigits 4 c.toNat else [c]

def quoteChars (cs : List Char) : List Char := ['"'] ++ cs.flatMap escape ++ ['"']

/-- The string literal of a text. -/
def quote (text : String) : String := String.ofList (quoteChars text.toList)

theorem toList_quote (text : String) :
    (quote text).toList = '"' :: (text.toList.flatMap escape ++ ['"']) := by
  rw [quote, String.toList_ofList]
  rfl

end JavaSource.Text
