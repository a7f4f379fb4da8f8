import JavaSource.Text.Split
import JavaSource.Toml.Value

/-!
# TOML numbers, booleans and dates

A scalar without quotes is a run of letters, digits and a few signs.  Integers are signed 64-bit
numbers; floats and dates are only checked for their form and kept as written.
-/

namespace JavaSource.Toml

/-- The value of a digit of the base, letters counting on from ten. -/
def digit? (base : Nat) (c : Char) : Option Nat :=
  let value :=
    if c.isDigit then c.toNat - 48
    else if 'a' ≤ c ∧ c ≤ 'f' then c.toNat - 87
    else if 'A' ≤ c ∧ c ≤ 'F' then c.toNat - 55
    else base
  if value < base then some value else none

/-- The number written by digits of the base, the most significant first. -/
def natural? (base : Nat) (cs : List Char) : Option Nat :=
  cs.foldlM (fun n c => (digit? base c).map (n * base + ·)) 0

/-- Whether `cs` is made of digits of the base, with single underscores between digits. -/
def isGrouped (base : Nat) (cs : List Char) : Bool :=
  (cs.splitOn '_').all fun part => !part.isEmpty && part.all fun c => (digit? base c).isSome

def grouped? (base : Nat) (cs : List Char) : Option Nat :=
  if isGrouped base cs then natural? base (cs.filter (· ≠ '_')) else none

/-- A decimal number without superfluous zeros in front. -/
def decimal? : List Char → Option Nat
  | '0' :: _ :: _ => none
  | cs => grouped? 10 cs

def integer? (cs : List Char) : Option Int := do
  let value : Int ←
    match cs with
    | '0' :: 'x' :: ds => (grouped? 16 ds).map Int.ofNat
    | '0' :: 'o' :: ds => (grouped? 8 ds).map Int.ofNat
    | '0' :: 'b' :: ds => (grouped? 2 ds).map Int.ofNat
    | '+' :: ds => (decimal? ds).map Int.ofNat
    | '-' :: ds => (decimal? ds).map fun n => -Int.ofNat n
    | ds => (decimal? ds).map Int.ofNat
  if -0x8000000000000000 ≤ value ∧ value < 0x8000000000000000 then some value else none

def dropSign : List Char → List Char
  | '+' :: cs => cs
  | '-' :: cs => cs
  | cs => cs

def isExponent : List Char → Bool
  | 'e' :: cs => isGrouped 10 (dropSign cs)
  | 'E' :: cs => isGrouped 10 (dropSign cs)
  | _ => false

def isFloat (cs : List Char) : Bool :=
  let body := dropSign cs
  let inNumber := fun c : Char => c.isDigit || c == '_'
  let hasFraction :=
    match body.dropWhile inNumber with
    | '.' :: rest =>
      isGrouped 10 (rest.takeWhile inNumber) &&
        (rest.all inNumber || isExponent (rest.dropWhile inNumber))
    | rest => isExponent rest
  body == ['i', 'n', 'f'] || body == ['n', 'a', 'n'] ||
    ((decimal? (body.takeWhile inNumber)).isSome && hasFraction)

/-- Takes a number of exactly `width` decimal digits off the front. -/
def fixed? (width : Nat) (cs : List Char) : Option (Nat × List Char) :=
  let ds := cs.take width
  if ds.length = width then (natural? 10 ds).map (·, cs.drop width) else none

/-- Takes the character `c` off the front. -/
def expect? (c : Char) : List Char → Option (List Char)
  | [] => none
  | d :: cs => if d = c then some cs else none

def isLeapYear (year : Nat) : Bool := year % 4 == 0 && (year % 100 != 0 || year % 400 == 0)

def daysInMonth (year month : Nat) : Nat :=
  if month = 2 then (if isLeapYear year then 29 else 28)
  else if month ∈ [4, 6, 9, 11] then 30 else 31

/-- Takes `YYYY-MM-DD` off the front. -/
def date? (cs : List Char) : Option (List Char) := do
  let (year, cs) ← fixed? 4 cs
  let cs ← expect? '-' cs
  let (month, cs) ← fixed? 2 cs
  let cs ← expect? '-' cs
  let (day, cs) ← fixed? 2 cs
  if 1 ≤ month ∧ month ≤ 12 ∧ 1 ≤ day ∧ day ≤ daysInMonth year month then some cs else none

/-- Takes `HH:MM`, with seconds and their fraction if they are given, off the front. -/
def time? (cs : List Char) : Option (List Char) := do
  let (hour, cs) ← fixed? 2 cs
  let cs ← expect? ':' cs
  let (minute, cs) ← fixed? 2 cs
  if 23 < hour ∨ 59 < minute then none
  else
    match cs with
    | ':' :: cs => do
      let (second, cs) ← fixed? 2 cs
      if 60 < second then none
      else
        match cs with
        | '.' :: d :: cs => if d.isDigit then some (cs.dropWhile Char.isDigit) else none
        | cs => some cs
    | cs => some cs

/-- Whether `cs` is `Z` or a distance from it in hours and minutes. -/
def isOffset : List Char → Bool
  | ['Z'] => true
  | ['z'] => true
  | sign :: cs =>
    let distance := do
      let (hour, cs) ← fixed? 2 cs
      let cs ← expect? ':' cs
      let (minute, cs) ← fixed? 2 cs
      if hour ≤ 23 ∧ minute ≤ 59 then some cs else none
    (sign == '+' || sign == '-') && distance == some []
  | [] => false

/-- Whether `cs` is a date, a time, or a date and a time with or without an offset. -/
def isDatetime (cs : List Char) : Bool :=
  match date? cs with
  | some [] => true
  | some (mark :: rest) =>
    (mark == 'T' || mark == 't' || mark == ' ') &&
      match time? rest with
      | some [] => true
      | some after => isOffset after
      | none => false
  | none => time? cs == some []

/-- The value of a scalar without quotes. -/
def scalar? (cs : List Char) : Option Value :=
  if cs = ['t', 'r', 'u', 'e'] then some (.boolean true)
  else if cs = ['f', 'a', 'l', 's', 'e'] then some (.boolean false)
  else
    match integer? cs with
    | some value => some (.integer value)
    | none =>
      if isFloat cs then some (.float (String.ofList cs))
      else if isDatetime cs then some (.datetime (String.ofList cs))
      else none

/-- The characters that scalars without quotes are made of. -/
def isScalarPart (c : Char) : Bool := c.isAlphanum || ['_', '+', '-', '.', ':'].contains c

/-- Cuts a scalar without quotes off the front.  One space may stand between a date and a time. -/
def takeScalar (cs : List Char) : List Char × List Char :=
  let run := cs.takeWhile isScalarPart
  match cs.dropWhile isScalarPart with
  | ' ' :: d :: rest =>
    if d.isDigit ∧ date? run = some [] then
      (run ++ ' ' :: (d :: rest).takeWhile isScalarPart, (d :: rest).dropWhile isScalarPart)
    else (run, ' ' :: d :: rest)
  | rest => (run, rest)

end JavaSource.Toml
