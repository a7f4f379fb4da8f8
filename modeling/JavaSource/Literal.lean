import JavaSource.Error
import JavaSource.Text.Written

/-!
# Integer literals

An integer literal has a value, a width, and the way it is written: a radix, which is 2, 10 or 16,
and the length of its digit groups.  Decimal literals carry a sign; the others show the two's
complement of the value in their width.
-/

namespace JavaSource

inductive Radix where
  | binary
  | decimal
  | hex
  deriving DecidableEq, Repr

namespace Radix

def base : Radix → Nat
  | binary => 2
  | decimal => 10
  | hex => 16

/-- What is written before the digits. -/
def mark : Radix → String
  | binary => "0b"
  | decimal => ""
  | hex => "0x"

/-- The radix with a base; the width only says what the complaint is about. -/
def ofBase (base : Nat) (width : Width) : Except Error Radix :=
  match base with
  | 2 => .ok binary
  | 10 => .ok decimal
  | 16 => .ok hex
  | _ => .error (.unsupportedRadix base width)

end Radix

structure IntLiteral where
  value : Int64
  width : Width
  radix : Radix
  /-- The length of a digit group, zero for no groups. -/
  interval : Nat
  /-- The value is one of the width's. -/
  fits : width.holds value.toInt
  deriving DecidableEq, Repr

namespace IntLiteral

/-- What stands between digit groups. -/
def separator : Char := '_'

/-- A literal of the given width; the radix is checked before the value. -/
def make (value : Int64) (width : Width) (base interval : Nat) : Except Error IntLiteral := do
  let radix ← Radix.ofBase base width
  if fits : width.holds value.toInt then return ⟨value, width, radix, interval, fits⟩
  else throw (.literalOutOfRange value.toInt width)

theorem holds_toInt64 (value : Int32) : Width.int.holds value.toInt64.toInt := by
  have lower := value.le_toInt
  have upper := value.toInt_lt
  rw [Width.holds_iff, Width.size, Int32.toInt_toInt64]
  omega

theorem holds_long (value : Int64) : Width.long.holds value.toInt := by
  have lower := value.le_toInt
  have upper := value.toInt_lt
  rw [Width.holds_iff, Width.size]
  omega

def ofInt32 (value : Int32) (radix : Radix) (interval : Nat) : IntLiteral :=
  ⟨value.toInt64, .int, radix, interval, holds_toInt64 value⟩

def ofInt64 (value : Int64) (radix : Radix) (interval : Nat) : IntLiteral :=
  ⟨value, .long, radix, interval, holds_long value⟩

def isNegative (l : IntLiteral) : Bool := l.radix = .decimal ∧ l.value.toInt < 0

/-- The number that the digits write: the distance from zero in decimal, the bits of the value in
its width otherwise. -/
def magnitude (l : IntLiteral) : Nat :=
  match l.radix with
  | .decimal => l.value.toInt.natAbs
  | _ => (l.value.toInt % l.width.size).toNat

theorem magnitude_of_decimal {l : IntLiteral} (h : l.radix = .decimal) :
    l.magnitude = l.value.toInt.natAbs := by
  rw [magnitude, h]

theorem magnitude_of_ne_decimal {l : IntLiteral} (h : l.radix ≠ .decimal) :
    l.magnitude = (l.value.toInt % l.width.size).toNat := by
  rw [magnitude]
  split
  · next hdecimal => exact absurd hdecimal h
  · rfl

/-- The digits without groups. -/
def plainDigits (l : IntLiteral) : String := String.ofList (Text.digits l.radix.base l.magnitude)

/-- The digits in groups. -/
def digits (l : IntLiteral) : String := Text.group l.plainDigits l.interval separator

/-- The literal as it is written. -/
def text (l : IntLiteral) : String :=
  (if l.isNegative then "-" else "") ++ l.radix.mark ++ l.digits ++ l.width.suffix

end IntLiteral

end JavaSource
