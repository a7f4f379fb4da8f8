/-!
# Primitive types

The nine primitive types, `void` counted among them.  Each has a wrapper class; all but `Void` have
a primitive to go back to.  Two of them are the widths that integer literals have: `int` of 32 bits
and `long` of 64 bits, which is marked by the suffix `L`.
-/

namespace JavaSource

inductive Primitive where
  | boolean
  | byte
  | short
  | char
  | int
  | long
  | float
  | double
  | void
  deriving DecidableEq, Repr

namespace Primitive

def all : List Primitive := [boolean, byte, short, char, int, long, float, double, void]

def keyword : Primitive → String
  | boolean => "boolean"
  | byte => "byte"
  | short => "short"
  | char => "char"
  | int => "int"
  | long => "long"
  | float => "float"
  | double => "double"
  | void => "void"

/-- The simple name of the wrapper class. -/
def wrapper : Primitive → String
  | boolean => "Boolean"
  | byte => "Byte"
  | short => "Short"
  | char => "Character"
  | int => "Integer"
  | long => "Long"
  | float => "Float"
  | double => "Double"
  | void => "Void"

def ofKeyword? (word : String) : Option Primitive := all.find? (·.keyword = word)

/-- The primitive that a wrapper class unboxes to; `Void` has none. -/
def ofWrapper? (name : String) : Option Primitive :=
  (all.filter (· ≠ void)).find? (·.wrapper = name)

end Primitive

/-- The width of an integer literal. -/
inductive Width where
  | int
  | long
  deriving DecidableEq, Repr

namespace Width

/-- The keyword of the type that the literal has. -/
def keyword : Width → String
  | int => "int"
  | long => "long"

/-- How many values the width has: two to the number of its bits. -/
def size : Width → Nat
  | int => 0x100000000
  | long => 0x10000000000000000

/-- Whether a number lies in the width's range, which is half below zero and half above. -/
def holds (width : Width) (value : Int) : Bool :=
  -width.size ≤ 2 * value && 2 * value < width.size

theorem holds_iff {width : Width} {value : Int} :
    width.holds value = true ↔ -(width.size : Int) ≤ 2 * value ∧ 2 * value < width.size := by
  rw [holds, Bool.and_eq_true, decide_eq_true_eq, decide_eq_true_eq]

/-- What is written after the digits. -/
def suffix : Width → String
  | int => ""
  | long => "L"

end Width

end JavaSource
