import Mathlib.Data.Int.Order.Basic
import Mathlib.Data.Nat.Digits.Defs

/-!
# SQL scalar operations

The scalar operations that statements over nullable `TEXT` and `INTEGER`
columns use. A `NULL` operand makes `=` and `<>` unknown, which a `WHERE`
clause treats as false (`sqlEq`, `sqlNe`); `IS` compares `NULL` like any other
value, and is plain `==` here.
-/

namespace Relational

/-- The largest value of an `INTEGER` column. -/
def maxInteger : Int := 9223372036854775807

/-- The smallest value of an `INTEGER` column. -/
def minInteger : Int := -9223372036854775808

/-- `a = b` in a `WHERE` clause. -/
def sqlEq {α : Type} [BEq α] : Option α → Option α → Bool
  | some a, some b => a == b
  | _, _ => false

/-- `a <> b` in a `WHERE` clause. -/
def sqlNe {α : Type} [BEq α] : Option α → Option α → Bool
  | some a, some b => a != b
  | _, _ => false

theorem sqlEq_some {α : Type} [BEq α] [LawfulBEq α] {a : Option α} {v : α} :
    sqlEq a (some v) = true ↔ a = some v := by
  cases a <;> simp [sqlEq]

theorem sqlEq_some_left {α : Type} [BEq α] [LawfulBEq α] {b : Option α} {v : α} :
    sqlEq (some v) b = true ↔ b = some v := by
  cases b with
  | none => simp [sqlEq]
  | some w => rw [sqlEq, beq_iff_eq, Option.some_inj, eq_comm]

/-- `a = b OR (a IS NULL AND b IS NULL)`. -/
def sqlSame {α : Type} [BEq α] (a b : Option α) : Bool :=
  sqlEq a b || (a.isNone && b.isNone)

theorem sqlSame_iff {α : Type} [BEq α] [LawfulBEq α] {a b : Option α} :
    sqlSame a b = true ↔ a = b := by
  cases a <;> cases b <;> simp [sqlSame, sqlEq]

/-! ## Text -/

/-- `s` begins with `pre`. -/
def startsWith (s pre : String) : Bool := pre.toList.isPrefixOf s.toList

/-- The characters of a text. Those of a literal are found by unification (`Spelling.lit`), so that
a test of literals is decided over characters, without decoding their bytes. -/
structure Spelling (s : String) where
  chars : List Char
  spelled : s.toList = chars

namespace Spelling

def lit (chars : List Char) : Spelling (String.ofList chars) := ⟨chars, String.toList_ofList⟩

end Spelling

/-- `s LIKE pre || '%'`, for a prefix without wildcards: `LIKE` ignores the case
of ASCII letters. -/
def likePrefix (pre s : String) : Bool :=
  (pre.toList.map Char.toLower).isPrefixOf (s.toList.map Char.toLower)

/-- The value of a run of decimal digits. -/
def digitsValue (ds : List Char) : Nat :=
  ds.foldl (fun n c => 10 * n + (c.toNat - '0'.toNat)) 0

/-- The blanks that a text-to-integer cast skips. -/
def isBlank (c : Char) : Bool :=
  c = ' ' || c = '\t' || c = '\n' || c = '\x0b' || c = '\x0c' || c = '\r'

/-- `CAST(text AS INTEGER)`: the longest numeric prefix after leading blanks, `0`
when there is none, and the nearest bound when it does not fit. -/
def castInteger (s : String) : Int :=
  match s.toList.dropWhile isBlank with
  | '-' :: rest => max minInteger (-(digitsValue (rest.takeWhile Char.isDigit) : Int))
  | '+' :: rest => min maxInteger (digitsValue (rest.takeWhile Char.isDigit) : Int)
  | rest => min maxInteger (digitsValue (rest.takeWhile Char.isDigit) : Int)

/-- `CAST(n AS TEXT)`. -/
def castText (n : Int) : String := toString n

example : castInteger " 42x" = 42 := by decide
example : castInteger "99999999999999999999" = maxInteger := by decide

end Relational
