import Mathlib.Algebra.Order.Ring.Int
import Lib3MF.Common.SpaceDelimited

/-!
# Texts to integers

`fnStringToInt32`, `fnStringToUint32` and `fnStringToInt32Comma` on a platform whose `long` has 32
or 64 bits. `strtol` cuts what a `long` cannot hold to its limits; `strtoul` cuts a magnitude that
is too large to `ULONG_MAX` and takes the negative of another one modulo its width.
-/

namespace NMR

/-- The width of `long`. -/
inductive LongWidth where
  | bits32
  | bits64
  deriving DecidableEq

namespace LongWidth

def bits : LongWidth → Nat
  | bits32 => 32
  | bits64 => 64

/-- `LONG_MAX`. -/
def longMax (w : LongWidth) : Int := 2 ^ (w.bits - 1) - 1

/-- `LONG_MIN`. -/
def longMin (w : LongWidth) : Int := -2 ^ (w.bits - 1)

/-- `ULONG_MAX`. -/
def ulongMax (w : LongWidth) : Int := 2 ^ w.bits - 1

end LongWidth

/-- A sign, and what follows it. -/
def splitSign : List Char → Bool × List Char
  | '-' :: text => (true, text)
  | '+' :: text => (false, text)
  | text => (false, text)

/-- The numeral that a text starts with, behind its blanks: the integer it denotes, and what
follows it. -/
def leadingNumeral (text : List Char) : Option (Int × List Char) :=
  let (negative, text) := splitSign (text.dropWhile isSpace)
  let digits := text.takeWhile Char.isDigit
  let n : Int := Nat.ofDigitChars 10 digits 0
  if digits = [] then none
  else some (if negative then -n else n, text.dropWhile Char.isDigit)

namespace LongWidth

/-- The value of `strtol`. -/
def saturate (w : LongWidth) (n : Int) : Int := max w.longMin (min w.longMax n)

/-- The value of `strtoul`. -/
def wrap (w : LongWidth) (n : Int) : Int :=
  if w.ulongMax < n.natAbs then w.ulongMax else n % 2 ^ w.bits

/-- `strtol`: `none` where nothing is converted. -/
def strtol (w : LongWidth) (text : List Char) : Option (Int × List Char) :=
  (leadingNumeral text).map fun (n, rest) => (w.saturate n, rest)

/-- `strtoul`. -/
def strtoul (w : LongWidth) (text : List Char) : Option (Int × List Char) :=
  (leadingNumeral text).map fun (n, rest) => (w.wrap n, rest)

/-- The checks behind a conversion: it took something, it ended at the end of the text or at one of
`stops`, and its value is no limit. -/
def checkConversion (stops : List Char) (isLimit : Int → Bool) :
    Option (Int × List Char) → Except Error Int
  | none => .error .emptyStringToIntConversion
  | some (n, rest) =>
    if (rest.head?.all fun c => c ∈ stops) = false then .error .invalidStringToIntConversion
    else if isLimit n then .error .stringToIntConversionOutOfRange
    else .ok n

/-- `fnStringToInt32`. -/
def fnStringToInt32 (w : LongWidth) (text : List Char) : Except Error Int :=
  (checkConversion [' '] (fun n => w.longMax ≤ n ∨ n ≤ w.longMin) (w.strtol text)).map
    fun n => n.bmod (2 ^ 32)

/-- `fnStringToUint32`. -/
def fnStringToUint32 (w : LongWidth) (text : List Char) : Except Error Int :=
  (checkConversion [' '] (fun n => w.ulongMax ≤ n) (w.strtoul text)).map fun n => n % 2 ^ 32

/-- `fnStringToInt32Comma`, which casts to `nfUint32` and then to `nfInt32`. -/
def fnStringToInt32Comma (w : LongWidth) (text : List Char) : Except Error Int :=
  (checkConversion [' ', ','] (fun n => w.longMax ≤ n ∨ n ≤ w.longMin) (w.strtol text)).map
    fun n => (n % 2 ^ 32).bmod (2 ^ 32)

end LongWidth

end NMR
