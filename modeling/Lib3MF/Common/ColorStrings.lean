import Lib3MF.Common.StringToInt

/-!
# Colours as texts

`fnColorToString`, `fnStringToSRGBColor` and the conversion of its pieces by `strtoul` to base 16,
which skips blanks, takes a sign and a prefix `0x`, and gives 0 where nothing can be converted. A
text is what a string holds before its terminating zero.
-/

namespace NMR

/-- `fnColorDigitToHex`. -/
def fnColorDigitToHex (digit : Nat) : Char :=
  if digit < 10 then Char.ofNat (digit + 48)
  else if digit < 16 then Char.ofNat (digit + 55)
  else ' '

/-- Four bits of a colour. -/
def colorDigit (cColor : BitVec 32) (shift : Nat) : Nat := ((cColor >>> shift) &&& 0xf#32).toNat

/-- `fnColorToString`. -/
def fnColorToString (cColor : BitVec 32) : List Char :=
  ['#', fnColorDigitToHex (colorDigit cColor 4), fnColorDigitToHex (colorDigit cColor 0),
    fnColorDigitToHex (colorDigit cColor 12), fnColorDigitToHex (colorDigit cColor 8),
    fnColorDigitToHex (colorDigit cColor 20), fnColorDigitToHex (colorDigit cColor 16),
    fnColorDigitToHex (colorDigit cColor 28), fnColorDigitToHex (colorDigit cColor 24)]

/-- The value of a hexadecimal digit. -/
def hexDigitValue (c : Char) : Option Nat :=
  if 48 ≤ c.toNat ∧ c.toNat ≤ 57 then some (c.toNat - 48)
  else if 65 ≤ c.toNat ∧ c.toNat ≤ 70 then some (c.toNat - 55)
  else if 97 ≤ c.toNat ∧ c.toNat ≤ 102 then some (c.toNat - 87)
  else none

/-- `isxdigit`. -/
def isHexDigit (c : Char) : Bool := (hexDigitValue c).isSome

/-- The number that hexadecimal digits denote. -/
def ofHexDigits (digits : List Char) : Nat :=
  digits.foldl (fun n c => 16 * n + (hexDigitValue c).getD 0) 0

/-- A prefix `0x` belongs to the numeral where a digit follows it. -/
def skipHexMark : List Char → List Char
  | '0' :: x :: d :: text =>
    if (x = 'x' ∨ x = 'X') ∧ isHexDigit d then d :: text else '0' :: x :: d :: text
  | text => text

/-- The hexadecimal numeral that a text starts with, behind its blanks: the integer it denotes, and
what follows it. -/
def leadingHexNumeral (text : List Char) : Option (Int × List Char) :=
  let (negative, text) := splitSign (text.dropWhile isSpace)
  let text := skipHexMark text
  let digits := text.takeWhile isHexDigit
  let n : Int := ofHexDigits digits
  if digits = [] then none
  else some (if negative then -n else n, text.dropWhile isHexDigit)

namespace LongWidth

/-- `strtoul` to base 16: 0 and the whole text where nothing is converted. -/
def strtoulHex (w : LongWidth) (text : List Char) : Int × List Char :=
  match leadingHexNumeral text with
  | some (n, rest) => (w.wrap n, rest)
  | none => (0, text)

/-- `fnHexStringToUint32`. -/
def fnHexStringToUint32 (w : LongWidth) (text : List Char) : Except Error (BitVec 32) :=
  let (nResult, rest) := w.strtoulHex text
  if rest ≠ [] then .error .invalidHexValue
  else if w.ulongMax ≤ nResult then .error .rangeError
  else .ok (BitVec.ofInt 32 nResult)

/-- `substr` of two characters, converted. -/
def hexPiece (w : LongWidth) (text : List Char) (position : Nat) : Except Error (BitVec 32) :=
  w.fnHexStringToUint32 ((text.drop position).take 2)

/-- `fnStringToSRGBColor`: `none` where it returns `false`. -/
def fnStringToSRGBColor (w : LongWidth) (text : List Char) : Except Error (Option (BitVec 32)) :=
  if text.length = 7 then
    if text.head? ≠ some '#' then .ok none
    else do
      let nRed ← w.hexPiece text 1
      let nGreen ← w.hexPiece text 3
      let nBlue ← w.hexPiece text 5
      return some (nRed ||| (nGreen <<< 8) ||| (nBlue <<< 16) ||| (255#32 <<< 24))
  else if text.length = 9 then
    if text.head? ≠ some '#' then .ok none
    else do
      let nRed ← w.hexPiece text 1
      let nGreen ← w.hexPiece text 3
      let nBlue ← w.hexPiece text 5
      let nAlpha ← w.hexPiece text 7
      return some (nRed ||| (nGreen <<< 8) ||| (nBlue <<< 16) ||| (nAlpha <<< 24))
  else .ok none

end LongWidth

end NMR
