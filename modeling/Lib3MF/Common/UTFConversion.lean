import Lib3MF.Lib.Checked
import Lib3MF.Lib.Unicode
import Lib3MF.Common.Exception

/-!
# Conversions between UTF-8 and UTF-16

`fnUTF8toUTF16`, `fnUTF16toUTF8` and `fnBufferedUTF8toUTF16`. A C string is read from its bytes
with the end byte behind them, a buffer from its bytes alone; a read behind these is
`Fault.outOfRange`. A `nfWChar` is a code unit of 16 bits; it has 32 bits on GCC, and the units
above `0xFFFF` that it can hold there are left out. The loops are given as many turns as there are
characters at most; a loop that needed more would end like a read out of range.
-/

namespace NMR

open Lib

/-- `NMR_MAXSTRINGBUFFERSIZE`. -/
def maxStringBufferSize : Nat := 1073741823

/-- `UTF8DecodeTable`. -/
def UTF8DecodeTable : List Nat :=
  List.replicate 128 1 ++ List.replicate 64 0 ++ List.replicate 32 2 ++ List.replicate 16 3 ++
    [4, 4, 4, 4, 4, 4, 4, 4, 5, 5, 5, 5, 6, 6, 0, 0]

/-- `UTF8DecodeMask`. -/
def UTF8DecodeMask : List Nat := [0, 0x7f, 0x1f, 0x0f, 0x07, 0x03, 0x01]

/-- The length of a sequence by its first byte. -/
def sequenceLength (cChar : UInt8) : Nat := UTF8DecodeTable.getD cChar.toNat 0

/-! ## Surrogates -/

/-- `fnUTF16CharIsHighSurrogate`. -/
def fnUTF16CharIsHighSurrogate (cChar : UInt16) : Bool := cChar.toNat &&& 0xfc00 = 0xd800

/-- `fnUTF16CharIsLowSurrogate`. -/
def fnUTF16CharIsLowSurrogate (cChar : UInt16) : Bool := cChar.toNat &&& 0xfc00 = 0xdc00

/-- `fnUTF16CharIsSurrogate`. -/
def fnUTF16CharIsSurrogate (cChar : UInt16) : Bool :=
  cChar.toNat &&& 0xfc00 = 0xd800 ∨ cChar.toNat &&& 0xfc00 = 0xdc00

/-- The code of a pair of surrogates, without the checks. -/
def surrogateCode (nHighSurrogate nLowSurrogate : UInt16) : Nat :=
  ((nHighSurrogate.toNat &&& 0x3ff) <<< 10 ||| (nLowSurrogate.toNat &&& 0x3ff)) + 0x10000

/-- `fnUTF16toCharacterID`: surrogates in the other order are exchanged. -/
def fnUTF16toCharacterID (nHighSurrogate nLowSurrogate : UInt16) : Except Error Nat :=
  let (nHighSurrogate, nLowSurrogate) :=
    if fnUTF16CharIsHighSurrogate nLowSurrogate && fnUTF16CharIsLowSurrogate nHighSurrogate then
      (nLowSurrogate, nHighSurrogate)
    else (nHighSurrogate, nLowSurrogate)
  if !fnUTF16CharIsHighSurrogate nHighSurrogate || !fnUTF16CharIsLowSurrogate nLowSurrogate then
    .error .couldNotConvertToUTF8
  else .ok (surrogateCode nHighSurrogate nLowSurrogate)

/-- `fnCharacterIDToUTF16`. -/
def fnCharacterIDToUTF16 (nCharacterID : Nat) : Except Error (UInt16 × UInt16) :=
  if nCharacterID < 0x10000 ∨ 0x10FFFF < nCharacterID then .error .couldNotConvertToUTF16
  else
    let nCharacterID := nCharacterID - 0x10000
    .ok (UInt16.ofNat ((nCharacterID >>> 10) ||| 0xd800),
      UInt16.ofNat ((nCharacterID &&& 0x3ff) ||| 0xdc00))

/-! ## From UTF-16 -/

/-- The bytes `fnUTF16toUTF8` writes for a character. -/
def encodeCharacter (nCharacter : Nat) : List UInt8 :=
  let byte := fun shift => UInt8.ofNat (((nCharacter >>> shift) &&& 0x3f) ||| 0x80)
  if nCharacter < 0x80 then [UInt8.ofNat nCharacter]
  else if nCharacter < 0x800 then [UInt8.ofNat ((nCharacter >>> 6) ||| 0xC0), byte 0]
  else if nCharacter < 0x10000 then
    [UInt8.ofNat ((nCharacter >>> 12) ||| 0xE0), byte 6, byte 0]
  else if nCharacter < 0x200000 then
    [UInt8.ofNat ((nCharacter >>> 18) ||| 0xF0), byte 12, byte 6, byte 0]
  else if nCharacter < 0x4000000 then
    [UInt8.ofNat ((nCharacter >>> 24) ||| 0xF8), byte 18, byte 12, byte 6, byte 0]
  else [UInt8.ofNat ((nCharacter >>> 30) ||| 0xFC), byte 24, byte 18, byte 12, byte 6, byte 0]

/-- The character at a unit, and the units behind it. -/
def readCharacter (cChar : UInt16) (s : List UInt16) : Checked Error (Nat × List UInt16) :=
  if fnUTF16CharIsSurrogate cChar then do
    let cLowChar ← elementAt s 0
    if cLowChar = 0 then throw (.throws .couldNotConvertToUTF8)
    let nCharacter ← Checked.lift (fnUTF16toCharacterID cChar cLowChar)
    return (nCharacter, s.tail)
  else return (cChar.toNat, s)

/-- The loop of `fnUTF16toUTF8`. -/
def utf16Loop : Nat → List UInt16 → Checked Error (List UInt8)
  | 0, _ => .error .outOfRange
  | turns + 1, s => do
    let cChar ← elementAt s 0
    if cChar = 0 then return []
    let (nCharacter, s) ← readCharacter cChar s.tail
    let bytes ← utf16Loop turns s
    return encodeCharacter nCharacter ++ bytes

/-- `fnUTF16toUTF8`. The result is made from the buffer as a C string. -/
def fnUTF16toUTF8 (sString : List UInt16) : Checked Error (List UInt8) :=
  if sString.length = 0 then .ok []
  else if maxStringBufferSize < sString.length then .error (.throws .invalidBufferSize)
  else do
    let bytes ← utf16Loop (sString.length + 1) (sString ++ [0])
    return zeroTerminated bytes

/-! ## From UTF-8 -/

/-- The units for a code. -/
def mapCode (nCode : Nat) : Except Error (List UInt16) :=
  if nCode < 0xd800 ∨ 0xe000 ≤ nCode ∧ nCode ≤ 0xffff then .ok [UInt16.ofNat nCode]
  else do
    let (nHighSurrogate, nLowSurrogate) ← fnCharacterIDToUTF16 nCode
    return [nHighSurrogate, nLowSurrogate]

/-- The loop over the other bytes of a sequence. The code has 31 bits at most. -/
def readSequence : Nat → Nat → List UInt8 → Checked Error (Nat × List UInt8)
  | 0, nCode, s => .ok (nCode, s)
  | _ + 1, _, [] => .error .outOfRange
  | n + 1, nCode, cChar :: s =>
    if cChar.toNat &&& 0xc0 ≠ 0x80 then .error (.throws .couldNotConvertToUTF16)
    else readSequence n ((nCode <<< 6) ||| (cChar.toNat &&& 0x3f)) s

/-- The look for a byte order mark. -/
def checkBOM (cChar : UInt8) (s : List UInt8) : Checked Error Bool :=
  if cChar = 0xef then do
    let second ← elementAt s 0
    if second = 0xbb then do
      let third ← elementAt s 1
      return decide (third = 0xbf)
    else return false
  else return false

/-- What stands in the loops of both decoders: the units for the sequence of `nLength` bytes that
begins with `cChar`, and the bytes behind it. -/
def decodeSequence (cChar : UInt8) (nLength : Nat) (s : List UInt8) :
    Checked Error (List UInt16 × List UInt8) := do
  let bIsBOM ← checkBOM cChar s
  if bIsBOM then return ([], s.drop 2)
  else do
    let (nCode, s) ←
      readSequence (nLength - 1) (cChar.toNat &&& UTF8DecodeMask.getD nLength 0) s
    let units ← Checked.lift (mapCode nCode)
    return (units, s)

/-- The loop of `fnUTF8toUTF16`. -/
def utf8Loop : Nat → List UInt8 → Checked Error (List UInt16)
  | 0, _ => .error .outOfRange
  | turns + 1, s => do
    let cChar ← elementAt s 0
    if cChar = 0 then return []
    if sequenceLength cChar = 0 then throw (.throws .couldNotConvertToUTF16)
    let (units, s) ← decodeSequence cChar (sequenceLength cChar) s.tail
    let rest ← utf8Loop turns s
    return units ++ rest

/-- `fnUTF8toUTF16`. The result is made from the buffer as a C string. -/
def fnUTF8toUTF16 (sString : List UInt8) : Checked Error (List UInt16) :=
  if sString.length = 0 then .ok []
  else if maxStringBufferSize < sString.length then .error (.throws .invalidBufferSize)
  else do
    let units ← utf8Loop (sString.length + 1) (sString ++ [0])
    return zeroTerminated units

/-- What `fnBufferedUTF8toUTF16` returns: the units, `pnLastChar` and `pcbNeededCharacters`. -/
structure BufferedResult where
  units : List UInt16
  lastChar : Nat
  neededCharacters : Nat
  deriving DecidableEq

/-- The loop of `fnBufferedUTF8toUTF16`, where `cbCount` is the number of bytes that are left. -/
def bufferedLoop : Nat → List UInt8 → Checked Error BufferedResult
  | 0, _ => .error .outOfRange
  | turns + 1, s =>
    if s.length = 0 then .ok ⟨[], 0, 0⟩
    else do
      let cChar ← elementAt s 0
      if sequenceLength cChar = 0 then throw (.throws .couldNotConvertToUTF16)
      if s.length < sequenceLength cChar then
        return ⟨[], 0, sequenceLength cChar - s.length⟩
      let (units, s) ← decodeSequence cChar (sequenceLength cChar) s.tail
      let rest ← bufferedLoop turns s
      return ⟨units ++ rest.units, sequenceLength cChar + rest.lastChar, rest.neededCharacters⟩

/-- `fnBufferedUTF8toUTF16`. -/
def fnBufferedUTF8toUTF16 (inBuffer : List UInt8) : Checked Error BufferedResult :=
  if maxStringBufferSize < inBuffer.length then .error (.throws .invalidBufferSize)
  else bufferedLoop (inBuffer.length + 1) inBuffer

end NMR
