import Lib3MF.Common.Platform.XmlReaderNative

/-!
# Decoding in place

`decodeXMLEscapeXMLStrings` on the buffer, with its three pointers. `decodeAt` is what it comes to.
-/

namespace NMR

open Lib

/-- The pointers `pIterChar`, `pWriteChar` and `pAmp`, as offsets in the buffer. -/
structure DecodeState where
  chars : List UInt8
  iterChar : Nat
  writeChar : Nat
  amp : Option Nat
  deriving DecidableEq

namespace DecodeState

/-- `*pIterChar`. -/
def current (s : DecodeState) : UInt8 := s.chars.getD s.iterChar 0

/-- `*pWriteChar = c`, and `pWriteChar++`. -/
def put (s : DecodeState) (c : UInt8) : DecodeState :=
  { s with chars := s.chars.set s.writeChar c, writeChar := s.writeChar + 1 }

/-- A round of the loop. -/
def round (s : DecodeState) : Except Error DecodeState :=
  if s.current = '&'.toUInt8 then
    .ok { s with amp := some s.iterChar, iterChar := s.iterChar + 1 }
  else
    match s.amp with
    | none => .ok { s.put s.current with iterChar := s.iterChar + 1 }
    | some amp =>
      if s.current = ';'.toUInt8 then
        match decodeEscape (XmlBuffer.slice s.chars amp (s.iterChar + 1)) with
        | .error e => .error e
        | .ok d => .ok { s.put d with iterChar := s.iterChar + 1, amp := none }
      else .ok { s with iterChar := s.iterChar + 1 }

theorem round_advances {s t : DecodeState} (h : s.round = .ok t) :
    t.iterChar = s.iterChar + 1 ∧ t.chars.length = s.chars.length := by
  unfold round at h
  split at h
  · obtain rfl := Except.ok.inj h
    exact ⟨rfl, rfl⟩
  · split at h
    · obtain rfl := Except.ok.inj h
      exact ⟨rfl, List.length_set⟩
    · split at h
      · split at h
        · cases h
        · obtain rfl := Except.ok.inj h
          exact ⟨rfl, List.length_set⟩
      · obtain rfl := Except.ok.inj h
        exact ⟨rfl, rfl⟩

theorem iterChar_lt {s : DecodeState} (h : s.current ≠ 0) : s.iterChar < s.chars.length := by
  by_contra hn
  apply h
  rw [current, List.getD_eq_getElem?_getD, List.getElem?_eq_none (by omega)]
  rfl

/-- The loop, up to the zero. -/
def loop (s : DecodeState) : Except Error DecodeState :=
  if _h : s.current = 0 then .ok s
  else
    match _hr : s.round with
    | .error e => .error e
    | .ok t => loop t
termination_by s.chars.length - s.iterChar
decreasing_by
  have hlt := iterChar_lt ‹_›
  have hadv := round_advances ‹_›
  omega

/-- What is behind the loop. -/
def finish (s : DecodeState) : Except Error (List UInt8) :=
  if s.amp.isSome then .error .xmlParserInvalidEscapeString else .ok (s.chars.set s.writeChar 0)

end DecodeState

/-- `decodeXMLEscapeXMLStrings` of the string at `p`. -/
def decodeInPlace (chars : List UInt8) (p : Nat) : Except Error (List UInt8) :=
  if '&'.toUInt8 ∈ cString chars p then
    match DecodeState.loop ⟨chars, p, p, none⟩ with
    | .error e => .error e
    | .ok s => s.finish
  else .ok chars

end NMR
