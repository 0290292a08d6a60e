import Mathlib.Data.List.Basic

/-!
# What is used of zlib

The checksum `crc32`, and a raw deflate stream as a parameter: `deflate` gives the output that
comes while an input is taken, `finish` the rest of it.
-/

namespace NMR

/-- One byte of the checksum: eight steps of the division by the polynomial 0xEDB88320. -/
def crcByte (crc : BitVec 32) (b : UInt8) : BitVec 32 :=
  (List.range 8).foldl
    (fun c _ => if c.getLsbD 0 then (c >>> 1) ^^^ 0xEDB88320 else c >>> 1)
    (crc ^^^ BitVec.ofNat 32 b.toNat)

/-- `crc32`, which goes on from the checksum of the bytes before. -/
def crc32 (crc : BitVec 32) (bytes : List UInt8) : BitVec 32 := ~~~ (bytes.foldl crcByte (~~~ crc))

theorem crc32_nil (crc : BitVec 32) : crc32 crc [] = crc := BitVec.not_not

/-- The checksum of a sequence, in two parts. -/
theorem crc32_append (crc : BitVec 32) (a b : List UInt8) :
    crc32 crc (a ++ b) = crc32 (crc32 crc a) b := by
  rw [crc32, crc32, crc32, List.foldl_append, BitVec.not_not]

/-- A raw deflate stream with the settings of the writer, and its inverse. -/
structure Deflate (σ : Type) where
  init : σ
  deflate : σ → List UInt8 → σ × List UInt8
  finish : σ → List UInt8
  inflate : List UInt8 → Option (List UInt8)

namespace Deflate

variable {σ : Type} (d : Deflate σ)

/-- The state and the output after some inputs. -/
def run (inputs : List (List UInt8)) : σ × List UInt8 :=
  inputs.foldl (fun x input =>
    let y := d.deflate x.1 input
    (y.1, x.2 ++ y.2)) (d.init, [])

/-- All that comes for some inputs. -/
def output (inputs : List (List UInt8)) : List UInt8 :=
  (d.run inputs).2 ++ d.finish (d.run inputs).1

/-- Inflating gives the inputs back. -/
def Correct : Prop := ∀ inputs, d.inflate (d.output inputs) = some inputs.flatten

theorem run_append (inputs : List (List UInt8)) (input : List UInt8) :
    d.run (inputs ++ [input]) = ((d.deflate (d.run inputs).1 input).1,
      (d.run inputs).2 ++ (d.deflate (d.run inputs).1 input).2) := by
  rw [run, List.foldl_append]
  rfl

end Deflate

end NMR
