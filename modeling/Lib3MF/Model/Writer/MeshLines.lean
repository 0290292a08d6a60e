import Lib3MF.Common.StringToInt
import Lib3MF.Common.Mesh.Mesh

/-!
# The lines of a mesh

`CModelWriterNode100_Mesh` puts the lines of its vertices and beams together in buffers of fixed
size. A line is what its buffer holds up to its position; a character beyond the buffer makes the
run undefined, which is `none`. `putFloat` and `putDouble` print the product of a number and a
power of ten that is stored as an `int`: they are one function on exact numbers. The parameter
`overflow` is what the platform makes of the conversion of a power beyond an `int`.
-/

namespace NMR.Writer.Lines

/-- `MODELWRITERMESH100_LINEBUFFERSIZE`. -/
def lineBufferSize : Nat := 1024

/-- `SetDecimalPrecision`. -/
def setDecimalPrecision (decimalPrecision : Nat) : Except Error Nat :=
  if decimalPrecision < 1 ∨ 16 < decimalPrecision then .error .invalidParam
  else .ok decimalPrecision

/-- `m_nPutDoubleFactor`. -/
def putDoubleFactor (overflow : Int) (posAfterDecPoint : Nat) : Int :=
  if 10 ^ posAfterDecPoint < 2 ^ 31 then 10 ^ posAfterDecPoint else overflow

/-- The conversion of a number to an integer. -/
def truncate (q : ℚ) : Int := q.num.tdiv q.den

/-- `line[nBufferPos++] = c`. -/
def putChar (line : List Char) (c : Char) : Option (List Char) :=
  if line.length < lineBufferSize then some (line ++ [c]) else none

/-- `putVertexString` and `putBeamString`. -/
def putString (line : List Char) (s : String) : Option (List Char) :=
  s.toList.foldlM putChar line

/-- `putBeamUInt32`: `"%d"` of a number of 32 bits. -/
def putUInt32 (line : List Char) (value : Int) : Option (List Char) :=
  putString line (toString (value.bmod (2 ^ 32)))

/-- The first loop of `putFloat` and `putDouble`: the digits of `n`, the last one first. -/
def putDigits (posAfterDecPoint : Nat) (line : List Char) (n count : Nat) : Option (List Char) :=
  if 0 < n ∨ count < posAfterDecPoint then do
    let line ← putChar line (n % 10).digitChar
    if count + 1 = posAfterDecPoint then
      let line ← putChar line '.'
      if n / 10 = 0 then
        let line ← putChar line '0'
        putDigits posAfterDecPoint line (n / 10) (count + 2)
      else putDigits posAfterDecPoint line (n / 10) (count + 2)
    else putDigits posAfterDecPoint line (n / 10) (count + 1)
  else some line
termination_by n + (posAfterDecPoint - count)
decreasing_by all_goals omega

/-- The second loop of `putFloat` and `putDouble`. -/
def reverseBetween (line : List Char) (first last : Nat) : List Char :=
  if first < last then
    let swapped := (line.set first (line.getD last '0')).set last (line.getD first '0')
    reverseBetween swapped (first + 1) (last - 1)
  else line
termination_by last - first

/-- `putDouble`. -/
def putDouble (factor : Int) (posAfterDecPoint : Nat) (line : List Char) (value : ℚ) :
    Option (List Char) := do
  let product := truncate (value * factor)
  let absValue := (max product (-product)).toNat
  let written ←
    if absValue = 0 then putChar line '0'
    else do
      let digits ← putDigits posAfterDecPoint line absValue 0
      if value < 0 then putChar digits '-' else some digits
  return reverseBetween written line.length (written.length - 1)

/-- `putFloat`. -/
def putFloat (factor : Int) (posAfterDecPoint : Nat) (line : List Char) (value : ℚ) :
    Option (List Char) :=
  putDouble factor posAfterDecPoint line value

/-- `writeVertexData`. -/
def writeVertexData (factor : Int) (posAfterDecPoint : Nat) (position : Vec3) :
    Option (List Char) := do
  let line ← putString [] "<vertex x=\""
  let line ← putFloat factor posAfterDecPoint line position.x
  let line ← putString line "\" y=\""
  let line ← putFloat factor posAfterDecPoint line position.y
  let line ← putString line "\" z=\""
  let line ← putFloat factor posAfterDecPoint line position.z
  putString line "\" />"

/-- `capModeToString`. -/
def capModeToString (capMode : Int) : String :=
  if capMode = 0 then "sphere"
  else if capMode = 1 then "hemisphere"
  else if capMode = 2 then "butt"
  else "sphere"

/-- `stringRepresentationsDiffer`. -/
def stringRepresentationsDiffer (a b : ℚ) (putFactor : Int) : Prop := 1 / 10 < |a - b| * putFactor

instance (a b : ℚ) (putFactor : Int) : Decidable (stringRepresentationsDiffer a b putFactor) :=
  inferInstanceAs (Decidable (_ < _))

/-- An attribute that is left out unless it differs from its default. -/
def putUnlessDefault (differs : Prop) [Decidable differs]
    (put : List Char → Option (List Char)) (line : List Char) : Option (List Char) :=
  if differs then put line else some line

/-- `writeBeamData`. -/
def writeBeamData (factor : Int) (posAfterDecPoint : Nat) (beam : MeshBeam) (radius : ℚ)
    (defaultCapMode : Int) : Option (List Char) := do
  let writeR2 := stringRepresentationsDiffer (beam.radius 0) (beam.radius 1) factor
  let writeR1 := writeR2 ∨ stringRepresentationsDiffer (beam.radius 0) radius factor
  let line ← putString [] "<b:beam v1=\""
  let line ← putUInt32 line (beam.nodeIndices 0)
  let line ← putString line "\" v2=\""
  let line ← putUInt32 line (beam.nodeIndices 1)
  let line ← putUnlessDefault writeR1 (fun line => do
    let line ← putString line "\" r1=\""
    putDouble factor posAfterDecPoint line (beam.radius 0)) line
  let line ← putUnlessDefault writeR2 (fun line => do
    let line ← putString line "\" r2=\""
    putDouble factor posAfterDecPoint line (beam.radius 1)) line
  let line ← putUnlessDefault (defaultCapMode ≠ beam.capMode 0) (fun line =>
    putString line ("\" cap1=\"" ++ capModeToString (beam.capMode 0))) line
  let line ← putUnlessDefault (defaultCapMode ≠ beam.capMode 1) (fun line =>
    putString line ("\" cap2=\"" ++ capModeToString (beam.capMode 1))) line
  putString line "\"/>"

end NMR.Writer.Lines
