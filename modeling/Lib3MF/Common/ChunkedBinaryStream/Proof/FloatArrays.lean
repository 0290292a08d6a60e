import Mathlib.Algebra.Order.Field.Rat
import Mathlib.Tactic.Linarith
import Mathlib.Tactic.FieldSimp
import Lib3MF.Common.ChunkedBinaryStream.Proof.IntArrays

/-!
# Arrays of floats come back

An array of floats, in units, comes back with every value less than a unit off exactly when the
integers that were stored are less than one off the quotients (`floatsReadBack_iff`). Truncated
quotients are (`abs_truncate_sub_lt`), and delta prediction does not accumulate the error; but
without prediction the floats themselves are truncated, and with delta prediction the first one
(`floatsReadBack_unitOneAndHalf`).
-/

namespace NMR

open Lib StoredArray ChunkedBinaryStreamReaderChunk
open ChunkedBinaryStreamWriter (intWords floatEntryType floatWords deltaWords discretize)

/-- Add an array to a new writer, finish, open the stream and read the array. -/
def floatsRoundTrip (lzma : Lzma) (uninit : Nat → BitVec 32) (platform : IntPlatform)
    (data : List NfFloat) (p : ChunkedBinaryPredictionType) (units : NfFloat) :
    Except Error (List ℚ) := do
  let w ← ChunkedBinaryStreamWriter.new
  let (w, entryID) ← w.addFloatArray lzma uninit platform data p units
  let w ← w.finishWriting lzma
  let r ← ChunkedBinaryStreamReader.new w.exportStream.buffer
  let (values, _) ← r.readFloatArray lzma entryID data.length
  return values

/-- All this succeeds, with values that are less than a unit off. -/
def FloatsReadBack (lzma : Lzma) (uninit : Nat → BitVec 32) (platform : IntPlatform)
    (data : List NfFloat) (p : ChunkedBinaryPredictionType) (units : NfFloat) : Prop :=
  ∃ values, floatsRoundTrip lzma uninit platform data p units = .ok values ∧
    List.Forall₂ (fun x v => |v - x.value| < units.value) data values

/-- The integers that are stored of an array of floats. -/
def storedValues (platform : IntPlatform) (units : ℚ) :
    ChunkedBinaryPredictionType → List NfFloat → List Int
  | .noPrediction, data => data.map fun x => platform.toInt 32 x.value
  | .deltaPrediction, [] => []
  | .deltaPrediction, x :: xs =>
    platform.toInt 64 x.value :: xs.map fun x => truncate (x.value / units)

/-- The array as it is stored. -/
def storedFloats (platform : IntPlatform) (data : List NfFloat) (p : ChunkedBinaryPredictionType)
    (units : NfFloat) : StoredArray :=
  ⟨1, floatEntryType p,
    units.bits :: intWords p ((storedValues platform units.value p data).map (BitVec.ofInt 32))⟩

/-- The quotients are within the range of the writer. -/
def InRange (data : List NfFloat) (units : ℚ) : Prop :=
  ∀ x ∈ data, |truncate (x.value / units)| ≤ binaryChunkFileMaxFloatUnits

/-- What has to hold of the floats that are stored without being divided by the unit: all of
them without prediction, the first one with delta prediction. -/
def UndividedNear (platform : IntPlatform) (units : ℚ) :
    ChunkedBinaryPredictionType → List NfFloat → Prop
  | .noPrediction, data => ∀ x ∈ data,
    |((BitVec.ofInt 32 (platform.toInt 32 x.value)).toInt : ℚ) - x.value / units| < 1
  | .deltaPrediction, data => ∀ x ∈ data.head?,
    platform.abs (platform.toInt 64 x.value) ≤ binaryChunkFileMaxFloatUnits ∧
      |((BitVec.ofInt 32 (platform.toInt 64 x.value)).toInt : ℚ) - x.value / units| < 1

/-! ## Truncation -/

/-- Truncating changes a number by less than one. -/
theorem abs_truncate_sub_lt (x : ℚ) : |(truncate x : ℚ) - x| < 1 := by
  unfold truncate
  split_ifs with h
  · have h₁ := Int.floor_le x
    have h₂ := Int.lt_floor_add_one x
    rw [abs_lt]
    constructor <;> linarith
  · have h₁ := Int.le_ceil x
    have h₂ := Int.ceil_lt_add_one x
    rw [abs_lt]
    constructor <;> linarith

/-- Being less than a unit off, in units. -/
theorem abs_mul_sub_lt {v x u : ℚ} (hu : 0 < u) : |v * u - x| < u ↔ |v - x / u| < 1 := by
  have he : v * u - x = (v - x / u) * u := by field_simp
  rw [he, abs_mul, abs_of_pos hu]
  exact mul_lt_iff_lt_one_left hu

theorem toInt_ofInt_32 {v : Int} (h : |v| ≤ binaryChunkFileMaxFloatUnits) :
    (BitVec.ofInt 32 v).toInt = v := by
  rw [abs_le, binaryChunkFileMaxFloatUnits] at h
  rw [BitVec.toInt_ofInt, Int.bmod_eq_of_le] <;> omega

theorem IntPlatform.toInt_truncate {platform : IntPlatform} {y : ℚ}
    (h : |truncate y| ≤ binaryChunkFileMaxFloatUnits) :
    platform.toInt 64 y = truncate y ∧ platform.abs (truncate y) = |truncate y| := by
  rw [abs_le, binaryChunkFileMaxFloatUnits] at h
  refine ⟨if_pos (by constructor <;> omega), platform.abs_int _ (by omega) (by omega)⟩

theorem discretize_eq_ok {platform : IntPlatform} {y : ℚ} {v : Int} : discretize platform y = .ok v ↔
    platform.abs (platform.toInt 64 y) ≤ binaryChunkFileMaxFloatUnits ∧ v = platform.toInt 64 y := by
  unfold discretize
  dsimp only
  split_ifs with h
  · simp [not_le.2 h]
  · rw [Except.ok.injEq, eq_comm]
    exact ⟨fun he => ⟨not_lt.1 h, he⟩, fun he => he.2⟩

variable {platform : IntPlatform} {data : List NfFloat} {u : ℚ} {ws : List (BitVec 32)}

/-! ## The words -/

theorem discretize_of_inRange (h : InRange data u) {x : NfFloat} (hx : x ∈ data) :
    discretize platform (x.value / u) = .ok (truncate (x.value / u)) := by
  have hle := h x hx
  obtain ⟨hvalue, habs⟩ := @IntPlatform.toInt_truncate platform _ hle
  rw [discretize_eq_ok, hvalue, habs]
  exact ⟨hle, rfl⟩

/-- The loop of delta prediction takes differences of the truncated quotients. -/
theorem deltaWords_of_inRange (h : InRange data u) (old : Int) :
    deltaWords platform u old data = .ok (List.zipWith (fun y x => y - x)
      (data.map fun x => BitVec.ofInt 32 (truncate (x.value / u)))
      (BitVec.ofInt 32 old :: data.map fun x => BitVec.ofInt 32 (truncate (x.value / u)))) := by
  induction data generalizing old with
  | nil => rfl
  | cons x xs ih =>
    have hxs : InRange xs u := fun y hy => h y (List.mem_cons_of_mem _ hy)
    simp only [deltaWords, bind_eq_ok, pure_eq_ok]
    exact ⟨_, discretize_of_inRange h List.mem_cons_self, _, ih hxs _, rfl⟩

/-- What is written of floats in range, and when. -/
theorem floatWords_of_inRange (h : InRange data u) {p : ChunkedBinaryPredictionType} :
    floatWords platform u p data = .ok ws ↔
      (p = .deltaPrediction → ∀ x ∈ data.head?,
        platform.abs (platform.toInt 64 x.value) ≤ binaryChunkFileMaxFloatUnits) ∧
      ws = intWords p ((storedValues platform u p data).map (BitVec.ofInt 32)) := by
  cases p with
  | noPrediction =>
    have hstep : ∀ x ∈ data, (do
        let _ ← discretize platform (x.value / u)
        return BitVec.ofInt 32 (platform.toInt 32 x.value)) =
          (.ok (BitVec.ofInt 32 (platform.toInt 32 x.value)) : Except Error _) := by
      intro x hx
      rw [discretize_of_inRange h hx]
      rfl
    rw [floatWords, mapM_ok hstep, Except.ok.injEq, eq_comm, storedValues, List.map_map, intWords]
    exact ⟨fun hw => ⟨fun hp => (by cases hp), hw⟩, fun hw => hw.2⟩
  | deltaPrediction =>
    cases data with
    | nil =>
      rw [floatWords, Except.ok.injEq, eq_comm]
      exact ⟨fun hw => ⟨fun _ x hx => (by cases hx), hw⟩, fun hw => hw.2⟩
    | cons x xs =>
      have hxs : InRange xs u := fun y hy => h y (List.mem_cons_of_mem _ hy)
      simp only [floatWords, bind_eq_ok, pure_eq_ok, discretize_eq_ok, forall_const,
        List.head?_cons, Option.mem_some_iff, forall_eq']
      constructor
      · rintro ⟨v, ⟨hle, rfl⟩, words, hw, rfl⟩
        rw [deltaWords_of_inRange hxs, Except.ok.injEq] at hw
        subst hw
        refine ⟨hle, ?_⟩
        rw [storedValues, List.map_cons, List.map_map]
        rfl
      · rintro ⟨hle, rfl⟩
        refine ⟨_, ⟨hle, rfl⟩, _, deltaWords_of_inRange hxs _, ?_⟩
        rw [storedValues, List.map_cons, List.map_map]
        rfl

/-! ## Adding the array to a new writer -/

variable {lzma : Lzma} {uninit : Nat → BitVec 32} {p : ChunkedBinaryPredictionType}
  {units : NfFloat} {w w₁ : ChunkedBinaryStreamWriter} {entryID : BitVec 32}

theorem length_storedValues : (storedValues platform u p data).length = data.length := by
  cases p with
  | noPrediction => rw [storedValues, List.length_map]
  | deltaPrediction =>
    cases data with
    | nil => rfl
    | cons x xs => rw [storedValues, List.length_cons, List.length_map, List.length_cons]

theorem size_storedFloats : (storedFloats platform data p units).size = 4 * (data.length + 1) := by
  rw [size, storedFloats, List.length_cons, length_intWords, List.length_map, length_storedValues]

/-- A new writer opens a chunk for the array. -/
theorem beginFirstChunk_new (h : ChunkedBinaryStreamWriter.new = .ok w) :
    ∃ w₁ c, w.beginFirstChunk lzma uninit = .ok w₁ ∧ w₁.currentChunk = some c := by
  have hl : Layout lzma uninit 0 .empty w := layout_new h
  have hnone := hl.none rfl
  unfold ChunkedBinaryStreamWriter.beginFirstChunk
  rw [hnone]
  simp only [Option.isNone_none, if_true, ChunkedBinaryStreamWriter.beginChunk, guard_eq_ok,
    bind_eq_ok, pure_eq_ok]
  refine ⟨_, _, ⟨by simp [hl.finished], w, ?_, rfl⟩, rfl⟩
  unfold ChunkedBinaryStreamWriter.finishOpenChunk
  rw [hnone]
  rfl

/-- When the array is added, and what the writer is like then. -/
theorem addFloatArray_new (h : ChunkedBinaryStreamWriter.new = .ok w)
    (hr : InRange data units.value)
    (ha : w.addFloatArray lzma uninit platform data p units = .ok (w₁, entryID)) :
    data ≠ [] ∧ (p = .deltaPrediction → ∀ x ∈ data.head?,
        platform.abs (platform.toInt 64 x.value) ≤ binaryChunkFileMaxFloatUnits) ∧
      entryID = 1 ∧
      Layout lzma uninit 0 ⟨[], some [storedFloats platform data p units]⟩ w₁ := by
  simp only [ChunkedBinaryStreamWriter.addFloatArray, guard_eq_ok, bind_eq_ok] at ha
  obtain ⟨-, -, hne, w₂, hw₂, ha⟩ := ha
  cases hc : w₂.currentChunk with
  | none =>
    rw [hc] at ha
    cases ha
  | some c =>
    rw [hc] at ha
    simp only [bind_eq_ok, pure_eq_ok, floatWords_of_inRange hr] at ha
    obtain ⟨_, ⟨hfirst, rfl⟩, ha⟩ := ha
    have hl : Layout lzma uninit 0 .empty w := layout_new h
    obtain ⟨cs₁, arrays, hadd, hid, hcs⟩ := hl.open hw₂ hc
    have hsize : data.length * 4 + 4 = 4 * (units.bits :: intWords p
        ((storedValues platform units.value p data).map (BitVec.ofInt 32))).length := by
      rw [List.length_cons, length_intWords, List.length_map, length_storedValues]
      omega
    obtain ⟨hlay, hid'⟩ := hadd.pushEntry (List.cons_ne_nil _ _) hsize
    rw [hcs, hid] at hlay
    rw [ha] at hlay hid'
    exact ⟨fun he => hne (by rw [he]; rfl), hfirst, hid'.trans hid, hlay⟩

/-- The array is added where the writer takes it. -/
theorem addFloatArray_total (h : ChunkedBinaryStreamWriter.new = .ok w) (hu : 0 < units.value)
    (hr : InRange data units.value) (hne : data ≠ [])
    (hfirst : p = .deltaPrediction → ∀ x ∈ data.head?,
      platform.abs (platform.toInt 64 x.value) ≤ binaryChunkFileMaxFloatUnits) :
    ∃ x, w.addFloatArray lzma uninit platform data p units = .ok x := by
  obtain ⟨w₁, c, hw₁, hc⟩ := @beginFirstChunk_new lzma uninit w h
  have hl : Layout lzma uninit 0 .empty w := layout_new h
  refine ⟨w₁.pushEntry c (floatEntryType p) (data.length * 4 + 4)
    (storedFloats platform data p units).words, ?_⟩
  simp only [ChunkedBinaryStreamWriter.addFloatArray, guard_eq_ok, bind_eq_ok]
  refine ⟨not_le.2 hu, by simp [hl.finished], by simpa using hne, w₁, hw₁, ?_⟩
  rw [hc]
  simp only [bind_eq_ok, pure_eq_ok, floatWords_of_inRange hr]
  exact ⟨_, ⟨hfirst, rfl⟩, rfl⟩

/-! ## Reading -/

/-- The size an array was found with, from its read. -/
theorem readFloatArray_seek {r r' : ChunkedBinaryStreamReader} {n : Nat} {vs : List ℚ}
    (h : r.readFloatArray lzma entryID n = .ok (vs, r')) :
    ∃ j c t, r.seekToEntry lzma entryID = .ok (j, c, t, 4 * (n + 1)) := by
  simp only [ChunkedBinaryStreamReader.readFloatArray, guard_eq_ok, bind_eq_ok, Prod.exists] at h
  obtain ⟨j, c, t, m, hs, hmod, hle, hn, -⟩ := h
  refine ⟨j, c, t, ?_⟩
  rw [hs]
  have : m = 4 * (n + 1) := by omega
  rw [this]

/-- **Reading an array of floats**: the integers that were stored, times the unit. -/
theorem readFloatArray_of_seek {r : ChunkedBinaryStreamReader} {j : Nat}
    {c : ChunkedBinaryStreamReaderChunk} {values : List (BitVec 32)}
    (hs : r.seekToEntry lzma entryID = .ok (j, c, floatEntryType p, 4 * (values.length + 1)))
    (hp : Positioned (units.bits :: intWords p values) c) :
    ∃ r', r.readFloatArray lzma entryID values.length =
      .ok (values.map fun v => v.toInt * units.value, r') := by
  obtain ⟨hunits, hrest⟩ := hp.readInt32
  simp only [ChunkedBinaryStreamReader.readFloatArray, guard_eq_ok, bind_eq_ok, pure_eq_ok,
    Prod.exists]
  have hne : floatEntryType .deltaPrediction ≠ floatEntryType .noPrediction := by decide
  exact ⟨_, j, c, _, _, hs, by omega, by omega, by omega, units.bits, _, hunits, values, _,
    readValues_intWords hrest hne, rfl⟩

/-- The values that come back are near exactly when those stored undivided are. -/
theorem near_iff (hu : 0 < u) (hr : InRange data u) :
    ((p = .deltaPrediction → ∀ x ∈ data.head?,
        platform.abs (platform.toInt 64 x.value) ≤ binaryChunkFileMaxFloatUnits) ∧
      List.Forall₂ (fun x v => |v - x.value| < u) data
        (((storedValues platform u p data).map (BitVec.ofInt 32)).map fun v => v.toInt * u)) ↔
      UndividedNear platform u p data := by
  cases p with
  | noPrediction =>
    rw [storedValues, List.map_map, List.map_map, List.forall₂_map_right_iff, List.forall₂_same,
      UndividedNear]
    simp only [Function.comp_apply, abs_mul_sub_lt hu]
    exact ⟨fun h => h.2, fun h => ⟨nofun, h⟩⟩
  | deltaPrediction =>
    cases data with
    | nil => simp [storedValues, UndividedNear]
    | cons x xs =>
      have htail : List.Forall₂ (fun x v => |v - x.value| < u) xs (((xs.map fun x =>
          truncate (x.value / u)).map (BitVec.ofInt 32)).map fun v => v.toInt * u) := by
        rw [List.map_map, List.map_map, List.forall₂_map_right_iff, List.forall₂_same]
        intro y hy
        simp only [Function.comp_apply]
        rw [toInt_ofInt_32 (hr y (List.mem_cons_of_mem _ hy)), abs_mul_sub_lt hu]
        exact abs_truncate_sub_lt _
      rw [storedValues, List.map_cons, List.map_cons, List.forall₂_cons, abs_mul_sub_lt hu,
        UndividedNear]
      simp only [List.head?_cons, Option.mem_some_iff, forall_eq', forall_const]
      exact ⟨fun h => ⟨h.1, h.2.1⟩, fun h => ⟨h.1, h.2, htail⟩⟩

/-- **Arrays of floats come back exactly when the floats that are stored undivided happen to be
near their quotients**, and the stream fits. -/
theorem floatsReadBack_iff (hl : lzma.Lossless) (hu : 0 < units.value)
    (hr : InRange data units.value) :
    FloatsReadBack lzma uninit platform data p units ↔
      data ≠ [] ∧ UndividedNear platform units.value p data ∧
        Compresses lzma [storedFloats platform data p units] ∧
        Fits lzma uninit [[storedFloats platform data p units]] := by
  have hnodup : (([[storedFloats platform data p units]] : List (List StoredArray)).flatten.map
      StoredArray.id).Nodup := List.nodup_singleton _
  have hlenv : ((storedValues platform units.value p data).map (BitVec.ofInt 32)).length =
      data.length := by rw [List.length_map, length_storedValues]
  -- what reading the array of an opened stream gives
  have hread : ∀ {file records r}, Written lzma uninit 0 [[storedFloats platform data p units]] file
      records → Fits lzma uninit [[storedFloats platform data p units]] →
      ChunkedBinaryStreamReader.new file = .ok r → ∃ r', r.readFloatArray lzma 1 data.length =
        .ok (((storedValues platform units.value p data).map (BitVec.ofInt 32)).map
          fun v => v.toInt * units.value, r') := by
    intro file records r hw hfit hnew
    obtain ⟨-, -, hopen⟩ := hw.opens hnew
    have hsame : SameButCache lzma r r := .refl fun c hc => by
      rw [hopen.chunks] at hc
      obtain ⟨rec, -, rfl⟩ := List.mem_map.1 hc
      rfl
    obtain ⟨-, -, -, c, hs, hp⟩ := @Written.seekToEntry _ _ _ _ _ _ _ _ 0 0 _ _ hw hl
      (hw.length_le hfit) hfit hopen hsame rfl rfl
    rw [size_storedFloats, ← hlenv] at hs
    rw [← hlenv]
    exact readFloatArray_of_seek hs hp
  simp only [FloatsReadBack, floatsRoundTrip, bind_eq_ok, pure_eq_ok, Prod.exists]
  constructor
  · rintro ⟨_, ⟨w, hnew, w₁, entryID, hadd, w₂, hfin, r, hopen, vs, r', hvs, rfl⟩, hnear⟩
    obtain ⟨hne, hfirst, rfl, hlay⟩ := addFloatArray_new hnew hr hadd
    obtain ⟨records, hw⟩ := hlay.finishWriting hfin
    have hfit : Fits lzma uninit [[storedFloats platform data p units]] := by
      refine hw.fits hl hnodup (show 1 ≤ 2 ^ 32 by decide) hopen fun a ha => ?_
      rw [List.mem_singleton.1 ha, size_storedFloats]
      exact readFloatArray_seek hvs
    obtain ⟨r'', hvs'⟩ := hread hw hfit hopen
    rw [hvs, Except.ok.injEq, Prod.mk.injEq] at hvs'
    rw [hvs'.1] at hnear
    exact ⟨hne, (near_iff hu hr).1 ⟨hfirst, hnear⟩, hlay.finishWriting_isOk.1 ⟨w₂, hfin⟩ _ rfl,
      hfit⟩
  · rintro ⟨hne, hnear, hcomp, hfit⟩
    obtain ⟨hfirst, hvs⟩ := (near_iff hu hr).2 hnear
    have hnew : ∃ w, ChunkedBinaryStreamWriter.new = .ok w :=
      ChunkedBinaryStreamWriter.writeHeader_isOk rfl rfl
    obtain ⟨w, hnew⟩ := hnew
    obtain ⟨⟨w₁, entryID⟩, hadd⟩ := @addFloatArray_total _ _ lzma uninit p _ _ hnew hu hr hne hfirst
    obtain ⟨-, -, rfl, hlay⟩ := addFloatArray_new hnew hr hadd
    obtain ⟨w₂, hfin⟩ := hlay.finishWriting_isOk.2 fun arrays ha => by
      cases ha
      exact hcomp
    obtain ⟨records, hw⟩ := hlay.finishWriting hfin
    obtain ⟨r, hopen⟩ := hw.new_total (hw.length_le hfit) hfit hnodup
    obtain ⟨r', hr'⟩ := hread hw hfit hopen
    exact ⟨_, ⟨w, hnew, w₁, 1, hadd, w₂, hfin, r, hopen, _, r', hr', rfl⟩, hvs⟩

/-! ## Two arrays -/

/-- The floats 66051, 1 and 1.5. -/
def sampleFloat : NfFloat := ⟨0x47810180, by decide⟩
def unitOne : NfFloat := ⟨0x3F800000, by decide⟩
def unitOneAndHalf : NfFloat := ⟨0x3FC00000, by decide⟩

theorem value_sampleFloat : sampleFloat.value = 66051 := by decide +kernel
theorem value_unitOneAndHalf : unitOneAndHalf.value = 3 / 2 := by decide +kernel

/-- The builds with the `abs` of `int` and with the one of 64 bits. -/
def intAbs : IntPlatform := absPlatform 32 (by decide)
def int64Abs : IntPlatform := absPlatform 64 (by decide)

/-- What `LzmaCompress` gives for the float in units of 1. -/
def unitLzma : Lzma := entryLzma [0, 0, 0x80, 0x3F, 3, 2, 1, 0]
  [0, 0, 0, 16, 3, 176, 8, 73, 141, 235, 96, 0, 0] [0x9E, 0, 0, 0x80, 0]

/-- What `LzmaCompress` gives for it in units of 1.5. -/
def halfLzma : Lzma := entryLzma [0, 0, 0xC0, 0x3F, 3, 2, 1, 0]
  [0, 0, 0, 24, 3, 144, 8, 73, 141, 235, 96, 0, 0] [0x9E, 0, 0, 0x80, 0]

theorem unitLzma_lossless : unitLzma.Lossless := entryLzma_lossless nofun nofun

theorem storedFloats_unitOne : storedFloats intAbs [sampleFloat] .noPrediction unitOne =
    ⟨1, 3, [0x3F800000, 0x00010203]⟩ := by decide +kernel

theorem compressed_unitOne : compressed unitLzma [⟨1, 3, [0x3F800000, 0x00010203]⟩] = some
    ([0, 0, 0, 16, 3, 176, 8, 73, 141, 235, 96, 0, 0], [0x9E, 0, 0, 0x80, 0]) := by
  decide +kernel

/-- In units of 1 the float comes back. -/
theorem floatsReadBack_unitOne :
    FloatsReadBack unitLzma (fun _ => 0) intAbs [sampleFloat] .noPrediction unitOne := by
  have hpos : 0 < unitOne.value := by decide +kernel
  have hrange : InRange [sampleFloat] unitOne.value := by
    intro x hx
    rw [List.mem_singleton.1 hx]
    decide +kernel
  refine (floatsReadBack_iff unitLzma_lossless hpos hrange).2 ⟨nofun, ?_, ?_, ?_⟩
  · intro x hx
    rw [List.mem_singleton.1 hx]
    decide +kernel
  · intro _
    rw [storedFloats_unitOne]
    exact Option.isSome_of_eq_some compressed_unitOne
  · rw [storedFloats_unitOne]
    refine ⟨?_, by decide, by decide, ?_, ?_, ?_, fun i hi => ?_⟩
    · decide +kernel
    · intro i arrays hi _
      exact (List.getElem?_eq_some_iff.1 hi).1
    · simp [totalSize, size, binaryChunkFileMaxChunkDataSize]
    · intro arrays ha _ out props hc
      rw [List.mem_singleton.1 ha, compressed_unitOne] at hc
      cases hc
      decide
    · cases i <;> cases hi

/-- **In units of 1.5 it does not**: it comes back as 99076.5. -/
theorem floatsReadBack_unitOneAndHalf : 0 < unitOneAndHalf.value ∧
    InRange [sampleFloat] unitOneAndHalf.value ∧
    ¬ FloatsReadBack halfLzma (fun _ => 0) intAbs [sampleFloat] .noPrediction
      unitOneAndHalf := by
  refine ⟨by decide +kernel, ?_, ?_⟩
  · intro x hx
    rw [List.mem_singleton.1 hx]
    decide +kernel
  · have htrip : (floatsRoundTrip halfLzma (fun _ => 0) intAbs [sampleFloat] .noPrediction
        unitOneAndHalf).toOption = some [198153 / 2] := by decide +kernel
    rintro ⟨values, hv, hnear⟩
    rw [hv, Except.toOption, Option.some.injEq] at htrip
    subst htrip
    have hx := (List.forall₂_cons.1 hnear).1
    rw [value_sampleFloat, value_unitOneAndHalf, abs_lt] at hx
    norm_num at hx

end NMR
