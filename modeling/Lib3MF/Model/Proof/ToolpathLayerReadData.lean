import Lib3MF.Common.Proof.CPagedVector
import Lib3MF.Lib.Adjoining
import Lib3MF.Lib.State
import Lib3MF.Model.Classes.ToolpathLayerReadData

/-!
# The segments of a layer that is read

What a layer is for: the segments that were ended, each with its points, and the one that is open
(`SegmentHistory`). The layer describes them (`layer_describes`): the ranges of the segments follow
each other, those of the ended ones hold their points, and the open one's, empty still, begins
where its points begin.
-/

namespace NMR

open Lib CPagedVector

/-- A segment and the points that were added to it. -/
structure ReadSegment (F : Type) where
  type : ModelToolpathSegmentType
  profileID : BitVec 32
  partID : BitVec 32
  points : List (F × F)

/-- What a layer records of a segment. -/
def ReadSegment.record {F : Type} (s : ReadSegment F) (start count : Nat) : ToolpathReadSegment :=
  ⟨s.type, s.profileID, s.partID, BitVec.ofNat 32 start, BitVec.ofNat 32 count⟩

/-- The segments that were ended, and the one that is open. -/
structure SegmentHistory (F : Type) where
  ended : List (ReadSegment F)
  opened : Option (ReadSegment F)

/-- The calls that read a layer. -/
inductive SegmentCall (F : Type) where
  | beginSegment (fresh : Nat → ToolpathReadSegment) (type : ModelToolpathSegmentType)
      (profileID partID : BitVec 32)
  | endSegment
  | addPoint (fresh : Nat → F × F) (x y : F)

variable {F : Type}

namespace SegmentHistory

/-- Before the first call. -/
def empty : SegmentHistory F := ⟨[], none⟩

/-- All segments, the open one last. -/
def segments (h : SegmentHistory F) : List (ReadSegment F) := h.ended ++ h.opened.toList

/-- The points of the segments that were ended. -/
def endedPoints (h : SegmentHistory F) : List (F × F) := h.ended.flatMap ReadSegment.points

/-- All points. -/
def points (h : SegmentHistory F) : List (F × F) := h.segments.flatMap ReadSegment.points

/-- The calls of the phase: a segment is begun while none is open, the others need one. -/
def Accepts (h : SegmentHistory F) : SegmentCall F → Prop
  | .beginSegment .. => h.opened = none
  | _ => h.opened ≠ none

/-- What a call does. -/
def call (h : SegmentHistory F) : SegmentCall F → SegmentHistory F
  | .beginSegment _ type profileID partID =>
    match h.opened with
    | none => { h with opened := some ⟨type, profileID, partID, []⟩ }
    | some _ => h
  | .endSegment =>
    match h.opened with
    | none => h
    | some s => ⟨h.ended ++ [s], none⟩
  | .addPoint _ x y =>
    { h with opened := h.opened.map fun s => { s with points := s.points ++ [(x, y)] } }

/-- Point `i` of segment `s`, when that was ended. -/
def point? (h : SegmentHistory F) (s i : Nat) : Option (F × F) :=
  h.ended[s]?.bind (·.points[i]?)

variable {h : SegmentHistory F}

theorem points_eq (h : SegmentHistory F) :
    h.points = h.endedPoints ++ (h.opened.toList.flatMap ReadSegment.points) := by
  rw [points, segments, List.flatMap_append, endedPoints]

/-- The points and the segments only grow. -/
theorem length_le_call (h : SegmentHistory F) (c : SegmentCall F) :
    h.points.length ≤ (h.call c).points.length ∧
      h.segments.length ≤ (h.call c).segments.length := by
  cases c <;> cases ho : h.opened <;>
    simp [call, points_eq, segments, endedPoints, ho]

end SegmentHistory

namespace ToolpathLayerReadData

/-- One call. -/
def call (d : ToolpathLayerReadData F) (c : SegmentCall F) :
    EStateM.Result (Fault Error) (ToolpathLayerReadData F) Unit :=
  match c with
  | .beginSegment fresh type profileID partID => beginSegment fresh type profileID partID d
  | .endSegment => endSegment d
  | .addPoint fresh x y => addPoint fresh x y d

/-- The layer after the calls, accepted or rejected. -/
def layer (calls : List (SegmentCall F)) : ToolpathLayerReadData F :=
  run (fun d c => finalState (d.call c)) new calls

/-- What was accepted of the calls. -/
def history (calls : List (SegmentCall F)) : SegmentHistory F := run SegmentHistory.call .empty calls

/-- The first point of a segment, and the one behind its last, as recorded. -/
def segmentRange (d : ToolpathLayerReadData F) (s : BitVec 32) : Checked Error (Nat × Nat) := do
  let segment ← d.getSegment s
  .ok (segment.startPoint.toNat, segment.startPoint.toNat + segment.pointCount.toNat)

/-- The layer describes the segments and their points. -/
structure Describes (d : ToolpathLayerReadData F) (h : SegmentHistory F) : Prop where
  segmentCount : d.getSegmentCount.toNat = h.segments.length
  pointCount : d.points.getCount.toNat = h.points.length
  opened : d.currentSegment.isSome ↔ h.opened ≠ none
  /-- The ranges follow each other and are disjoint; each holds the points of its segment; the
  points of the open one, if there is one, are those from its start on. -/
  ranges : ∃ rs : List (Nat × Nat), rs.length = h.segments.length ∧
    (∀ s, d.segmentRange s = match rs[s.toNat]? with
      | some r => .ok r
      | none => .error (.throws .invalidIndex)) ∧
    Adjoining 0 rs h.endedPoints.length ∧ rs.Pairwise (fun r r' => r.2 ≤ r'.1) ∧
    ∀ i < h.points.length, (∃ r ∈ rs, r.1 ≤ i ∧ i < r.2) ∨
      h.opened ≠ none ∧ ∃ r, rs.getLast? = some r ∧ r.1 ≤ i
  info : ∀ s, d.getSegmentInfo s = match h.segments[s.toNat]? with
    | some g => .ok (g.type, g.profileID, g.partID,
        if s.toNat < h.ended.length then BitVec.ofNat 32 g.points.length else 0)
    | none => .error (.throws .invalidIndex)
  point : ∀ s i, d.getSegmentPoint s i = match h.point? s.toNat i.toNat with
    | some p => .ok p
    | none => .error (.throws .invalidIndex)

/-! ## The records -/

/-- The records of segments that were ended, the first one's points beginning at `start`. -/
def records (start : Nat) : List (ReadSegment F) → List ToolpathReadSegment
  | [] => []
  | s :: ss => s.record start s.points.length :: records (start + s.points.length) ss

/-- The records of all segments. -/
def allRecords (h : SegmentHistory F) : List ToolpathReadSegment :=
  records 0 h.ended ++ (h.opened.map (·.record h.endedPoints.length 0)).toList

/-- The points of some segments. -/
def total (ss : List (ReadSegment F)) : Nat := (ss.flatMap ReadSegment.points).length

@[simp] theorem total_nil : total ([] : List (ReadSegment F)) = 0 := rfl

@[simp] theorem total_cons (s : ReadSegment F) (ss : List (ReadSegment F)) :
    total (s :: ss) = s.points.length + total ss := by
  simp [total]

theorem length_le_total {ss : List (ReadSegment F)} {s : ReadSegment F} (hs : s ∈ ss) :
    s.points.length ≤ total ss := by
  obtain ⟨l, r, rfl⟩ := List.append_of_mem hs
  simp only [total, List.flatMap_append, List.flatMap_cons, List.length_append]
  omega

theorem records_append (start : Nat) (ss : List (ReadSegment F)) (s : ReadSegment F) :
    records start (ss ++ [s]) = records start ss ++ [s.record (start + total ss) s.points.length] := by
  induction ss generalizing start with
  | nil => rfl
  | cons t ss ih =>
    simp only [List.cons_append, records]
    rw [ih, total_cons, Nat.add_assoc]

@[simp] theorem length_records (start : Nat) (ss : List (ReadSegment F)) :
    (records start ss).length = ss.length := by
  induction ss generalizing start with
  | nil => rfl
  | cons s ss ih => simp [records, ih]

theorem getElem?_records (start : Nat) (ss : List (ReadSegment F)) (k : Nat) :
    (records start ss)[k]? =
      ss[k]?.map fun s => s.record (start + total (ss.take k)) s.points.length := by
  induction ss generalizing start k with
  | nil => simp [records]
  | cons s ss ih =>
    cases k with
    | zero => simp [records]
    | succ k => simp [records, ih, Nat.add_assoc]

/-- The ranges the records stand for. -/
def rangeOf (r : ToolpathReadSegment) : Nat × Nat :=
  (r.startPoint.toNat, r.startPoint.toNat + r.pointCount.toNat)

theorem rangeOf_record {start count : Nat} (s : ReadSegment F) (hs : start < 2 ^ 32)
    (hc : count < 2 ^ 32) : rangeOf (s.record start count) = (start, start + count) := by
  simp only [rangeOf, ReadSegment.record, BitVec.toNat_ofNat]
  rw [Nat.mod_eq_of_lt hs, Nat.mod_eq_of_lt hc]

/-- The ranges of segments that were ended follow each other. -/
theorem adjoining_records (start : Nat) (ss : List (ReadSegment F))
    (h : start + total ss < 2 ^ 32) :
    Adjoining start ((records start ss).map rangeOf) (start + total ss) := by
  induction ss generalizing start with
  | nil => rfl
  | cons s ss ih =>
    rw [total_cons] at h ⊢
    simp only [records, List.map_cons]
    rw [rangeOf_record s (by omega) (by omega), ← Nat.add_assoc]
    exact ⟨rfl, Nat.le_add_right .., ih _ (by omega)⟩

/-- The point of a segment among all points. -/
theorem getElem?_flatMap_points (ss : List (ReadSegment F)) {k i : Nat} {s : ReadSegment F}
    (hk : ss[k]? = some s) (hi : i < s.points.length) :
    (ss.flatMap ReadSegment.points)[total (ss.take k) + i]? = s.points[i]? := by
  induction ss generalizing k with
  | nil => simp at hk
  | cons t ss ih =>
    cases k with
    | zero =>
      obtain rfl : t = s := by simpa using hk
      rw [List.flatMap_cons, List.take_zero, total_nil, Nat.zero_add,
        List.getElem?_append_left hi]
    | succ k =>
      rw [List.getElem?_cons_succ] at hk
      rw [List.flatMap_cons, List.take_succ_cons, total_cons, Nat.add_assoc,
        List.getElem?_append_right (by omega), Nat.add_sub_cancel_left, ih hk]

/-! ## One call -/

/-- The layer holds the records and the points, and the open segment is the last one. -/
structure Holds (d : ToolpathLayerReadData F) (h : SegmentHistory F) (segs pts : List Pointer) :
    Prop where
  segments : d.segments.Lists segs (allRecords h)
  segmentCount : d.segments.Counts segs
  points : d.points.Lists pts h.points
  pointCount : d.points.Counts pts
  opened : d.currentSegment = segs[h.ended.length]?

variable {d : ToolpathLayerReadData F} {h : SegmentHistory F} {segs pts : List Pointer}

theorem holds_new : Holds (new : ToolpathLayerReadData F) .empty [] [] :=
  ⟨lists_new.1, lists_new.2, lists_new.1, lists_new.2, rfl⟩

theorem Holds.length_segs (hd : Holds d h segs pts) : segs.length = h.segments.length := by
  rw [hd.segments.length_eq, allRecords, SegmentHistory.segments]
  cases h.opened <;> simp

/-- The open segment's pointer. -/
theorem Holds.opened_iff (hd : Holds d h segs pts) : d.currentSegment.isSome ↔ h.opened ≠ none := by
  have hlen := hd.length_segs
  rw [SegmentHistory.segments, List.length_append] at hlen
  rw [hd.opened]
  cases ho : h.opened with
  | none => simp [ho] at hlen; simp [hlen]
  | some s => simp [ho] at hlen; simp [hlen]

/-- The number of points in 32 bits. -/
theorem Holds.getCount_points (hd : Holds d h segs pts) :
    d.points.getCount = BitVec.ofNat 32 h.points.length := by
  have hc : d.points.getCount.toNat = pts.length := hd.pointCount
  rw [← hd.points.length_eq, ← hc, BitVec.ofNat_toNat, BitVec.setWidth_eq]

/-- A call of the phase is accepted. -/
theorem Holds.call (hd : Holds d h segs pts) (c : SegmentCall F) (ha : h.Accepts c)
    (hp : (h.call c).points.length < 2 ^ 32) (hs : (h.call c).segments.length < 2 ^ 32) :
    ∃ d' segs' pts', d.call c = .ok () d' ∧ Holds d' (h.call c) segs' pts' := by
  have hlen := hd.length_segs
  cases c with
  | beginSegment fresh type profileID partID =>
    have ho : h.opened = none := ha
    have hcur : d.currentSegment.isSome = false := by
      rw [Bool.eq_false_iff, Ne, hd.opened_iff, ho]
      simp
    have hcall : h.call (.beginSegment fresh type profileID partID) =
        { h with opened := some ⟨type, profileID, partID, []⟩ } := by
      simp only [SegmentHistory.call, ho]
    rw [hcall] at hs ⊢
    have hended : segs.length = h.ended.length := by
      simpa [SegmentHistory.segments, ho] using hlen
    simp only [SegmentHistory.segments, Option.toList_some, List.length_append,
      List.length_singleton] at hs
    obtain ⟨w, p, hw, hl, hc⟩ := hd.segments.allocData_write hd.segmentCount (by omega) fresh
      ⟨type, profileID, partID, d.points.getCount, 0⟩
    refine ⟨{ d with
      segments := w.write p ⟨type, profileID, partID, d.points.getCount, 0⟩
      currentSegment := some p }, segs ++ [p], pts, ?_, ⟨?_, hc, ?_, hd.pointCount, ?_⟩⟩
    · simp only [ToolpathLayerReadData.call, beginSegment, hcur, hw]
      rfl
    · have hpoints : h.points.length = h.endedPoints.length := by
        simp [SegmentHistory.points_eq, ho]
      have hrec : allRecords { h with opened := some ⟨type, profileID, partID, []⟩ } =
          allRecords h ++ [⟨type, profileID, partID, d.points.getCount, 0⟩] := by
        rw [hd.getCount_points, hpoints]
        simp [allRecords, ho, ReadSegment.record, SegmentHistory.endedPoints]
      rw [hrec]
      exact hl
    · have hsame : ({ h with opened := some ⟨type, profileID, partID, []⟩ } :
          SegmentHistory F).points = h.points := by
        simp [SegmentHistory.points_eq, SegmentHistory.endedPoints, ho]
      rw [hsame]
      exact hd.points
    · rw [← hended, List.getElem?_concat_length]
  | endSegment =>
    obtain ⟨s, ho⟩ := Option.ne_none_iff_exists'.1 (ha : h.opened ≠ none)
    have hcall : h.call .endSegment = ⟨h.ended ++ [s], none⟩ := by
      simp only [SegmentHistory.call, ho]
    obtain ⟨p, hcur⟩ := Option.isSome_iff_exists.1 (hd.opened_iff.2 ha)
    have hpseg := hd.opened.symm.trans hcur
    rw [hcall] at hs hp ⊢
    have hrecs : allRecords h = records 0 h.ended ++ [s.record h.endedPoints.length 0] := by
      simp [allRecords, ho]
    have hget : (allRecords h)[h.ended.length]? = some (s.record h.endedPoints.length 0) := by
      rw [hrecs, ← length_records 0 h.ended, List.getElem?_concat_length]
    have hderef := hd.segments.deref hpseg hget
    have hpoints : h.points.length = h.endedPoints.length + s.points.length := by
      simp [SegmentHistory.points_eq, ho]
    refine ⟨{ d with
      segments := d.segments.write p { s.record h.endedPoints.length 0 with
        pointCount := d.points.getCount - (s.record h.endedPoints.length 0).startPoint }
      currentSegment := none }, segs, pts, ?_,
      ⟨?_, hd.segmentCount.write p _, ?_, hd.pointCount, ?_⟩⟩
    · simp only [ToolpathLayerReadData.call, endSegment, hcur, hderef]
    · have hwrite := hd.segments.write hpseg
        { s.record h.endedPoints.length 0 with
          pointCount := d.points.getCount - (s.record h.endedPoints.length 0).startPoint }
      have hset : (allRecords h).set h.ended.length
          { s.record h.endedPoints.length 0 with
            pointCount := d.points.getCount - (s.record h.endedPoints.length 0).startPoint } =
          allRecords ⟨h.ended ++ [s], none⟩ := by
        rw [hrecs, List.set_append_right _ _ (by rw [length_records]), length_records, Nat.sub_self,
          hd.getCount_points, hpoints]
        simp only [allRecords, Option.map_none, Option.toList_none, List.append_nil,
          records_append, Nat.zero_add, ReadSegment.record, List.set_cons_zero]
        congr 4
        rw [BitVec.ofNat_add, BitVec.add_comm, BitVec.add_sub_cancel]
      rw [hset] at hwrite
      exact hwrite
    · have hsame : (⟨h.ended ++ [s], none⟩ : SegmentHistory F).points = h.points := by
        simp [SegmentHistory.points_eq, SegmentHistory.endedPoints, ho]
      rw [hsame]
      exact hd.points
    · have hl : segs.length = h.ended.length + 1 := by
        simpa [SegmentHistory.segments, ho] using hlen
      rw [List.getElem?_eq_none (by simp [hl])]
  | addPoint fresh x y =>
    obtain ⟨s, ho⟩ := Option.ne_none_iff_exists'.1 (ha : h.opened ≠ none)
    obtain ⟨p, hcur⟩ := Option.isSome_iff_exists.1 (hd.opened_iff.2 ha)
    have hcall : h.call (.addPoint fresh x y) =
        { h with opened := some { s with points := s.points ++ [(x, y)] } } := by
      simp only [SegmentHistory.call, ho, Option.map_some]
    rw [hcall] at hs hp ⊢
    have hmore : ({ h with opened := some { s with points := s.points ++ [(x, y)] } } :
        SegmentHistory F).points = h.points ++ [(x, y)] := by
      simp [SegmentHistory.points_eq, SegmentHistory.endedPoints, ho]
    rw [hmore, List.length_append, List.length_singleton, ← hd.points.length_eq] at hp
    obtain ⟨w, q, hw, hl, hc⟩ := hd.points.allocData_write hd.pointCount hp fresh (x, y)
    refine ⟨{ d with points := w.write q (x, y) }, segs, pts ++ [q], ?_,
      ⟨?_, hd.segmentCount, ?_, hc, hd.opened⟩⟩
    · simp only [ToolpathLayerReadData.call, addPoint, hcur, hw]
    · have hrec : allRecords { h with opened := some { s with points := s.points ++ [(x, y)] } } =
          allRecords h := by
        simp [allRecords, ho, ReadSegment.record, SegmentHistory.endedPoints]
      rw [hrec]
      exact hd.segments
    · rw [hmore]
      exact hl

/-- Any other call throws, and leaves the layer. -/
theorem Holds.call_rejected (hd : Holds d h segs pts) (c : SegmentCall F) (ha : ¬ h.Accepts c) :
    h.call c = h ∧ ∃ e, d.call c = .error (.throws e) d := by
  cases c with
  | beginSegment fresh type profileID partID =>
    obtain ⟨s, ho⟩ := Option.ne_none_iff_exists'.1 (ha : ¬ h.opened = none)
    have hcur := hd.opened_iff.2 (by rw [ho]; simp)
    refine ⟨by simp only [SegmentHistory.call, ho], .layerSegmentAlreadyOpen, ?_⟩
    simp only [ToolpathLayerReadData.call, beginSegment, hcur]
    rfl
  | endSegment =>
    have ho : h.opened = none := not_not.1 ha
    have hcur : d.currentSegment = none := by
      rw [← Option.not_isSome_iff_eq_none, hd.opened_iff]
      exact ha
    refine ⟨by simp only [SegmentHistory.call, ho], .layerSegmentNotOpen, ?_⟩
    simp only [ToolpathLayerReadData.call, endSegment, hcur]
  | addPoint fresh x y =>
    have ho : h.opened = none := not_not.1 ha
    have hcur : d.currentSegment = none := by
      rw [← Option.not_isSome_iff_eq_none, hd.opened_iff]
      exact ha
    refine ⟨?_, .layerSegmentNotOpen, ?_⟩
    · simp only [SegmentHistory.call, ho, Option.map_none]
      cases h
      simp_all
    · simp only [ToolpathLayerReadData.call, addPoint, hcur]

/-! ## Runs -/

theorem history_append (calls : List (SegmentCall F)) (c : SegmentCall F) :
    history (calls ++ [c]) = (history calls).call c := by
  rw [history, run_append, run_cons, run_nil, ← history]

theorem layer_append (calls : List (SegmentCall F)) (c : SegmentCall F) :
    layer (calls ++ [c]) = finalState ((layer calls).call c) := by
  rw [layer, run_append, run_cons, run_nil, ← layer]

theorem holds_layer (calls : List (SegmentCall F)) (hp : (history calls).points.length < 2 ^ 32)
    (hs : (history calls).segments.length < 2 ^ 32) :
    ∃ segs pts, Holds (layer calls) (history calls) segs pts := by
  induction calls using List.reverseRecOn with
  | nil => exact ⟨[], [], holds_new⟩
  | append_singleton calls c ih =>
    rw [history_append] at hp hs ⊢
    rw [layer_append]
    obtain ⟨hle, hle'⟩ := (history calls).length_le_call c
    obtain ⟨segs, pts, hd⟩ := ih (by omega) (by omega)
    by_cases ha : (history calls).Accepts c
    · obtain ⟨d', segs', pts', hcall, hd'⟩ := hd.call c ha hp hs
      rw [hcall]
      exact ⟨segs', pts', hd'⟩
    · obtain ⟨hsame, e, hcall⟩ := hd.call_rejected c ha
      rw [hcall, hsame]
      exact ⟨segs, pts, hd⟩

/-- What is recorded of segment `s`. -/
theorem Holds.getSegment (hd : Holds d h segs pts) (s : BitVec 32) :
    d.getSegment s = match (allRecords h)[s.toNat]? with
      | some r => .ok r
      | none => .error (.throws .invalidIndex) := by
  rw [ToolpathLayerReadData.getSegment, hd.segments.getData hd.segmentCount s]
  cases hp : segs[s.toNat]? with
  | none =>
    have hlen := List.getElem?_eq_none_iff.1 hp
    rw [hd.segments.length_eq] at hlen
    rw [List.getElem?_eq_none hlen]
    rfl
  | some p =>
    obtain ⟨r, hr, -⟩ := hd.segments.read hp
    rw [hr]
    exact hd.segments.deref hp hr

/-- The recorded ranges. -/
theorem Holds.segmentRange (hd : Holds d h segs pts) (s : BitVec 32) :
    d.segmentRange s = match ((allRecords h).map rangeOf)[s.toNat]? with
      | some r => .ok r
      | none => .error (.throws .invalidIndex) := by
  rw [ToolpathLayerReadData.segmentRange, hd.getSegment, List.getElem?_map]
  cases (allRecords h)[s.toNat]? <;> rfl

/-- The ranges of all segments follow each other up to the points of the open one. -/
theorem adjoining_allRecords (hp : h.points.length < 2 ^ 32) :
    Adjoining 0 ((allRecords h).map rangeOf) h.endedPoints.length := by
  have hle : h.endedPoints.length ≤ h.points.length := by
    rw [SegmentHistory.points_eq, List.length_append]
    omega
  have hended := adjoining_records 0 h.ended (by rw [Nat.zero_add]; exact Nat.lt_of_le_of_lt hle hp)
  rw [Nat.zero_add] at hended
  rw [allRecords, List.map_append]
  refine hended.append ?_
  cases ho : h.opened with
  | none => rfl
  | some s =>
    simp only [Option.map_some, Option.toList_some, List.map_cons, List.map_nil]
    rw [rangeOf_record s (by omega) (by omega)]
    exact ⟨rfl, Nat.le_refl _, rfl⟩

/-- The record of each segment: its points are counted when it is ended. -/
theorem getElem?_allRecords (h : SegmentHistory F) (k : Nat) :
    (allRecords h)[k]? = h.segments[k]?.map fun g => g.record (total (h.ended.take k))
      (if k < h.ended.length then g.points.length else 0) := by
  rw [allRecords, SegmentHistory.segments]
  by_cases hk : k < h.ended.length
  · rw [List.getElem?_append_left (by rwa [length_records]), List.getElem?_append_left hk,
      getElem?_records, Nat.zero_add]
    simp only [if_pos hk]
  · rw [List.getElem?_append_right (by rw [length_records]; omega),
      List.getElem?_append_right (by omega), length_records, List.take_of_length_le (by omega)]
    simp only [if_neg hk]
    cases h.opened with
    | none => rfl
    | some s =>
      rcases Nat.eq_zero_or_pos (k - h.ended.length) with h0 | h0
      · rw [h0]
        rfl
      · rw [List.getElem?_eq_none (by simp; omega), List.getElem?_eq_none (by simp; omega)]
        rfl

theorem Holds.getSegmentInfo (hd : Holds d h segs pts) (s : BitVec 32) :
    d.getSegmentInfo s = match h.segments[s.toNat]? with
      | some g => .ok (g.type, g.profileID, g.partID,
          if s.toNat < h.ended.length then BitVec.ofNat 32 g.points.length else 0)
      | none => .error (.throws .invalidIndex) := by
  rw [ToolpathLayerReadData.getSegmentInfo, hd.getSegment, getElem?_allRecords]
  cases h.segments[s.toNat]? with
  | none => rfl
  | some g => split_ifs <;> rfl

/-- A point of a segment that was ended. -/
theorem Holds.getData_point (hd : Holds d h segs pts) (hp : h.points.length < 2 ^ 32)
    {k : Nat} {g : ReadSegment F} (hg : h.ended[k]? = some g) {i : BitVec 32} {x : F × F}
    (hx : g.points[i.toNat]? = some x) :
    (do
      let p ← d.points.getData (BitVec.ofNat 32 (total (h.ended.take k)) + i)
      d.points.deref p) = .ok x := by
  have hlt := (List.getElem?_eq_some_iff.1 hx).1
  have hpoint : h.points[total (h.ended.take k) + i.toNat]? = some x := by
    have hended := getElem?_flatMap_points h.ended hg hlt
    rw [hx] at hended
    rw [SegmentHistory.points_eq, SegmentHistory.endedPoints,
      List.getElem?_append_left (List.getElem?_eq_some_iff.1 hended).1, hended]
  have hi := (List.getElem?_eq_some_iff.1 hpoint).1
  have hnat : (BitVec.ofNat 32 (total (h.ended.take k)) + i).toNat =
      total (h.ended.take k) + i.toNat := by
    rw [BitVec.toNat_add, BitVec.toNat_ofNat, Nat.mod_eq_of_lt (by omega : _ < 2 ^ 32),
      Nat.mod_eq_of_lt (by omega)]
  obtain ⟨p, hpp⟩ : ∃ p, pts[total (h.ended.take k) + i.toNat]? = some p :=
    ⟨_, List.getElem?_eq_getElem (by rw [hd.points.length_eq]; exact hi)⟩
  rw [hd.points.getData hd.pointCount, hnat, hpp]
  exact hd.points.deref hpp hpoint

/-- Point `i` of segment `s`. -/
theorem Holds.getSegmentPoint (hd : Holds d h segs pts) (hp : h.points.length < 2 ^ 32)
    (s i : BitVec 32) :
    d.getSegmentPoint s i = match h.point? s.toNat i.toNat with
      | some p => .ok p
      | none => .error (.throws .invalidIndex) := by
  rw [ToolpathLayerReadData.getSegmentPoint, hd.getSegment, getElem?_allRecords,
    SegmentHistory.point?]
  by_cases hk : s.toNat < h.ended.length
  · obtain ⟨g, hg⟩ : ∃ g, h.ended[s.toNat]? = some g := ⟨_, List.getElem?_eq_getElem hk⟩
    have hseg : h.segments[s.toNat]? = some g := by
      rw [SegmentHistory.segments, List.getElem?_append_left hk, hg]
    have hlen : g.points.length < 2 ^ 32 := by
      exact Nat.lt_of_le_of_lt (length_le_total (List.mem_of_getElem? hseg)) hp
    rw [hg, hseg]
    simp only [Option.map_some, if_pos hk, Option.bind_some, bind, Except.bind]
    by_cases hi : i.toNat < g.points.length
    · obtain ⟨x, hx⟩ : ∃ x, g.points[i.toNat]? = some x := ⟨_, List.getElem?_eq_getElem hi⟩
      have hnot : ¬ (g.record (total (h.ended.take s.toNat)) g.points.length).pointCount ≤ i := by
        rw [BitVec.le_def, ReadSegment.record, BitVec.toNat_ofNat, Nat.mod_eq_of_lt hlen]
        omega
      rw [if_neg hnot, hx]
      exact hd.getData_point hp hg hx
    · have hle : (g.record (total (h.ended.take s.toNat)) g.points.length).pointCount ≤ i := by
        rw [BitVec.le_def, ReadSegment.record, BitVec.toNat_ofNat, Nat.mod_eq_of_lt hlen]
        omega
      rw [if_pos hle, List.getElem?_eq_none (by omega)]
  · rw [List.getElem?_eq_none (by omega : h.ended.length ≤ s.toNat)]
    cases h.segments[s.toNat]? with
    | none => rfl
    | some g =>
      simp only [Option.map_some, if_neg hk, Option.bind_none, bind, Except.bind]
      rw [if_pos (by rw [BitVec.le_def]; exact Nat.zero_le _)]

/-- The layer describes the segments. -/
theorem Holds.describes (hd : Holds d h segs pts) (hp : h.points.length < 2 ^ 32) :
    Describes d h := by
  have hpc : d.points.getCount.toNat = h.points.length :=
    Eq.trans hd.pointCount hd.points.length_eq
  refine ⟨Eq.trans hd.segmentCount hd.length_segs, hpc, hd.opened_iff,
    ⟨(allRecords h).map rangeOf, ?_, hd.segmentRange, adjoining_allRecords hp,
      (adjoining_allRecords hp).disjoint, fun i hi => ?_⟩,
    hd.getSegmentInfo, hd.getSegmentPoint hp⟩
  · rw [List.length_map, ← hd.segments.length_eq, hd.length_segs]
  · by_cases he : i < h.endedPoints.length
    · exact .inl ((adjoining_allRecords hp).cover (Nat.zero_le i) he)
    · rw [SegmentHistory.points_eq, List.length_append] at hi hp
      cases ho : h.opened with
      | none =>
        rw [ho] at hi
        exact absurd hi he
      | some s =>
        refine .inr ⟨by simp, (h.endedPoints.length, h.endedPoints.length + 0), ?_,
          Nat.le_of_not_lt he⟩
        rw [allRecords, ho, Option.map_some, Option.toList_some, List.map_append, List.map_singleton,
          List.getLast?_concat]
        rw [rangeOf_record s (by omega) (by omega)]

/-- **The segments of a layer**: after any calls, as long as fewer than `2^32` points were added and
fewer than `2^32` segments were begun, the layer describes them; a call of the phase is accepted,
and any other throws and changes nothing. -/
theorem layer_describes (calls : List (SegmentCall F))
    (hp : (history calls).points.length < 2 ^ 32)
    (hs : (history calls).segments.length < 2 ^ 32) :
    Describes (layer calls) (history calls) ∧
      ∀ c, (¬ (history calls).Accepts c → history (calls ++ [c]) = history calls ∧
          ∃ e, (layer calls).call c = .error (.throws e) (layer calls)) ∧
        ((history calls).Accepts c → (history (calls ++ [c])).points.length < 2 ^ 32 →
          (history (calls ++ [c])).segments.length < 2 ^ 32 →
          (layer calls).call c = .ok () (layer (calls ++ [c]))) := by
  obtain ⟨segs, pts, hd⟩ := holds_layer calls hp hs
  refine ⟨hd.describes hp, fun c => ⟨fun hc => ?_, fun hc hp' hs' => ?_⟩⟩
  · rw [history_append]
    exact hd.call_rejected c hc
  · rw [history_append] at hp' hs'
    obtain ⟨d', -, -, hcall, -⟩ := hd.call c hc hp' hs'
    rw [layer_append, hcall]
    rfl

/-- A segment with two points. -/
def twoPoints : List (SegmentCall Nat) :=
  [.beginSegment (fun _ => ⟨.hatchSegment, 0, 0, 0, 0⟩) .loopSegment 1 2,
    .addPoint (fun _ => (0, 0)) 3 4, .addPoint (fun _ => (0, 0)) 5 6]

/-- It is ended, and another one is begun and gets a point. -/
def twoSegments : List (SegmentCall Nat) :=
  twoPoints ++ [.endSegment,
    .beginSegment (fun _ => ⟨.hatchSegment, 0, 0, 0, 0⟩) .hatchSegment 1 3,
    .addPoint (fun _ => (0, 0)) 7 8]

theorem layer_describes_twoSegments :
    (history twoSegments).endedPoints = [(3, 4), (5, 6)] ∧
      (history twoSegments).points.length < 2 ^ 32 ∧
      (history twoSegments).segments.length < 2 ^ 32 ∧
      Describes (layer twoSegments) (history twoSegments) :=
  ⟨by decide, by decide, by decide, (layer_describes twoSegments (by decide) (by decide)).1⟩

/-- While the segment is open, its points are in no range, and cannot be read. -/
theorem open_segment_uncovered :
    (¬ ∀ calls : List (SegmentCall Nat), ∀ i < (layer calls).points.getCount.toNat,
      ∃ s r, (layer calls).segmentRange s = .ok r ∧ r.1 ≤ i ∧ i < r.2) ∧
    (layer twoPoints).getSegmentPoint 0 0 = .error (.throws .invalidIndex) := by
  obtain ⟨segs, pts, hd⟩ := holds_layer twoPoints (by decide) (by decide)
  have hdesc := hd.describes (by decide)
  refine ⟨fun hall => ?_, hdesc.point 0 0⟩
  have hcount : 0 < (layer twoPoints).points.getCount.toNat := by
    rw [hdesc.pointCount]
    decide
  obtain ⟨s, r, hr, -, hlt⟩ := hall twoPoints 0 hcount
  rw [hd.segmentRange] at hr
  have hrecs : (allRecords (history twoPoints)).map rangeOf = [(0, 0)] := by decide
  rw [hrecs] at hr
  rcases Nat.eq_zero_or_pos s.toNat with h0 | h0
  · rw [h0] at hr
    cases hr
    exact absurd hlt (by decide)
  · rw [List.getElem?_eq_none (Nat.succ_le_of_lt h0)] at hr
    cases hr

end ToolpathLayerReadData

end NMR
