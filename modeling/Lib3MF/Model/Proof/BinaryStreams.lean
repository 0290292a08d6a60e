import Lib3MF.Lib.Run
import Lib3MF.Model.Writer.ModelWriter

/-!
# The streams of a run

What `findBinaryStream` is for: the stream that was assigned last (`Assigned`). The three maps of
the writer keep it exactly as long as no instance is assigned a second stream, and no assignment
is taken back (`findBinaryStream_iff`): the second assignment leaves the first, and taking one
back throws, as no stream is registered under the empty UUID.
-/

namespace NMR

open Lib

/-- The calls on the streams of a writer. -/
inductive ModelWriterCall (Stream : Type) where
  | registerBinaryStream (path uuid : String) (stream : Stream)
  | assignBinaryStream (instanceUUID binaryStreamUUID : String)
  | unregisterBinaryStreams

/-- The stream and the path each instance is to be found with. -/
abbrev Assigned (Stream : Type) : Type := String → Option (String × Stream)

namespace ModelWriter

variable {Stream : Type}

/-- The writer after a call; a call that throws leaves it. -/
def call (w : ModelWriter Stream) : ModelWriterCall Stream → ModelWriter Stream
  | .registerBinaryStream path uuid stream =>
    match w.registerBinaryStream path uuid stream with
    | .ok w' => w'
    | .error _ => w
  | .assignBinaryStream instanceUUID uuid =>
    match w.assignBinaryStream instanceUUID uuid with
    | .ok w' => w'
    | .error _ => w
  | .unregisterBinaryStreams => w.unregisterBinaryStreams

/-- What the call means: the empty UUID takes the assignment back, a registered one is the
instance's from now on. -/
def assigned (w : ModelWriter Stream) (expected : Assigned Stream) :
    ModelWriterCall Stream → Assigned Stream
  | .registerBinaryStream _ _ _ => expected
  | .assignBinaryStream instanceUUID uuid =>
    if uuid = "" then Function.update expected instanceUUID none
    else match w.binaryWriterUUIDMap.find? uuid with
      | some stream => Function.update expected instanceUUID (some stream)
      | none => expected
  | .unregisterBinaryStreams => fun _ => none

/-- A call, with what it means. -/
def next (s : ModelWriter Stream × Assigned Stream) (c : ModelWriterCall Stream) :
    ModelWriter Stream × Assigned Stream :=
  (s.1.call c, s.1.assigned s.2 c)

/-- The calls the maps follow: an instance is assigned a stream while it has none, or has this
one, and an assignment is taken back where there is none, or under a stream with the empty
UUID. -/
def Follows (w : ModelWriter Stream) : ModelWriterCall Stream → Prop
  | .assignBinaryStream instanceUUID uuid =>
    if uuid = "" then
      w.binaryWriterAssignmentMap.find? instanceUUID = none ∨
        (w.binaryWriterUUIDMap.find? uuid).isSome
    else (w.binaryWriterUUIDMap.find? uuid).isSome →
      w.binaryWriterAssignmentMap.find? instanceUUID = none ∨
        w.binaryWriterAssignmentMap.find? instanceUUID = some uuid
  | _ => True

/-- What the maps always keep: an assigned stream is registered, and a path is that of one
stream. -/
structure MapsAgree (w : ModelWriter Stream) : Prop where
  registered : ∀ i u, w.binaryWriterAssignmentMap.find? i = some u →
    u ≠ "" ∧ ∃ e, w.binaryWriterUUIDMap.find? u = some e
  paths : ∀ u e, w.binaryWriterUUIDMap.find? u = some e →
    w.binaryWriterPathMap.find? e.1 = some u

variable {w w' : ModelWriter Stream} {path uuid instanceUUID : String} {stream : Stream}

theorem mapsAgree_create (allow : Bool) : MapsAgree (create allow : ModelWriter Stream) where
  registered i u h := by simp [create] at h
  paths u e h := by simp [create] at h

theorem mapsAgree_unregisterBinaryStreams (w : ModelWriter Stream) :
    w.unregisterBinaryStreams.MapsAgree where
  registered i u h := by simp [unregisterBinaryStreams] at h
  paths u e h := by simp [unregisterBinaryStreams] at h

theorem registerBinaryStream_spec (h : w.registerBinaryStream path uuid stream = .ok w') :
    w.binaryWriterPathMap.find? path = none ∧ w.binaryWriterUUIDMap.find? uuid = none ∧
      w' = { w with
        binaryWriterUUIDMap := w.binaryWriterUUIDMap.insert uuid (path, stream)
        binaryWriterPathMap := w.binaryWriterPathMap.insert path uuid } := by
  unfold registerBinaryStream at h
  split_ifs at h with h1 h2 h3
  exact ⟨by simpa using h2, by simpa using h3, (Except.ok.inj h).symm⟩

/-- A new stream keeps the maps and what is found in them. -/
theorem MapsAgree.registerBinaryStream (hw : w.MapsAgree)
    (h : w.registerBinaryStream path uuid stream = .ok w') :
    w'.MapsAgree ∧ ∀ i, w'.findBinaryStream i = w.findBinaryStream i := by
  obtain ⟨hpath, huuid, rfl⟩ := registerBinaryStream_spec h
  have hfind : ∀ u e, w.binaryWriterUUIDMap.find? u = some e →
      (w.binaryWriterUUIDMap.insert uuid (path, stream)).find? u = some e := by
    intro u e he
    rw [SortedMap.find?_insert, if_neg, he]
    rintro rfl
    rw [huuid] at he
    cases he
  refine ⟨⟨fun i u hu => ?_, fun u e he => ?_⟩, fun i => ?_⟩
  · obtain ⟨hne, e, he⟩ := hw.registered i u hu
    exact ⟨hne, e, hfind u e he⟩
  · dsimp only at he ⊢
    rw [SortedMap.find?_insert] at he ⊢
    split_ifs at he with hu
    · rw [huuid] at he
      obtain rfl := Option.some.inj he
      rw [Option.getD_none, if_pos rfl, hpath, hu]
      rfl
    · have hp := hw.paths u e he
      rw [if_neg, hp]
      intro hc
      rw [hc, hpath] at hp
      cases hp
  · simp only [findBinaryStream]
    cases hu : w.binaryWriterAssignmentMap.find? i with
    | none => rfl
    | some u =>
      obtain ⟨-, e, he⟩ := hw.registered i u hu
      simp only [Option.bind_some]
      rw [hfind u e he, he]

/-- An assigned instance is found. -/
theorem MapsAgree.find_eq_none_iff (hw : w.MapsAgree) (i : String) :
    w.findBinaryStream i = none ↔ w.binaryWriterAssignmentMap.find? i = none := by
  unfold findBinaryStream
  cases hu : w.binaryWriterAssignmentMap.find? i with
  | none => simp
  | some u =>
    obtain ⟨-, e, he⟩ := hw.registered i u hu
    simp [he]

/-- Two streams that are registered as one are the same. -/
theorem MapsAgree.uuid_unique (hw : w.MapsAgree) {u u' : String} {e : String × Stream}
    (h : w.binaryWriterUUIDMap.find? u = some e) (h' : w.binaryWriterUUIDMap.find? u' = some e) :
    u = u' := by
  have hp := hw.paths u e h
  rw [hw.paths u' e h'] at hp
  exact (Option.some.inj hp).symm

/-- Taking an assignment back. -/
theorem MapsAgree.assign_empty (hw : w.MapsAgree) (instanceUUID : String)
    (h : (w.binaryWriterUUIDMap.find? "").isSome) :
    ∃ w', w.assignBinaryStream instanceUUID "" = .ok w' ∧ w'.MapsAgree ∧
      w'.findBinaryStream = Function.update w.findBinaryStream instanceUUID none := by
  refine ⟨{ w with
    binaryWriterAssignmentMap := w.binaryWriterAssignmentMap.erase instanceUUID }, ?_,
    ⟨fun i u hu => ?_, hw.paths⟩, ?_⟩
  · obtain ⟨e, he⟩ := Option.isSome_iff_exists.1 h
    rw [assignBinaryStream, if_neg (by simp [he]), if_neg (by decide)]
  · dsimp only at hu
    rw [SortedMap.find?_erase] at hu
    split_ifs at hu
    exact hw.registered i u hu
  · funext i
    simp only [findBinaryStream, Function.update_apply]
    rw [SortedMap.find?_erase]
    split_ifs <;> rfl

/-- Assigning a stream that is registered. -/
theorem MapsAgree.assign_registered (hw : w.MapsAgree) (instanceUUID : String) (hne : uuid ≠ "")
    {e : String × Stream} (he : w.binaryWriterUUIDMap.find? uuid = some e) :
    ∃ w', w.assignBinaryStream instanceUUID uuid = .ok w' ∧ w'.MapsAgree ∧
      (∀ i, i ≠ instanceUUID → w'.findBinaryStream i = w.findBinaryStream i) ∧
      (w'.findBinaryStream instanceUUID = some e ↔
        w.binaryWriterAssignmentMap.find? instanceUUID = none ∨
          w.binaryWriterAssignmentMap.find? instanceUUID = some uuid) := by
  refine ⟨{ w with
    binaryWriterAssignmentMap := w.binaryWriterAssignmentMap.insert instanceUUID uuid }, ?_,
    ⟨fun i u hu => ?_, hw.paths⟩, fun i hi => ?_, ?_⟩
  · rw [assignBinaryStream, if_neg (by simp [he]),
      if_pos (Nat.pos_of_ne_zero fun hc => hne (String.length_eq_zero_iff.1 hc))]
  · dsimp only at hu
    rw [SortedMap.find?_insert] at hu
    split_ifs at hu with hi
    · cases ha : w.binaryWriterAssignmentMap.find? instanceUUID with
      | none =>
        rw [ha] at hu
        obtain rfl := Option.some.inj hu
        exact ⟨hne, e, he⟩
      | some u' =>
        rw [ha] at hu
        obtain rfl := Option.some.inj hu
        exact hw.registered _ _ ha
    · exact hw.registered i u hu
  · simp only [findBinaryStream]
    rw [SortedMap.find?_insert, if_neg hi]
  · simp only [findBinaryStream]
    rw [SortedMap.find?_insert, if_pos rfl, Option.bind_some]
    cases ha : w.binaryWriterAssignmentMap.find? instanceUUID with
    | none => simp [he]
    | some u' =>
      simp only [Option.getD_some, reduceCtorEq, Option.some.injEq, false_or]
      constructor
      · exact fun h => hw.uuid_unique h he
      · rintro rfl
        exact he

/-- A stream that is not registered is not assigned. -/
theorem assign_unregistered (h : w.binaryWriterUUIDMap.find? uuid = none) :
    w.assignBinaryStream instanceUUID uuid = .error .binaryStreamNotFound := by
  rw [assignBinaryStream, if_pos (by simp [h])]

/-- The maps agree after every call. -/
theorem MapsAgree.call (hw : w.MapsAgree) (c : ModelWriterCall Stream) : (w.call c).MapsAgree := by
  cases c with
  | registerBinaryStream path uuid stream =>
    unfold ModelWriter.call
    cases h : w.registerBinaryStream path uuid stream with
    | error e => simpa [h] using hw
    | ok w' => simpa [h] using (hw.registerBinaryStream h).1
  | assignBinaryStream instanceUUID uuid =>
    unfold ModelWriter.call
    cases he : w.binaryWriterUUIDMap.find? uuid with
    | none => simpa [assign_unregistered he] using hw
    | some e =>
      by_cases hne : uuid = ""
      · subst hne
        obtain ⟨w', h, hw', -⟩ := hw.assign_empty instanceUUID (by simp [he])
        simpa [h] using hw'
      · obtain ⟨w', h, hw', -⟩ := hw.assign_registered instanceUUID hne he
        simpa [h] using hw'
  | unregisterBinaryStreams => exact mapsAgree_unregisterBinaryStreams w

/-- **One call**: where the streams are found as assigned, they are so afterwards exactly when the
maps follow the call. -/
theorem MapsAgree.find_call_iff (hw : w.MapsAgree) {expected : Assigned Stream}
    (he : w.findBinaryStream = expected) (c : ModelWriterCall Stream) :
    (w.call c).findBinaryStream = w.assigned expected c ↔ w.Follows c := by
  subst he
  cases c with
  | registerBinaryStream path uuid stream =>
    refine iff_of_true ?_ trivial
    simp only [ModelWriter.call, assigned]
    cases h : w.registerBinaryStream path uuid stream with
    | error e => rfl
    | ok w' => exact funext (hw.registerBinaryStream h).2
  | unregisterBinaryStreams =>
    refine iff_of_true ?_ trivial
    funext i
    simp [ModelWriter.call, assigned, unregisterBinaryStreams, findBinaryStream]
  | assignBinaryStream instanceUUID uuid =>
    unfold ModelWriter.call assigned Follows
    dsimp only
    by_cases hne : uuid = ""
    · subst hne
      rw [if_pos rfl, if_pos rfl]
      cases hs : w.binaryWriterUUIDMap.find? "" with
      | none =>
        simp only [assign_unregistered hs, Option.isSome_none, Bool.false_eq_true, or_false]
        rw [eq_comm, Function.update_eq_self_iff, eq_comm]
        exact hw.find_eq_none_iff instanceUUID
      | some e =>
        obtain ⟨w', h, -, hf⟩ := hw.assign_empty instanceUUID (by simp [hs])
        simp [h, hf]
    · rw [if_neg hne, if_neg hne]
      cases hs : w.binaryWriterUUIDMap.find? uuid with
      | none => simp [assign_unregistered hs]
      | some e =>
        obtain ⟨w', h, -, hother, hself⟩ :=
          hw.assign_registered instanceUUID hne hs
        simp only [h, Option.isSome_some, forall_const]
        rw [← hself]
        constructor
        · intro hf
          rw [hf, Function.update_self]
        · intro hf
          refine funext fun i => ?_
          by_cases hi : i = instanceUUID
          · rw [hi, hf, Function.update_self]
          · rw [hother i hi, Function.update_of_ne hi]

/-- **The streams of a run** are found as assigned, in every state, exactly when the maps follow
every call. -/
theorem findBinaryStream_iff (allow : Bool) (calls : List (ModelWriterCall Stream)) :
    (∀ t, Reaches next (create allow, fun _ => none) calls t → t.1.findBinaryStream = t.2) ↔
      Guarded next (fun s c => s.1.Follows c) (create allow, fun _ => none) calls := by
  rw [← guarded_iff (fun s => s.1.MapsAgree ∧ s.1.findBinaryStream = s.2)
    ⟨mapsAgree_create allow, rfl⟩
    fun s c hs => (and_iff_right (hs.1.call c)).trans (hs.1.find_call_iff hs.2 c)]
  refine forall₂_congr fun t ht => (and_iff_right ?_).symm
  exact ht.inv (fun s => s.1.MapsAgree) (mapsAgree_create allow) (fun s c hs _ => hs.call c)
    (guarded_true _ _ _)

/-- An object is assigned a second stream, and keeps the first. -/
theorem second_assignment_lost :
    ¬ ∀ t, Reaches next (create true, fun _ => none)
      [.registerBinaryStream "/a" "u" 1, .registerBinaryStream "/b" "v" 2,
        .assignBinaryStream "object" "u", .assignBinaryStream "object" "v"] t →
      t.1.findBinaryStream = t.2 := by
  intro h
  have hend := congrFun (h _ (reaches_run _ _)) "object"
  revert hend
  decide

end ModelWriter

end NMR
