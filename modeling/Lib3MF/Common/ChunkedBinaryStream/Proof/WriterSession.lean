import Lib3MF.Lib.Run
import Lib3MF.Common.ChunkedBinaryStream.WriterSession
import Lib3MF.Common.ChunkedBinaryStream.Proof.FloatArrays

/-!
# Calls of the writer that throw

What `addIntArray` and `addFloatArray` leave is told apart by where they throw
(`addIntArrayM_cases`, `addFloatArrayM_cases`). Where they do not, they return what is computed of
them without the states they throw in (`addIntArrayM_eq_ok`, `addFloatArrayM_eq_ok`).
-/

namespace NMR

open Lib StoredArray

namespace ChunkedBinaryStreamWriter

variable {lzma : Lzma} {uninit : Nat → BitVec 32} {platform : IntPlatform}
  {w w' : ChunkedBinaryStreamWriter} {p : ChunkedBinaryPredictionType} {units : NfFloat}

/-! ## The parts of `addIntArray` and `addFloatArray` -/

/-- What both functions reject before they do anything. -/
def Rejects {α : Type} (w : ChunkedBinaryStreamWriter) (data : Option (List α)) : Prop :=
  w.isFinished = true ∨ data = none ∨ data = some []

theorem rejects_or {α : Type} (w : ChunkedBinaryStreamWriter) (data : Option (List α)) :
    w.Rejects data ∨ ∃ xs, data = some xs ∧ xs ≠ [] ∧ w.isFinished = false := by
  cases hf : w.isFinished with
  | true => exact .inl (.inl hf)
  | false =>
    cases data with
    | none => exact .inl (.inr (.inl rfl))
    | some xs =>
      by_cases hne : xs = []
      · exact .inl (.inr (.inr (congrArg some hne)))
      · exact .inr ⟨xs, rfl, hne, rfl⟩

theorem checkArray_ok {α : Type} {xs : List α} (hf : w.isFinished = false) (hne : xs ≠ []) :
    checkArray (some xs) w = .ok xs w := by
  have hlen : xs.length ≠ 0 := fun h => hne (List.length_eq_zero_iff.1 h)
  unfold checkArray
  rw [get_bind, require_bind hf]
  exact require_bind hlen _ _ _

theorem checkArray_error {α : Type} {data : Option (List α)} (h : w.Rejects data) :
    ∃ e, checkArray data w = .error e w := by
  unfold checkArray
  rw [get_bind]
  by_cases hf : w.isFinished = false
  · rw [require_bind hf]
    obtain h | rfl | rfl := h
    · rw [hf] at h
      cases h
    · exact ⟨_, rfl⟩
    · exact ⟨_, bind_of_error (require_of_neg (by simp) _ _)⟩
  · exact ⟨_, bind_of_error (require_of_neg hf _ _)⟩

/-- A chunk is open then, and an ID is taken. -/
theorem beginArray_ok (hf : w.isFinished = false) :
    ∃ w₁ c, w.beginFirstChunk lzma uninit = .ok w₁ ∧ w₁.currentChunk = some c ∧
      w₁.elementIDCounter = w.elementIDCounter ∧
      beginArray lzma uninit w = .ok w.elementIDCounter
        { w₁ with elementIDCounter := w.elementIDCounter + 1, isEmpty := false } := by
  unfold beginArray beginFirstChunk
  rw [get_bind]
  cases hc : w.currentChunk with
  | some c =>
    rw [doIf_bind_of_neg (by simp), modify_bind]
    exact ⟨w, c, by simp, hc, rfl, rfl⟩
  | none =>
    have hbegin : beginChunkM lzma uninit w = .ok () { w with
        currentChunk := some ⟨0, 0, 0, 0, uninit w.chunks.length, 0⟩
        currentChunkEntries := []
        currentChunkData := [] } := by
      unfold beginChunkM
      rw [get_bind, require_bind hf, doIf_bind_of_neg (by simp [hc])]
      rfl
    rw [doIf_bind_of_pos (by simp), bind_of_ok hbegin, modify_bind]
    refine ⟨{ w with
      currentChunk := some ⟨0, 0, 0, 0, uninit w.chunks.length, 0⟩
      currentChunkEntries := []
      currentChunkData := [] }, _, ?_, rfl, rfl, rfl⟩
    have hopen : w.finishOpenChunk lzma = .ok w := by
      unfold finishOpenChunk
      rw [hc]
      rfl
    simp only [Option.isNone_none, if_true, beginChunk, guard_eq_ok, bind_eq_ok, pure_eq_ok]
    exact ⟨by simp [hf], w, hopen, rfl⟩

theorem forM_pushWord (words : List (BitVec 32)) (w : ChunkedBinaryStreamWriter) :
    words.forM pushWord w = .ok () { w with currentChunkData := w.currentChunkData ++ words } := by
  induction words generalizing w with
  | nil =>
    rw [List.append_nil]
    rfl
  | cons x words ih =>
    show words.forM pushWord { w with currentChunkData := w.currentChunkData ++ [x] } = _
    rw [ih]
    simp

theorem endArray_eq {c : BinaryChunkFileChunk} (hc : w.currentChunk = some c)
    (words : List (BitVec 32)) (entryType : BitVec 32) (size : Nat) :
    endArray w.elementIDCounter entryType size { w with
        elementIDCounter := w.elementIDCounter + 1
        isEmpty := false
        currentChunkData := w.currentChunkData ++ words } =
      .ok (w.pushEntry c entryType size words).2 (w.pushEntry c entryType size words).1 := by
  unfold endArray pushEntry
  rw [modify_bind]
  simp only [hc, Option.map_some, Option.getD_some]
  rfl

theorem discretizeM_ok {x : ℚ} {v : Int} (h : discretize platform x = .ok v) :
    discretizeM platform x w = .ok v w := by
  unfold discretizeM
  rw [h]

theorem discretizeM_error {x : ℚ} {e : Error} (h : discretize platform x = .error e) :
    discretizeM platform x w = .error e w := by
  unfold discretizeM
  rw [h]

/-- What `pushDelta` and `pushFloats` do: push the words, or throw after some of them. -/
structure Pushes (x : WriterM Unit) (words : Except Error (List (BitVec 32))) : Prop where
  ok : ∀ w ws, words = .ok ws →
    x w = .ok () { w with currentChunkData := w.currentChunkData ++ ws }
  error : ∀ w e, words = .error e →
    ∃ more, x w = .error e { w with currentChunkData := w.currentChunkData ++ more }

/-- A word pushed when the check before it passes. -/
theorem Pushes.cons {q : ℚ} {word : Int → BitVec 32} {x : Int → WriterM Unit}
    {words : Int → Except Error (List (BitVec 32))} (h : ∀ v, Pushes (x v) (words v)) :
    Pushes (do
        let v ← discretizeM platform q
        pushWord (word v)
        x v)
      (do
        let v ← discretize platform q
        let ws ← words v
        return word v :: ws) := by
  cases hq : discretize platform q with
  | error e =>
    refine ⟨nofun, fun w e' he => ⟨[], ?_⟩⟩
    cases he
    rw [List.append_nil]
    exact bind_of_error (discretizeM_error hq)
  | ok v =>
    have hstep (w : ChunkedBinaryStreamWriter) : (do
        let v ← discretizeM platform q
        pushWord (word v)
        x v : WriterM Unit) w = x v { w with currentChunkData := w.currentChunkData ++ [word v] } :=
      bind_of_ok (discretizeM_ok hq)
    have hcons (w : ChunkedBinaryStreamWriter) (ws : List (BitVec 32)) :
        w.currentChunkData ++ [word v] ++ ws = w.currentChunkData ++ word v :: ws := by
      rw [List.append_assoc, List.singleton_append]
    refine ⟨fun w ws hws => ?_, fun w e he => ?_⟩
    · obtain ⟨ws', hws', hcat⟩ := bind_eq_ok.1 (show (words v >>= _) = .ok ws from hws)
      cases hcat
      rw [hstep, (h v).ok _ ws' hws', hcons]
    · cases hv : words v with
      | ok ws =>
        have he : (words v >>= fun ws => pure (word v :: ws)) = .error e := he
        rw [hv] at he
        cases he
      | error e' =>
        have he : (words v >>= fun ws => pure (word v :: ws)) = .error e := he
        rw [hv] at he
        cases he
        obtain ⟨more, hmore⟩ :=
          (h v).error { w with currentChunkData := w.currentChunkData ++ [word v] } e hv
        exact ⟨word v :: more, by rw [hstep, hmore, hcons]⟩

theorem Pushes.nil : Pushes (pure ()) (.ok []) := by
  refine ⟨fun w ws h => ?_, nofun⟩
  cases h
  rw [List.append_nil]
  rfl

theorem pushes_pushDelta (platform : IntPlatform) (units : ℚ) (oldValue : Int) (data : List NfFloat) :
    Pushes (pushDelta platform units oldValue data) (deltaWords platform units oldValue data) := by
  induction data generalizing oldValue with
  | nil => exact .nil
  | cons x xs ih => exact Pushes.cons (fun v => ih v)

theorem floatWords_noPrediction_cons (platform : IntPlatform) (units : ℚ) (x : NfFloat)
    (xs : List NfFloat) :
    floatWords platform units .noPrediction (x :: xs) = (do
      let _ ← discretize platform (x.value / units)
      let words ← floatWords platform units .noPrediction xs
      return BitVec.ofInt 32 (platform.toInt 32 x.value) :: words) := by
  show List.mapM _ (x :: xs) = _
  rw [List.mapM_cons, bind_assoc]
  rfl

theorem pushFloats_noPrediction_cons (platform : IntPlatform) (units : ℚ) (x : NfFloat)
    (xs : List NfFloat) :
    pushFloats platform units .noPrediction (x :: xs) = (do
      let _ ← discretizeM platform (x.value / units)
      pushWord (BitVec.ofInt 32 (platform.toInt 32 x.value))
      pushFloats platform units .noPrediction xs) := by
  rw [← bind_assoc]
  rfl

theorem pushes_pushFloats (platform : IntPlatform) (units : ℚ) (p : ChunkedBinaryPredictionType)
    (data : List NfFloat) :
    Pushes (pushFloats platform units p data) (floatWords platform units p data) := by
  cases p with
  | noPrediction =>
    induction data with
    | nil => exact .nil
    | cons x xs ih =>
      rw [floatWords_noPrediction_cons, pushFloats_noPrediction_cons]
      exact Pushes.cons (fun _ => ih)
  | deltaPrediction =>
    cases data with
    | nil => exact .nil
    | cons x xs => exact Pushes.cons (fun v => pushes_pushDelta platform units v xs)

/-! ## The two functions -/

/-- The check of the floats of an array. -/
def Discretizable (platform : IntPlatform) (units : ℚ) :
    ChunkedBinaryPredictionType → List NfFloat → Prop
  | .noPrediction, data =>
    ∀ x ∈ data, platform.abs (platform.toInt 64 (x.value / units)) ≤ binaryChunkFileMaxFloatUnits
  | .deltaPrediction, data =>
    (∀ x ∈ data.head?, platform.abs (platform.toInt 64 x.value) ≤ binaryChunkFileMaxFloatUnits) ∧
      ∀ x ∈ data.tail, platform.abs (platform.toInt 64 (x.value / units)) ≤ binaryChunkFileMaxFloatUnits

/-- The integers that are stored of an array that passes it. -/
def discretized (platform : IntPlatform) (units : ℚ) :
    ChunkedBinaryPredictionType → List NfFloat → List Int
  | .noPrediction, data => data.map fun x => platform.toInt 32 x.value
  | .deltaPrediction, [] => []
  | .deltaPrediction, x :: xs =>
    platform.toInt 64 x.value :: xs.map fun x => platform.toInt 64 (x.value / units)

theorem length_discretized (platform : IntPlatform) (units : ℚ) (p : ChunkedBinaryPredictionType)
    (data : List NfFloat) : (discretized platform units p data).length = data.length := by
  cases p with
  | noPrediction => exact List.length_map _
  | deltaPrediction =>
    cases data with
    | nil => rfl
    | cons x xs => exact congrArg (· + 1) (List.length_map _)

theorem discretize_cases (platform : IntPlatform) (x : ℚ) :
    (platform.abs (platform.toInt 64 x) ≤ binaryChunkFileMaxFloatUnits ∧
      discretize platform x = .ok (platform.toInt 64 x)) ∨
    (¬ platform.abs (platform.toInt 64 x) ≤ binaryChunkFileMaxFloatUnits ∧
      discretize platform x = .error .binaryChunkDiscretizationValueOutOfRange) := by
  unfold discretize
  by_cases h : platform.abs (platform.toInt 64 x) ≤ binaryChunkFileMaxFloatUnits
  · exact .inl ⟨h, if_neg (not_lt.2 h)⟩
  · exact .inr ⟨h, if_pos (not_le.1 h)⟩

theorem deltaWords_cases (platform : IntPlatform) (units : ℚ) (old : Int) (data : List NfFloat) :
    ((∀ x ∈ data, platform.abs (platform.toInt 64 (x.value / units)) ≤ binaryChunkFileMaxFloatUnits) ∧
      deltaWords platform units old data = .ok (List.zipWith (fun y x => y - x)
        ((data.map fun x => platform.toInt 64 (x.value / units)).map (BitVec.ofInt 32))
        (BitVec.ofInt 32 old ::
          (data.map fun x => platform.toInt 64 (x.value / units)).map (BitVec.ofInt 32)))) ∨
    ((¬ ∀ x ∈ data, platform.abs (platform.toInt 64 (x.value / units)) ≤ binaryChunkFileMaxFloatUnits) ∧
      ∃ e, deltaWords platform units old data = .error e) := by
  induction data generalizing old with
  | nil => exact .inl ⟨nofun, rfl⟩
  | cons x xs ih =>
    unfold deltaWords
    rw [List.forall_mem_cons]
    obtain ⟨hx, hdis⟩ | ⟨hx, hdis⟩ := discretize_cases platform (x.value / units)
    · rw [hdis]
      obtain ⟨hxs, hwords⟩ | ⟨hxs, e, hwords⟩ := ih (platform.toInt 64 (x.value / units))
      · refine .inl ⟨⟨hx, hxs⟩, ?_⟩
        show deltaWords platform units _ xs >>= _ = _
        rw [hwords]
        rfl
      · refine .inr ⟨fun h => hxs h.2, e, ?_⟩
        show deltaWords platform units _ xs >>= _ = _
        rw [hwords]
        rfl
    · rw [hdis]
      exact .inr ⟨fun h => hx h.1, _, rfl⟩

/-- The words of an array of floats, or an error where the check fails. -/
theorem floatWords_cases (platform : IntPlatform) (units : ℚ) (p : ChunkedBinaryPredictionType)
    (data : List NfFloat) :
    (Discretizable platform units p data ∧ floatWords platform units p data =
      .ok (intWords p ((discretized platform units p data).map (BitVec.ofInt 32)))) ∨
    (¬ Discretizable platform units p data ∧ ∃ e, floatWords platform units p data = .error e) := by
  cases p with
  | noPrediction =>
    induction data with
    | nil => exact .inl ⟨nofun, rfl⟩
    | cons x xs ih =>
      have hcons : Discretizable platform units .noPrediction (x :: xs) ↔
          platform.abs (platform.toInt 64 (x.value / units)) ≤ binaryChunkFileMaxFloatUnits ∧
            Discretizable platform units .noPrediction xs := List.forall_mem_cons
      rw [hcons, floatWords_noPrediction_cons]
      obtain ⟨hx, hdis⟩ | ⟨hx, hdis⟩ := discretize_cases platform (x.value / units)
      · rw [hdis]
        obtain ⟨hxs, hwords⟩ | ⟨hxs, e, hwords⟩ := ih
        · refine .inl ⟨⟨hx, hxs⟩, ?_⟩
          show floatWords platform units .noPrediction xs >>= _ = _
          rw [hwords]
          rfl
        · refine .inr ⟨fun h => hxs h.2, e, ?_⟩
          show floatWords platform units .noPrediction xs >>= _ = _
          rw [hwords]
          rfl
      · rw [hdis]
        exact .inr ⟨fun h => hx h.1, _, rfl⟩
  | deltaPrediction =>
    unfold Discretizable
    cases data with
    | nil => exact .inl ⟨⟨nofun, nofun⟩, rfl⟩
    | cons x xs =>
      unfold floatWords
      simp only [List.head?_cons, Option.mem_some_iff, forall_eq', List.tail_cons]
      obtain ⟨hx, hdis⟩ | ⟨hx, hdis⟩ := discretize_cases platform x.value
      · rw [hdis]
        obtain ⟨hxs, hwords⟩ | ⟨hxs, e, hwords⟩ :=
          deltaWords_cases platform units (platform.toInt 64 x.value) xs
        · refine .inl ⟨⟨hx, hxs⟩, ?_⟩
          show deltaWords platform units _ xs >>= _ = _
          rw [hwords]
          rfl
        · refine .inr ⟨fun h => hxs h.2, e, ?_⟩
          show deltaWords platform units _ xs >>= _ = _
          rw [hwords]
          rfl
      · rw [hdis]
        exact .inr ⟨fun h => hx h.1, _, rfl⟩

/-- The chunk that `addIntArray` and `addFloatArray` add to, and what they leave. -/
structure Adds (lzma : Lzma) (uninit : Nat → BitVec 32) (w w' : ChunkedBinaryStreamWriter)
    (entryType : BitVec 32) (words : List (BitVec 32)) : Prop where
  added : ∃ w₁ c, w.beginFirstChunk lzma uninit = .ok w₁ ∧ w₁.currentChunk = some c ∧
    w₁.elementIDCounter = w.elementIDCounter ∧
    w' = (w₁.pushEntry c entryType (4 * words.length) words).1

/-- **`addIntArray`** adds the array, or throws; when it throws behind its checks an ID is gone. -/
theorem addIntArrayM_cases (lzma : Lzma) (uninit : Nat → BitVec 32)
    (w : ChunkedBinaryStreamWriter) (data : Option (List (BitVec 32)))
    (predictionType : Option ChunkedBinaryPredictionType) :
    (w.Rejects data ∧ ∃ e, addIntArrayM lzma uninit data predictionType w = .error e w) ∨
    (¬ w.Rejects data ∧ predictionType = none ∧
      ∃ e w', addIntArrayM lzma uninit data predictionType w = .error e w' ∧
        w'.elementIDCounter = w.elementIDCounter + 1) ∨
    ∃ xs p, xs ≠ [] ∧ w.isFinished = false ∧ data = some xs ∧ predictionType = some p ∧
      ∃ w', addIntArrayM lzma uninit data predictionType w = .ok w.elementIDCounter w' ∧
        Adds lzma uninit w w' (intEntryType p) (intWords p xs) := by
  obtain hrej | ⟨xs, rfl, hne, hf⟩ := rejects_or w data
  · obtain ⟨e, he⟩ := checkArray_error hrej
    exact .inl ⟨hrej, e, bind_of_error he⟩
  · obtain ⟨w₁, c, hbegin, hc, hid, harray⟩ := @beginArray_ok lzma uninit w hf
    have hcheck : checkArray (some xs) w = .ok xs w := checkArray_ok hf hne
    have hnot : ¬ w.Rejects (some xs) := by
      unfold Rejects
      simp [hf, hne]
    unfold addIntArrayM
    rw [bind_of_ok hcheck, bind_of_ok harray]
    cases predictionType with
    | none => exact .inr (.inl ⟨hnot, rfl, _, _, rfl, rfl⟩)
    | some p =>
      have hsize : xs.length * 4 = 4 * (intWords p xs).length := by
        rw [length_intWords, Nat.mul_comm]
      refine .inr (.inr ⟨xs, p, hne, hf, rfl, rfl, _, ?_, ⟨w₁, c, hbegin, hc, hid, rfl⟩⟩)
      rw [hsize, ← hid]
      exact (bind_of_ok (forM_pushWord _ _)).trans (endArray_eq hc _ _ _)

/-- **`addFloatArray`** adds the array, or throws; when it throws behind its first checks an ID is
gone. -/
theorem addFloatArrayM_cases (lzma : Lzma) (uninit : Nat → BitVec 32) (platform : IntPlatform)
    (w : ChunkedBinaryStreamWriter) (data : Option (List NfFloat))
    (predictionType : Option ChunkedBinaryPredictionType) (units : NfFloat) :
    ((units.value ≤ 0 ∨ w.Rejects data) ∧
      ∃ e, addFloatArrayM lzma uninit platform data predictionType units w = .error e w) ∨
    (¬ (units.value ≤ 0 ∨ w.Rejects data) ∧
      (¬ ∃ xs p, data = some xs ∧ predictionType = some p ∧
        Discretizable platform units.value p xs) ∧
      ∃ e w', addFloatArrayM lzma uninit platform data predictionType units w = .error e w' ∧
        w'.elementIDCounter = w.elementIDCounter + 1) ∨
    ∃ xs p, xs ≠ [] ∧ w.isFinished = false ∧ data = some xs ∧ predictionType = some p ∧
      Discretizable platform units.value p xs ∧
      ∃ w', addFloatArrayM lzma uninit platform data predictionType units w =
          .ok w.elementIDCounter w' ∧
        Adds lzma uninit w w' (floatEntryType p) (units.bits ::
          intWords p ((discretized platform units.value p xs).map (BitVec.ofInt 32))) := by
  unfold addFloatArrayM
  by_cases hu : units.value ≤ 0
  · exact .inl ⟨.inl hu, _, bind_of_error (require_of_neg (not_not.2 hu) _ _)⟩
  rw [require_bind hu]
  obtain hrej | ⟨xs, rfl, hne, hf⟩ := rejects_or w data
  · obtain ⟨e, he⟩ := checkArray_error hrej
    exact .inl ⟨.inr hrej, e, bind_of_error he⟩
  · obtain ⟨w₁, c, hbegin, hc, hid, harray⟩ := @beginArray_ok lzma uninit w hf
    have hcheck : checkArray (some xs) w = .ok xs w := checkArray_ok hf hne
    have hnot : ¬ (units.value ≤ 0 ∨ w.Rejects (some xs)) := by
      unfold Rejects
      simp [hf, hne, hu]
    rw [bind_of_ok hcheck, bind_of_ok harray]
    have hpush (f : WriterM (BitVec 32)) (t : ChunkedBinaryStreamWriter) :
        (pushWord units.bits >>= fun _ => f) t =
          f { t with currentChunkData := t.currentChunkData ++ [units.bits] } := rfl
    rw [hpush]
    cases predictionType with
    | none => exact .inr (.inl ⟨hnot, fun ⟨_, _, _, h, _⟩ => (nomatch h), _, _, rfl, rfl⟩)
    | some p =>
      have hp := pushes_pushFloats platform units.value p xs
      obtain ⟨hdis, hwords⟩ | ⟨hdis, e, hwords⟩ := floatWords_cases platform units.value p xs
      · have hsize : xs.length * 4 + 4 = 4 * (units.bits ::
            intWords p ((discretized platform units.value p xs).map (BitVec.ofInt 32))).length := by
          rw [List.length_cons, length_intWords, List.length_map, length_discretized]
          omega
        refine .inr (.inr ⟨xs, p, hne, hf, rfl, rfl, hdis, _, ?_, ⟨w₁, c, hbegin, hc, hid, rfl⟩⟩)
        rw [hsize, ← hid]
        refine (bind_of_ok (hp.ok _ _ hwords)).trans ?_
        simp only [List.append_assoc, List.singleton_append]
        exact endArray_eq hc _ _ _
      · obtain ⟨more, hmore⟩ := hp.error _ e hwords
        refine .inr (.inl ⟨hnot, ?_, e, _, bind_of_error hmore, rfl⟩)
        intro ⟨ys, q, hys, hq, hd⟩
        cases hys
        cases hq
        exact hdis hd

/-! ## What the calls return -/

theorem addIntArray_eq_ok {data : List (BitVec 32)} {x : ChunkedBinaryStreamWriter × BitVec 32} :
    w.addIntArray lzma uninit data p = .ok x ↔ w.isFinished = false ∧ data ≠ [] ∧
      ∃ w₁ c, w.beginFirstChunk lzma uninit = .ok w₁ ∧ w₁.currentChunk = some c ∧
        w₁.pushEntry c (intEntryType p) (data.length * 4) (intWords p data) = x := by
  simp only [addIntArray, guard_eq_ok, bind_eq_ok, List.length_eq_zero_iff, Bool.not_eq_true]
  refine and_congr_right fun _ => and_congr_right fun _ => exists_congr fun w₁ => ?_
  cases hc : w₁.currentChunk with
  | none => exact iff_of_false (by rintro ⟨-, h⟩; cases h) (by rintro ⟨c, -, h, -⟩; cases h)
  | some c =>
    simp only [Option.some.injEq, pure_eq_ok]
    exact ⟨fun h => ⟨c, h.1, rfl, h.2⟩, by rintro ⟨_, h, rfl, hx⟩; exact ⟨h, hx⟩⟩

theorem addFloatArray_eq_ok {data : List NfFloat} {x : ChunkedBinaryStreamWriter × BitVec 32} :
    w.addFloatArray lzma uninit platform data p units = .ok x ↔
      ¬ units.value ≤ 0 ∧ w.isFinished = false ∧ data ≠ [] ∧
      ∃ w₁ c words, w.beginFirstChunk lzma uninit = .ok w₁ ∧ w₁.currentChunk = some c ∧
        floatWords platform units.value p data = .ok words ∧
        w₁.pushEntry c (floatEntryType p) (data.length * 4 + 4) (units.bits :: words) = x := by
  simp only [addFloatArray, guard_eq_ok, bind_eq_ok, List.length_eq_zero_iff, Bool.not_eq_true]
  refine and_congr_right fun _ => and_congr_right fun _ => and_congr_right fun _ =>
    exists_congr fun w₁ => ?_
  cases hc : w₁.currentChunk with
  | none => exact iff_of_false (by rintro ⟨-, h⟩; cases h) (by rintro ⟨c, _, -, h, -⟩; cases h)
  | some c =>
    simp only [Option.some.injEq, bind_eq_ok, pure_eq_ok]
    constructor
    · rintro ⟨h, words, hw, hx⟩
      exact ⟨c, words, h, rfl, hw, hx⟩
    · rintro ⟨_, words, h, rfl, hw, hx⟩
      exact ⟨h, words, hw, hx⟩

/-- **`addIntArray` returns** what is computed of it without the states it throws in. -/
theorem addIntArrayM_eq_ok {data : List (BitVec 32)} {entryID : BitVec 32} :
    addIntArrayM lzma uninit (some data) (some p) w = .ok entryID w' ↔
      w.addIntArray lzma uninit data p = .ok (w', entryID) := by
  have hsize : data.length * 4 = 4 * (intWords p data).length := by
    rw [length_intWords, Nat.mul_comm]
  rw [addIntArray_eq_ok, hsize]
  obtain ⟨hrej, e, he⟩ | ⟨-, hp, -⟩ | ⟨xs, q, hne, hf, hxs, hq, w₂, hok, hw₂⟩ :=
    addIntArrayM_cases lzma uninit w (some data) (some p)
  · rw [he]
    refine iff_of_false nofun fun h => ?_
    obtain hrej | hrej | hrej := hrej
    · rw [h.1] at hrej
      cases hrej
    · cases hrej
    · exact h.2.1 (Option.some.inj hrej)
  · cases hp
  · cases hxs
    cases hq
    obtain ⟨w₁, c, hbegin, hc, hid, rfl⟩ := hw₂.added
    rw [hok, EStateM.Result.ok.injEq]
    constructor
    · rintro ⟨rfl, rfl⟩
      exact ⟨hf, hne, w₁, c, hbegin, hc, Prod.ext rfl hid⟩
    · rintro ⟨-, -, w₁', c', hbegin', hc', hx⟩
      rw [hbegin] at hbegin'
      cases hbegin'
      rw [hc] at hc'
      cases hc'
      rw [hx]
      exact ⟨hid.symm.trans (congrArg Prod.snd hx), rfl⟩

/-- **`addFloatArray` returns** what is computed of it without the states it throws in. -/
theorem addFloatArrayM_eq_ok {data : List NfFloat} {entryID : BitVec 32} :
    addFloatArrayM lzma uninit platform (some data) (some p) units w = .ok entryID w' ↔
      w.addFloatArray lzma uninit platform data p units = .ok (w', entryID) := by
  rw [addFloatArray_eq_ok]
  by_cases hu : units.value ≤ 0
  · have he : addFloatArrayM lzma uninit platform (some data) (some p) units w =
        .error .invalidParam w := bind_of_error (require_of_neg (not_not.2 hu) _ _)
    rw [he]
    exact iff_of_false nofun fun h => h.1 hu
  obtain ⟨hrej, e, he⟩ | ⟨-, hdis, e, w₂, he, -⟩ | ⟨xs, q, hne, hf, hxs, hq, hdis, w₂, hok, hw₂⟩ :=
    addFloatArrayM_cases lzma uninit platform w (some data) (some p) units
  · rw [he]
    refine iff_of_false nofun fun h => ?_
    obtain hrej | hrej | hrej | hrej := hrej
    · exact hu hrej
    · rw [h.2.1] at hrej
      cases hrej
    · cases hrej
    · exact h.2.2.1 (Option.some.inj hrej)
  · rw [he]
    refine iff_of_false nofun ?_
    rintro ⟨-, -, -, _, _, words, -, -, hwords, -⟩
    obtain ⟨hd, -⟩ | ⟨-, e', he'⟩ := floatWords_cases platform units.value p data
    · exact hdis ⟨data, p, rfl, rfl, hd⟩
    · rw [hwords] at he'
      cases he'
  · cases hxs
    cases hq
    have hwords : floatWords platform units.value p data =
        .ok (intWords p ((discretized platform units.value p data).map (BitVec.ofInt 32))) := by
      obtain ⟨-, hw⟩ | ⟨hd, -⟩ := floatWords_cases platform units.value p data
      · exact hw
      · exact absurd hdis hd
    have hsize : data.length * 4 + 4 = 4 * (units.bits ::
        intWords p ((discretized platform units.value p data).map (BitVec.ofInt 32))).length := by
      rw [List.length_cons, length_intWords, List.length_map, length_discretized]
      omega
    obtain ⟨w₁, c, hbegin, hc, hid, rfl⟩ := hw₂.added
    rw [hok, EStateM.Result.ok.injEq, hsize]
    constructor
    · rintro ⟨rfl, rfl⟩
      exact ⟨hu, hf, hne, w₁, c, _, hbegin, hc, hwords, Prod.ext rfl hid⟩
    · rintro ⟨-, -, -, w₁', c', words, hbegin', hc', hwords', hx⟩
      rw [hbegin] at hbegin'
      cases hbegin'
      rw [hc] at hc'
      cases hc'
      rw [hwords] at hwords'
      cases hwords'
      rw [hx]
      exact ⟨hid.symm.trans (congrArg Prod.snd hx), rfl⟩

end ChunkedBinaryStreamWriter

end NMR
