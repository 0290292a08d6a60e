import Lib3MF.Common.Platform.Proof.XmlStrings

/-!
# The buffer while it is parsed

`Tracks s p rest done pend`: what is ahead of `p` is the text `rest`, the entities of the buffer are
the full ones `done` and behind them `pend`, which are not decoded yet, and once the zeros that
are still to be inserted are inserted their strings lie in the characters before `p`. A character
that belongs to no entity goes by (`Tracks.skip`); a string that becomes an entity goes to `pend`
(`Tracks.push`), or it finishes what is pending (`Tracks.finish`).
-/

namespace NMR

open Lib

namespace XmlBuffer

/-- The characters once the zeros are inserted. -/
def zeroed (s : XmlBuffer) : List UInt8 := s.zeroInserts.foldl (fun chars p => chars.set p 0) s.chars

/-- The state of a buffer that is parsed up to `p`. -/
structure Tracks (s : XmlBuffer) (p : Nat) (rest : List UInt8) (done pend : List EntityItem) :
    Prop where
  chars : ∃ x, x.length = p ∧ s.chars = x ++ rest
  laid : ∃ a b es es', a.length + b.length = p ∧ s.zeroed = a ++ (b ++ rest) ∧
    s.entities = es ++ es' ∧ s.verifiedEntityCount = es.length ∧
    Laid 0 a (done.map EntityItem.pushed) es ∧ Laid a.length b (pend.map EntityItem.escaped) es'
  full : s.fullEntityCount = done.length
  notText : ∀ i ∈ pend, i.type ≠ .text
  zeroFree : ∀ i ∈ done ++ pend, i.ZeroFree
  entities_le : s.entities.length ≤ p
  zeros_le : s.zeroInserts.length ≤ p
  room : p + rest.length + bufferMargin ≤ s.capacity

/-- The string `r` at `p` is the entity `i`, with zeros where it is divided. -/
structure Spells (p : Nat) (r : List UInt8) (ns : Bool) (i : EntityItem) : Prop where
  zeroFree : i.ZeroFree
  split : ∃ zs e, zs.length ≤ r.length ∧
    (∀ s : XmlBuffer, slice s.chars p (p + r.length) = r →
      s.zeroInserts.length + zs.length ≤ s.capacity →
      s.splitPrefix p (p + r.length) i.type ns =
        .ok ({ s with zeroInserts := s.zeroInserts ++ zs }, e)) ∧
    ∃ r', r'.length = r.length ∧
      (∀ x tail : List UInt8, x.length = p →
        zs.foldl (fun chars p => chars.set p 0) (x ++ (r ++ tail)) = x ++ (r' ++ tail)) ∧
      ∀ tail, Laid p (r' ++ 0 :: tail) [i.escaped] [e]

variable {s : XmlBuffer} {p : Nat} {c d : UInt8} {r rest : List UInt8}
  {done pend : List EntityItem} {i : EntityItem}

/-! ## Strings that become entities -/

/-- A string without a prefix. -/
theorem spells_plain (h : i.ZeroFree) (hp : i.nsPrefix = []) :
    Spells p (escapeXMLString i.content) false i where
  zeroFree := h
  split := by
    refine ⟨[], ⟨i.type, none, p⟩, Nat.zero_le _, fun s _ _ => ?_, escapeXMLString i.content, rfl,
      fun x tail _ => rfl, fun tail => ?_⟩
    · rw [List.append_nil]
      rfl
    · exact @Laid.cons p [] tail i.escaped [] ⟨i.type, none, p⟩ [] rfl rfl hp (.nil _ _)

theorem findColon_plain {k : Nat} {colon : Option Nat} (h0 : 0 ∉ r) (hc : ':'.toUInt8 ∉ r) :
    findColon k colon r = .ok colon := by
  induction r generalizing k with
  | nil => rfl
  | cons c r ih =>
    rw [List.mem_cons, not_or] at h0 hc
    rw [findColon, if_neg (Ne.symm h0.1), if_neg (Ne.symm hc.1)]
    exact ih h0.2 hc.2

theorem findColon_prefix {k : Nat} {a b : List UInt8} (ha0 : 0 ∉ a) (hac : ':'.toUInt8 ∉ a)
    (hb0 : 0 ∉ b) (hbc : ':'.toUInt8 ∉ b) :
    findColon k none (a ++ ':'.toUInt8 :: b) = .ok (some (k + a.length)) := by
  induction a generalizing k with
  | nil =>
    rw [List.nil_append, findColon, if_neg (by decide), if_pos rfl, if_neg (by simp)]
    exact findColon_plain hb0 hbc
  | cons c a ih =>
    rw [List.mem_cons, not_or] at ha0 hac
    rw [List.cons_append, findColon, if_neg (Ne.symm ha0.1), if_neg (Ne.symm hac.1),
      ih ha0.2 hac.2, List.length_cons, Nat.add_assoc, Nat.add_comm 1]

/-- A name, with a prefix or without. -/
theorem spells_name (h : i.ZeroFree) (hesc : i.escaped = i)
    (hp : ':'.toUInt8 ∉ i.nsPrefix) (hn : ':'.toUInt8 ∉ i.content) :
    Spells p (XmlWriter.nodeName i.nsPrefix i.content) true i where
  zeroFree := h
  split := by
    by_cases hpre : i.nsPrefix = []
    · have hname : XmlWriter.nodeName i.nsPrefix i.content = i.content := by
        rw [XmlWriter.nodeName, if_pos hpre, List.nil_append]
      rw [hname]
      refine ⟨[], ⟨i.type, none, p⟩, Nat.zero_le _, fun s hs _ => ?_, i.content, rfl,
        fun x tail _ => rfl, fun tail => ?_⟩
      · rw [splitPrefix, if_pos rfl, hs, findColon_plain h.2 hn, List.append_nil]
      · have hlaid := @Laid.cons p [] tail i [] ⟨i.type, none, p⟩ [] rfl rfl hpre (.nil _ _)
        rw [hesc]
        exact hlaid
    · have hname : XmlWriter.nodeName i.nsPrefix i.content =
          i.nsPrefix ++ ':'.toUInt8 :: i.content := by
        have hcolon : xmlText ":" = [':'.toUInt8] := by decide
        rw [XmlWriter.nodeName, if_neg hpre, hcolon, List.append_assoc]
        rfl
      rw [hname]
      refine ⟨[p + i.nsPrefix.length], ⟨i.type, some p, p + i.nsPrefix.length + 1⟩, ?_,
        fun s hs hcap => ?_, i.nsPrefix ++ 0 :: i.content, ?_, fun x tail hx => ?_, fun tail => ?_⟩
      · simp only [List.length_append, List.length_cons, List.length_nil]
        omega
      · rw [List.length_singleton] at hcap
        rw [splitPrefix, if_pos rfl, hs, findColon_prefix h.1 hp h.2 hn]
        dsimp only
        rw [pushZeroInsert, if_pos (Nat.lt_of_succ_le hcap)]
      · rw [List.length_append, List.length_append, List.length_cons, List.length_cons]
      · rw [List.foldl_cons, List.foldl_nil, ← hx, List.set_append_right _ _ (Nat.le_add_right ..),
          Nat.add_sub_cancel_left, List.append_assoc, List.set_append_right _ _ le_rfl, Nat.sub_self,
          List.append_assoc]
        rfl
      · have hlaid := @Laid.cons p (i.nsPrefix ++ [0]) tail i []
          ⟨i.type, some p, p + i.nsPrefix.length + 1⟩ [] rfl
          (by rw [List.length_append, List.length_singleton, Nat.add_assoc])
          ⟨[], rfl, rfl⟩ (.nil _ _)
        rw [hesc]
        simpa only [List.append_assoc, List.cons_append, List.nil_append] using hlaid

/-! ## What the calls do -/

theorem zeroed_append (s : XmlBuffer) (zs : List Nat) (es : List NativeEntity) :
    zeroed { s with zeroInserts := s.zeroInserts ++ zs, entities := es } =
      zs.foldl (fun chars p => chars.set p 0) s.zeroed :=
  List.foldl_append

theorem Tracks.slice_eq (h : Tracks s p (r ++ rest) done pend) :
    slice s.chars p (p + r.length) = r := by
  obtain ⟨x, hx, hc⟩ := h.chars
  rw [slice, hc, ← hx, List.drop_left, Nat.add_sub_cancel_left, List.take_left]

/-- Characters that belong to no entity. -/
theorem Tracks.skip (h : Tracks s p (r ++ rest) done pend) :
    Tracks s (p + r.length) rest done pend := by
  obtain ⟨x, hx, hc⟩ := h.chars
  obtain ⟨a, b, es, es', hp, hz, hents, hver, hdone, hpend⟩ := h.laid
  have hroom := h.room
  rw [List.length_append] at hroom
  refine ⟨⟨x ++ r, by rw [List.length_append, hx], by rw [hc, List.append_assoc]⟩,
    ⟨a, b ++ r, es, es', by rw [List.length_append, ← Nat.add_assoc, hp],
      by rw [hz, List.append_assoc], hents, hver, hdone, hpend.extend r⟩, h.full, h.notText,
    h.zeroFree, h.entities_le.trans (Nat.le_add_right ..), h.zeros_le.trans (Nat.le_add_right ..),
    by omega⟩

/-- A character that gets a zero. -/
theorem Tracks.zeroInsert (h : Tracks s p (c :: rest) done pend) :
    ∃ s', s.pushZeroInsert p = .ok s' ∧ Tracks s' (p + 1) rest done pend ∧
      s'.entityPointer = s.entityPointer := by
  obtain ⟨x, hx, hc⟩ := h.chars
  obtain ⟨a, b, es, es', hp, hz, hents, hver, hdone, hpend⟩ := h.laid
  have hroom := h.room
  rw [List.length_cons] at hroom
  have hzeros := h.zeros_le
  refine ⟨_, if_pos (by omega), ⟨⟨x ++ [c], by rw [List.length_append, hx]; rfl,
    by rw [List.append_assoc]; exact hc⟩, ⟨a, b ++ [0], es, es', ?_, ?_, hents, hver, hdone,
      hpend.extend [0]⟩, h.full, h.notText, h.zeroFree, h.entities_le.trans (Nat.le_add_right ..),
    ?_, ?_⟩, rfl⟩
  · rw [List.length_append, ← Nat.add_assoc, hp]
    rfl
  · refine (zeroed_append s [p] s.entities).trans ?_
    rw [hz, List.foldl_cons, List.foldl_nil, ← List.append_assoc, List.set_append_right _ _
      (by rw [List.length_append, hp]), List.length_append, hp, Nat.sub_self, List.append_assoc,
      List.append_assoc]
    rfl
  · rw [List.length_append, List.length_singleton]
    omega
  · show _ ≤ s.capacity
    omega

/-- The zeros of a string and the one behind it. -/
theorem foldl_zeros {a b r' : List UInt8} {zs l : List Nat} (hp : a.length + b.length = p)
    (hz : s.zeroed = a ++ (b ++ (r ++ d :: rest))) (hr' : r'.length = r.length)
    (hzs : ∀ x tail : List UInt8, x.length = p →
      zs.foldl (fun chars p => chars.set p 0) (x ++ (r ++ tail)) = x ++ (r' ++ tail))
    (hl : l = zs ++ [p + r.length] ∨ l = [p + r.length] ++ zs) :
    l.foldl (fun chars p => chars.set p 0) s.zeroed = a ++ (b ++ (r' ++ 0 :: rest)) := by
  have hab : (a ++ b).length = p := by rw [List.length_append, hp]
  have hset (r : List UInt8) (c : UInt8) (tail : List UInt8) (hr : r.length = r'.length) :
      ((a ++ b) ++ (r ++ c :: tail)).set (p + r'.length) 0 = (a ++ b) ++ (r ++ 0 :: tail) := by
    rw [List.set_append_right _ _ (by rw [hab]; exact Nat.le_add_right ..), hab,
      Nat.add_sub_cancel_left, List.set_append_right _ _ hr.le, hr, Nat.sub_self]
    rfl
  rw [hz, ← List.append_assoc a b, ← List.append_assoc a b]
  rcases hl with rfl | rfl
  · rw [List.foldl_append, hzs _ _ hab, List.foldl_cons, List.foldl_nil, ← hr', hset _ _ _ rfl]
  · rw [List.foldl_append, List.foldl_cons, List.foldl_nil, ← hr', hset _ _ _ hr'.symm,
      hzs _ _ hab]

/-- **A string becomes an entity that is pending**, with the zero behind it before or after. -/
theorem Tracks.push {ns : Bool} {actions : List ParseAction} (next : Nat)
    (h : Tracks s p (r ++ d :: rest) done pend) (hi : Spells p r ns i) (ht : i.type ≠ .text)
    (ha : actions = [.entity p (p + r.length) next i.type ns false, .zeroInsert (p + r.length)] ∨
      actions = [.zeroInsert (p + r.length), .entity p (p + r.length) next i.type ns false]) :
    ∃ s', actions.foldlM perform s = .ok s' ∧
      Tracks s' (p + (r.length + 1)) rest done (pend ++ [i]) := by
  obtain ⟨x, hx, hc⟩ := h.chars
  obtain ⟨a, b, es, es', hp, hz, hents, hver, hdone, hpend⟩ := h.laid
  obtain ⟨zs, e, hzs, hsplit, r', hr', hzeros, hlaid⟩ := hi.split
  have hroom := h.room
  rw [List.length_append, List.length_cons] at hroom
  have hents_le := h.entities_le
  have hzeros_le := h.zeros_le
  have hslice := h.slice_eq
  have hwrite (l : List Nat) : writeEntity { s with zeroInserts := l } e =
      .ok { s with zeroInserts := l, entities := s.entities ++ [e] } :=
    if_pos (by show s.entities.length < s.capacity; omega)
  -- what both orders come to
  obtain ⟨l, hl, hperform⟩ : ∃ l, (l = zs ++ [p + r.length] ∨ l = [p + r.length] ++ zs) ∧
      actions.foldlM perform s =
        .ok { s with zeroInserts := s.zeroInserts ++ l, entities := s.entities ++ [e] } := by
    rcases ha with rfl | rfl
    · refine ⟨_, .inl rfl, ?_⟩
      rw [List.foldlM_cons, perform, pushEntity, hsplit s hslice (by omega)]
      simp only [bind, Except.bind, hwrite, List.foldlM_cons, List.foldlM_nil, perform,
        Bool.false_eq_true, if_false, pure, Except.pure]
      rw [pushZeroInsert, if_pos (by rw [List.length_append]; show _ + _ < s.capacity; omega),
        List.append_assoc]
    · refine ⟨_, .inr rfl, ?_⟩
      rw [List.foldlM_cons, perform, pushZeroInsert, if_pos (by omega)]
      simp only [bind, Except.bind, List.foldlM_cons, List.foldlM_nil, perform, pushEntity,
        hsplit { s with zeroInserts := s.zeroInserts ++ [p + r.length] } hslice
          (by rw [List.length_append, List.length_singleton]; show _ ≤ s.capacity; omega), hwrite,
        Bool.false_eq_true, if_false, pure, Except.pure, List.append_assoc]
  have hzeroed : zeroed { s with zeroInserts := s.zeroInserts ++ l, entities := s.entities ++ [e] } =
      a ++ (b ++ (r' ++ 0 :: rest)) :=
    (zeroed_append s l _).trans (foldl_zeros hp hz hr' hzeros hl)
  have hllen : l.length ≤ r.length + 1 := by
    rcases hl with rfl | rfl
    · simp only [List.length_append, List.length_singleton]
      omega
    · simp only [List.length_append, List.length_singleton]
      omega
  refine ⟨_, hperform, ⟨x ++ (r ++ [d]), ?_, ?_⟩, ⟨a, b ++ (r' ++ [0]), es, es' ++ [e], ?_, ?_, ?_,
    hver, hdone, ?_⟩, h.full, ?_, ?_, ?_, ?_, ?_⟩
  · simp only [List.length_append, List.length_singleton, hx]
  · simp only [hc, List.append_assoc, List.singleton_append]
  · simp only [List.length_append, List.length_singleton, hr']
    omega
  · rw [hzeroed]
    simp only [List.append_assoc, List.singleton_append]
  · show s.entities ++ [e] = _
    rw [hents, List.append_assoc]
  · rw [List.map_append]
    refine hpend.append ?_
    rw [hp]
    exact hlaid []
  · intro j hj
    rcases List.mem_append.1 hj with hj | hj
    · exact h.notText j hj
    · rw [List.mem_singleton.1 hj]
      exact ht
  · intro j hj
    rw [← List.append_assoc] at hj
    rcases List.mem_append.1 hj with hj | hj
    · exact h.zeroFree j hj
    · rw [List.mem_singleton.1 hj]
      exact hi.zeroFree
  · show (s.entities ++ [e]).length ≤ _
    rw [List.length_append, List.length_singleton]
    omega
  · show (s.zeroInserts ++ l).length ≤ _
    rw [List.length_append]
    omega
  · show _ ≤ s.capacity
    omega

/-- `finishEntity` decodes what is pending, and leaves the last entity as it is. -/
theorem finishEntity_laid {a b tail : List UInt8} {es es' : List NativeEntity} {e : NativeEntity}
    (hents : s.entities = es ++ es' ++ [e]) (hver : s.verifiedEntityCount = es.length)
    (hz : s.zeroed = a ++ (b ++ tail)) (hpend : Laid a.length b (pend.map EntityItem.escaped) es')
    (hzf : ∀ i ∈ pend, i.ZeroFree) (next : Nat) : ∃ b', b'.length = b.length ∧
      Laid a.length b' pend es' ∧ s.finishEntity next = .ok { s with
        chars := a ++ (b' ++ tail), zeroInserts := [], verifiedEntityCount := s.entities.length
        fullEntityCount := s.entities.length, entityPointer := some next } := by
  obtain ⟨b', hlen, hdec, hlaid⟩ := hpend.decode rfl tail hzf
  refine ⟨b', hlen, hlaid, ?_⟩
  have hnew : s.entities.dropLast.drop s.verifiedEntityCount = es' := by
    rw [hents, List.dropLast_concat, hver, List.drop_left]
  unfold finishEntity performZeroInserts performEscapeStringDecoding
  dsimp only
  rw [hnew, show List.foldl _ s.chars s.zeroInserts = a ++ (b ++ tail) from hz, hdec]
  rfl

/-- What was pending is decoded and laid behind what was full, with one more entity. -/
theorem laid_finished {a b' r' : List UInt8} {es es' : List NativeEntity} {e : NativeEntity}
    (hp : a.length + b'.length = p) (hdone : Laid 0 a (done.map EntityItem.pushed) es)
    (hpend : Laid a.length b' pend es') (ht : ∀ i ∈ pend, i.type ≠ .text)
    (hi : Laid p (r' ++ [0]) [i.pushed] [e]) :
    Laid 0 (a ++ (b' ++ (r' ++ [0]))) ((done ++ pend ++ [i]).map EntityItem.pushed)
      (es ++ es' ++ [e]) := by
  have hpushed : pend.map EntityItem.pushed = pend := by
    conv_rhs => rw [← List.map_id pend]
    exact List.map_congr_left fun i hi => if_neg (ht i hi)
  rw [List.map_append, List.map_append, hpushed, List.append_assoc, List.append_assoc]
  refine hdone.append ?_
  rw [Nat.zero_add]
  refine hpend.append ?_
  rw [hp]
  exact hi

/-- **A string becomes an entity that is full**, and so does what is pending. -/
theorem Tracks.finish {ns : Bool} (next : Nat) (h : Tracks s p (r ++ d :: rest) done pend)
    (hi : Spells p r ns i) (ht : i.type ≠ .text) (hesc : i.escaped = i) :
    ∃ s', [ParseAction.zeroInsert (p + r.length),
        .entity p (p + r.length) next i.type ns true].foldlM perform s = .ok s' ∧
      Tracks s' (p + (r.length + 1)) rest (done ++ pend ++ [i]) [] ∧
      s'.entityPointer = some next ∧ s'.zeroInserts = [] := by
  obtain ⟨x, hx, hc⟩ := h.chars
  obtain ⟨a, b, es, es', hp, hz, hents, hver, hdone, hpend⟩ := h.laid
  obtain ⟨zs, e, hzs, hsplit, r', hr', hzeros, hlaid⟩ := hi.split
  have hroom := h.room
  rw [List.length_append, List.length_cons] at hroom
  have hents_le := h.entities_le
  have hzeros_le := h.zeros_le
  have hslice := h.slice_eq
  let l := [p + r.length] ++ zs
  let s₁ : XmlBuffer :=
    { s with zeroInserts := s.zeroInserts ++ l, entities := s.entities ++ [e] }
  have hz₁ : s₁.zeroed = a ++ (b ++ (r' ++ 0 :: rest)) :=
    (zeroed_append s l _).trans (foldl_zeros hp hz hr' hzeros (.inr rfl))
  obtain ⟨b', hb', hlaid', hfinish⟩ := finishEntity_laid (s := s₁) (by rw [← hents]) hver hz₁ hpend
    (fun i hi => h.zeroFree i (List.mem_append_right _ hi)) next
  have hperform : [ParseAction.zeroInsert (p + r.length),
      .entity p (p + r.length) next i.type ns true].foldlM perform s = s₁.finishEntity next := by
    rw [List.foldlM_cons, perform, pushZeroInsert, if_pos (by omega)]
    simp only [bind, Except.bind, List.foldlM_cons, List.foldlM_nil, perform, pushEntity,
      hsplit { s with zeroInserts := s.zeroInserts ++ [p + r.length] } hslice
        (by rw [List.length_append, List.length_singleton]; show _ ≤ s.capacity; omega)]
    rw [writeEntity, if_pos (by show s.entities.length < s.capacity; omega), List.append_assoc]
    simp only [if_true]
    rw [hfinish]
    rfl
  refine ⟨_, hperform.trans hfinish, ⟨⟨a ++ (b' ++ (r' ++ [0])), ?_, ?_⟩,
    ⟨a ++ (b' ++ (r' ++ [0])), [], es ++ es' ++ [e], [], ?_, ?_, ?_, ?_, ?_, .nil _ _⟩,
    ?_, ?_, ?_, ?_, Nat.zero_le _, ?_⟩, rfl, rfl⟩
  · simp only [List.length_append, List.length_singleton, hb', hr']
    omega
  · simp only [List.append_assoc, List.singleton_append]
  · simp only [List.length_append, List.length_singleton, List.length_nil, hb', hr']
    omega
  · show a ++ (b' ++ (r' ++ 0 :: rest)) = _
    simp only [List.append_assoc, List.singleton_append, List.nil_append]
  · show s.entities ++ [e] = _
    rw [hents, List.append_nil]
  · show (s.entities ++ [e]).length = _
    rw [hents]
  · refine laid_finished (by rw [hb', hp]) hdone hlaid' h.notText ?_
    have hpushed : i.pushed = i.escaped := by rw [EntityItem.pushed, if_neg ht, hesc]
    rw [hpushed]
    exact hlaid []
  · show (s.entities ++ [e]).length = _
    rw [hents]
    have hl₁ := hdone.length_eq
    have hl₂ := hpend.length_eq
    rw [List.length_map] at hl₁ hl₂
    simp only [List.length_append, List.length_singleton, hl₁, hl₂]
  · intro j hj
    cases hj
  · intro j hj
    rw [List.append_nil] at hj
    rcases List.mem_append.1 hj with hj | hj
    · exact h.zeroFree j hj
    · rw [List.mem_singleton.1 hj]
      exact hi.zeroFree
  · show (s.entities ++ [e]).length ≤ _
    rw [List.length_append, List.length_singleton]
    omega
  · show _ ≤ s.capacity
    omega

/-- **A text becomes an entity that is full**, and so does what is pending; its zero is still to be
inserted, and it is not decoded. -/
theorem Tracks.finishText {t : List UInt8}
    (h : Tracks s p (escapeXMLString t ++ d :: rest) done pend) (ht : 0 ∉ t) :
    ∃ s', [ParseAction.entity p (p + (escapeXMLString t).length) (p + (escapeXMLString t).length)
        .text false true, .zeroInsert (p + (escapeXMLString t).length)].foldlM perform s = .ok s' ∧
      Tracks s' (p + ((escapeXMLString t).length + 1)) rest (done ++ pend ++ [⟨.text, [], t⟩]) [] := by
  obtain ⟨x, hx, hc⟩ := h.chars
  obtain ⟨a, b, es, es', hp, hz, hents, hver, hdone, hpend⟩ := h.laid
  generalize hr : escapeXMLString t = r at *
  have hroom := h.room
  rw [List.length_append, List.length_cons] at hroom
  have hents_le := h.entities_le
  have hzeros_le := h.zeros_le
  let e : NativeEntity := ⟨.text, none, p⟩
  let s₁ : XmlBuffer := { s with entities := s.entities ++ [e] }
  obtain ⟨b', hb', hlaid', hfinish⟩ := finishEntity_laid (s := s₁) (by rw [← hents]) hver hz hpend
    (fun i hi => h.zeroFree i (List.mem_append_right _ hi)) (p + r.length)
  have hab : a.length + b'.length = p := by rw [hb', hp]
  let s₂ : XmlBuffer := { s₁ with
    chars := a ++ (b' ++ (r ++ d :: rest)), zeroInserts := [p + r.length]
    verifiedEntityCount := s₁.entities.length, fullEntityCount := s₁.entities.length
    entityPointer := some (p + r.length) }
  have hperform : [ParseAction.entity p (p + r.length) (p + r.length) .text false true,
      .zeroInsert (p + r.length)].foldlM perform s = .ok s₂ := by
    rw [List.foldlM_cons, perform, pushEntity]
    simp only [bind, Except.bind, splitPrefix, Bool.false_eq_true, if_false]
    rw [writeEntity, if_pos (by omega)]
    simp only [if_true]
    rw [hfinish]
    simp only [List.foldlM_cons, List.foldlM_nil, perform]
    rw [pushZeroInsert, if_pos (by show 0 < s.capacity; omega)]
    rfl
  have hzeroed : s₂.zeroed = a ++ (b' ++ (r ++ 0 :: rest)) := by
    refine @foldl_zeros { s₂ with zeroInserts := [] } p d r rest a b' r [] [p + r.length] hab rfl rfl
      (fun _ _ _ => rfl) (.inl rfl)
  have hlaid : Laid p (r ++ [0]) [EntityItem.pushed ⟨.text, [], t⟩] [e] := by
    have hitem : EntityItem.pushed ⟨.text, [], t⟩ = ⟨.text, [], r⟩ := by
      rw [EntityItem.pushed, if_pos rfl, EntityItem.escaped, hr]
    rw [hitem]
    exact @Laid.cons p [] [] ⟨.text, [], r⟩ [] e [] rfl rfl rfl (.nil _ _)
  refine ⟨s₂, hperform, ⟨⟨a ++ (b' ++ (r ++ [d])), ?_, ?_⟩, ⟨a ++ (b' ++ (r ++ [0])), [],
    es ++ es' ++ [e], [], ?_, ?_, ?_, ?_, laid_finished hab hdone hlaid' h.notText hlaid, .nil _ _⟩,
    ?_, ?_, ?_, ?_, ?_, ?_⟩⟩
  · simp only [List.length_append, List.length_singleton, hb']
    omega
  · show a ++ (b' ++ (r ++ d :: rest)) = _
    simp only [List.append_assoc, List.singleton_append]
  · simp only [List.length_append, List.length_singleton, List.length_nil, hb']
    omega
  · rw [hzeroed]
    simp only [List.append_assoc, List.singleton_append, List.nil_append]
  · show s.entities ++ [e] = _
    rw [hents, List.append_nil]
  · show (s.entities ++ [e]).length = _
    rw [hents]
  · show (s.entities ++ [e]).length = _
    rw [hents]
    have hl₁ := hdone.length_eq
    have hl₂ := hpend.length_eq
    rw [List.length_map] at hl₁ hl₂
    simp only [List.length_append, List.length_singleton, hl₁, hl₂]
  · intro j hj
    cases hj
  · intro j hj
    rw [List.append_nil] at hj
    rcases List.mem_append.1 hj with hj | hj
    · exact h.zeroFree j hj
    · rw [List.mem_singleton.1 hj]
      exact ⟨List.not_mem_nil, ht⟩
  · show (s.entities ++ [e]).length ≤ _
    rw [List.length_append, List.length_singleton]
    omega
  · show 1 ≤ _
    omega
  · show _ ≤ s.capacity
    omega

end XmlBuffer

end NMR
