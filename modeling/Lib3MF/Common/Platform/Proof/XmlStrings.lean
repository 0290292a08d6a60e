import Lib3MF.Common.Platform.Proof.EscapeDecoding
import Lib3MF.Common.Platform.Proof.XmlWriter
import Lib3MF.Common.Platform.XmlSession

/-!
# Strings in the buffer

Decoding an escaped string gives the string back, in place too (`decodeAt_escaped`). `Laid p chars
items es` says that the entities `es` point at the strings of `items` in `chars`, which begins at
`p` of the buffer: the strings lie one behind the other, each with its zero, and what is between
them is of no interest. Decoding entities one after the other keeps them laid (`Laid.decode`).
-/

namespace NMR

open Lib

/-! ## Escaping and decoding -/

/-- A character is written as it is, or as an escape sequence. -/
theorem escapeXMLChar_cases (c : UInt8) :
    (c ≠ '&'.toUInt8 ∧ c ≠ '<'.toUInt8 ∧ c ≠ '"'.toUInt8 ∧ escapeXMLChar c = [c]) ∨
      ∃ e ∈ escapeSequences, escapeXMLChar c = '&'.toUInt8 :: (e.1 ++ [';'.toUInt8]) ∧ e.2 = c := by
  unfold escapeXMLChar
  split_ifs with hquot hamp hapos hlt hgt
  · exact .inr ⟨(xmlBytes ['q', 'u', 'o', 't'], '"'.toUInt8), by decide, by decide, hquot.symm⟩
  · exact .inr ⟨(xmlBytes ['a', 'm', 'p'], '&'.toUInt8), by decide, by decide, hamp.symm⟩
  · exact .inr ⟨(xmlBytes ['a', 'p', 'o', 's'], '\''.toUInt8), by decide, by decide, hapos.symm⟩
  · exact .inr ⟨(xmlBytes ['l', 't'], '<'.toUInt8), by decide, by decide, hlt.symm⟩
  · exact .inr ⟨(xmlBytes ['g', 't'], '>'.toUInt8), by decide, by decide, hgt.symm⟩
  · exact .inl ⟨hamp, hlt, hquot, rfl⟩

theorem escapeXMLString_cons (c : UInt8) (s : List UInt8) :
    escapeXMLString (c :: s) = escapeXMLChar c ++ escapeXMLString s := rfl

theorem escapeXMLString_append (s t : List UInt8) :
    escapeXMLString (s ++ t) = escapeXMLString s ++ escapeXMLString t := List.flatMap_append

/-- The characters of an escaped string, other than those of the escape sequences. -/
theorem notMem_escapeXMLString {c : UInt8} {s : List UInt8}
    (hc : ∀ e ∈ escapeSequences, c ∉ '&'.toUInt8 :: (e.1 ++ [';'.toUInt8]))
    (hs : c ∉ s ∨ c = '<'.toUInt8 ∨ c = '"'.toUInt8) : c ∉ escapeXMLString s := by
  intro hm
  obtain ⟨d, hd, hm⟩ := List.mem_flatMap.1 hm
  rcases escapeXMLChar_cases d with ⟨-, hlt, hquot, he⟩ | ⟨e, he, hd, -⟩
  · rw [he, List.mem_singleton] at hm
    subst hm
    rcases hs with hs | hs | hs
    · exact hs hd
    · exact hlt hs
    · exact hquot hs
  · rw [hd] at hm
    exact hc e he hm

theorem zero_notMem_escape {s : List UInt8} (hs : 0 ∉ s) : 0 ∉ escapeXMLString s :=
  notMem_escapeXMLString (by decide) (.inl hs)

theorem lt_notMem_escape (s : List UInt8) : '<'.toUInt8 ∉ escapeXMLString s :=
  notMem_escapeXMLString (by decide) (.inr (.inl rfl))

theorem quot_notMem_escape (s : List UInt8) : '"'.toUInt8 ∉ escapeXMLString s :=
  notMem_escapeXMLString (by decide) (.inr (.inr rfl))

/-- Escaping leaves a string without special characters as it is. -/
theorem escapeXMLString_eq {s : List UInt8} (hs : ∀ c ∈ s, escapeXMLChar c = [c]) :
    escapeXMLString s = s := by
  induction s with
  | nil => rfl
  | cons c s ih =>
    rw [escapeXMLString_cons, hs c List.mem_cons_self,
      ih fun d hd => hs d (List.mem_cons_of_mem _ hd)]
    rfl

theorem dropAbandoned_escape (s : List UInt8) :
    dropAbandoned (escapeXMLString s) = escapeXMLString s := by
  induction s with
  | nil => rw [escapeXMLString, List.flatMap_nil, dropAbandoned]
  | cons c s ih =>
    rw [escapeXMLString_cons]
    rcases escapeXMLChar_cases c with ⟨hamp, -, -, hc⟩ | ⟨e, he, hc, -⟩
    · rw [hc, List.singleton_append, dropAbandoned_cons hamp, ih]
    · obtain ⟨hsemi, hamp, -⟩ := semicolon_notMem_sequence he
      rw [hc, List.cons_append, List.append_assoc, List.singleton_append,
        dropAbandoned_semicolon ⟨hamp, hsemi⟩, ih]

theorem decodes_escape (s : List UInt8) : Decodes (escapeXMLString s) s := by
  induction s with
  | nil => exact .nil
  | cons c s ih =>
    rw [escapeXMLString_cons]
    rcases escapeXMLChar_cases c with ⟨hamp, -, -, hc⟩ | ⟨e, he, hc, rfl⟩
    · rw [hc]
      exact .char hamp ih
    · rw [hc, List.cons_append, List.append_assoc]
      exact .escape he ih

/-- **Decoding undoes escaping.** -/
theorem decode_escape (s : List UInt8) : decodeXMLEscapeXMLStrings (escapeXMLString s) = .ok s := by
  rw [decode_iff, dropAbandoned_escape]
  exact decodes_escape s

/-- The buffer in which a string is escaped has room for it and its zero. -/
theorem escape_lt_encodingBufferSize (s : List UInt8) :
    (escapeXMLString s).length < encodingBufferSize s := by
  have hle := XmlWriter.length_escapeXMLString_le s
  unfold encodingBufferSize
  split_ifs with h
  · unfold nativeXMLEncodingBufferSize
    omega
  · omega

variable {before behind s : List UInt8} {p : Nat}

/-- The string in the middle of a buffer. -/
theorem cString_append (hs : 0 ∉ s) : cString (before ++ (s ++ 0 :: behind)) before.length = s := by
  unfold cString
  rw [List.drop_left, List.takeWhile_append_of_pos]
  · simp
  · intro c hc
    simp only [ne_eq, decide_eq_true_eq]
    rintro rfl
    exact hs hc

/-- What decoding in place leaves between a string and what follows. -/
def residue (s : List UInt8) : List UInt8 := (escapeXMLString s ++ [0]).drop (s.length + 1)

theorem length_residue (s : List UInt8) :
    s.length + 1 + (residue s).length = (escapeXMLString s).length + 1 := by
  have hle := XmlWriter.length_le_escapeXMLString s
  rw [residue, List.length_drop, List.length_append, List.length_singleton]
  omega

/-- **Decoding in place** puts the string where its escaped form was. -/
theorem decodeAt_escaped (hs : 0 ∉ s) :
    decodeAt (before ++ (escapeXMLString s ++ 0 :: behind)) before.length =
      .ok (before ++ (s ++ 0 :: (residue s ++ behind))) := by
  have hle := XmlWriter.length_le_escapeXMLString s
  unfold decodeAt
  rw [cString_append (zero_notMem_escape hs)]
  by_cases h : '&'.toUInt8 ∈ escapeXMLString s
  · have hrest : (before ++ (escapeXMLString s ++ 0 :: behind)).drop
        (before.length + (s.length + 1)) = residue s ++ behind := by
      rw [List.drop_append, List.drop_of_length_le (by omega), List.nil_append,
        Nat.add_sub_cancel_left, List.append_cons, List.drop_append_of_le_length, residue]
      rw [List.length_append, List.length_singleton]
      omega
    rw [if_pos h, decode_escape]
    dsimp only
    rw [List.take_left, hrest, List.append_assoc, List.append_assoc]
    rfl
  · have heq : s = escapeXMLString s := (decodes_of_notMem h).1 (decodes_escape s)
    have hnil : residue s = [] := by
      rw [residue, ← heq, List.drop_of_length_le (by simp)]
    rw [if_neg h, hnil, ← heq]
    rfl

/-! ## Entities in the buffer -/

/-- An entity by its strings. -/
structure EntityItem where
  type : XmlEntityType
  nsPrefix : List UInt8
  content : List UInt8
  deriving DecidableEq

namespace EntityItem

/-- The entity as it is before it is decoded. -/
def escaped (i : EntityItem) : EntityItem := { i with content := escapeXMLString i.content }

/-- The entity when it is full: a text is decoded later. -/
def pushed (i : EntityItem) : EntityItem := if i.type = .text then i.escaped else i

/-- Its strings are strings. -/
def ZeroFree (i : EntityItem) : Prop := 0 ∉ i.nsPrefix ∧ 0 ∉ i.content

theorem ZeroFree.escaped {i : EntityItem} (h : i.ZeroFree) : i.escaped.ZeroFree :=
  ⟨h.1, zero_notMem_escape h.2⟩

end EntityItem

/-- Where the prefix is in the characters before the name, which begin at `p`. -/
def PrefixAt (p : Nat) (gap nsPrefix : List UInt8) : Option Nat → Prop
  | none => nsPrefix = []
  | some q => ∃ g, gap = g ++ (nsPrefix ++ [0]) ∧ q = p + g.length

/-- The entities `es` have the strings of `items`, in `chars` that begins at `p`. -/
inductive Laid : Nat → List UInt8 → List EntityItem → List NativeEntity → Prop where
  | nil (p : Nat) (gap : List UInt8) : Laid p gap [] []
  | cons {p : Nat} {gap tail : List UInt8} {i : EntityItem} {items : List EntityItem} {e : NativeEntity}
      {es : List NativeEntity} (htype : e.type = i.type) (hname : e.name = p + gap.length)
      (hpfx : PrefixAt p gap i.nsPrefix e.nsPrefix)
      (h : Laid (p + gap.length + (i.content.length + 1)) tail items es) :
      Laid p (gap ++ (i.content ++ 0 :: tail)) (i :: items) (e :: es)

namespace Laid

variable {chars chars' gap : List UInt8} {i : EntityItem} {items items' : List EntityItem}
  {e : NativeEntity} {es es' : List NativeEntity}

theorem length_eq (h : Laid p chars items es) : es.length = items.length := by
  induction h with
  | nil => rfl
  | cons _ _ _ _ ih => rw [List.length_cons, List.length_cons, ih]

/-- Characters in front. -/
theorem pad (h : Laid (p + gap.length) chars items es) : Laid p (gap ++ chars) items es := by
  cases h with
  | nil => exact .nil _ _
  | @cons _ gap' tail i items e es htype hname hpfx h =>
    have hlen : p + (gap ++ gap').length = p + gap.length + gap'.length := by
      rw [List.length_append, Nat.add_assoc]
    rw [← List.append_assoc]
    refine .cons htype (hname.trans hlen.symm) ?_ (hlen ▸ h)
    cases hq : e.nsPrefix with
    | none =>
      rw [hq] at hpfx
      exact hpfx
    | some q =>
      rw [hq] at hpfx
      obtain ⟨g, rfl, rfl⟩ := hpfx
      refine ⟨gap ++ g, (List.append_assoc _ _ _).symm, ?_⟩
      rw [List.length_append, Nat.add_assoc]

theorem append (h : Laid p chars items es) (h' : Laid (p + chars.length) chars' items' es') :
    Laid p (chars ++ chars') (items ++ items') (es ++ es') := by
  induction h with
  | nil p gap => exact pad h'
  | @cons p gap tail i items e es htype hname hpfx h ih =>
    have hlen : p + (gap ++ (i.content ++ 0 :: tail)).length =
        p + gap.length + (i.content.length + 1) + tail.length := by
      simp only [List.length_append, List.length_cons]
      omega
    rw [List.append_assoc, List.append_assoc, List.cons_append]
    exact .cons htype hname hpfx (ih (hlen ▸ h'))

/-- Characters behind. -/
theorem extend (h : Laid p chars items es) (more : List UInt8) :
    Laid p (chars ++ more) items es := by
  have happend := h.append (.nil _ more)
  rwa [List.append_nil, List.append_nil] at happend

/-- The strings of an entity. -/
theorem getElem? (h : Laid p chars items es) (hp : before.length = p) (behind : List UInt8)
    (hz : ∀ i ∈ items, i.ZeroFree) {k : Nat} (hi : items[k]? = some i) :
    ∃ e, es[k]? = some e ∧ e.type = i.type ∧
      cString (before ++ (chars ++ behind)) e.name = i.content ∧
      (e.nsPrefix.map fun q => cString (before ++ (chars ++ behind)) q).getD [] = i.nsPrefix := by
  induction h generalizing before k with
  | nil => cases hi
  | @cons p gap tail j items e es htype hname hpfx h ih =>
    subst hp
    cases k with
    | zero =>
      obtain rfl : j = i := Option.some.inj hi
      obtain ⟨hpre, hcontent⟩ := hz _ List.mem_cons_self
      refine ⟨e, rfl, htype, ?_, ?_⟩
      · rw [hname, ← List.length_append]
        have hc := @cString_append (before ++ gap) (tail ++ behind) j.content hcontent
        simpa only [List.append_assoc, List.cons_append] using hc
      · cases hq : e.nsPrefix with
        | none =>
          rw [hq] at hpfx
          exact hpfx.symm
        | some q =>
          rw [hq] at hpfx
          obtain ⟨g, rfl, rfl⟩ := hpfx
          have hc := @cString_append (before ++ g) (j.content ++ 0 :: tail ++ behind) j.nsPrefix hpre
          rw [List.length_append] at hc
          simpa only [List.append_assoc, List.cons_append, List.nil_append, List.singleton_append,
            Option.map_some, Option.getD_some] using hc
    | succ k =>
      have hlen : (before ++ (gap ++ (j.content ++ [0]))).length =
          before.length + gap.length + (j.content.length + 1) := by
        simp only [List.length_append, List.length_singleton]
        omega
      have hrest := ih hlen (fun i hi => hz i (List.mem_cons_of_mem _ hi)) hi
      simpa only [List.append_assoc, List.cons_append, List.nil_append, List.getElem?_cons_succ]
        using hrest

/-- **Decoding one entity.** -/
theorem decodeAt_head (h : Laid p chars (i.escaped :: items) es) (hp : before.length = p)
    (behind : List UInt8) (hz : 0 ∉ i.content) : ∃ e es' gap tail, es = e :: es' ∧ e.name = p + gap.length ∧
      decodeAt (before ++ (chars ++ behind)) e.name =
        .ok (before ++ (gap ++ (i.content ++ 0 :: (residue i.content ++ tail)) ++ behind)) ∧
      chars.length = (gap ++ (i.content ++ 0 :: (residue i.content ++ tail))).length ∧
      Laid (p + gap.length + (i.content.length + 1) + (residue i.content).length) tail items es' ∧
      e.type = i.type ∧ PrefixAt p gap i.nsPrefix e.nsPrefix := by
  generalize hj : i.escaped = j at h
  cases h with
  | @cons _ gap tail _ _ e es' htype hname hpfx h =>
    subst hj hp
    have hres := length_residue i.content
    refine ⟨e, es', gap, tail, rfl, hname, ?_, ?_, ?_, htype, hpfx⟩
    · rw [hname, ← List.length_append]
      have hdec := @decodeAt_escaped (before ++ gap) (tail ++ behind) i.content hz
      simpa only [EntityItem.escaped, List.append_assoc, List.cons_append] using hdec
    · simp only [List.length_append, List.length_cons, EntityItem.escaped]
      omega
    · have hoff : before.length + gap.length + (i.content.length + 1) +
          (residue i.content).length =
          before.length + gap.length + (i.escaped.content.length + 1) := by
        simp only [EntityItem.escaped]
        omega
      rw [hoff]
      exact h

/-- **Decoding entities one after the other.** -/
theorem decode (h : Laid p chars (items.map EntityItem.escaped) es) (hp : before.length = p)
    (behind : List UInt8) (hz : ∀ i ∈ items, i.ZeroFree) : ∃ chars', chars'.length = chars.length ∧
      es.foldlM (fun cs e => decodeAt cs e.name) (before ++ (chars ++ behind)) =
        .ok (before ++ (chars' ++ behind)) ∧ Laid p chars' items es := by
  induction items generalizing p chars es before with
  | nil =>
    cases h with
    | nil => exact ⟨chars, rfl, rfl, .nil _ _⟩
  | cons i items ih =>
    obtain ⟨e, es', gap, tail, rfl, hname, hdec, hlen, htail, htype, hpfx⟩ :=
      decodeAt_head h hp behind (hz i List.mem_cons_self).2
    have hoff : (before ++ (gap ++ (i.content ++ 0 :: residue i.content))).length =
        p + gap.length + (i.content.length + 1) + (residue i.content).length := by
      simp only [List.length_append, List.length_cons]
      omega
    obtain ⟨tail', hlen', hfold, hlaid⟩ :=
      ih htail hoff fun j hj => hz j (List.mem_cons_of_mem _ hj)
    refine ⟨gap ++ (i.content ++ 0 :: (residue i.content ++ tail')), ?_, ?_, ?_⟩
    · rw [hlen]
      simp only [List.length_append, List.length_cons, hlen']
    · rw [List.foldlM_cons, hdec]
      show es'.foldlM _ _ = _
      simpa only [List.append_assoc, List.cons_append] using hfold
    · exact .cons htype hname hpfx (pad hlaid)

end Laid

end NMR
