import Lib3MF.Common.Platform.ZIPArchive
import Lib3MF.Common.Platform.Proof.ZIPRuns

/-!
# The archive of a plan is well formed

What stands where in the bytes the writer leaves for some items (`at_item`, `at_directory`,
`at_endBytes`), and from it, record by record, that they are a well-formed archive
exactly when the items are representable (`isArchive_iff`).
-/

namespace NMR

open Lib PortableZIPWriter

variable {σ : Type} {d : Deflate σ} {z64 : Bool} {x : ZIPItem} {l before after : List ZIPItem}
  {file bytes : List UInt8} {pos : Nat}

/-! ## Places -/

theorem length_bytes (d : Deflate σ) (x : ZIPItem) : (x.bytes d).length = x.size d true := by
  simp only [ZIPItem.bytes, List.length_append, length_headBytes, ZIPItem.size, extraSize]
  rfl

theorem length_itemsBytes (d : Deflate σ) (l : List ZIPItem) :
    (itemsBytes d l).length = itemsSize d true l := by
  induction l with
  | nil => rfl
  | cons x l ih =>
    simp only [itemsBytes, List.flatMap_cons, List.length_append] at ih ⊢
    rw [ih, length_bytes]
    simp [itemsSize]

theorem length_directoryBytes (x : ZIPItem) (pos : Nat) (w : List UInt8) :
    (directoryBytes (x.entry pos w)).length = x.directorySize true := by
  simp only [directoryBytes, List.length_append, Codec.length_encode, ZIPItem.directorySize]
  rfl

theorem length_itemsDirectory_from (d : Deflate σ) (pos : Nat) (l : List ZIPItem) :
    ((entriesFrom d pos l).flatMap directoryBytes).length = directorySize true l := by
  induction l generalizing pos with
  | nil => rfl
  | cons x l ih =>
    rw [entriesFrom, List.flatMap_cons, List.length_append, ih, length_directoryBytes]
    simp [directorySize]

theorem length_itemsDirectory (d : Deflate σ) (l : List ZIPItem) :
    (itemsDirectory d l).length = directorySize true l := length_itemsDirectory_from d 0 l

/-- The bytes of a piece in the middle. -/
theorem at_mid (a bs b : List UInt8) : At (a ++ (bs ++ b)) a.length bs := ⟨a, b, rfl, rfl⟩

theorem at_item (h : l = before ++ x :: after) :
    At (archiveBytes d true l) (itemsSize d true before) (x.bytes d) := by
  rw [← length_itemsBytes, archiveBytes, h, itemsBytes_append]
  have hx : itemsBytes d (x :: after) = x.bytes d ++ itemsBytes d after := List.flatMap_cons
  rw [hx, List.append_assoc, List.append_assoc]
  exact at_mid ..

theorem at_directory (h : l = before ++ x :: after) : At (archiveBytes d true l)
    (itemsSize d true l + directorySize true before)
    (directoryBytes (x.entry (itemsSize d true before) (x.packed d))) := by
  have hdir : itemsDirectory d l = itemsDirectory d before ++
      (directoryBytes (x.entry (itemsSize d true before) (x.packed d)) ++
        (entriesFrom d (itemsSize d true before + (x.bytes d).length) after).flatMap
          directoryBytes) := by
    rw [h, itemsDirectory, entriesFrom_append, List.flatMap_append, Nat.zero_add,
      length_itemsBytes]
    rfl
  have harch : archiveBytes d true l = (itemsBytes d l ++ itemsDirectory d before) ++
      (directoryBytes (x.entry (itemsSize d true before) (x.packed d)) ++
        ((entriesFrom d (itemsSize d true before + (x.bytes d).length) after).flatMap
          directoryBytes ++
        endBytes true l.length (itemsBytes d l).length (itemsDirectory d l).length)) := by
    rw [archiveBytes]
    simp only [hdir, List.append_assoc]
  rw [harch, ← length_itemsBytes d l, ← length_itemsDirectory d before, ← List.length_append]
  exact at_mid ..

theorem at_endBytes :
    At (archiveBytes d z64 l) ((itemsBytes d l).length + (itemsDirectory d l).length)
      (endBytes z64 l.length (itemsBytes d l).length (itemsDirectory d l).length) := by
  rw [archiveBytes, ← List.append_assoc, ← List.length_append]
  exact at_end _ _

/-! ## One record -/

theorem toNat_ofNat_iff {w n : Nat} : (BitVec.ofNat w n).toNat = n ↔ n < 2 ^ w := by
  rw [BitVec.toNat_ofNat]
  constructor
  · intro h
    rw [← h]
    exact Nat.mod_lt _ (Nat.two_pow_pos w)
  · exact Nat.mod_eq_of_lt

/-- A number of 64 bits elsewhere. -/
theorem gives_allOnes {n : Nat} : Gives (0xFFFFFFFF : BitVec 32) n
    (true = true ∧ (BitVec.ofNat 64 n).toNat = n) ↔ n < 2 ^ 64 := by
  rw [Gives, toNat_ofNat_iff]
  constructor
  · rintro (h | ⟨-, -, h⟩)
    · have : (0xFFFFFFFF : BitVec 32).toNat = 2 ^ 32 - 1 := rfl
      omega
    · exact h
  · intro h
    exact .inr ⟨rfl, rfl, h⟩

/-- A number cut to the width of its field. -/
theorem gives_ofNat {w n : Nat} : Gives (BitVec.ofNat w n) n (true = true) ↔
    n < 2 ^ w ∨ n % 2 ^ w = 2 ^ w - 1 := by
  have hw := Nat.two_pow_pos w
  rw [Gives, toNat_ofNat_iff, ← BitVec.toNat_inj, BitVec.toNat_ofNat, BitVec.toNat_allOnes]
  simp

theorem describes_iff (x : ZIPItem) (pos more : Nat) :
    Describes d true x (descriptor true (x.entry pos (x.packed d)))
      (extraInformation (x.entry pos (x.packed d)) more) ↔
      (x.packed d).length < 2 ^ 64 ∧ x.data.length < 2 ^ 64 := by
  constructor
  · intro h
    exact ⟨gives_allOnes.1 h.compressedSize, gives_allOnes.1 h.uncompressedSize⟩
  · intro h
    exact ⟨rfl, fun _ => rfl, gives_allOnes.2 h.1, gives_allOnes.2 h.2⟩

theorem nameLength_eq (hn : x.name.length ≤ zipFileMaxFileNameLength) :
    (BitVec.ofNat 16 x.name.length).toNat = x.name.length := by
  rw [toNat_ofNat_iff]
  exact Nat.lt_of_le_of_lt hn (by decide)

/-- An item in the archive. -/
theorem hasItem_iff (hd : d.Correct) (h : At file pos (x.bytes d))
    (hn : x.name.length ≤ zipFileMaxFileNameLength) :
    (∃ h, HasItem d true file pos x h) ↔
      (x.packed d).length < 2 ^ 64 ∧ x.data.length < 2 ^ 64 := by
  have hhead : At file pos (zipLocalFileHeaderCodec.encode { localHeader true x.name with
      descriptor := descriptor true (x.entry 0 (x.packed d)) }) := h.left.left
  have hname : At file (pos + zipLocalFileHeaderCodec.size) x.name := by
    have := h.left.right.left
    rwa [Codec.length_encode] at this
  have hextra : At file (pos + zipLocalFileHeaderCodec.size + x.name.length)
      (zip64ExtraInformationFieldCodec.encode
        (extraInformation (x.entry 0 (x.packed d)) 0)) := by
    have := h.left.right.right
    rwa [Codec.length_encode] at this
  have hdata : At file (pos + zipLocalFileHeaderCodec.size + x.name.length + extraSize true)
      (x.packed d) := by
    have := h.right
    rwa [length_headBytes, ← Nat.add_assoc, ← Nat.add_assoc] at this
  rw [← describes_iff x 0 0]
  constructor
  · rintro ⟨h, hi⟩
    have hdesc := hi.describes
    rwa [← hi.header, hhead.recordAt, hextra.recordAt] at hdesc
  · intro hdesc
    refine ⟨_, hhead.recordAt, rfl, rfl, nameLength_eq hn, rfl, hname.take_drop, ?_, ?_⟩
    · rw [hextra.recordAt]
      exact hdesc
    · rw [bytesAt, hdata.take_drop]
      exact hd x.chunks

/-- A directory entry in the archive. -/
theorem hasDirectoryEntry_iff {offset : Nat}
    (h : At file pos (directoryBytes (x.entry offset (x.packed d))))
    (hn : x.name.length ≤ zipFileMaxFileNameLength) :
    (∃ h, HasDirectoryEntry d true file pos offset x h) ↔
      ((x.packed d).length < 2 ^ 64 ∧ x.data.length < 2 ^ 64) ∧ offset < 2 ^ 64 := by
  have hhead : At file pos (zipCentralDirectoryFileHeaderCodec.encode
      (directoryHeader true (x.entry offset (x.packed d)))) := h.left.left
  have hname : At file (pos + zipCentralDirectoryFileHeaderCodec.size) x.name := by
    have := h.left.right
    rwa [Codec.length_encode] at this
  have hextra : At file (pos + zipCentralDirectoryFileHeaderCodec.size + x.name.length)
      (zip64ExtraInformationFieldCodec.encode
        (extraInformation (x.entry offset (x.packed d)) 8)) := by
    have := h.right.left
    rwa [List.length_append, Codec.length_encode, ← Nat.add_assoc] at this
  have hoffset : At file (pos + zipCentralDirectoryFileHeaderCodec.size + x.name.length +
      zip64ExtraInformationFieldCodec.size) (zip64.encode (BitVec.ofNat 64 offset)) := by
    have := h.right.right
    rwa [List.length_append, Codec.length_encode, Codec.length_encode, ← Nat.add_assoc] at this
  rw [← describes_iff x offset 8]
  constructor
  · rintro ⟨h, hi⟩
    have hdesc := hi.describes
    have hrel := hi.relativeOffset
    rw [← hi.header, hhead.recordAt, hextra.recordAt] at hdesc
    rw [← hi.header, hhead.recordAt, hoffset.recordAt] at hrel
    exact ⟨hdesc, gives_allOnes.1 hrel⟩
  · rintro ⟨hdesc, hrel⟩
    refine ⟨_, hhead.recordAt, rfl, rfl, nameLength_eq hn, ?_, hname.take_drop, ?_, ?_⟩
    · show 28 + 46 + x.name.length = 46 + x.name.length + 28
      omega
    · rw [hextra.recordAt]
      exact hdesc
    · rw [hoffset.recordAt]
      exact gives_allOnes.2 hrel

/-- The ZIP64 records at the end. -/
theorem hasEnd64_iff {count start size : Nat}
    (h : At file (start + size) (endBytes true count start size)) :
    (∃ r l, HasEnd64 file count start size r l) ↔
      count < 2 ^ 64 ∧ size < 2 ^ 64 ∧ start < 2 ^ 64 ∧ start + size < 2 ^ 64 := by
  have hrecord : At file (start + size)
      (zip64EndOfCentralDirHeaderCodec.encode (endHeader64 count start size)) := h.left.left
  have hlocator : At file (start + size + zip64EndOfCentralDirHeaderCodec.size)
      (zip64EndOfCentralDirLocatorCodec.encode (endLocator64 start size)) := by
    have := h.left.right
    rwa [Codec.length_encode] at this
  constructor
  · rintro ⟨r, l, hr⟩
    have hentries := hr.entries
    have hsize := hr.sizeOfDirectory
    have hstart := hr.offsetOfDirectory
    have hpos := hr.position
    rw [← hr.record, hrecord.recordAt] at hentries hsize hstart
    rw [← hr.locator, hlocator.recordAt] at hpos
    exact ⟨toNat_ofNat_iff.1 hentries, toNat_ofNat_iff.1 hsize, toNat_ofNat_iff.1 hstart,
      toNat_ofNat_iff.1 hpos⟩
  · rintro ⟨hcount, hsize, hstart, hpos⟩
    exact ⟨_, _, hrecord.recordAt, rfl, toNat_ofNat_iff.2 hcount, toNat_ofNat_iff.2 hcount,
      toNat_ofNat_iff.2 hsize, toNat_ofNat_iff.2 hstart, hlocator.recordAt, rfl,
      toNat_ofNat_iff.2 hpos⟩

/-- The record at the very end. -/
theorem hasEnd_iff {count start size : Nat}
    (h : At file (file.length - zipEndOfCentralDirHeaderCodec.size)
      (zipEndOfCentralDirHeaderCodec.encode (endHeader true count start size))) :
    (∃ e, HasEnd true file count start size e) ↔
      (count < 2 ^ 16 ∨ count % 2 ^ 16 = 2 ^ 16 - 1) ∧
        (size < 2 ^ 32 ∨ size % 2 ^ 32 = 2 ^ 32 - 1) := by
  constructor
  · rintro ⟨e, he⟩
    have hentries := he.entries
    have hsize := he.sizeOfDirectory
    rw [← he.record, h.recordAt] at hentries hsize
    exact ⟨gives_ofNat.1 hentries, gives_ofNat.1 hsize⟩
  · rintro ⟨hcount, hsize⟩
    exact ⟨_, h.recordAt, rfl, gives_ofNat.2 hcount, gives_ofNat.2 hcount, gives_ofNat.2 hsize,
      .inr ⟨rfl, rfl⟩⟩

/-! ## The archive -/

theorem length_endBytes (count start size : Nat) :
    (endBytes true count start size).length =
      zip64EndOfCentralDirHeaderCodec.size + zip64EndOfCentralDirLocatorCodec.size +
        zipEndOfCentralDirHeaderCodec.size := by
  simp only [endBytes, if_true, List.length_append, Codec.length_encode]

theorem length_archiveBytes (d : Deflate σ) (l : List ZIPItem) :
    (archiveBytes d true l).length = itemsSize d true l + directorySize true l +
      (zip64EndOfCentralDirHeaderCodec.size + zip64EndOfCentralDirLocatorCodec.size) +
        zipEndOfCentralDirHeaderCodec.size := by
  rw [archiveBytes, List.length_append, List.length_append, length_itemsBytes,
    length_itemsDirectory, length_endBytes]
  omega

theorem itemsSize_append (l l' : List ZIPItem) :
    itemsSize d z64 (l ++ l') = itemsSize d z64 l + itemsSize d z64 l' := by
  simp [itemsSize]

theorem length_le_directorySize (l : List ZIPItem) : l.length ≤ directorySize true l := by
  induction l with
  | nil => exact Nat.zero_le _
  | cons x l ih =>
    have hx : directorySize true (x :: l) = x.directorySize true + directorySize true l := by
      simp [directorySize]
    have hpos : 46 ≤ x.directorySize true := by
      simp only [ZIPItem.directorySize, size_zipCentralDirectoryFileHeaderCodec]
      omega
    rw [hx, List.length_cons]
    omega

/-- **The archive of items** is well formed exactly when they are representable. -/
theorem isArchive_iff (hd : d.Correct) (hn : ∀ x ∈ l, x.name.length ≤ zipFileMaxFileNameLength) :
    IsArchive d true l (archiveBytes d true l) ↔ Representable d l := by
  have hend : At (archiveBytes d true l) ((itemsBytes d l).length + (itemsDirectory d l).length)
      (endBytes true l.length (itemsBytes d l).length (itemsDirectory d l).length) := at_endBytes
  rw [length_itemsBytes, length_itemsDirectory] at hend
  have hend64 := hasEnd64_iff hend
  have hlast : At (archiveBytes d true l)
      ((archiveBytes d true l).length - zipEndOfCentralDirHeaderCodec.size)
      (zipEndOfCentralDirHeaderCodec.encode
        (endHeader true l.length (itemsSize d true l) (directorySize true l))) := by
    have h := hend.right
    rw [if_pos rfl, List.length_append, Codec.length_encode, Codec.length_encode] at h
    rwa [length_archiveBytes, Nat.add_sub_cancel]
  have hendRecord := hasEnd_iff hlast
  constructor
  · intro h
    obtain ⟨-, -, -, hsize⟩ := hend64.1 (h.end64 rfl)
    obtain ⟨hcount, hdir⟩ := hendRecord.1 h.endRecord
    refine ⟨fun x hx => ?_, hsize, hcount, hdir⟩
    obtain ⟨before, after, hl⟩ := List.append_of_mem hx
    exact ((hasItem_iff hd (at_item hl) (hn x hx)).1 (h.items before x after hl)).2
  · intro h
    -- everything that a field holds is less than the sum of the sizes
    have hcount := length_le_directorySize l
    have hfits : ∀ before x after, l = before ++ x :: after →
        ((x.packed d).length < 2 ^ 64 ∧ x.data.length < 2 ^ 64) ∧
          itemsSize d true before < 2 ^ 64 := by
      intro before x after hl
      have hx : x ∈ l := by simp [hl]
      have hsize := h.size
      rw [hl, itemsSize_append] at hsize
      have hle : x.size d true ≤ itemsSize d true (x :: after) := by simp [itemsSize]
      have hp : (x.packed d).length ≤ x.size d true := by simp [ZIPItem.size]
      refine ⟨⟨?_, h.data x hx⟩, ?_⟩
      · omega
      · omega
    refine ⟨?_, ?_, ?_, hendRecord.2 ⟨h.count, h.directory⟩, length_archiveBytes d l⟩
    · intro before x after hl
      have hx : x ∈ l := by simp [hl]
      exact (hasItem_iff hd (at_item hl) (hn x hx)).2 (hfits before x after hl).1
    · intro before x after hl
      have hx : x ∈ l := by simp [hl]
      exact (hasDirectoryEntry_iff (at_directory hl) (hn x hx)).2 (hfits before x after hl)
    · intro _
      have hsize := h.size
      refine hend64.2 ⟨?_, ?_, ?_, hsize⟩
      · omega
      · omega
      · omega

end NMR
