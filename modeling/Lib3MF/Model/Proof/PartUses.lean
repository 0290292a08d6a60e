import Lib3MF.Lib.Except
import Lib3MF.Lib.LastListed
import Lib3MF.Model.Reader.ModelReader3MF

/-!
# The uses of the parts of a package

The extraction makes use of one part after the other, in an order that the relationships fix
(`uses`): what the root part lists, then, pass by pass, what the part lists that comes next in the
order of the last listings, and the thumbnail at the end. Whether a use succeeds depends on the
uses before it only (`UseOk`), and so does what they leave: the production attachments are the
URIs listed, in the order of their last listings, and the stream of one is that of its part where
the part was of no use before (`Extracted`). `extract3MFOPCPackage_eq_ok` says when the extraction
succeeds and what it leaves.
-/

namespace NMR

open Lib

/-- What is done with a part. -/
inductive PartKind where
  | texture | customData | modelData | binaryStream | thumbnail
  deriving DecidableEq

/-- A use of a part under a URI. -/
structure PartUse where
  kind : PartKind
  uri : String
  deriving DecidableEq

/-- The part that is used. -/
abbrev PartUse.name (u : PartUse) : String := fnRemoveLeadingPathDelimiter u.uri

/-- The URIs of the model parts used, which are those listed. -/
def modelURIs (us : List PartUse) : List String :=
  (us.filter fun u => u.kind = .modelData).map (·.uri)

/-- The relationships of a part whose targets are used so. -/
def ModelReader3MF.Extracts (reader : ModelReader3MF) (type : String) : PartKind → Prop
  | .texture => type = packageTextureRelationshipType ∨ type = packageThumbnailRelationshipType
  | .customData => type ∈ reader.relationsToRead
  | .modelData => type = packageStartPartRelationshipType
  | .binaryStream => reader.allowBinaryStreams = true ∧ type = packageZCompressionRelationshipType
  | .thumbnail => False

instance (reader : ModelReader3MF) (type : String) : DecidablePred (reader.Extracts type)
  | .texture => inferInstanceAs (Decidable (_ ∨ _))
  | .customData => inferInstanceAs (Decidable (_ ∈ _))
  | .modelData => inferInstanceAs (Decidable (_ = _))
  | .binaryStream => inferInstanceAs (Decidable (_ ∧ _))
  | .thumbnail => inferInstanceAs (Decidable False)

namespace OpcPackage

section

variable (p : OpcPackage) (reader : ModelReader3MF)

/-- The uses of one kind that a part asks for. -/
def usesOf (kind : PartKind) (name : String) : List PartUse :=
  match p.parts.find? name with
  | none => []
  | some part =>
    (part.relationships.filter fun r => reader.Extracts r.type kind).map fun r =>
      ⟨kind, p.targetURI r⟩

/-- The URIs listed when `n` passes of the loop are over. The pass with index `i` visits the `i`-th
of the URIs listed so far, in the order of their last listings. -/
def listed : Nat → List String
  | 0 => p.targets p.rootPart
  | n + 1 =>
    listed n ++ match (listed n).dedup[n]? with
      | some uri => p.targets (fnRemoveLeadingPathDelimiter uri)
      | none => []

/-- All URIs listed: the loop makes as many passes as the root part lists URIs. -/
def allListed : List String := p.listed ((p.targets p.rootPart).dedup.length % 2 ^ 32)

/-- What the root part asks for. -/
def rootUses : List PartUse :=
  p.usesOf reader .texture p.rootPart ++ p.usesOf reader .customData p.rootPart ++
    p.usesOf reader .modelData p.rootPart ++ p.usesOf reader .binaryStream p.rootPart

/-- What the part asks for that the pass with index `i` visits. -/
def passUses (i : Nat) : List PartUse :=
  match (p.listed i).dedup[i]? with
  | some uri =>
    p.usesOf reader .modelData (fnRemoveLeadingPathDelimiter uri) ++
      p.usesOf reader .texture (fnRemoveLeadingPathDelimiter uri)
  | none => []

/-- The uses when `n` passes of the loop are over. -/
def usesUpTo (n : Nat) : List PartUse :=
  p.rootUses reader ++ (List.range n).flatMap (p.passUses reader)

/-- The thumbnail of the package. -/
def thumbnailUses : List PartUse :=
  match p.rootRelationships.find? fun r => r.type = packageThumbnailRelationshipType with
  | some r => [⟨.thumbnail, r.targetPartURI⟩]
  | none => []

/-- All uses, in their order. -/
def uses : List PartUse :=
  p.usesUpTo reader ((p.targets p.rootPart).dedup.length % 2 ^ 32) ++ p.thumbnailUses

/-! ## When a use succeeds -/

/-- The bytes of a part. -/
def content (name : String) : List UInt8 := ((p.parts.find? name).map (·.content)).getD []

/-- The part can be opened. -/
def Opens (name : String) : Prop := name ∈ p.parts.keys ∧ name ≠ ""

/-- The part is within the limit of a stream in memory. -/
def FitsMemory (name : String) : Prop := (p.content name).length ≤ importStreamMaxMemStreamSize

/-- The stream of the part was copied. -/
def Copied (before : List PartUse) (name : String) : Prop :=
  (∃ u ∈ before, u.name = name) ∧ p.FitsMemory name

/-- The part is an attachment of the model. -/
def Attached (before : List PartUse) (name : String) : Prop :=
  (∃ u ∈ before, (u.kind = .texture ∨ u.kind = .customData) ∧ u.name = name) ∧ p.FitsMemory name

/-- A copy of the stream is not empty, or an empty one is no error. -/
def Fills (before : List PartUse) (name : String) : Prop :=
  p.Copied before name ∨ p.content name = [] →
    reader.criticalWarningLevel.toNat < ModelReaderWarningLevel.missingMandatoryValue.toNat

/-- The use succeeds after the uses before it. -/
def UseOk (before : List PartUse) (u : PartUse) : Prop :=
  match u.kind with
  | .texture => p.Attached before u.name ∨
      p.Opens u.name ∧ p.FitsMemory u.name ∧ p.Fills reader before u.name
  | .customData => p.Opens u.name ∧
      (¬ p.FitsMemory u.name ∧ reader.criticalWarningLevel.toNat <
          ModelReaderWarningLevel.missingMandatoryValue.toNat ∨
        p.FitsMemory u.name ∧ p.Fills reader before u.name ∧ ¬ p.Attached before u.name)
  | .modelData => p.Opens u.name ∧
      (u.uri ∈ modelURIs before ∨ p.FitsMemory u.name ∧ p.Fills reader before u.name)
  | .binaryStream => p.Opens u.name ∧ p.FitsMemory u.name ∧ ¬ p.Copied before u.name ∧
      ∃ r, ChunkedBinaryStreamReader.readHeader (p.content u.name) = .ok r
  | .thumbnail => p.Opens u.name ∧ p.FitsMemory u.name

/-- The stream of a production attachment: that of its part, where the part was of no use before
it was listed under this URI. -/
def streamOf (before : List PartUse) (uri : String) : List UInt8 :=
  if before.find? (fun u => u.name = fnRemoveLeadingPathDelimiter uri) = some ⟨.modelData, uri⟩ then
    p.content (fnRemoveLeadingPathDelimiter uri)
  else []

/-- What the uses leave. -/
structure Extracted (before : List PartUse) (s : PackageExtraction) : Prop where
  copied : ∀ name, name ∈ s.copied ↔ p.Copied before name
  attachments : ∀ name, name ∈ s.attachments ↔ p.Attached before name
  productionAttachments : s.productionAttachments = (modelURIs before).dedup
  streams : ∀ uri, s.productionAttachmentURIMap.find? uri =
    if uri ∈ modelURIs before then some (p.streamOf before uri) else none
  opens : ∀ u ∈ before, u.kind = .modelData → p.Opens u.name

/-- One use. -/
def perform (s : PackageExtraction) (u : PartUse) : Except Error PackageExtraction :=
  match u.kind with
  | .texture => p.extractTexture reader s u.uri
  | .customData => p.extractCustomData reader s u.uri
  | .modelData => p.extractModelData reader s u.uri
  | .binaryStream => p.extractBinaryStream s u.uri
  | .thumbnail => p.extractThumbnail s u.uri

end

variable {p : OpcPackage} {reader : ModelReader3MF} {s s' : PackageExtraction}
  {before : List PartUse} {u : PartUse} {uri name : String} {part : OpcPackagePart}
  {stream : List UInt8}

/-! ## What a use does -/

theorem createPart_eq_ok : p.createPart uri = .ok part ↔
    p.parts.find? (fnRemoveLeadingPathDelimiter uri) = some part ∧
      fnRemoveLeadingPathDelimiter uri ≠ "" := by
  unfold createPart
  cases hf : p.parts.find? (fnRemoveLeadingPathDelimiter uri) with
  | none => simp
  | some q => by_cases he : fnRemoveLeadingPathDelimiter uri = "" <;> simp [he]

theorem opens_of_createPart (h : p.createPart uri = .ok part) :
    p.Opens (fnRemoveLeadingPathDelimiter uri) ∧
      p.content (fnRemoveLeadingPathDelimiter uri) = part.content := by
  obtain ⟨hf, hne⟩ := createPart_eq_ok.1 h
  refine ⟨⟨SortedMap.mem_keys_of_find? hf, hne⟩, ?_⟩
  rw [content, hf]
  rfl

theorem Opens.createPart (h : p.Opens (fnRemoveLeadingPathDelimiter uri)) :
    ∃ part, p.createPart uri = .ok part := by
  obtain ⟨part, hf⟩ := Option.isSome_iff_exists.1 (SortedMap.find?_isSome.2 h.1)
  exact ⟨part, createPart_eq_ok.2 ⟨hf, h.2⟩⟩

theorem checkStream_eq_ok : checkStream reader stream = .ok () ↔
    (stream = [] → reader.criticalWarningLevel.toNat <
      ModelReaderWarningLevel.missingMandatoryValue.toNat) := by
  unfold checkStream
  by_cases h : stream = []
  · rw [if_pos h, addWarning_eq_ok]
    exact ⟨fun hw _ => hw, fun hw => hw h⟩
  · rw [if_neg h]
    exact ⟨fun _ hn => absurd hn h, fun _ => rfl⟩

@[simp] theorem modelURIs_append (us vs : List PartUse) :
    modelURIs (us ++ vs) = modelURIs us ++ modelURIs vs := by
  simp [modelURIs]

theorem mem_modelURIs : uri ∈ modelURIs before ↔ ⟨.modelData, uri⟩ ∈ before := by
  simp only [modelURIs, List.mem_map, List.mem_filter, decide_eq_true_eq]
  constructor
  · intro ⟨u, ⟨hu, hk⟩, he⟩
    rcases u with ⟨kind, _⟩
    subst hk he
    exact hu
  · exact fun h => ⟨_, ⟨h, rfl⟩, rfl⟩

theorem modelURIs_of_ne (hk : u.kind ≠ .modelData) : modelURIs [u] = [] := by
  simp [modelURIs, hk]

theorem copied_append : p.Copied (before ++ [u]) name ↔
    p.Copied before name ∨ u.name = name ∧ p.FitsMemory name := by
  simp only [Copied, List.mem_append, List.mem_singleton, or_and_right, exists_or,
    exists_eq_left]

theorem attached_append : p.Attached (before ++ [u]) name ↔ p.Attached before name ∨
    (u.kind = .texture ∨ u.kind = .customData) ∧ u.name = name ∧ p.FitsMemory name := by
  simp only [Attached, List.mem_append, List.mem_singleton, or_and_right, exists_or,
    exists_eq_left, and_assoc]

theorem Attached.copied (h : p.Attached before name) : p.Copied before name :=
  ⟨h.1.imp fun _ hu => ⟨hu.1, hu.2.2⟩, h.2⟩

/-- A part once listed keeps its stream. -/
theorem streamOf_append (h : uri ∈ modelURIs before) (us : List PartUse) :
    p.streamOf (before ++ us) uri = p.streamOf before uri := by
  have hsome : (before.find? fun u => u.name = fnRemoveLeadingPathDelimiter uri).isSome :=
    List.find?_isSome.2 ⟨_, mem_modelURIs.1 h, by simp [PartUse.name]⟩
  rw [streamOf, streamOf, List.find?_append, Option.or_of_isSome hsome]

theorem moveItemToBack_idxOf {l : List String} (hu : uri ∈ l) :
    moveItemToBack l (l.idxOf uri) = touch l uri := by
  have hi : l.idxOf uri < l.length := List.idxOf_lt_length_of_mem hu
  rw [moveItemToBack, touch, ← List.eraseIdx_eq_take_drop_succ, List.eraseIdx_idxOf_eq_erase,
    List.getElem?_eq_getElem hi, List.getElem_idxOf hi]
  rfl

/-- What an extraction function does at the use `u` after the uses `before`. -/
def Performs (p : OpcPackage) (reader : ModelReader3MF) (before : List PartUse) (u : PartUse)
    (x : Except Error PackageExtraction) : Prop :=
  (p.UseOk reader before u → ∃ s', x = .ok s') ∧
    ∀ s', x = .ok s' → p.UseOk reader before u ∧ p.Extracted (before ++ [u]) s'

theorem performs_ok (h : p.UseOk reader before u) (hs : p.Extracted (before ++ [u]) s') :
    p.Performs reader before u (.ok s') :=
  ⟨fun _ => ⟨s', rfl⟩, fun _ he => by cases he; exact ⟨h, hs⟩⟩

theorem performs_error {e : Error} (h : ¬ p.UseOk reader before u) :
    p.Performs reader before u (.error e) :=
  ⟨fun hu => absurd hu h, fun _ he => by cases he⟩

/-- A use that opens its part. -/
theorem performs_createPart {f : OpcPackagePart → Except Error PackageExtraction}
    (hopens : p.UseOk reader before u → p.Opens u.name)
    (h : ∀ part, p.Opens u.name → p.content u.name = part.content →
      p.Performs reader before u (f part)) :
    p.Performs reader before u (p.createPart u.uri >>= f) := by
  cases hc : p.createPart u.uri with
  | error e =>
    refine performs_error fun hu => ?_
    obtain ⟨part, hp⟩ := (hopens hu).createPart
    rw [hc] at hp
    cases hp
  | ok part =>
    obtain ⟨ho, hcontent⟩ := opens_of_createPart hc
    exact h part ho hcontent

theorem copyToMemory_of_fits (hc : p.content name = part.content) (hfit : p.FitsMemory name) :
    s.copyToMemory name part =
      .ok (s.remaining name part, { s with copied := s.copied ++ [name] }) :=
  if_neg (Nat.not_lt.2 (hc ▸ hfit))

theorem copyToMemory_of_not_fits (hc : p.content name = part.content)
    (hfit : ¬ p.FitsMemory name) : s.copyToMemory name part = .error .invalidBufferSize :=
  if_pos (Nat.lt_of_not_le (hc ▸ hfit))

/-- A use that copies the stream of its part. -/
theorem performs_copyToMemory
    {f : List UInt8 × PackageExtraction → Except Error PackageExtraction}
    (hc : p.content u.name = part.content) (hfit : p.UseOk reader before u → p.FitsMemory u.name)
    (h : p.FitsMemory u.name → p.Performs reader before u
      (f (s.remaining u.name part, { s with copied := s.copied ++ [u.name] }))) :
    p.Performs reader before u (s.copyToMemory u.name part >>= f) := by
  by_cases hf : p.FitsMemory u.name
  · rw [copyToMemory_of_fits hc hf]
    exact h hf
  · rw [copyToMemory_of_not_fits hc hf]
    exact performs_error fun hu => hf (hfit hu)

namespace Extracted

variable (hs : p.Extracted before s)

include hs

/-- The warning about what is left of a stream. -/
theorem checkStream_eq_ok (hc : p.content name = part.content) :
    checkStream reader (s.remaining name part) = .ok () ↔ p.Fills reader before name := by
  rw [OpcPackage.checkStream_eq_ok, Fills, hc, PackageExtraction.remaining, ← hs.copied]
  by_cases h : name ∈ s.copied <;> simp [h]

/-- After a use that lists no model part. -/
theorem append_other (hk : u.kind ≠ .modelData)
    (hc : ∀ name, name ∈ s'.copied ↔ p.Copied (before ++ [u]) name)
    (ha : ∀ name, name ∈ s'.attachments ↔ p.Attached (before ++ [u]) name)
    (hp : s'.productionAttachments = s.productionAttachments)
    (hm : s'.productionAttachmentURIMap = s.productionAttachmentURIMap) :
    p.Extracted (before ++ [u]) s' := by
  refine ⟨hc, ha, ?_, fun uri => ?_, fun v hv hvk => ?_⟩
  · rw [hp, hs.productionAttachments, modelURIs_append, modelURIs_of_ne hk, List.append_nil]
  · rw [hm, hs.streams, modelURIs_append, modelURIs_of_ne hk, List.append_nil]
    by_cases h : uri ∈ modelURIs before
    · rw [if_pos h, if_pos h, streamOf_append h]
    · rw [if_neg h, if_neg h]
  · rcases List.mem_append.1 hv with hv | hv
    · exact hs.opens v hv hvk
    · exact absurd (List.mem_singleton.1 hv ▸ hvk) hk

/-- The streams copied, after one more. -/
theorem mem_copied_append (hfit : p.FitsMemory u.name) (name : String) :
    name ∈ s.copied ++ [u.name] ↔ p.Copied (before ++ [u]) name := by
  rw [List.mem_append, List.mem_singleton, hs.copied, copied_append]
  refine or_congr_right ⟨fun h => ⟨h.symm, h ▸ hfit⟩, fun h => h.1.symm⟩

/-- The attachments, after a use that adds none. -/
theorem mem_attachments_same (hk : ¬ (u.kind = .texture ∨ u.kind = .customData)) (name : String) :
    name ∈ s.attachments ↔ p.Attached (before ++ [u]) name := by
  rw [hs.attachments, attached_append]
  exact ⟨.inl, fun h => h.elim id fun h => absurd h.1 hk⟩

/-- The attachments, after one more. -/
theorem mem_attachments_append (hk : u.kind = .texture ∨ u.kind = .customData)
    (hfit : p.FitsMemory u.name) (name : String) :
    name ∈ s.attachments ++ [u.name] ↔ p.Attached (before ++ [u]) name := by
  rw [List.mem_append, List.mem_singleton, hs.attachments, attached_append]
  refine or_congr_right ⟨fun h => ⟨hk, h.symm, h ▸ hfit⟩, fun h => h.2.1.symm⟩

/-- A copy that becomes an attachment. -/
theorem append_attachment (hk : u.kind = .texture ∨ u.kind = .customData)
    (hfit : p.FitsMemory u.name) : p.Extracted (before ++ [u])
      { s with copied := s.copied ++ [u.name], attachments := s.attachments ++ [u.name] } := by
  refine hs.append_other ?_ (hs.mem_copied_append hfit) (hs.mem_attachments_append hk hfit) rfl rfl
  rcases hk with hk | hk <;> rw [hk] <;> decide

/-- A use that warns of an empty copy. -/
theorem performs_checkStream {f : Unit → Except Error PackageExtraction}
    (hc : p.content u.name = part.content)
    (hfill : p.UseOk reader before u → p.Fills reader before u.name)
    (h : p.Fills reader before u.name → p.Performs reader before u (f ())) :
    p.Performs reader before u (checkStream reader (s.remaining u.name part) >>= f) := by
  cases hw : checkStream reader (s.remaining u.name part) with
  | error e =>
    refine performs_error fun hu => ?_
    have hok := (hs.checkStream_eq_ok hc).2 (hfill hu)
    rw [hw] at hok
    cases hok
  | ok _ => exact h ((hs.checkStream_eq_ok hc).1 hw)

/-! ## One use -/

/-- A texture is extracted unless there is an attachment of that name. -/
theorem texture_performs (hk : u.kind = .texture) :
    p.Performs reader before u (p.extractTexture reader s u.uri) := by
  have hok : p.UseOk reader before u ↔ p.Attached before u.name ∨
      p.Opens u.name ∧ p.FitsMemory u.name ∧ p.Fills reader before u.name := by
    rw [UseOk, hk]
  have hfind : s.findModelAttachment u.uri = true ↔ p.Attached before u.name := by
    rw [PackageExtraction.findModelAttachment, decide_eq_true_iff]
    exact hs.attachments _
  unfold extractTexture
  by_cases ha : p.Attached before u.name
  · rw [if_pos (hfind.2 ha)]
    refine performs_ok (hok.2 (.inl ha)) (hs.append_other (by rw [hk]; decide) (fun name => ?_)
      (fun name => ?_) rfl rfl)
    · rw [hs.copied, copied_append]
      exact ⟨.inl, fun h => h.elim id fun h => h.1 ▸ ha.copied⟩
    · rw [hs.attachments, attached_append]
      exact ⟨.inl, fun h => h.elim id fun h => h.2.1 ▸ ha⟩
  · rw [if_neg (mt hfind.1 ha)]
    replace hok := hok.trans (or_iff_right ha)
    refine performs_createPart (fun h => (hok.1 h).1) fun part ho hc => ?_
    refine performs_copyToMemory hc (fun h => (hok.1 h).2.1) fun hfit => ?_
    refine hs.performs_checkStream hc (fun h => (hok.1 h).2.2) fun hfill => ?_
    have hnew : u.name ∉ s.attachments := fun h => ha ((hs.attachments _).1 h)
    show p.Performs reader before u (if u.name ∈ s.attachments then _ else _)
    rw [if_neg hnew]
    exact performs_ok (hok.2 ⟨ho, hfit, hfill⟩) (hs.append_attachment (.inl hk) hfit)

/-- Custom data is an attachment of its own; what is too large is left out. -/
theorem customData_performs (hk : u.kind = .customData) :
    p.Performs reader before u (p.extractCustomData reader s u.uri) := by
  have hok : p.UseOk reader before u ↔ p.Opens u.name ∧
      (¬ p.FitsMemory u.name ∧ reader.criticalWarningLevel.toNat <
          ModelReaderWarningLevel.missingMandatoryValue.toNat ∨
        p.FitsMemory u.name ∧ p.Fills reader before u.name ∧ ¬ p.Attached before u.name) := by
    rw [UseOk, hk]
  have hkind : u.kind ≠ .modelData := by
    rw [hk]
    decide
  refine performs_createPart (fun h => (hok.1 h).1) fun part ho hc => ?_
  by_cases hfit : p.FitsMemory u.name
  · have hok : p.UseOk reader before u ↔
        p.Fills reader before u.name ∧ ¬ p.Attached before u.name := by
      simp only [hok, ho, hfit, not_true_eq_false, false_and, true_and, false_or]
    rw [copyToMemory_of_fits hc hfit]
    refine hs.performs_checkStream hc (fun h => (hok.1 h).1) fun hfill => ?_
    show p.Performs reader before u (if u.name ∈ s.attachments then _ else _)
    by_cases ha : p.Attached before u.name
    · rw [if_pos ((hs.attachments _).2 ha)]
      exact performs_error fun h => (hok.1 h).2 ha
    · rw [if_neg fun h => ha ((hs.attachments _).1 h)]
      exact performs_ok (hok.2 ⟨hfill, ha⟩) (hs.append_attachment (.inr hk) hfit)
  · have hok : p.UseOk reader before u ↔ reader.criticalWarningLevel.toNat <
        ModelReaderWarningLevel.missingMandatoryValue.toNat := by
      simp only [hok, ho, hfit, not_false_eq_true, false_and, true_and, or_false]
    rw [copyToMemory_of_not_fits hc hfit]
    show p.Performs reader before u (addWarning reader.criticalWarningLevel .attachmentTooLarge
      .missingMandatoryValue >>= fun _ => .ok s)
    cases hw : addWarning reader.criticalWarningLevel .attachmentTooLarge
        .missingMandatoryValue with
    | error e =>
      refine performs_error fun h => ?_
      rw [addWarning_eq_ok.2 (hok.1 h)] at hw
      cases hw
    | ok _ =>
      refine performs_ok (hok.2 (addWarning_eq_ok.1 hw)) (hs.append_other hkind (fun name => ?_)
        (fun name => ?_) rfl rfl)
      · rw [hs.copied, copied_append]
        exact ⟨.inl, fun h => h.elim id fun h => absurd (h.1 ▸ h.2) hfit⟩
      · rw [hs.attachments, attached_append]
        exact ⟨.inl, fun h => h.elim id fun h => absurd (h.2.1 ▸ h.2.2) hfit⟩

/-- A model part that is listed for the first time gets what is left of its stream. -/
theorem streamOf_append_self (hu : u = ⟨.modelData, u.uri⟩) (hl : u.uri ∉ modelURIs before)
    (hfit : p.FitsMemory u.name) (hc : p.content u.name = part.content) :
    p.streamOf (before ++ [u]) u.uri = s.remaining u.name part := by
  rw [streamOf, List.find?_append, PackageExtraction.remaining]
  cases hf : before.find? fun v => v.name = u.name with
  | none =>
    have hnot : u.name ∉ s.copied := fun h => by
      obtain ⟨v, hv, he⟩ := ((hs.copied _).1 h).1
      simpa [he] using List.find?_eq_none.1 hf v hv
    rw [if_neg hnot, if_pos, hc]
    rw [hu]
    simp
  | some v =>
    have hv := List.mem_of_find?_eq_some hf
    have hname : v.name = u.name := by simpa using List.find?_some hf
    rw [if_pos ((hs.copied _).2 ⟨⟨v, hv, hname⟩, hfit⟩), if_neg]
    intro he
    exact hl (mem_modelURIs.2 (Option.some.inj he ▸ hv))

/-- After a model part is listed once more. -/
theorem append_listed (hk : u.kind = .modelData) (hl : u.uri ∈ modelURIs before)
    (ho : p.Opens u.name) : p.Extracted (before ++ [u])
      { s with productionAttachments :=
        moveItemToBack s.productionAttachments (s.productionAttachments.idxOf u.uri) } := by
  have hu : u = ⟨.modelData, u.uri⟩ := by
    rw [← hk]
  have huris : modelURIs [u] = [u.uri] := by simp [modelURIs, hk]
  have hmem : u.uri ∈ s.productionAttachments := by
    rw [hs.productionAttachments]
    exact List.mem_dedup.2 hl
  refine ⟨fun name => ?_, fun name => ?_, ?_, fun uri => ?_, fun v hv hvk => ?_⟩
  · rw [hs.copied, copied_append]
    refine ⟨.inl, fun h => h.elim id fun h => ⟨⟨u, hu ▸ mem_modelURIs.1 hl, h.1⟩, h.2⟩⟩
  · exact hs.mem_attachments_same (by rw [hk]; decide) name
  · rw [moveItemToBack_idxOf hmem, hs.productionAttachments, modelURIs_append, huris,
      dedup_append_singleton]
  · have hsame : uri ∈ modelURIs (before ++ [u]) ↔ uri ∈ modelURIs before := by
      rw [modelURIs_append, huris, List.mem_append, List.mem_singleton]
      exact ⟨fun h => h.elim id fun h => h ▸ hl, .inl⟩
    show s.productionAttachmentURIMap.find? uri = _
    rw [hs.streams]
    by_cases h : uri ∈ modelURIs before
    · rw [if_pos h, if_pos (hsame.2 h), streamOf_append h]
    · rw [if_neg h, if_neg (mt hsame.1 h)]
  · rcases List.mem_append.1 hv with hv | hv
    · exact hs.opens v hv hvk
    · exact List.mem_singleton.1 hv ▸ ho

/-- After a model part is listed for the first time. -/
theorem append_new (hk : u.kind = .modelData) (hl : u.uri ∉ modelURIs before)
    (ho : p.Opens u.name) (hfit : p.FitsMemory u.name) (hc : p.content u.name = part.content) :
    p.Extracted (before ++ [u])
      { s with
        copied := s.copied ++ [u.name]
        productionAttachments := s.productionAttachments ++ [u.uri]
        productionAttachmentURIMap :=
          s.productionAttachmentURIMap.insert u.uri (s.remaining u.name part) } := by
  have hu : u = ⟨.modelData, u.uri⟩ := by
    rw [← hk]
  have huris : modelURIs [u] = [u.uri] := by simp [modelURIs, hk]
  have hkeys : u.uri ∉ s.productionAttachmentURIMap.keys := by
    rw [← SortedMap.find?_eq_none, hs.streams, if_neg hl]
  refine ⟨fun name => hs.mem_copied_append hfit name, fun name => ?_, ?_, fun uri => ?_,
    fun v hv hvk => ?_⟩
  · exact hs.mem_attachments_same (by rw [hk]; decide) name
  · show s.productionAttachments ++ [u.uri] = _
    rw [hs.productionAttachments, modelURIs_append, huris, dedup_append_singleton, touch,
      List.erase_of_not_mem (mt List.mem_dedup.1 hl)]
  · show (s.productionAttachmentURIMap.insert u.uri _).find? uri = _
    rw [SortedMap.find?_insert, modelURIs_append, huris]
    by_cases h : uri = u.uri
    · subst h
      rw [if_pos rfl, if_pos (by simp), SortedMap.find?_eq_none.2 hkeys, Option.getD_none,
        hs.streamOf_append_self hu hl hfit hc]
    · have hsame : uri ∈ modelURIs before ++ [u.uri] ↔ uri ∈ modelURIs before := by
        simp [h]
      rw [if_neg h, hs.streams]
      by_cases hm : uri ∈ modelURIs before
      · rw [if_pos hm, if_pos (hsame.2 hm), streamOf_append hm]
      · rw [if_neg hm, if_neg (mt hsame.1 hm)]
  · rcases List.mem_append.1 hv with hv | hv
    · exact hs.opens v hv hvk
    · exact List.mem_singleton.1 hv ▸ ho

/-- A model part that is listed already moves to the back. -/
theorem modelData_performs (hk : u.kind = .modelData) :
    p.Performs reader before u (p.extractModelData reader s u.uri) := by
  have hok : p.UseOk reader before u ↔ p.Opens u.name ∧
      (u.uri ∈ modelURIs before ∨ p.FitsMemory u.name ∧ p.Fills reader before u.name) := by
    rw [UseOk, hk]
  refine performs_createPart (fun h => (hok.1 h).1) fun part ho hc => ?_
  by_cases hl : u.uri ∈ modelURIs before
  · have hf : s.productionAttachmentURIMap.find? u.uri = some (p.streamOf before u.uri) := by
      rw [hs.streams, if_pos hl]
    have hadd : s.addProductionAttachment u.uri (p.streamOf before u.uri) false =
        .ok { s with productionAttachments :=
          moveItemToBack s.productionAttachments (s.productionAttachments.idxOf u.uri) } := by
      rw [PackageExtraction.addProductionAttachment, hf]
      rfl
    rw [PackageExtraction.findProductionModelAttachment, hf]
    dsimp only
    rw [hadd]
    exact performs_ok (hok.2 ⟨ho, .inl hl⟩) (hs.append_listed hk hl ho)
  · have hf : s.productionAttachmentURIMap.find? u.uri = none := by
      rw [hs.streams, if_neg hl]
    have hok : p.UseOk reader before u ↔ p.FitsMemory u.name ∧ p.Fills reader before u.name := by
      simp only [hok, ho, hl, true_and, false_or]
    rw [PackageExtraction.findProductionModelAttachment, hf]
    refine performs_copyToMemory hc (fun h => (hok.1 h).1) fun hfit => ?_
    refine hs.performs_checkStream hc (fun h => (hok.1 h).2) fun hfill => ?_
    rw [PackageExtraction.addProductionAttachment, hf]
    exact performs_ok (hok.2 ⟨hfit, hfill⟩) (hs.append_new hk hl ho hfit hc)

/-- A binary stream has to be one. -/
theorem binaryStream_performs (hk : u.kind = .binaryStream) :
    p.Performs reader before u (p.extractBinaryStream s u.uri) := by
  have hok : p.UseOk reader before u ↔ p.Opens u.name ∧ p.FitsMemory u.name ∧
      ¬ p.Copied before u.name ∧
        ∃ r, ChunkedBinaryStreamReader.readHeader (p.content u.name) = .ok r := by
    rw [UseOk, hk]
  refine performs_createPart (fun h => (hok.1 h).1) fun part ho hc => ?_
  refine performs_copyToMemory hc (fun h => (hok.1 h).2.1) fun hfit => ?_
  dsimp only
  by_cases hcop : p.Copied before u.name
  · rw [PackageExtraction.remaining, if_pos ((hs.copied _).2 hcop)]
    exact performs_error fun h => (hok.1 h).2.2.1 hcop
  · rw [PackageExtraction.remaining, if_neg fun h => hcop ((hs.copied _).1 h), ← hc]
    cases hr : ChunkedBinaryStreamReader.readHeader (p.content u.name) with
    | error e =>
      refine performs_error fun h => ?_
      obtain ⟨r, he⟩ := (hok.1 h).2.2.2
      rw [hr] at he
      cases he
    | ok r =>
      refine performs_ok (hok.2 ⟨ho, hfit, hcop, r, hr⟩) (hs.append_other (by rw [hk]; decide)
        (hs.mem_copied_append hfit) (hs.mem_attachments_same (by rw [hk]; decide)) rfl rfl)

/-- The thumbnail of the package. -/
theorem thumbnail_performs (hk : u.kind = .thumbnail) :
    p.Performs reader before u (p.extractThumbnail s u.uri) := by
  have hok : p.UseOk reader before u ↔ p.Opens u.name ∧ p.FitsMemory u.name := by
    rw [UseOk, hk]
  refine performs_createPart (fun h => (hok.1 h).1) fun part ho hc => ?_
  refine performs_copyToMemory hc (fun h => (hok.1 h).2) fun hfit => ?_
  exact performs_ok (hok.2 ⟨ho, hfit⟩) (hs.append_other (by rw [hk]; decide)
    (hs.mem_copied_append hfit) (hs.mem_attachments_same (by rw [hk]; decide)) rfl rfl)

/-- **One use** succeeds when the uses before it allow it, and leaves what it is to. -/
theorem perform_performs (u : PartUse) : p.Performs reader before u (p.perform reader s u) := by
  unfold perform
  cases hk : u.kind with
  | texture => exact hs.texture_performs hk
  | customData => exact hs.customData_performs hk
  | modelData => exact hs.modelData_performs hk
  | binaryStream => exact hs.binaryStream_performs hk
  | thumbnail => exact hs.thumbnail_performs hk

end Extracted

/-! ## The run of all uses -/

theorem extracted_new : p.Extracted [] .new :=
  ⟨fun _ => by simp [PackageExtraction.new, Copied],
    fun _ => by simp [PackageExtraction.new, Attached], rfl, fun _ => rfl,
    fun _ h => absurd h List.not_mem_nil⟩

/-- Each use succeeds after the uses before it. -/
def Performed (p : OpcPackage) (reader : ModelReader3MF) (us : List PartUse) : Prop :=
  ∀ before u after, us = before ++ u :: after → p.UseOk reader before u

theorem foldlM_perform_ok_iff (us : List PartUse) :
    (∃ s, us.foldlM (p.perform reader) .new = .ok s) ↔ p.Performed reader us :=
  foldlM_ok_iff p.Extracted (p.UseOk reader) (fun _ _ u h => h.perform_performs u) extracted_new

theorem extracted_of_foldlM {us : List PartUse}
    (h : us.foldlM (p.perform reader) .new = .ok s) : p.Extracted us s :=
  foldlM_ok p.Extracted (fun _ _ u s' _ hs hp => ((hs.perform_performs u).2 s' hp).2)
    extracted_new h

/-! ## The relationships of a part -/

theorem usesOf_of_find? (hf : p.parts.find? name = some part) (kind : PartKind) :
    p.usesOf reader kind name = (part.relationships.filter fun r =>
      reader.Extracts r.type kind).map fun r => ⟨kind, p.targetURI r⟩ := by
  rw [usesOf, hf]

theorem foldlM_usesOf (hf : p.parts.find? name = some part) (kind : PartKind)
    (s : PackageExtraction) : (p.usesOf reader kind name).foldlM (p.perform reader) s =
      part.relationships.foldlM (fun s r => if reader.Extracts r.type kind then
        p.perform reader s ⟨kind, p.targetURI r⟩ else .ok s) s := by
  rw [usesOf_of_find? hf, List.foldlM_map]
  exact (foldlM_ite (c := fun r : OpcPackageRelationship => reader.Extracts r.type kind) _ _).symm

/-- The model parts a part asks for are those it has relationships to. -/
theorem modelURIs_usesOf (kind : PartKind) (name : String) :
    modelURIs (p.usesOf reader kind name) = if kind = .modelData then p.targets name else [] := by
  unfold usesOf targets
  cases p.parts.find? name with
  | none => simp [modelURIs]
  | some part =>
    dsimp only
    rw [modelURIs, List.filter_map, List.map_map]
    by_cases hk : kind = .modelData
    · subst hk
      rw [if_pos rfl, List.filter_eq_self.2 (by simp)]
      rfl
    · rw [if_neg hk, List.filter_eq_nil_iff.2 fun _ _ => by simp [hk]]
      rfl

theorem modelURIs_passUses (i : Nat) : modelURIs (p.passUses reader i) =
    match (p.listed i).dedup[i]? with
      | some uri => p.targets (fnRemoveLeadingPathDelimiter uri)
      | none => [] := by
  unfold passUses
  cases (p.listed i).dedup[i]? with
  | none => rfl
  | some uri => simp [modelURIs_usesOf]

theorem usesUpTo_succ (n : Nat) :
    p.usesUpTo reader (n + 1) = p.usesUpTo reader n ++ p.passUses reader n := by
  rw [usesUpTo, usesUpTo, List.range_succ, List.flatMap_append, List.append_assoc,
    List.flatMap_singleton]

/-- The URIs listed are those of the model parts used. -/
theorem modelURIs_usesUpTo (n : Nat) : modelURIs (p.usesUpTo reader n) = p.listed n := by
  induction n with
  | zero => simp [usesUpTo, rootUses, modelURIs_usesOf, listed]
  | succ n ih => rw [usesUpTo_succ, modelURIs_append, ih, modelURIs_passUses, listed]

theorem modelURIs_uses : modelURIs (p.uses reader) = p.allListed := by
  have ht : modelURIs p.thumbnailUses = [] := by
    unfold thumbnailUses
    split
    · rfl
    · rfl
  rw [uses, modelURIs_append, modelURIs_usesUpTo, ht, List.append_nil, allListed]

theorem targets_subset_listed (n : Nat) : p.targets p.rootPart ⊆ p.listed n := by
  induction n with
  | zero => exact fun _ h => h
  | succ n ih => exact fun x hx => List.mem_append_left _ (ih hx)

theorem length_le_listed (n : Nat) :
    (p.targets p.rootPart).dedup.length ≤ (p.listed n).dedup.length := by
  apply (List.subperm_of_subset (List.nodup_dedup _) _).length_le
  intro x hx
  exact List.mem_dedup.2 (targets_subset_listed n (List.mem_dedup.1 hx))

/-- What is listed is reachable. -/
theorem reachable_listed {n : Nat} (hu : uri ∈ p.listed n) :
    Relation.TransGen p.Refers p.rootPart (fnRemoveLeadingPathDelimiter uri) := by
  induction n generalizing uri with
  | zero => exact .single ⟨uri, hu, rfl⟩
  | succ n ih =>
    rw [listed, List.mem_append] at hu
    rcases hu with hu | hu
    · exact ih hu
    · split at hu
      · rename_i v hv
        have hvn := ih (List.mem_dedup.1 (List.mem_of_getElem? hv))
        exact hvn.tail ⟨uri, hu, rfl⟩
      · exact absurd hu List.not_mem_nil

/-! ## The extraction -/

/-- One pass of the loop. -/
theorem extractProductionAttachment_eq {n : Nat}
    (hn : n < (p.listed n).dedup.length) (hs : p.Extracted (p.usesUpTo reader n) s) :
    p.extractProductionAttachment reader s n =
      (p.passUses reader n).foldlM (p.perform reader) s := by
  have hget := List.getElem?_eq_getElem hn
  have hmem : (p.listed n).dedup[n] ∈ modelURIs (p.usesUpTo reader n) := by
    rw [modelURIs_usesUpTo]
    exact List.mem_dedup.1 (List.getElem_mem hn)
  obtain ⟨part, hc⟩ := (hs.opens _ (mem_modelURIs.1 hmem) rfl).createPart
  have hf := (createPart_eq_ok.1 hc).1
  rw [extractProductionAttachment, hs.productionAttachments, modelURIs_usesUpTo, hget]
  dsimp only
  rw [hc, ok_bind, passUses, hget, List.foldlM_append, foldlM_usesOf hf]
  refine congrArg₂ (· >>= ·) rfl (funext fun t => ?_)
  rw [foldlM_usesOf hf]
  rfl

/-- The loop, pass by pass. -/
theorem foldlM_extractProductionAttachment {n : Nat}
    (hn : n ≤ (p.targets p.rootPart).dedup.length) {s₀ : PackageExtraction}
    (h₀ : (p.rootUses reader).foldlM (p.perform reader) .new = .ok s₀) :
    (List.range n).foldlM (p.extractProductionAttachment reader) s₀ =
      (p.usesUpTo reader n).foldlM (p.perform reader) .new := by
  induction n with
  | zero =>
    rw [usesUpTo, List.range_zero, List.flatMap_nil, List.append_nil, h₀]
    rfl
  | succ n ih =>
    rw [List.range_succ, List.foldlM_append, ih (by omega), usesUpTo_succ, List.foldlM_append]
    cases hs : (p.usesUpTo reader n).foldlM (p.perform reader) .new with
    | error e => rfl
    | ok s =>
      have hlt : n < (p.listed n).dedup.length := lt_of_lt_of_le hn (length_le_listed n)
      rw [ok_bind, ok_bind, ← extractProductionAttachment_eq hlt (extracted_of_foldlM hs)]
      exact bind_pure _

theorem foldlM_rootUses (hf : p.parts.find? p.rootPart = some part) :
    (p.rootUses reader).foldlM (p.perform reader) .new = p.extractRootPart reader part := by
  rw [rootUses, List.foldlM_append, List.foldlM_append, List.foldlM_append, bind_assoc,
    bind_assoc, foldlM_usesOf hf]
  refine congrArg₂ (· >>= ·) rfl (funext fun t => ?_)
  rw [foldlM_usesOf hf]
  refine congrArg₂ (· >>= ·) rfl (funext fun t => ?_)
  rw [foldlM_usesOf hf]
  refine congrArg₂ (· >>= ·) rfl (funext fun t => ?_)
  rw [foldlM_usesOf hf]
  rfl

/-- The extraction makes the uses, one after the other. -/
theorem extractParts_eq (hf : p.parts.find? p.rootPart = some part) :
    p.extractParts reader part =
      (p.usesUpTo reader ((p.targets p.rootPart).dedup.length % 2 ^ 32)).foldlM
        (p.perform reader) .new := by
  rw [extractParts, ← foldlM_rootUses hf]
  cases hs : (p.rootUses reader).foldlM (p.perform reader) .new with
  | error e =>
    rw [usesUpTo, List.foldlM_append, hs]
    rfl
  | ok s =>
    have huris : modelURIs (p.rootUses reader) = p.targets p.rootPart := by
      have h0 : modelURIs (p.usesUpTo reader 0) = p.listed 0 := modelURIs_usesUpTo 0
      simpa [usesUpTo, listed] using h0
    rw [ok_bind, (extracted_of_foldlM hs).productionAttachments, huris]
    exact foldlM_extractProductionAttachment (Nat.mod_le _ _) hs

/-- The relationship of a type is unique in the package, or that it is not is no error. -/
def Unique (p : OpcPackage) (reader : ModelReader3MF) (type : String) : Prop :=
  (p.rootRelationships.filter fun r => r.type = type).length ≤ 1 ∨
    reader.criticalWarningLevel.toNat < ModelReaderWarningLevel.invalidOptionalValue.toNat

theorem findRootRelation_eq_ok {type : String} {r : Option OpcPackageRelationship} :
    p.findRootRelation reader type = .ok r ↔
      p.Unique reader type ∧ r = p.rootRelationships.find? fun r => r.type = type := by
  rw [findRootRelation, Unique, ← List.head?_filter]
  generalize (p.rootRelationships.filter fun r => r.type = type) = rs
  rcases rs with - | ⟨r₁, - | ⟨r₂, rs⟩⟩
  · simp [eq_comm]
  · simp [eq_comm]
  · show ((addWarning _ _ _ >>= fun _ => pure (some r₁)) = _) ↔ _
    rw [bind_eq_ok, List.head?_cons]
    constructor
    · intro ⟨_, hw, hr⟩
      exact ⟨.inr (addWarning_eq_ok.1 hw), (pure_eq_ok.1 hr).symm⟩
    · intro ⟨hw, hr⟩
      exact ⟨(), addWarning_eq_ok.2 (hw.resolve_left (by simp)), pure_eq_ok.2 hr.symm⟩

theorem extractPackageThumbnail_eq_ok : p.extractPackageThumbnail reader s = .ok s' ↔
    p.Unique reader packageThumbnailRelationshipType ∧
      p.thumbnailUses.foldlM (p.perform reader) s = .ok s' := by
  simp only [extractPackageThumbnail, bind_eq_ok, findRootRelation_eq_ok, and_assoc,
    exists_and_left, exists_eq_left, thumbnailUses]
  refine and_congr_right fun _ => ?_
  cases p.rootRelationships.find? fun r => r.type = packageThumbnailRelationshipType with
  | none => rfl
  | some r =>
    show p.extractThumbnail s r.targetPartURI = _ ↔ (_ >>= pure) = _
    rw [bind_pure]
    rfl

/-- **The extraction** succeeds when the relationships of the package are unique, the root part can
be opened and each use succeeds after those before it, and leaves what the uses leave. -/
theorem extract3MFOPCPackage_eq_ok : p.extract3MFOPCPackage reader = .ok (part, s) ↔
    p.Unique reader packageStartPartRelationshipType ∧
      p.Unique reader packageThumbnailRelationshipType ∧
      p.createPart p.startPart = .ok part ∧
      (p.uses reader).foldlM (p.perform reader) .new = .ok s := by
  simp only [extract3MFOPCPackage, bind_eq_ok, findRootRelation_eq_ok, and_assoc,
    exists_and_left, exists_eq_left, startPart]
  rw [and_congr_right_iff]
  intro _
  cases hr : p.rootRelationships.find? fun r => r.type = packageStartPartRelationshipType with
  | none =>
    have hno : p.createPart "" ≠ .ok part := fun h => (createPart_eq_ok.1 h).2 rfl
    simp [hno]
  | some r =>
    have hstart : p.startPart = r.targetPartURI := by
      rw [startPart, hr]
    dsimp only
    constructor
    · intro h
      obtain ⟨q, hc, h⟩ := bind_eq_ok.1 h
      obtain ⟨s₁, he, h⟩ := bind_eq_ok.1 h
      obtain ⟨s₂, ht, h⟩ := bind_eq_ok.1 h
      obtain ⟨rfl, rfl⟩ := Prod.mk.inj (pure_eq_ok.1 h)
      have hf : p.parts.find? p.rootPart = some q := by
        rw [rootPart, hstart]
        exact (createPart_eq_ok.1 hc).1
      obtain ⟨hu, ht⟩ := extractPackageThumbnail_eq_ok.1 ht
      refine ⟨hu, hc, ?_⟩
      rw [uses, List.foldlM_append, ← extractParts_eq hf, he]
      exact ht
    · intro h
      obtain ⟨hu, hc, hs⟩ := h
      have hf : p.parts.find? p.rootPart = some part := by
        rw [rootPart, hstart]
        exact (createPart_eq_ok.1 hc).1
      rw [uses, List.foldlM_append, ← extractParts_eq hf] at hs
      obtain ⟨s₁, he, ht⟩ := bind_eq_ok.1 hs
      rw [hc, ok_bind, he, ok_bind, extractPackageThumbnail_eq_ok.2 ⟨hu, ht⟩]
      rfl

end OpcPackage

end NMR
