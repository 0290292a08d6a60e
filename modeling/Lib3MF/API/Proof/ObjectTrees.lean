import Lib3MF.API.Proof.BuildItems
import Lib3MF.API.Proof.Components
import Lib3MF.API.Proof.MergeFaces
import Lib3MF.Common.Mesh.Proof.MergedGeometry
import Lib3MF.Lib.Unfolding
import Lib3MF.Model.Classes.ObjectVisits

/-!
# Objects as trees of placed meshes

Where the component graph is acyclic, an object unfolds into a tree of components, and every
recursion over components is a walk through it (`Lib.walk`). The geometry of an object is its
`placements`, the meshes of the tree with the matrices their components accumulate to: `mergeToMesh`
merges them one after the other (`mergeToMesh_placements`), and `GetOutbox` is the box around them,
so around the mesh that `MergeToModel` makes (`getOutbox_bounds_merged`). Whether an object is
valid, has slices and may be printed with them is a question about all of its tree
(`objectVisits_iff`).

`fnMATRIX3_isIdentity` has a tolerance, and `CMesh::extendOutbox` leaves out the matrices it
accepts.
-/

namespace NMR

open Lib

/-- The fields of an object. -/
def ResourceData.info? : ResourceData → Option ObjectInfo
  | .meshObject info _ | .componentsObject info _ => some info
  | _ => none

namespace Model

variable {m m' : Model} {r o : ResourceRef} {matrix : Matrix3} {uninit : FaceProperties}

/-! ## Objects of a session -/

/-- The resource is an object. -/
def IsObject (m : Model) (r : ResourceRef) : Prop := (m.data? r).any (·.isObject) = true

/-- Components and build items are of objects. -/
structure ObjectsOnly (m : Model) : Prop where
  below : ∀ r o, m.References r o → m.IsObject o
  items : ∀ b ∈ m.buildItems, m.IsObject b.object

theorem isObject_iff : m.IsObject r ↔ ∃ d, m.data? r = some d ∧ d.isObject = true := by
  unfold IsObject
  cases m.data? r <;> simp

theorem isObject_of_findObject {objectID : Nat} (h : m.findObject objectID = .ok (some o)) :
    m.IsObject o := by
  unfold findObject at h
  split at h
  · cases h
  · split at h
    · rename_i d hd
      split_ifs at h with ho
      cases h
      unfold IsObject
      rw [hd]
      exact ho
    · cases h

/-- No call changes the class of a resource. -/
theorem Edits.isObject {c : Call} {d d' : ResourceData} (h : Edits m c r d d') :
    d'.isObject = d.isObject := by
  cases h with
  | info => cases d <;> rfl
  | @edit _ _ e => cases d <;> cases e <;> rfl
  | _ => rfl

theorem isObject_next (h : m.IsObject r) (c : Call) : (m.next c).IsObject r := by
  obtain ⟨d, hd, ho⟩ := isObject_iff.1 h
  unfold IsObject at h ⊢
  rcases store_next m c with hs | ⟨new, p, -, hs⟩ | ⟨r', d₁, d₂, hd₁, hE, hm⟩
  · rwa [data?_congr hs]
  · rw [data?_append hs, if_neg (Nat.ne_of_lt (lt_of_data? hd))]
    exact h
  · rw [hm, data?_setData, hd]
    split_ifs with hr
    · subst hr
      rw [hd] at hd₁
      cases hd₁
      rw [Option.map_some, Option.any_some, hE.isObject]
      exact ho
    · rwa [Option.any_some]

theorem buildItems_next (m : Model) (c : Call) : ∀ b ∈ (m.next c).buildItems,
    b ∈ m.buildItems ∨ ∃ objectID, m.findObject objectID = .ok (some b.object) := by
  intro b hb
  by_cases hc : c = .clearAll
  · subst hc
    exact absurd hb List.not_mem_nil
  by_cases ha : ∃ id t, c = .addBuildItem id t
  · obtain ⟨id, t, rfl⟩ := ha
    rcases m.addBuildItem_next id t with ⟨hitems, -⟩ | ⟨r, hr, -, -, hitems, -⟩
    · exact .inl (hitems ▸ hb)
    · rw [hitems, List.mem_append, List.mem_singleton] at hb
      rcases hb with hb | rfl
      · exact .inl hb
      · exact .inr ⟨id, hr⟩
  · push Not at ha
    rw [(m.sameItems_next hc ha).1] at hb
    exact .inl hb

theorem objectsOnly_next (h : m.ObjectsOnly) (c : Call) : (m.next c).ObjectsOnly := by
  refine ⟨fun r o hro => isObject_next ?_ c, fun b hb => isObject_next ?_ c⟩
  · rcases references_next m c with ⟨he, -⟩ | ⟨r', o', ha, -, he⟩
    · rw [he] at hro
      exact h.below r o hro
    · rw [he] at hro
      rcases hro with hro | ⟨rfl, rfl⟩
      · exact h.below r o hro
      · obtain ⟨objectID, t, -, -, hf, -⟩ := ha
        exact isObject_of_findObject hf
  · rcases buildItems_next m c b hb with hb | ⟨objectID, hf⟩
    · exact h.items b hb
    · exact isObject_of_findObject hf

theorem objectsOnly_reaches {calls : List Call} (h : Reaches next new calls m) :
    m.ObjectsOnly := by
  refine h.inv ObjectsOnly ?_ (fun m c h _ => objectsOnly_next h c) (guarded_true _ _ _)
  exact ⟨fun r o ⟨c, hc, _⟩ => by simp [components, data?, new] at hc, by simp [new]⟩

/-- Acyclic component graphs have no infinite descent, as there are finitely many resources. -/
theorem descends_of_acyclic (h : Acyclic m.References) : Descends m.References := by
  refine h.descends (Set.finite_lt_nat m.store.length) fun r o ⟨c, hc, _⟩ => ?_
  by_contra hr
  rw [components, data?_of_length_le (not_lt.1 hr)] at hc
  cases hc

/-! ## The tree of an object -/

/-- The components of an object, with their transforms. -/
def parts (m : Model) (r : ResourceRef) : List (Matrix3 × ResourceRef) :=
  (m.components r).map fun c => (c.transform, c.object)

theorem child_parts (m : Model) : Child m.parts = m.References := by
  funext r o
  simp [Child, parts, References]

/-- In the tree of `r`, placed by `matrix`, there is `o`, placed by `matrix'`. -/
def Within (m : Model) (r : ResourceRef) (matrix : Matrix3) (o : ResourceRef) (matrix' : Matrix3) :
    Prop :=
  Leads m.parts Matrix3.multiply r matrix o matrix'

open Classical in
/-- The objects in the tree of an object, depth first; none where the tree is not finite. -/
noncomputable def tree (m : Model) (r : ResourceRef) (matrix : Matrix3) :
    List (ResourceRef × Matrix3) :=
  if h : Descends (Child m.parts) then occurrences Matrix3.multiply h r matrix else []

/-- The meshes in the tree of an object, with their places. -/
noncomputable def placements (m : Model) (r : ResourceRef) (matrix : Matrix3) :
    List Mesh.Placement :=
  (m.tree r matrix).filterMap fun x => ((m.data? x.1).bind ResourceData.mesh?).map (·, x.2)

theorem mem_tree (h : Descends m.References) {x : ResourceRef × Matrix3} :
    x ∈ m.tree r matrix ↔ m.Within r matrix x.1 x.2 := by
  rw [← child_parts] at h
  rw [tree, dif_pos h]
  exact mem_occurrences _ h

/-- What is in the tree of an object is an object. -/
theorem Within.isObject (hm : m.ObjectsOnly) (hr : m.IsObject r) {matrix' : Matrix3}
    (h : m.Within r matrix o matrix') : m.IsObject o := by
  induction h with
  | here => exact hr
  | @down a l c b k hc _ ih =>
    obtain ⟨c', hc', rfl⟩ := List.mem_map.1 hc
    exact ih (hm.below _ _ ⟨c', hc', rfl⟩)

/-- Walks through the tree of an object. -/
theorem walk_tree (h : Descends m.References) (r : ResourceRef) : ∃ n, ∀ fuel, n ≤ fuel →
    ∀ (ε σ : Type) (go : σ → Bool) (visit : ResourceRef → Matrix3 → σ → Except ε σ) matrix s,
      go s = true → walk m.parts Matrix3.multiply go visit fuel r matrix s =
        ended ((m.tree r matrix).foldlM (visitIf go visit) s) := by
  rw [← child_parts] at h
  obtain ⟨n, hn⟩ := @walk_eq _ _ _ m.parts Matrix3.multiply h r
  refine ⟨n, fun fuel hf ε σ go visit matrix s hs => ?_⟩
  rw [hn fuel hf ε σ go visit matrix s hs, tree, dif_pos h]

/-- What is done at a mesh object, a components object and any other resource. -/
def visitObject {α : Type} (m : Model) (r : ResourceRef) (onMesh : ObjectInfo → Mesh → α)
    (onComponents : ObjectInfo → List Component → α) (other : α) : α :=
  match m.data? r with
  | some (.meshObject info mesh) => onMesh info mesh
  | some (.componentsObject info cs) => onComponents info cs
  | _ => other

/-- A walk that throws at what is no object, apart from the components. -/
def visits {σ : Type} (m : Model) (onMesh : ObjectInfo → Mesh → Matrix3 → σ → Except Error σ)
    (onComponents : ObjectInfo → List Component → Matrix3 → σ → Except Error σ)
    (r : ResourceRef) (matrix : Matrix3) (s : σ) : Except Error σ :=
  m.visitObject r (fun info mesh => onMesh info mesh matrix s)
    (fun info cs => onComponents info cs matrix s) (.error .resourceTypeMismatch)

section

variable {σ : Type} {go : σ → Bool} {fuel : Nat} {s : σ}
  {onMesh : ObjectInfo → Mesh → Matrix3 → σ → Except Error σ}
  {onComponents : ObjectInfo → List Component → Matrix3 → σ → Except Error σ}

theorem parts_eq {d : ResourceData} (hd : m.data? r = some d) :
    m.parts r = d.components.map fun c => (c.transform, c.object) := by
  rw [parts, components_of_data? hd]

/-- What follows a visit follows it at a components object only. -/
theorem visits_parts (f : σ → Matrix3 × ResourceRef → ExceptT Error Option σ) :
    (ended (m.visits onMesh onComponents r matrix s) >>= fun s => (m.parts r).foldlM f s) =
      m.visitObject r (fun info mesh => ended (onMesh info mesh matrix s))
        (fun info cs => ended (onComponents info cs matrix s) >>= fun s =>
          cs.foldlM (fun s c => f s (c.transform, c.object)) s)
        (ended (.error .resourceTypeMismatch)) := by
  have hleaf (hp : m.parts r = []) (x : Except Error σ) :
      (ended x >>= fun s => (m.parts r).foldlM f s) = ended x := by
    rw [hp]
    cases x <;> rfl
  unfold visits visitObject
  cases hd : m.data? r with
  | none => exact hleaf (by rw [parts, components, hd]; rfl) _
  | some d =>
    cases d with
    | componentsObject info cs =>
      rw [parts_eq hd]
      simp only [ResourceData.components, List.foldlM_map]
    | _ => exact hleaf (parts_eq hd) _

theorem walk_visits :
    walk m.parts Matrix3.multiply go (m.visits onMesh onComponents) (fuel + 1) r matrix s =
      m.visitObject r (fun info mesh => ended (onMesh info mesh matrix s))
        (fun info cs => ended (onComponents info cs matrix s) >>= fun s => cs.foldlM (fun s c =>
          if go s then walk m.parts Matrix3.multiply go (m.visits onMesh onComponents) fuel c.object
            (matrix.multiply c.transform) s
          else pure s) s)
        (ended (.error .resourceTypeMismatch)) := by
  rw [walk]
  exact visits_parts _

end

/-! ## Meshes -/

/-- `mergeToMesh` without its recursion. -/
def mergeVisit (uninit : FaceProperties) (m : Model) :
    ResourceRef → Matrix3 → Mesh → Except Error Mesh :=
  m.visits (fun _ src matrix mesh => mesh.mergeMesh uninit src matrix) fun _ _ _ mesh => .ok mesh

theorem mergeToMesh_eq_walk (fuel : Nat) (r : ResourceRef) (mesh : Mesh) (matrix : Matrix3) :
    m.mergeToMesh uninit fuel r mesh matrix =
      walk m.parts Matrix3.multiply (fun _ => true) (m.mergeVisit uninit) fuel r matrix mesh := by
  induction fuel generalizing r mesh matrix with
  | zero => rfl
  | succ fuel ih =>
    rw [mergeVisit, walk_visits, ← mergeVisit]
    simp only [if_true, ← ih]
    rfl

/-- The visits of objects merge their meshes. -/
theorem foldlM_mergeVisit {l : List (ResourceRef × Matrix3)} (hl : ∀ x ∈ l, m.IsObject x.1)
    (mesh : Mesh) : l.foldlM (visitIf (fun _ => true) (m.mergeVisit uninit)) mesh =
      mesh.mergeAll uninit
        (l.filterMap fun x => ((m.data? x.1).bind ResourceData.mesh?).map (·, x.2)) := by
  induction l generalizing mesh with
  | nil => rfl
  | cons x l ih =>
    have ih := ih fun y hy => hl y (List.mem_cons_of_mem _ hy)
    obtain ⟨d, hd, ho⟩ := isObject_iff.1 (hl x List.mem_cons_self)
    rw [List.foldlM_cons, visitIf, if_pos rfl, mergeVisit, visits, visitObject, hd,
      List.filterMap_cons, hd]
    cases d with
    | meshObject info src => exact bind_congr fun mesh => ih mesh
    | componentsObject info cs => exact ih mesh
    | _ => cases ho

/-- Merging an object is merging the meshes of its tree, one after the other, with the matrices that
their components accumulate to. -/
theorem mergeToMesh_placements (hd : Descends m.References) (hm : m.ObjectsOnly) (ho : m.IsObject r) :
    ∃ n, ∀ fuel, n ≤ fuel → ∀ uninit mesh matrix, m.mergeToMesh uninit fuel r mesh matrix =
      ended (mesh.mergeAll uninit (m.placements r matrix)) := by
  obtain ⟨n, hn⟩ := walk_tree hd r
  refine ⟨n, fun fuel hf uninit mesh matrix => ?_⟩
  rw [mergeToMesh_eq_walk, hn fuel hf _ _ _ _ _ _ rfl, foldlM_mergeVisit fun x hx =>
    ((mem_tree hd).1 hx).isObject hm ho]
  rfl

/-- The meshes of all build items. -/
noncomputable def builtPlacements (m : Model) : List Mesh.Placement :=
  m.buildItems.flatMap fun b => m.placements b.object b.transform

theorem mergeBuildItems_placements (hd : Descends m.References) (hm : m.ObjectsOnly) :
    ∃ n, ∀ fuel, n ≤ fuel → ∀ uninit mesh, m.mergeBuildItems uninit fuel mesh =
      ended (mesh.mergeAll uninit m.builtPlacements) := by
  obtain ⟨n, hn⟩ := exists_depth _ fun b hb => mergeToMesh_placements hd hm (hm.items b hb)
  refine ⟨n, fun fuel hf uninit mesh => ?_⟩
  rw [mergeBuildItems, foldlM_ended fun b hb mesh => hn fuel hf b hb uninit mesh b.transform,
    Mesh.mergeAll, builtPlacements, foldlM_flatMap]
  rfl

theorem geometry_patchMeshInformationResources {mesh mesh' : Mesh} {oldToNew : Nat → Nat}
    (h : mesh.patchMeshInformationResources oldToNew = .ok mesh') : mesh'.geometry = mesh.geometry := by
  unfold Mesh.patchMeshInformationResources at h
  cases hp : mesh.properties with
  | none =>
    rw [hp] at h
    cases h
    rfl
  | some p =>
    simp only [hp, bind_eq_ok] at h
    obtain ⟨_, -, _, -, h⟩ := h
    split_ifs at h
    · cases h
    · cases h
      exact Mesh.geometry_mapProperties _

/-- **The mesh of a merged model is made of the meshes in the trees of the build items.** -/
theorem mergeToModel_geometry {calls : List Call} (h : Reaches next new calls m)
    (ha : Acyclic m.References) : ∃ n, ∀ fuel, n ≤ fuel → ∀ uninit,
      (m.mergeToModel uninit fuel).Returns ∧
      ∀ out, (m.mergeToModel uninit fuel).run = some (.ok out) → ∃ mesh,
        out.target.builtMesh? = some mesh ∧
        mesh.geometry = m.builtPlacements.foldl Mesh.Geometry.place ⟨[], [], []⟩ := by
  obtain ⟨n, hn⟩ := mergeBuildItems_placements (descends_of_acyclic ha) (objectsOnly_reaches h)
  refine ⟨n, fun fuel hf uninit => ?_⟩
  unfold mergeToModel
  rw [hn fuel hf]
  constructor
  · cases Mesh.empty.mergeAll uninit m.builtPlacements <;> rfl
  · intro out hout
    obtain ⟨mesh, hmesh, hrest⟩ := run_bind_eq_ok.1 hout
    obtain ⟨mesh', b, hp, hb, hd⟩ := (mergeMeshToModel_spec (Option.some.inj hrest)).mesh
    refine ⟨mesh', ?_, ?_⟩
    · simp only [builtMesh?, hb, hd]
      rfl
    · rw [geometry_patchMeshInformationResources hp,
        Mesh.mergeAll_geometry (Option.some.inj hmesh)]
      rfl

/-- A shift, and a quarter of a turn about the x axis. -/
def shift : Matrix3 := ⟨![![1, 0, 0, 5], ![0, 1, 0, 0], ![0, 0, 1, 1 / 2], ![0, 0, 0, 1]]⟩
def tilt : Matrix3 := ⟨![![1, 0, 0, 0], ![0, 0, -1, 0], ![0, 1, 0, 0], ![0, 0, 0, 1]]⟩

/-- A triangle with a slice stack, placed twice by one components object. -/
def placedTwice : List Call :=
  [.add (.meshObject (triangle 0)), .add .componentsObject, .add (.sliceStack (.ofRat 0)),
    .setObjectInfo 0 { ObjectInfo.new with sliceStack := some 2 }, .addComponent 1 1 shift,
    .addComponent 1 1 tilt, .addBuildItem 2 shift]

/-- Objects that refer to smaller ones only never lead back. -/
theorem acyclic_of_lt (h : ∀ r o, m.References r o → o < r) : Acyclic m.References := by
  intro r hr
  have hlt (o : ResourceRef) (ho : Relation.TransGen m.References r o) : o < r := by
    induction ho with
    | single ho => exact h _ _ ho
    | tail _ ho ih => exact (h _ _ ho).trans ih
  exact lt_irrefl r (hlt r hr)

theorem placedTwice_acyclic : Acyclic (run next new placedTwice).References := by
  refine acyclic_of_lt fun r o ⟨c, hc, hco⟩ => ?_
  by_cases hr : r < 3
  · have hall : ∀ r < 3, ∀ c ∈ (run next new placedTwice).components r, c.object < r := by
      decide +kernel
    exact hco ▸ hall r hr c hc
  · have hlen : (run next new placedTwice).store.length ≤ r := by
      rw [show (run next new placedTwice).store.length = 3 by decide +kernel]
      exact not_lt.1 hr
    rw [components, data?_of_length_le hlen] at hc
    cases hc

theorem mergeToModel_geometry_placedTwice : ∃ n, ∀ fuel, n ≤ fuel → ∀ uninit,
    ((run next new placedTwice).mergeToModel uninit fuel).Returns ∧
    ∀ out, ((run next new placedTwice).mergeToModel uninit fuel).run = some (.ok out) → ∃ mesh,
      out.target.builtMesh? = some mesh ∧ mesh.geometry =
        (run next new placedTwice).builtPlacements.foldl Mesh.Geometry.place ⟨[], [], []⟩ :=
  mergeToModel_geometry (reaches_run new placedTwice) placedTwice_acyclic

/-! ## Boxes -/

/-- `extendOutbox` without its recursion. -/
def outboxVisit (m : Model) : ResourceRef → Matrix3 → Outbox → Except Error Outbox :=
  m.visits (fun _ mesh matrix box => .ok (mesh.extendOutbox box matrix)) fun _ _ _ box => .ok box

theorem extendOutbox_eq_walk (fuel : Nat) (r : ResourceRef) (box : Outbox) (matrix : Matrix3) :
    m.extendOutbox fuel r box matrix =
      walk m.parts Matrix3.multiply (fun _ => true) m.outboxVisit fuel r matrix box := by
  induction fuel generalizing r box matrix with
  | zero => rfl
  | succ fuel ih =>
    rw [outboxVisit, walk_visits, ← outboxVisit]
    simp only [if_true, ← ih]
    rfl

theorem foldlM_outboxVisit {l : List (ResourceRef × Matrix3)} (hl : ∀ x ∈ l, m.IsObject x.1)
    (box : Outbox) : l.foldlM (visitIf (fun _ => true) m.outboxVisit) box =
      .ok ((l.filterMap fun x => ((m.data? x.1).bind ResourceData.mesh?).map (·, x.2)).foldl
        (fun box p => p.1.extendOutbox box p.2) box) := by
  induction l generalizing box with
  | nil => rfl
  | cons x l ih =>
    have ih := ih fun y hy => hl y (List.mem_cons_of_mem _ hy)
    obtain ⟨d, hd, ho⟩ := isObject_iff.1 (hl x List.mem_cons_self)
    rw [List.foldlM_cons, visitIf, if_pos rfl, outboxVisit, visits, visitObject, hd,
      List.filterMap_cons, hd]
    cases d with
    | meshObject info src => exact ih (src.extendOutbox box x.2)
    | componentsObject info cs => exact ih box
    | _ => cases ho

theorem getOutbox_placements (hd : Descends m.References) (hm : m.ObjectsOnly) :
    ∃ n, ∀ fuel, n ≤ fuel → m.getOutbox fuel = ended (.ok (m.builtPlacements.foldl
      (fun box p => p.1.extendOutbox box p.2) fnOutboxInitialize)) := by
  obtain ⟨n, hn⟩ := exists_depth _ fun (b : BuildItem) (_ : b ∈ m.buildItems) =>
    walk_tree hd b.object
  refine ⟨n, fun fuel hf => ?_⟩
  rw [getOutbox, foldlM_ended (g := fun box b => .ok ((m.placements b.object b.transform).foldl
    (fun box p => p.1.extendOutbox box p.2) box)) fun b hb box => ?_]
  · rw [builtPlacements, List.foldl_flatMap]
    congr 1
    generalize fnOutboxInitialize = box
    induction m.buildItems generalizing box with
    | nil => rfl
    | cons b l ih => exact ih _
  · rw [extendOutbox_eq_walk, hn fuel hf b hb _ _ _ _ _ _ rfl, foldlM_outboxVisit fun x hx =>
      ((mem_tree hd).1 hx).isObject hm (hm.items b hb)]
    rfl

/-- The nodes that `CMesh::extendOutbox` looks at. -/
def boxedNodes (p : Mesh.Placement) : List Vec3 :=
  if p.2.isIdentity then p.1.nodes else p.1.nodes.map p.2.apply

theorem extendOutbox_boxedNodes (p : Mesh.Placement) (box : Outbox) :
    p.1.extendOutbox box p.2 = (boxedNodes p).foldl fnOutboxMergeVector box := by
  unfold Mesh.extendOutbox boxedNodes
  split_ifs
  · rfl
  · rw [List.foldl_map]

theorem boxedNodes_eq {p : Mesh.Placement} (h : p.2.isIdentity = true → p.2 = .identity) :
    boxedNodes p = p.1.nodes.map p.2.apply := by
  unfold boxedNodes
  split_ifs with hid
  · rw [h hid, Matrix3.apply_identity, List.map_id]
  · rfl

/-- **The box of a model is the box around the nodes in the trees of the build items, and around the
nodes of the mesh that is merged from them where no matrix is an identity only nearly.** -/
theorem getOutbox_bounds_merged {calls : List Call} (h : Reaches next new calls m)
    (ha : Acyclic m.References) : ∃ n, ∀ fuel, n ≤ fuel → ∃ box,
      (m.getOutbox fuel).run = some (.ok box) ∧
      box.IsBounds (m.builtPlacements.flatMap boxedNodes) ∧
      ((∀ p ∈ m.builtPlacements, p.2.isIdentity = true → p.2 = .identity) →
        ∀ uninit mesh, (m.mergeBuildItems uninit fuel .empty).run = some (.ok mesh) →
          box.IsBounds mesh.nodes) := by
  have hd := descends_of_acyclic ha
  have hm := objectsOnly_reaches h
  obtain ⟨n₁, hn₁⟩ := getOutbox_placements hd hm
  obtain ⟨n₂, hn₂⟩ := mergeBuildItems_placements hd hm
  have hbox : (m.builtPlacements.foldl (fun box p => p.1.extendOutbox box p.2)
      fnOutboxInitialize).IsBounds (m.builtPlacements.flatMap boxedNodes) := by
    simp only [extendOutbox_boxedNodes]
    rw [← List.foldl_flatMap]
    exact Outbox.isBounds_initialize.foldl _
  refine ⟨max n₁ n₂, fun fuel hf => ⟨_, ?_, hbox, fun hid uninit mesh hmesh => ?_⟩⟩
  · rw [hn₁ fuel (le_trans (le_max_left _ _) hf)]
    rfl
  · rw [hn₂ fuel (le_trans (le_max_right _ _) hf)] at hmesh
    have hnodes : mesh.nodes = m.builtPlacements.flatMap fun p => p.1.nodes.map p.2.apply := by
      show mesh.geometry.nodes = _
      rw [Mesh.mergeAll_geometry (Option.some.inj hmesh), Mesh.Geometry.nodes_foldl_place]
      rfl
    rw [hnodes, ← List.flatMap_congr fun p hp => boxedNodes_eq (hid p hp)]
    exact hbox

theorem getOutbox_bounds_merged_placedTwice : ∃ n, ∀ fuel, n ≤ fuel → ∃ box,
    ((run next new placedTwice).getOutbox fuel).run = some (.ok box) ∧
    box.IsBounds ((run next new placedTwice).builtPlacements.flatMap boxedNodes) ∧
    ((∀ p ∈ (run next new placedTwice).builtPlacements, p.2.isIdentity = true → p.2 = .identity) →
      ∀ uninit mesh, ((run next new placedTwice).mergeBuildItems uninit fuel .empty).run =
        some (.ok mesh) → box.IsBounds mesh.nodes) :=
  getOutbox_bounds_merged (reaches_run new placedTwice) placedTwice_acyclic

/-! ## Questions about all of a tree -/

section

variable {goal : Bool} {onMesh : ObjectInfo → Mesh → Matrix3 → Except Error Bool}
  {onComponents : ObjectInfo → List Component → Matrix3 → Except Error Bool}

/-- The search with this answer at each object. -/
def asks (m : Model) (onMesh : ObjectInfo → Mesh → Matrix3 → Except Error Bool)
    (onComponents : ObjectInfo → List Component → Matrix3 → Except Error Bool)
    (r : ResourceRef) (matrix : Matrix3) : Except Error Bool :=
  m.visitObject r (fun info mesh => onMesh info mesh matrix)
    (fun info cs => onComponents info cs matrix) (.error .resourceTypeMismatch)

/-- The recursion of a search whose answer stays `goal` while there is nothing against it. -/
def searchObject (m : Model) (goal : Bool)
    (onMesh : ObjectInfo → Mesh → Matrix3 → Except Error Bool)
    (onComponents : ObjectInfo → List Component → Matrix3 → Except Error Bool)
    (fuel : Nat) (r : ResourceRef) (matrix : Matrix3) : Visit Bool :=
  walk m.parts Matrix3.multiply (· == goal)
    (m.visits (fun info mesh matrix _ => onMesh info mesh matrix)
      fun info cs matrix _ => onComponents info cs matrix) fuel r matrix goal

theorem searchObject_succ (fuel : Nat) (r : ResourceRef) (matrix : Matrix3) :
    m.searchObject goal onMesh onComponents (fuel + 1) r matrix =
      m.visitObject r (fun info mesh => .lift (onMesh info mesh matrix))
        (fun info cs => Visit.lift (onComponents info cs matrix) >>= fun found =>
          cs.foldlM (fun found c => if found == goal then
            m.searchObject goal onMesh onComponents fuel c.object (matrix.multiply c.transform)
            else pure found) found)
        (.lift (.error .resourceTypeMismatch)) := by
  unfold searchObject
  rw [walk_visits]
  congr 1
  funext info cs
  refine bind_congr fun found => ?_
  congr 1
  funext found c
  split_ifs with h
  · rw [eq_of_beq h]
  · rfl

theorem searchObject_spec (hd : Descends m.References) (r : ResourceRef) :
    ∃ n, ∀ fuel, n ≤ fuel → ∀ goal onMesh onComponents matrix,
      ((m.searchObject goal onMesh onComponents fuel r matrix).run = some (.ok goal) ↔
        ∀ o k, m.Within r matrix o k → m.asks onMesh onComponents o k = .ok goal) ∧
      ((∀ o k, m.Within r matrix o k → ∃ found, m.asks onMesh onComponents o k = .ok found) →
        ∃ found, (m.searchObject goal onMesh onComponents fuel r matrix).run =
          some (.ok found)) := by
  obtain ⟨n, hn⟩ := walk_tree hd r
  refine ⟨n, fun fuel hf goal onMesh onComponents matrix => ?_⟩
  unfold searchObject
  rw [hn fuel hf Error Bool (· == goal) _ matrix goal (beq_self_eq_true goal)]
  constructor
  · refine Option.some_inj.trans ((foldlM_search_iff (m.asks onMesh onComponents) goal).trans ?_)
    simp only [Prod.forall, mem_tree hd]
  · intro h
    obtain ⟨found, hfound⟩ := foldlM_search_ok (m.asks onMesh onComponents) goal
      (fun x hx => h x.1 x.2 ((mem_tree hd).1 hx)) goal
    exact ⟨found, congrArg some hfound⟩

end

/-- A search that has its answer keeps it. -/
theorem foldlM_found {f : Component → Visit Bool} {goal found : Bool} (h : (found == goal) = false)
    (cs : List Component) :
    cs.foldlM (fun found c => if found == goal then f c else pure found) found = pure found := by
  induction cs with
  | nil => rfl
  | cons c cs ih =>
    rw [List.foldlM_cons, if_neg (by simp [h]), pure_bind]
    exact ih

/-- The loops of the source test the answer itself. -/
theorem foldlM_search_congr {f g : Component → Visit Bool} (h : ∀ c, f c = g c)
    (cs : List Component) (valid : Bool) :
    cs.foldlM (fun valid c => if valid then f c else pure false) valid =
      cs.foldlM (fun found c => if found == true then g c else pure found) valid := by
  have hstep : (fun valid c => if valid = true then f c else pure false) =
      fun found c => if (found == true) = true then g c else pure found := by
    funext valid c
    cases valid with
    | false => rfl
    | true => exact h c
  rw [hstep]

theorem isValid_eq_search (fuel : Nat) (r : ResourceRef) (matrix : Matrix3) :
    m.isValid fuel r = m.searchObject true
      (fun info mesh _ => meshObjectIsValid info.objectType mesh) (fun _ cs _ => .ok !cs.isEmpty)
      fuel r matrix := by
  induction fuel generalizing r matrix with
  | zero => rfl
  | succ fuel ih =>
    rw [searchObject_succ, isValid, visitObject]
    cases m.data? r with
    | none => rfl
    | some d =>
      cases d with
      | componentsObject info cs =>
        cases cs with
        | nil => rfl
        | cons c cs =>
          exact foldlM_search_congr (fun c => ih c.object (matrix.multiply c.transform)) (c :: cs) true
      | _ => rfl

theorem hasSlices_eq_search (fuel : Nat) (r : ResourceRef) (matrix : Matrix3) :
    m.hasSlices fuel true r = m.searchObject false
      (fun info _ _ => .ok info.sliceStack.isSome) (fun info _ _ => .ok info.sliceStack.isSome)
      fuel r matrix := by
  induction fuel generalizing r matrix with
  | zero => rfl
  | succ fuel ih =>
    rw [searchObject_succ, hasSlices, visitObject]
    cases m.data? r with
    | none => rfl
    | some d =>
      cases d with
      | componentsObject info cs =>
        have hstep (found : Bool) (c : Component) :
            (if found then pure true else m.hasSlices fuel true c.object) =
              if (found == false) = true then m.searchObject false
                (fun info _ _ => .ok info.sliceStack.isSome)
                (fun info _ _ => .ok info.sliceStack.isSome) fuel c.object
                (matrix.multiply c.transform)
              else pure found := by
          cases found with
          | false => exact ih _ _
          | true => rfl
        dsimp only
        rw [if_pos rfl]
        cases hs : info.sliceStack.isSome with
        | true => exact (foldlM_found rfl cs).symm
        | false => exact congrArg (fun f => List.foldlM (m := Visit) f false cs) (funext₂ hstep)
      | _ => rfl

theorem isValidForSlices_eq_search (fuel : Nat) (r : ResourceRef) (matrix : Matrix3) :
    m.isValidForSlices fuel matrix r = m.searchObject true
      (fun info _ matrix => .ok (info.sliceStack.isNone || matrix.isplanar))
      (fun info _ matrix => .ok (info.sliceStack.isNone || matrix.isplanar)) fuel r matrix := by
  induction fuel generalizing r matrix with
  | zero => rfl
  | succ fuel ih =>
    rw [searchObject_succ, isValidForSlices, visitObject]
    cases m.data? r with
    | none => rfl
    | some d =>
      cases d with
      | componentsObject info cs =>
        dsimp only
        have hrest := foldlM_search_congr (fun c => ih c.object (matrix.multiply c.transform)) cs true
        cases hs : info.sliceStack with
        | none => exact hrest
        | some stack =>
          cases hp : matrix.isplanar with
          | true => exact hrest
          | false => exact (foldlM_found rfl cs).symm
      | meshObject info mesh =>
        dsimp only
        cases hs : info.sliceStack with
        | none => rfl
        | some stack => rfl
      | _ => rfl

/-- Valid apart from the objects it refers to. -/
def ValidAlone (m : Model) (o : ResourceRef) : Prop :=
  (∃ info mesh, m.data? o = some (.meshObject info mesh) ∧
    meshObjectIsValid info.objectType mesh = .ok true) ∨
  ∃ info c cs, m.data? o = some (.componentsObject info (c :: cs))

/-- An object with slices of its own. -/
def HasSliceStack (m : Model) (o : ResourceRef) : Prop :=
  ∃ d info, m.data? o = some d ∧ d.info? = some info ∧ info.sliceStack.isSome = true

theorem asks_valid_iff (matrix : Matrix3) :
    m.asks (fun info mesh _ => meshObjectIsValid info.objectType mesh) (fun _ cs _ => .ok !cs.isEmpty)
      o matrix = .ok true ↔ m.ValidAlone o := by
  unfold asks visitObject ValidAlone
  cases m.data? o with
  | none => simp
  | some d =>
    cases d with
    | componentsObject info cs => cases cs <;> simp
    | _ => simp

theorem asks_info (ho : m.IsObject o) (f : ObjectInfo → Matrix3 → Bool) (matrix : Matrix3) :
    ∃ d info, m.data? o = some d ∧ d.info? = some info ∧
      m.asks (fun info _ k => .ok (f info k)) (fun info _ k => .ok (f info k)) o matrix =
        .ok (f info matrix) := by
  obtain ⟨d, hd, ho⟩ := isObject_iff.1 ho
  cases d with
  | meshObject info mesh => exact ⟨_, info, hd, rfl, by rw [asks, visitObject, hd]⟩
  | componentsObject info cs => exact ⟨_, info, hd, rfl, by rw [asks, visitObject, hd]⟩
  | _ => cases ho

/-- **An object is valid if every object in its tree is, has slices if one of them has, and is fit
for slices if each of them that has some stays planar.** -/
theorem objectVisits_iff {calls : List Call} (h : Reaches next new calls m)
    (ha : Acyclic m.References) (ho : m.IsObject r) : ∃ n, ∀ fuel, n ≤ fuel →
      ((m.isValid fuel r).run = some (.ok true) ↔
        ∀ o, Relation.ReflTransGen m.References r o → m.ValidAlone o) ∧
      ((m.hasSlices fuel true r).run = some (.ok true) ↔
        ∃ o, Relation.ReflTransGen m.References r o ∧ m.HasSliceStack o) ∧
      ∀ matrix, (m.isValidForSlices fuel matrix r).run = some (.ok true) ↔
        ∀ o matrix', m.Within r matrix o matrix' → m.HasSliceStack o → matrix'.isplanar = true := by
  have hm := objectsOnly_reaches h
  have hpath (o : ResourceRef) :
      Relation.ReflTransGen m.References r o ↔ ∃ k, m.Within r .identity o k := by
    rw [← child_parts]
    exact (exists_leads_iff Matrix3.multiply).symm
  obtain ⟨n, hn⟩ := searchObject_spec (descends_of_acyclic ha) r
  refine ⟨n, fun fuel hf => ⟨?_, ?_, fun matrix => ?_⟩⟩
  · rw [isValid_eq_search _ _ .identity, (hn fuel hf _ _ _ _).1]
    simp only [asks_valid_iff, hpath, forall_exists_index]
  · obtain ⟨hnone, htotal⟩ := hn fuel hf false (fun info _ _ => .ok info.sliceStack.isSome)
      (fun info _ _ => .ok info.sliceStack.isSome) .identity
    have hask (o : ResourceRef) (k : Matrix3) (hw : m.Within r .identity o k) :=
      asks_info (hw.isObject hm ho) (fun info _ => info.sliceStack.isSome) k
    obtain ⟨found, hfound⟩ := htotal fun o k hw => by
      obtain ⟨d, info, -, -, h⟩ := hask o k hw
      exact ⟨_, h⟩
    rw [← hasSlices_eq_search] at hnone hfound
    have hnot : (m.hasSlices fuel true r).run = some (.ok true) ↔
        ¬ (m.hasSlices fuel true r).run = some (.ok false) := by
      rw [hfound]
      cases found <;> simp
    rw [hnot, hnone]
    push Not
    constructor
    · rintro ⟨o, k, hw, hne⟩
      obtain ⟨d, info, hd, hi, h⟩ := hask o k hw
      refine ⟨o, (hpath o).2 ⟨k, hw⟩, d, info, hd, hi, ?_⟩
      rw [h] at hne
      exact Bool.eq_true_of_not_eq_false fun hs => hne (by rw [hs])
    · rintro ⟨o, hp, d, info, hd, hi, hs⟩
      obtain ⟨k, hw⟩ := (hpath o).1 hp
      obtain ⟨d', info', hd', hi', h⟩ := hask o k hw
      cases hd.symm.trans hd'
      cases hi.symm.trans hi'
      exact ⟨o, k, hw, by rw [h, hs]; simp⟩
  · rw [isValidForSlices_eq_search, (hn fuel hf _ _ _ _).1]
    refine forall₂_congr fun o k => forall_congr' fun hw => ?_
    obtain ⟨d, info, hd, hi, h⟩ := asks_info (hw.isObject hm ho)
      (fun info k => info.sliceStack.isNone || k.isplanar) k
    rw [h]
    constructor
    · rintro hok ⟨d', info', hd', hi', hs⟩
      cases hd.symm.trans hd'
      cases hi.symm.trans hi'
      obtain ⟨stack, hstack⟩ := Option.isSome_iff_exists.1 hs
      rw [hstack] at hok
      exact Except.ok.inj hok
    · intro hplanar
      cases hs : info.sliceStack with
      | none => rfl
      | some stack =>
        rw [hplanar ⟨d, info, hd, hi, by rw [hs]; rfl⟩]
        rfl

theorem objectVisits_iff_placedTwice : ∃ n, ∀ fuel, n ≤ fuel →
    (((run next new placedTwice).isValid fuel 1).run = some (.ok true) ↔
      ∀ o, Relation.ReflTransGen (run next new placedTwice).References 1 o →
        (run next new placedTwice).ValidAlone o) ∧
    (((run next new placedTwice).hasSlices fuel true 1).run = some (.ok true) ↔
      ∃ o, Relation.ReflTransGen (run next new placedTwice).References 1 o ∧
        (run next new placedTwice).HasSliceStack o) ∧
    ∀ matrix, ((run next new placedTwice).isValidForSlices fuel matrix 1).run = some (.ok true) ↔
      ∀ o matrix', (run next new placedTwice).Within 1 matrix o matrix' →
        (run next new placedTwice).HasSliceStack o → matrix'.isplanar = true :=
  objectVisits_iff (reaches_run new placedTwice) placedTwice_acyclic
    (by unfold IsObject; decide +kernel)

end Model

end NMR
