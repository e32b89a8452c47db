import TuxStack.Docker.ImageList
import TuxStack.Lib.SortedKeys

/-!
# The order of the list of images

What `list_images_inner` of `crates/docker-core/src/services/images.rs` returns. The values
of a hash map come out in any order, and the sort forgets that order just when its three keys
tell the images apart (`imageList_iff`).
-/

namespace TuxStack.Docker

open Gui Assoc SortedKeys Std

/-! ## The sort -/

def imageLe (a b : ImageSummary) : Bool := (compareImages a b).isLE

instance : TransCmp compareImages :=
  have _ : TransCmp fun a b : ImageSummary => compare b.inUse a.inUse :=
    inferInstanceAs (TransCmp fun a b => compareOn ImageSummary.inUse b a)
  have _ : TransCmp fun a b : ImageSummary => compare b.createdAt a.createdAt :=
    inferInstanceAs (TransCmp fun a b => compareOn ImageSummary.createdAt b a)
  have _ : TransCmp fun a b : ImageSummary => compare a.displayName b.displayName :=
    inferInstanceAs (TransCmp (compareOn ImageSummary.displayName))
  inferInstanceAs (TransCmp (compareLex (fun a b : ImageSummary => compare b.inUse a.inUse)
    (compareLex (fun a b => compare b.createdAt a.createdAt)
      fun a b => compare a.displayName b.displayName)))

theorem imageLe_trans (a b c : ImageSummary) (hab : imageLe a b = true) (hbc : imageLe b c = true) :
    imageLe a c = true := by
  unfold imageLe at *
  exact TransCmp.isLE_trans hab hbc

theorem compareImages_swap (a b : ImageSummary) :
    compareImages b a = (compareImages a b).swap :=
  OrientedCmp.eq_swap

theorem imageLe_total (a b : ImageSummary) : (imageLe a b || imageLe b a) = true := by
  unfold imageLe
  rw [compareImages_swap a b]
  cases compareImages a b <;> rfl

/-- **Images that are each before the other** agree in the three keys. -/
theorem imageLe_both_iff {a b : ImageSummary} : imageLe a b = true ∧ imageLe b a = true ↔
    a.inUse = b.inUse ∧ a.createdAt = b.createdAt ∧ a.displayName = b.displayName := by
  have heq : imageLe a b = true ∧ imageLe b a = true ↔ compareImages a b = .eq := by
    unfold imageLe
    rw [compareImages_swap a b]
    cases compareImages a b <;> simp
  rw [heq]
  unfold compareImages
  rw [Ordering.then_eq_eq, Ordering.then_eq_eq, LawfulEqOrd.compare_eq_iff_eq,
    LawfulEqOrd.compare_eq_iff_eq, LawfulEqOrd.compare_eq_iff_eq, eq_comm,
    eq_comm (a := b.createdAt)]

/-! ## What the list says -/

def Used (containers : List ContainerSummary) (key : String) : Prop :=
  ∃ container ∈ containers, normalizeImageId container.imageId = key

/-- A summary with the references among the entries of its image, the largest of their sizes,
where a negative one counts as nothing, and with the use that containers make of the image. -/
structure DescribesImage (images : List BollardImageSummary) (containers : List ContainerSummary)
    (s : ImageSummary) : Prop where
  nodup_tags : s.repoTags.Nodup
  mem_tags : ∀ tag, tag ∈ s.repoTags ↔
    isReference tag = true ∧
      ∃ image ∈ entriesOf images (normalizeImageId s.id), tag ∈ image.repoTags
  nodup_digests : s.repoDigests.Nodup
  mem_digests : ∀ digest, digest ∈ s.repoDigests ↔ isReference digest = true ∧
    ∃ image ∈ entriesOf images (normalizeImageId s.id), digest ∈ image.repoDigests
  size : IsGreatest
    {size | ∃ image ∈ entriesOf images (normalizeImageId s.id), size = image.size.toNat} s.sizeBytes
  inUse_iff : s.inUse = true ↔ Used containers (normalizeImageId s.id)

/-- A list with every normalized id once. -/
structure ListsImages (images : List BollardImageSummary) (containers : List ContainerSummary)
    (listed : List ImageSummary) : Prop where
  ids : (listed.map fun s => normalizeImageId s.id).Perm
    (images.map fun image => normalizeImageId image.id).dedup
  describes : ∀ s ∈ listed, DescribesImage images containers s

section Listing

variable [Timestamps]

/-- The list says what it should, and it is the same in every order of iteration. -/
def ImageListStable (images : List BollardImageSummary) (containers : List ContainerSummary) :
    Prop :=
  ∃ listed, ListsImages images containers listed ∧
    ∀ order : IterationOrder ImageSummary, listImages order images containers = some listed

/-- The three keys of the sort tell the images apart, and the ids are ones that the merging
can take: they have a short id and stay as they are when they are normalized again, and
containers without an image are not taken for users of an image without an id. -/
structure Regular (images : List BollardImageSummary) (containers : List ContainerSummary) :
    Prop where
  shortIds : ShortIds images
  normalized : ∀ image ∈ images,
    normalizeImageId (normalizeImageId image.id) = normalizeImageId image.id
  named : ∀ image ∈ images, normalizeImageId image.id = "" → ¬ Used containers ""
  distinct : ∀ a ∈ images, ∀ b ∈ images,
    (Used containers (normalizeImageId a.id) ↔ Used containers (normalizeImageId b.id)) →
      firstCreated (entriesOf images (normalizeImageId a.id)) =
        firstCreated (entriesOf images (normalizeImageId b.id)) →
      (firstTag (entriesOf images (normalizeImageId a.id))).getD "<none>:<none>" =
        (firstTag (entriesOf images (normalizeImageId b.id))).getD "<none>:<none>" →
      normalizeImageId a.id = normalizeImageId b.id

variable {images : List BollardImageSummary} {containers : List ContainerSummary}
  {unique : AList fun _ : String => ImageSummary}

variable {s : ImageSummary} {key : String}

omit [Timestamps] in
theorem mem_entriesOf {image : BollardImageSummary} :
    image ∈ entriesOf images key ↔ image ∈ images ∧ normalizeImageId image.id = key := by
  simp [entriesOf]

theorem Merges.normalize_id (h : Merges (entriesOf images key) s) :
    normalizeImageId s.id = normalizeImageId key := by
  obtain ⟨first, hfirst, hid⟩ := h.id_eq
  have hkey := (mem_entriesOf.mp (List.mem_of_head? hfirst)).2
  rw [hid, normalize_canonicalImageId, hkey]

theorem Merges.displayName {entries : List BollardImageSummary} (h : Merges entries s) :
    s.displayName = (firstTag entries).getD "<none>:<none>" := by
  rw [h.displayName_eq, Docker.displayName, h.head_tags]

theorem Merged.mem_keys (h : Merged images unique) :
    key ∈ unique.keys ↔ ∃ image ∈ images, normalizeImageId image.id = key := by
  rw [← AList.mem_keys, ← AList.lookup_isSome]
  rcases h key with ⟨hnone, hempty⟩ | ⟨s, hsome, hs⟩
  · rw [hnone]
    simp only [Option.isSome_none, Bool.false_eq_true, false_iff]
    rintro ⟨image, himage⟩
    have hmem := mem_entriesOf.mpr himage
    rw [hempty] at hmem
    cases hmem
  · rw [hsome]
    simp only [Option.isSome_some, true_iff]
    obtain ⟨first, hfirst, -⟩ := hs.id_eq
    exact ⟨first, mem_entriesOf.mp (List.mem_of_head? hfirst)⟩

theorem Merged.keys_perm (h : Merged images unique) :
    unique.keys.Perm (images.map fun image => normalizeImageId image.id).dedup := by
  rw [List.perm_ext_iff_of_nodup unique.keys_nodup (List.nodup_dedup _)]
  intro key
  rw [h.mem_keys, List.mem_dedup, List.mem_map]

theorem Merged.map_normalize (h : Merged images unique) :
    ((values unique).map fun s => normalizeImageId s.id) = unique.keys.map normalizeImageId := by
  rw [values_eq_filterMap, List.map_filterMap, ← List.filterMap_eq_map]
  refine List.filterMap_congr fun key hkey => ?_
  rcases h key with ⟨hnone, -⟩ | ⟨s, hsome, hs⟩
  · exact absurd hkey (AList.lookup_eq_none.mp hnone)
  · rw [hsome, Option.map_some, hs.normalize_id]
    rfl

theorem Merged.exists_of_mem_values (h : Merged images unique) (hs : s ∈ values unique) :
    ∃ key, unique.lookup key = some s ∧
      Merges (entriesOf images key) s := by
  obtain ⟨key, hkey⟩ := exists_lookup_of_mem_values hs
  rcases h key with ⟨hnone, -⟩ | ⟨s', hsome, hmerges⟩
  · rw [hnone] at hkey
    cases hkey
  · rw [hkey] at hsome
    obtain rfl := Option.some.inj hsome
    exact ⟨key, hkey, hmerges⟩

omit [Timestamps] in
/-- Ids that are as many characters when they are normalized are normalized already. -/
theorem length_eq_of_perm {keys : List String} (h : (keys.map normalizeImageId).Perm keys) :
    ∀ key ∈ keys, (normalizeImageId key).length = key.length := by
  have hsum : ∀ l : List String,
      ((l.map normalizeImageId).map String.length).sum = (l.map String.length).sum →
      ∀ key ∈ l, (normalizeImageId key).length = key.length := by
    intro l
    have hle : ∀ l : List String,
        ((l.map normalizeImageId).map String.length).sum ≤ (l.map String.length).sum := by
      intro l
      induction l with
      | nil => exact Nat.le_refl _
      | cons key l ih =>
        simp only [List.map_cons, List.sum_cons]
        exact Nat.add_le_add (length_normalizeImageId_le key) ih
    induction l with
    | nil => simp
    | cons key l ih =>
      intro heq
      simp only [List.map_cons, List.sum_cons] at heq
      have hkey := length_normalizeImageId_le key
      have hrest := hle l
      refine List.forall_mem_cons.mpr ⟨by omega, ih (by omega)⟩
  exact hsum keys (h.map String.length).sum_eq

variable {listed : List ImageSummary} {order : IterationOrder ImageSummary}

theorem Merged.perm_of_listImages (h : Merged images unique)
    (hunique : images.foldlM mergeEntry ∅ = some unique)
    (hlisted : listImages order images containers = some listed) :
    (listed.map fun s => normalizeImageId s.id).Perm (unique.keys.map normalizeImageId) := by
  unfold listImages mapImageSummaries at hlisted
  rw [hunique] at hlisted
  obtain rfl := Option.some.inj hlisted
  have hids := map_id_associate (refsByImageId containers) (order.visit (values unique))
  have hnormalized := congrArg (List.map normalizeImageId) hids
  rw [List.map_map, List.map_map] at hnormalized
  rw [← h.map_normalize]
  refine ((List.mergeSort_perm _ _).map _).trans ?_
  show (List.map (normalizeImageId ∘ ImageSummary.id) _).Perm _
  rw [hnormalized]
  exact (order.perm _).map _

/-- **Each id once** means that no id changes when it is normalized again. -/
theorem Merged.normalized_of_ids (h : Merged images unique)
    (hunique : images.foldlM mergeEntry ∅ = some unique)
    (hlisted : listImages order images containers = some listed)
    (hids : (listed.map fun s => normalizeImageId s.id).Perm
      (images.map fun image => normalizeImageId image.id).dedup) : ∀ image ∈ images,
      normalizeImageId (normalizeImageId image.id) = normalizeImageId image.id := by
  intro image himage
  have hkeys := (h.perm_of_listImages hunique hlisted).symm.trans (hids.trans h.keys_perm.symm)
  exact normalizeImageId_eq_of_length
    (length_eq_of_perm hkeys _ (h.mem_keys.mpr ⟨image, himage, rfl⟩))

section Normalized

variable (h : Merged images unique)
  (hn : ∀ image ∈ images, normalizeImageId (normalizeImageId image.id) = normalizeImageId image.id)
include h hn

theorem Merged.map_keys : unique.keys.map normalizeImageId = unique.keys := by
  conv_rhs => rw [← List.map_id unique.keys]
  refine List.map_congr_left fun key hkey => ?_
  obtain ⟨image, himage, rfl⟩ := h.mem_keys.mp hkey
  exact hn image himage

theorem Merged.merges_of_mem {s : ImageSummary} (hs : s ∈ values unique) :
    unique.lookup (normalizeImageId s.id) = some s ∧
      Merges (entriesOf images (normalizeImageId s.id)) s := by
  obtain ⟨key, hkey, hmerges⟩ := h.exists_of_mem_values hs
  obtain ⟨first, hfirst, -⟩ := hmerges.id_eq
  obtain ⟨himage, rfl⟩ := mem_entriesOf.mp (List.mem_of_head? hfirst)
  rw [hmerges.normalize_id, hn first himage]
  exact ⟨hkey, hmerges⟩

theorem Merged.nodup_ids {other : List ImageSummary} (hother : other.Perm (values unique)) :
    (other.map fun s => normalizeImageId s.id).Nodup := by
  rw [(hother.map _).nodup_iff, h.map_normalize, h.map_keys hn]
  exact unique.keys_nodup

/-- **The list** when every image has the id of its key. -/
theorem Merged.listImages_eq (hunique : images.foldlM mergeEntry ∅ = some unique)
    (containers : List ContainerSummary) (order : IterationOrder ImageSummary) :
    listImages order images containers = some (((order.visit (values unique)).map
      (ImageSummary.attach (refsByImageId containers))).mergeSort imageLe) := by
  unfold listImages mapImageSummaries
  rw [hunique, ← associate_eq_map (h.nodup_ids hn (order.perm _))]
  rfl

omit h hn [Timestamps] in
theorem exists_order {α : Type} {visited l : List α} (hperm : visited.Perm l) :
    ∃ order : IterationOrder α, order.visit l = visited := by
  classical
  refine ⟨⟨fun other => if other = l then visited else other, fun other => ?_⟩, if_pos rfl⟩
  split
  · next heq => exact heq ▸ hperm
  · exact List.Perm.refl other

theorem Merged.eq_of_attach {refs : References} {a b : ImageSummary} (ha : a ∈ values unique)
    (hb : b ∈ values unique) (heq : a.attach refs = b.attach refs) : a = b := by
  have hid : a.id = b.id := by rw [← attach_id refs a, heq, attach_id]
  have hlookup := (h.merges_of_mem hn ha).1
  rw [hid, (h.merges_of_mem hn hb).1] at hlookup
  exact (Option.some.inj hlookup).symm

theorem Merged.exists_summary {image : BollardImageSummary} (himage : image ∈ images) :
    ∃ s ∈ values unique, normalizeImageId s.id = normalizeImageId image.id := by
  have hmem : normalizeImageId image.id ∈ unique.keys := h.mem_keys.mpr ⟨image, himage, rfl⟩
  rw [← h.map_keys hn, ← h.map_normalize, List.mem_map] at hmem
  exact hmem

/-- **The same list in every order** of iteration. -/
theorem Merged.order_iff (hunique : images.foldlM mergeEntry ∅ = some unique)
    (containers : List ContainerSummary) :
    (∃ listed, ∀ order, listImages order images containers = some listed) ↔
      ∀ a ∈ values unique, ∀ b ∈ values unique,
        (a.attach (refsByImageId containers)).inUse = (b.attach (refsByImageId containers)).inUse →
        a.createdAt = b.createdAt → a.displayName = b.displayName → a = b := by
  have hnodup : ((values unique).map (ImageSummary.attach (refsByImageId containers))).Nodup := by
    have hids := h.nodup_ids hn (List.Perm.refl _)
    have hmap : ((values unique).map (ImageSummary.attach (refsByImageId containers))).map
        (fun s => normalizeImageId s.id) = (values unique).map fun s => normalizeImageId s.id := by
      rw [List.map_map]
      rfl
    rw [← hmap] at hids
    exact hids.of_map _
  have hties := mergeSort_map_eq_iff imageLe_trans imageLe_total hnodup
  have horders : (∃ listed, ∀ order, listImages order images containers = some listed) ↔
      ∀ other : List ImageSummary, other.Perm (values unique) →
        (other.map (ImageSummary.attach (refsByImageId containers))).mergeSort imageLe =
          ((values unique).map (ImageSummary.attach (refsByImageId containers))).mergeSort
            imageLe := by
    constructor
    · rintro ⟨listed, hlisted⟩ other hother
      obtain ⟨order, hvisit⟩ := exists_order hother
      obtain ⟨first, hfirst⟩ := exists_order (List.Perm.refl (values unique))
      have hleft := h.listImages_eq hn hunique containers order
      have hright := h.listImages_eq hn hunique containers first
      rw [hlisted, hvisit] at hleft
      rw [hlisted, hfirst] at hright
      exact Option.some.inj (hleft.symm.trans hright)
    · intro hsame
      refine ⟨((values unique).map (ImageSummary.attach (refsByImageId containers))).mergeSort
        imageLe, fun order => ?_⟩
      rw [h.listImages_eq hn hunique, hsame _ (order.perm _)]
  rw [horders, hties]
  constructor
  · intro hall a ha b hb hused hcreated hname
    have hle := imageLe_both_iff.mpr (show (a.attach _).inUse = (b.attach _).inUse ∧
      (a.attach (refsByImageId containers)).createdAt =
        (b.attach (refsByImageId containers)).createdAt ∧
      (a.attach (refsByImageId containers)).displayName =
        (b.attach (refsByImageId containers)).displayName from ⟨hused, hcreated, hname⟩)
    exact h.eq_of_attach hn ha hb (hall a ha b hb hle.1 hle.2)
  · intro hall a ha b hb hab hba
    obtain ⟨hused, hcreated, hname⟩ := imageLe_both_iff.mp ⟨hab, hba⟩
    rw [hall a ha b hb hused hcreated hname]

end Normalized

theorem Merged.describes (h : Merged images unique) (hn : ∀ image ∈ images,
      normalizeImageId (normalizeImageId image.id) = normalizeImageId image.id)
    (hnamed : ∀ image ∈ images, normalizeImageId image.id = "" → ¬ Used containers "")
    (hs : s ∈ values unique) :
    DescribesImage images containers (s.attach (refsByImageId containers)) := by
  have hmerges := (h.merges_of_mem hn hs).2
  constructor
  case nodup_tags => exact hmerges.nodup_tags
  case mem_tags => exact hmerges.mem_tags
  case nodup_digests => exact hmerges.nodup_digests
  case mem_digests => exact hmerges.mem_digests
  case size => exact hmerges.size
  case inUse_iff =>
    rw [attach_inUse]
    refine ⟨And.right, fun hused => ⟨fun hempty => ?_, hused⟩⟩
    obtain ⟨first, hfirst, -⟩ := hmerges.id_eq
    obtain ⟨himage, hkey⟩ := mem_entriesOf.mp (List.mem_of_head? hfirst)
    exact hnamed first himage (hkey.trans hempty) (hempty ▸ hused)

omit [Timestamps] in
theorem DescribesImage.attach_inUse {refs : References}
    (h : DescribesImage images containers (s.attach refs)) :
    (s.attach refs).inUse = true ↔ Used containers (normalizeImageId s.id) := by
  have hused := h.inUse_iff
  rwa [attach_id] at hused

/-- **A list that is right in every order** is one of regular entries. -/
theorem regular_of_stable (h : ImageListStable images containers) : Regular images containers := by
  obtain ⟨listed, hlists, horder⟩ := h
  rcases foldlM_mergeEntry images with ⟨unique, hunique, hmerged, hids⟩ | ⟨hnone, -⟩
  case inr =>
    obtain ⟨order, -⟩ := exists_order (List.Perm.refl ([] : List ImageSummary))
    have hlisted := horder order
    unfold listImages mapImageSummaries at hlisted
    rw [hnone] at hlisted
    cases hlisted
  obtain ⟨order, hvisit⟩ := exists_order (List.Perm.refl (values unique))
  have hn := hmerged.normalized_of_ids hunique (horder order) hlists.ids
  have hdescribes : ∀ s ∈ values unique,
      DescribesImage images containers (s.attach (refsByImageId containers)) := by
    intro s hs
    have hlisted := horder order
    rw [hmerged.listImages_eq hn hunique, hvisit] at hlisted
    refine hlists.describes _ ?_
    rw [← Option.some.inj hlisted, List.mem_mergeSort]
    exact List.mem_map_of_mem hs
  have hinUse := fun s (hs : s ∈ values unique) => (hdescribes s hs).attach_inUse
  constructor
  case shortIds => exact hids
  case normalized => exact hn
  case named =>
    intro image himage hempty hused
    obtain ⟨s, hs, hkey⟩ := hmerged.exists_summary hn himage
    have hname : normalizeImageId s.id = "" := hkey.trans hempty
    have hattached := (hinUse s hs).mpr (hname ▸ hused)
    exact (attach_inUse.mp hattached).1 hname
  case distinct =>
    intro a ha b hb hused hcreated htag
    obtain ⟨s, hs, hkey⟩ := hmerged.exists_summary hn ha
    obtain ⟨t, ht, hkey'⟩ := hmerged.exists_summary hn hb
    have hmerges := (hmerged.merges_of_mem hn hs).2
    have hmerges' := (hmerged.merges_of_mem hn ht).2
    rw [← hkey, ← hkey'] at hused hcreated htag ⊢
    have heq : s = t := by
      apply (hmerged.order_iff hn hunique containers).mp ⟨listed, horder⟩ s hs t ht
      · rw [Bool.eq_iff_iff, hinUse s hs, hinUse t ht]
        exact hused
      · rw [hmerges.createdAt_eq, hmerges'.createdAt_eq]
        exact hcreated
      · rw [hmerges.displayName, hmerges'.displayName]
        exact htag
    rw [heq]

/-- **Regular entries** are listed right in every order. -/
theorem stable_of_regular (h : Regular images containers) : ImageListStable images containers := by
  rcases foldlM_mergeEntry images with ⟨unique, hunique, hmerged, -⟩ | ⟨-, hids⟩
  case inr => exact absurd h.shortIds hids
  have hn := h.normalized
  have hdescribes : ∀ s ∈ values unique,
      DescribesImage images containers (s.attach (refsByImageId containers)) :=
    fun s hs => hmerged.describes hn h.named hs
  have hinUse := fun s (hs : s ∈ values unique) => (hdescribes s hs).attach_inUse
  obtain ⟨listed, horder⟩ := (hmerged.order_iff hn hunique containers).mpr <| by
    intro s hs t ht hused hcreated htag
    obtain ⟨key, hkey, hmerges⟩ := hmerged.exists_of_mem_values hs
    obtain ⟨key', hkey', hmerges'⟩ := hmerged.exists_of_mem_values ht
    obtain ⟨a, ha, -⟩ := hmerges.id_eq
    obtain ⟨b, hb, -⟩ := hmerges'.id_eq
    obtain ⟨haimage, rfl⟩ := mem_entriesOf.mp (List.mem_of_head? ha)
    obtain ⟨hbimage, rfl⟩ := mem_entriesOf.mp (List.mem_of_head? hb)
    have hs_id := hmerges.normalize_id.trans (hn a haimage)
    have ht_id := hmerges'.normalize_id.trans (hn b hbimage)
    have hsame : normalizeImageId a.id = normalizeImageId b.id := by
      apply h.distinct a haimage b hbimage
      · rw [← hs_id, ← ht_id]
        rw [← hinUse s hs, ← hinUse t ht, hused]
      · rw [← hmerges.createdAt_eq, ← hmerges'.createdAt_eq]
        exact hcreated
      · rw [← hmerges.displayName, ← hmerges'.displayName]
        exact htag
    rw [hsame, hkey'] at hkey
    exact (Option.some.inj hkey).symm
  refine ⟨listed, ⟨?_, fun s hs => ?_⟩, horder⟩
  · obtain ⟨order, -⟩ := exists_order (List.Perm.refl (values unique))
    have hperm := hmerged.perm_of_listImages hunique (horder order)
    rw [hmerged.map_keys hn] at hperm
    exact hperm.trans hmerged.keys_perm
  · obtain ⟨order, hvisit⟩ := exists_order (List.Perm.refl (values unique))
    have hlisted := horder order
    rw [hmerged.listImages_eq hn hunique, hvisit] at hlisted
    rw [← Option.some.inj hlisted, List.mem_mergeSort] at hs
    obtain ⟨summary, hsummary, rfl⟩ := List.mem_map.mp hs
    exact hdescribes summary hsummary

/-- **The list of images** is right and the same in every order just for entries that are
regular. -/
theorem imageList_iff (images : List BollardImageSummary) (containers : List ContainerSummary) :
    ImageListStable images containers ↔ Regular images containers :=
  ⟨regular_of_stable, stable_of_regular⟩

end Listing

/-! ## Two images without a tag -/

def danglingImage (id : String) : BollardImageSummary where
  id := id
  repoTags := ["<none>:<none>"]
  repoDigests := []
  created := 1700000000
  size := 100
  sharedSize := -1
  labels := ∅

/-- Two images of one build, neither of which has a tag or a container: nothing that is
compared tells which is first. -/
theorem dangling_images : ¬ @ImageListStable ⟨some⟩
    [danglingImage "sha256:aa", danglingImage "sha256:bb"] [] := by
  intro h
  let _ : Timestamps := ⟨some⟩
  have hregular := regular_of_stable h
  have hsame := hregular.distinct (danglingImage "sha256:aa") (by simp)
    (danglingImage "sha256:bb") (by simp) (by simp [Used]) (by decide +kernel) (by decide +kernel)
  revert hsame
  decide +kernel

end TuxStack.Docker
