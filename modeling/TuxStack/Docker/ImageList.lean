import Mathlib
import TuxStack.Gui.Compose
import TuxStack.Lib.AssocList

/-!
# The list of images

`map_image_summaries` of `crates/docker-core/src/mapping/images.rs` and the sort of
`list_images_inner` in `services/images.rs`, without its search. The entries of Docker are
merged by their normalized id in a hash map, whose values come out in an order of its own.
Here is what the map says about the entries (`Merged`), and which references an image takes.
-/

namespace TuxStack.Docker

open Gui Assoc Std

/-! ## Image ids -/

/-- `str::strip_prefix`. -/
def stripPrefix (start text : String) : Option String :=
  (text.toList.dropPrefix? start.toList).map String.ofList

def normalizeImageId (id : String) : String :=
  let trimmed := trim id
  asciiLowercase
    (((stripPrefix "sha256:" trimmed).or (stripPrefix "sha256-" trimmed)).getD trimmed)

/-- `u8::is_ascii_hexdigit`; the other bytes of a text belong to no such digit. -/
def isAsciiHexdigit (c : Char) : Bool :=
  c.isDigit || ('a' ≤ c && c ≤ 'f') || ('A' ≤ c && c ≤ 'F')

def canonicalImageId (id : String) : String :=
  let normalized := normalizeImageId id
  if normalized.length = 64 ∧ normalized.toList.all isAsciiHexdigit then "sha256:" ++ normalized
  else normalized

/-- The characters of the first `n` bytes, unless the last of them is cut. -/
def takeBytes : Nat → List Char → Option (List Char)
  | 0, _ => some []
  | _ + 1, [] => none
  | n + 1, c :: text =>
    if c.utf8Size ≤ n + 1 then (takeBytes (n + 1 - c.utf8Size) text).map (c :: ·) else none

/-- `short_id`, `none` where the slice panics within a character. -/
def shortId (id : String) : Option String :=
  let id := (stripPrefix "sha256:" id).getD id
  let id := (stripPrefix "sha256-" id).getD id
  if 12 < id.utf8ByteSize then (takeBytes 12 id.toList).map String.ofList else some id

/-! ## Entries and summaries -/

/-- The entry of a list as Docker sends it. The labels are in the map in which they are
collected: those of one entry have distinct keys. -/
structure BollardImageSummary where
  id : String
  repoTags : List String
  repoDigests : List String
  created : Int
  size : Int
  sharedSize : Int
  labels : TreeMap String String

structure ImageContainerReference where
  id : String
  shortId : String
  name : String
  state : ContainerRuntimeState
  status : String
  createdAt : Option Int

structure ImageSummary where
  id : String
  shortId : String
  repoTags : List String
  repoDigests : List String
  displayName : String
  createdAt : Option Int
  sizeBytes : Nat
  sharedSizeBytes : Option Nat
  virtualSizeBytes : Option Nat
  labels : TreeMap String String
  containers : List ImageContainerReference
  inUse : Bool

/-- What the filter of `valid_references` lets through. -/
def isReference (value : String) : Bool :=
  value ≠ "" && value ≠ "<none>:<none>" && value ≠ "<none>@<none>"

/-- Adds what is not there yet. -/
def pushNew (values : List String) (value : String) : List String :=
  if value ∈ values then values else values ++ [value]

def validReferences (values : List String) : List String :=
  (values.filter isReference).foldl pushNew []

def displayName (repoTags : List String) : String := repoTags.head?.getD "<none>:<none>"

def positive (value : Int) : Option Nat := if 0 ≤ value then some value.toNat else none

/-- `created_at`: the seconds, where `Utc.timestamp_opt` has such a time. -/
class Timestamps where
  timestampOpt : Int → Option Int

section

variable [Timestamps]

def newSummary (image : BollardImageSummary) : Option ImageSummary :=
  (shortId image.id).map fun shortId =>
    { id := canonicalImageId image.id
      shortId
      repoTags := validReferences image.repoTags
      repoDigests := validReferences image.repoDigests
      displayName := displayName (validReferences image.repoTags)
      createdAt := Timestamps.timestampOpt image.created
      sizeBytes := (positive image.size).getD 0
      sharedSizeBytes := positive image.sharedSize
      virtualSizeBytes := none
      labels := image.labels
      containers := []
      inUse := false }

def ImageSummary.modify (current : ImageSummary) (image : BollardImageSummary) : ImageSummary :=
  let repoTags := (validReferences image.repoTags).foldl pushNew current.repoTags
  { current with
    repoTags
    repoDigests := (validReferences image.repoDigests).foldl pushNew current.repoDigests
    labels := image.labels.foldl (fun labels key value => labels.insert key value) current.labels
    sizeBytes := max current.sizeBytes ((positive image.size).getD 0)
    sharedSizeBytes := current.sharedSizeBytes.or (positive image.sharedSize)
    createdAt := current.createdAt.or (Timestamps.timestampOpt image.created)
    displayName := Docker.displayName repoTags }

def mergeEntry (unique : AList fun _ : String => ImageSummary) (image : BollardImageSummary) :
    Option (AList fun _ : String => ImageSummary) :=
  let key := normalizeImageId image.id
  match unique.lookup key with
  | some current => some (unique.insert key (current.modify image))
  | none => (newSummary image).map fun summary => unique.insert key summary

end

/-! ## Containers -/

def ImageContainerReference.fromSummary (container : ContainerSummary) :
    ImageContainerReference where
  id := container.id
  shortId := container.shortId
  name := container.name
  state := container.state
  status := container.status
  createdAt := some container.createdAt

def referenceLe (a b : ImageContainerReference) : Bool :=
  ((compare a.name b.name).then (compare a.id b.id)).isLE

/-- The references to an image after the sort, each id once among its neighbours. -/
def sortReferences (references : List ImageContainerReference) : List ImageContainerReference :=
  (references.mergeSort referenceLe).destutter fun kept next => next.id ≠ kept.id

abbrev References := AList fun _ : String => List ImageContainerReference

def addReference (refs : References) (container : ContainerSummary) : References :=
  let imageId := normalizeImageId container.imageId
  if imageId = "" then refs
  else refs.insert imageId
    ((refs.lookup imageId).getD [] ++ [ImageContainerReference.fromSummary container])

def refsByImageId (containers : List ContainerSummary) : References :=
  mapValues sortReferences (containers.foldl addReference ∅)

def associate : References → List ImageSummary → List ImageSummary
  | _, [] => []
  | refs, image :: images =>
    let key := normalizeImageId image.id
    let containers := (refs.lookup key).getD []
    { image with containers, inUse := !containers.isEmpty } :: associate (refs.erase key) images

/-! ## The list -/

/-- The order in which a hash map yields its values. -/
structure IterationOrder (α : Type) where
  visit : List α → List α
  perm : ∀ l, (visit l).Perm l

def mapImageSummaries [Timestamps] (order : IterationOrder ImageSummary)
    (images : List BollardImageSummary) (containers : List ContainerSummary) :
    Option (List ImageSummary) :=
  (images.foldlM mergeEntry ∅).map fun unique =>
    associate (refsByImageId containers) (order.visit (values unique))

def compareImages (a b : ImageSummary) : Ordering :=
  (compare b.inUse a.inUse).then
    ((compare b.createdAt a.createdAt).then (compare a.displayName b.displayName))

def listImages [Timestamps] (order : IterationOrder ImageSummary)
    (images : List BollardImageSummary) (containers : List ContainerSummary) :
    Option (List ImageSummary) :=
  (mapImageSummaries order images containers).map fun mapped =>
    mapped.mergeSort fun a b => (compareImages a b).isLE

/-! ## Ids that are normalized twice -/

/-- What is left of a trimmed id without its prefix. -/
def bareImageId (trimmed : String) : String :=
  ((stripPrefix "sha256:" trimmed).or (stripPrefix "sha256-" trimmed)).getD trimmed

theorem normalizeImageId_eq (id : String) :
    normalizeImageId id = asciiLowercase (bareImageId (trim id)) := rfl

theorem toLower_toLower (c : Char) : c.toLower.toLower = c.toLower := by
  by_cases h : c.val ≥ 'A'.val ∧ c.val ≤ 'Z'.val
  · have hlower : c.toLower.val = c.val + 32 := by
      rw [Char.toLower, dif_pos h]
      rfl
    have hbound : ¬ (c.toLower.val ≥ 'A'.val ∧ c.toLower.val ≤ 'Z'.val) := by
      rw [hlower]
      simp only [ge_iff_le, UInt32.le_iff_toNat_le, UInt32.toNat_add] at h ⊢
      simp at h ⊢
      omega
    exact dif_neg hbound
  · have hsame : c.toLower = c := dif_neg h
    rw [hsame, hsame]

theorem asciiLowercase_idem (text : String) :
    asciiLowercase (asciiLowercase text) = asciiLowercase text := by
  have htwice : Char.toLower ∘ Char.toLower = Char.toLower := by
    funext c
    exact toLower_toLower c
  unfold asciiLowercase
  rw [String.toList_ofList, List.map_map, htwice]

theorem length_asciiLowercase (text : String) : (asciiLowercase text).length = text.length := by
  unfold asciiLowercase
  rw [String.length_ofList, List.length_map, String.length_toList]

variable {key text : String} {containers : List ContainerSummary}

theorem length_of_stripPrefix {start rest : String} (h : stripPrefix start text = some rest) :
    text.length = start.length + rest.length := by
  obtain ⟨chars, hchars, rfl⟩ := Option.map_eq_some_iff.mp h
  obtain ⟨found, htext, hfound⟩ := List.dropPrefix?_eq_some_iff.mp hchars
  rw [← String.length_toList, htext, List.length_append, eq_of_beq hfound, String.length_ofList,
    String.length_toList]

theorem bareImageId_cases (trimmed : String) :
    bareImageId trimmed = trimmed ∨ (bareImageId trimmed).length < trimmed.length := by
  unfold bareImageId
  cases hcolon : stripPrefix "sha256:" trimmed with
  | some rest =>
    have hlength := length_of_stripPrefix hcolon
    rw [show "sha256:".length = 7 from rfl] at hlength
    exact .inr (by simp; omega)
  | none =>
    cases hdash : stripPrefix "sha256-" trimmed with
    | some rest =>
      have hlength := length_of_stripPrefix hdash
      rw [show "sha256-".length = 7 from rfl] at hlength
      exact .inr (by simp; omega)
    | none => exact .inl rfl

theorem length_normalizeImageId_le (id : String) : (normalizeImageId id).length ≤ id.length := by
  rw [normalizeImageId_eq, length_asciiLowercase]
  have htrim := length_trim_le id
  rcases bareImageId_cases (trim id) with heq | hlt
  · rw [heq]
    exact htrim
  · exact hlt.le.trans htrim

theorem normalizeImageId_eq_of_length {id : String}
    (h : (normalizeImageId (normalizeImageId id)).length = (normalizeImageId id).length) :
    normalizeImageId (normalizeImageId id) = normalizeImageId id := by
  generalize hkey : normalizeImageId id = key at h ⊢
  rw [normalizeImageId_eq, length_asciiLowercase] at h
  have htrim := length_trim_le key
  have hbare : bareImageId (trim key) = trim key :=
    (bareImageId_cases (trim key)).resolve_right fun hlt => by omega
  rw [hbare] at h
  rw [normalizeImageId_eq, hbare, trim_eq_of_length h, ← hkey, normalizeImageId_eq,
    asciiLowercase_idem]

theorem isWhitespace_of_hexdigit {c : Char} (h : isAsciiHexdigit c = true) :
    isWhitespace c = false := by
  simp only [isAsciiHexdigit, Char.isDigit, Bool.or_eq_true, Bool.and_eq_true, decide_eq_true_eq,
    Char.le_def, UInt32.le_iff_toNat_le] at h
  simp only [isWhitespace, Char.toNat]
  simp at h ⊢
  omega

theorem stripPrefix_of_hexdigits {start : String} {c : Char} {rest : List Char}
    (hstart : start.toList = c :: rest) (hc : isAsciiHexdigit c = false)
    (h : text.toList.all isAsciiHexdigit = true) : stripPrefix start text = none := by
  unfold stripPrefix
  rw [Option.map_eq_none_iff, Option.eq_none_iff_forall_ne_some]
  intro tail htail
  obtain ⟨found, htext, hfound⟩ := List.dropPrefix?_eq_some_iff.mp htail
  rw [eq_of_beq hfound, hstart] at htext
  have hdigit := List.all_eq_true.mp h c (by rw [htext]; simp)
  rw [hc] at hdigit
  cases hdigit

/-- The canonical id of an image stands for the image that its normalized id stands for. -/
theorem normalize_canonicalImageId (id : String) :
    normalizeImageId (canonicalImageId id) = normalizeImageId (normalizeImageId id) := by
  unfold canonicalImageId
  generalize normalizeImageId id = key
  by_cases hhex : key.length = 64 ∧ key.toList.all isAsciiHexdigit = true
  · have hplain : ∀ c ∈ key.toList, isWhitespace c = false :=
      fun c hc => isWhitespace_of_hexdigit (List.all_eq_true.mp hhex.2 c hc)
    have hfront : "sha256:".toList.all (! isWhitespace ·) = true := by decide
    have htrim : trim ("sha256:" ++ key) = "sha256:" ++ key := by
      apply trim_of_plain
      intro c hc
      rw [String.toList_append, List.mem_append] at hc
      rcases hc with hc | hc
      · simpa using List.all_eq_true.mp hfront c hc
      · exact hplain c hc
    have hstrip : stripPrefix "sha256:" ("sha256:" ++ key) = some key := by
      unfold stripPrefix
      rw [String.toList_append, List.dropPrefix?_append_of_beq _ (beq_self_eq_true _)]
      exact congrArg some String.ofList_toList
    have hbare : bareImageId key = key := by
      unfold bareImageId
      rw [stripPrefix_of_hexdigits rfl (by decide) hhex.2,
        stripPrefix_of_hexdigits rfl (by decide) hhex.2]
      rfl
    rw [if_pos hhex, normalizeImageId_eq, normalizeImageId_eq, htrim, trim_of_plain hplain, hbare]
    unfold bareImageId
    rw [hstrip]
    rfl
  · rw [if_neg hhex]

/-! ## Values without repetition -/

section PushNew

variable {values added : List String} {v : String}

variable {value : String}

theorem mem_pushNew : v ∈ pushNew values value ↔ v ∈ values ∨ v = value := by
  unfold pushNew
  split
  · next hmem => exact ⟨.inl, Or.rec id fun heq => heq ▸ hmem⟩
  · rw [List.mem_append, List.mem_singleton]

theorem nodup_pushNew (h : values.Nodup) : (pushNew values value).Nodup := by
  unfold pushNew
  split
  · exact h
  · next hmem => exact List.nodup_append.mpr ⟨h, List.nodup_singleton value, by grind⟩

theorem head_pushNew : (pushNew values value).head? = (values ++ [value]).head? := by
  unfold pushNew
  split
  · next hmem =>
    cases values with
    | nil => cases hmem
    | cons first rest => rfl
  · rfl

theorem mem_foldl_pushNew : v ∈ added.foldl pushNew values ↔ v ∈ values ∨ v ∈ added := by
  induction added generalizing values with
  | nil => simp
  | cons value added ih => rw [List.foldl_cons, ih, mem_pushNew, List.mem_cons, or_assoc]

theorem nodup_foldl_pushNew (h : values.Nodup) : (added.foldl pushNew values).Nodup := by
  induction added generalizing values with
  | nil => exact h
  | cons value added ih => exact ih (nodup_pushNew h)

theorem head_foldl_pushNew : (added.foldl pushNew values).head? = (values ++ added).head? := by
  induction added generalizing values with
  | nil => rw [List.append_nil, List.foldl_nil]
  | cons value added ih =>
    rw [List.foldl_cons, ih, List.head?_append, head_pushNew, ← List.head?_append,
      List.append_assoc, List.singleton_append]

theorem mem_validReferences : v ∈ validReferences values ↔ v ∈ values ∧ isReference v = true := by
  unfold validReferences
  rw [mem_foldl_pushNew, List.mem_filter]
  simp

theorem nodup_validReferences : (validReferences values).Nodup :=
  nodup_foldl_pushNew List.nodup_nil

theorem head_validReferences : (validReferences values).head? = (values.filter isReference).head? :=
  head_foldl_pushNew

end PushNew

/-! ## The entries of one image -/

def entriesOf (images : List BollardImageSummary) (key : String) : List BollardImageSummary :=
  images.filter fun image => normalizeImageId image.id = key

def firstTag (entries : List BollardImageSummary) : Option String :=
  ((entries.flatMap (·.repoTags)).filter isReference).head?

theorem positive_getD (value : Int) : (positive value).getD 0 = value.toNat := by
  unfold positive
  split
  · rfl
  · simp; omega

section Merging

variable [Timestamps]

def firstCreated (entries : List BollardImageSummary) : Option Int :=
  entries.findSome? fun image => Timestamps.timestampOpt image.created

/-- What a summary says about the entries it was merged from. -/
structure Merges (entries : List BollardImageSummary) (s : ImageSummary) : Prop where
  id_eq : ∃ first ∈ entries.head?, s.id = canonicalImageId first.id
  nodup_tags : s.repoTags.Nodup
  mem_tags : ∀ tag, tag ∈ s.repoTags ↔
    isReference tag = true ∧ ∃ image ∈ entries, tag ∈ image.repoTags
  nodup_digests : s.repoDigests.Nodup
  mem_digests : ∀ digest, digest ∈ s.repoDigests ↔
    isReference digest = true ∧ ∃ image ∈ entries, digest ∈ image.repoDigests
  size : IsGreatest {size | ∃ image ∈ entries, size = image.size.toNat} s.sizeBytes
  createdAt_eq : s.createdAt = firstCreated entries
  head_tags : s.repoTags.head? = firstTag entries
  displayName_eq : s.displayName = displayName s.repoTags

variable {image : BollardImageSummary} {entries : List BollardImageSummary} {s : ImageSummary}

theorem merges_newSummary (h : newSummary image = some s) : Merges [image] s := by
  unfold newSummary at h
  obtain ⟨id, -, rfl⟩ := Option.map_eq_some_iff.mp h
  constructor
  case id_eq => exact ⟨image, rfl, by dsimp only⟩
  case nodup_tags => exact nodup_validReferences
  case mem_tags =>
    intro tag
    rw [mem_validReferences]
    simp [and_comm]
  case nodup_digests => exact nodup_validReferences
  case mem_digests =>
    intro digest
    rw [mem_validReferences]
    simp [and_comm]
  case size =>
    rw [positive_getD]
    simp
  case createdAt_eq =>
    unfold firstCreated
    cases h : Timestamps.timestampOpt image.created <;> simp [h]
  case head_tags =>
    rw [head_validReferences]
    simp [firstTag]
  case displayName_eq => rfl

/-- **An entry more.** -/
theorem Merges.modify (h : Merges entries s) (image : BollardImageSummary) :
    Merges (entries ++ [image]) (s.modify image) := by
  constructor
  case id_eq =>
    obtain ⟨first, hfirst, hid⟩ := h.id_eq
    refine ⟨first, ?_, hid⟩
    rw [List.head?_append, Option.mem_def.mp hfirst]
    rfl
  case nodup_tags => exact nodup_foldl_pushNew h.nodup_tags
  case mem_tags =>
    intro tag
    show tag ∈ (validReferences image.repoTags).foldl pushNew s.repoTags ↔ _
    rw [mem_foldl_pushNew, h.mem_tags, mem_validReferences]
    simp only [List.mem_append, List.mem_singleton, or_and_right, exists_or, exists_eq_left]
    rw [and_or_left, and_comm (b := isReference _ = true)]
  case nodup_digests => exact nodup_foldl_pushNew h.nodup_digests
  case mem_digests =>
    intro digest
    show digest ∈ (validReferences image.repoDigests).foldl pushNew s.repoDigests ↔ _
    rw [mem_foldl_pushNew, h.mem_digests, mem_validReferences]
    simp only [List.mem_append, List.mem_singleton, or_and_right, exists_or, exists_eq_left]
    rw [and_or_left, and_comm (b := isReference _ = true)]
  case size =>
    have hsizes : {size | ∃ other ∈ entries ++ [image], size = other.size.toNat} =
        {size | ∃ other ∈ entries, size = other.size.toNat} ∪ {image.size.toNat} := by
      ext size
      simp [or_and_right, exists_or, or_comm]
    rw [hsizes]
    show IsGreatest _ (max s.sizeBytes ((positive image.size).getD 0))
    rw [positive_getD]
    exact h.size.union isGreatest_singleton
  case createdAt_eq =>
    show s.createdAt.or _ = _
    rw [h.createdAt_eq]
    unfold firstCreated
    rw [List.findSome?_append]
    cases h : Timestamps.timestampOpt image.created <;> simp [h]
  case head_tags =>
    show ((validReferences image.repoTags).foldl pushNew s.repoTags).head? = _
    rw [head_foldl_pushNew, List.head?_append, h.head_tags, head_validReferences]
    unfold firstTag
    rw [← List.head?_append, ← List.filter_append, List.flatMap_append, List.flatMap_singleton]
  case displayName_eq => rfl

/-- A map of summaries has one for every image, which tells about its entries. -/
def Merged (images : List BollardImageSummary) (unique : AList fun _ : String => ImageSummary) :
    Prop :=
  ∀ key, (unique.lookup key = none ∧ entriesOf images key = []) ∨
    ∃ s, unique.lookup key = some s ∧ Merges (entriesOf images key) s

omit [Timestamps] in
theorem entriesOf_append (images : List BollardImageSummary) (image : BollardImageSummary)
    (key : String) : entriesOf (images ++ [image]) key =
      entriesOf images key ++ if normalizeImageId image.id = key then [image] else [] := by
  unfold entriesOf
  rw [List.filter_append, List.filter_singleton]
  simp

variable {images : List BollardImageSummary}

omit [Timestamps] in
theorem entriesOf_append_of_ne {image : BollardImageSummary} {key : String}
    (h : normalizeImageId image.id ≠ key) :
    entriesOf (images ++ [image]) key = entriesOf images key := by
  rw [entriesOf_append, if_neg h, List.append_nil]

/-- The first entry of every image has a short id. -/
def ShortIds (images : List BollardImageSummary) : Prop :=
  ∀ key, ∀ first ∈ (entriesOf images key).head?, (shortId first.id).isSome = true

omit [Timestamps] in
theorem shortIds_append {image : BollardImageSummary} :
    ShortIds (images ++ [image]) ↔ ShortIds images ∧
      (entriesOf images (normalizeImageId image.id) = [] → (shortId image.id).isSome = true) := by
  constructor
  · intro h
    constructor
    · intro key first hfirst
      refine h key first ?_
      rw [entriesOf_append, List.head?_append, Option.mem_def.mp hfirst]
      rfl
    · intro hempty
      refine h (normalizeImageId image.id) image ?_
      rw [entriesOf_append, hempty, if_pos rfl]
      rfl
  · rintro ⟨hids, himage⟩ key first hfirst
    rw [entriesOf_append] at hfirst
    cases hentries : entriesOf images key with
    | cons e entries =>
      rw [hentries] at hfirst
      exact hids key first (by rwa [hentries])
    | nil =>
      rw [hentries] at hfirst
      split at hfirst
      · next hkey =>
        subst hkey
        obtain rfl : image = first := Option.some.inj hfirst
        exact himage hentries
      · cases hfirst

/-- **An entry is merged into the map.** -/
theorem Merged.step {unique : AList fun _ : String => ImageSummary} (h : Merged images unique)
    (image : BollardImageSummary) :
    (∃ after, mergeEntry unique image = some after ∧ Merged (images ++ [image]) after ∧
      (entriesOf images (normalizeImageId image.id) = [] → (shortId image.id).isSome = true)) ∨
    mergeEntry unique image = none ∧ entriesOf images (normalizeImageId image.id) = [] ∧
      shortId image.id = none := by
  have hinsert : ∀ s, Merges (entriesOf images (normalizeImageId image.id) ++ [image]) s →
      Merged (images ++ [image]) (unique.insert (normalizeImageId image.id) s) := by
    intro s hs key
    by_cases hkey : normalizeImageId image.id = key
    · subst hkey
      refine .inr ⟨s, AList.lookup_insert unique, ?_⟩
      rwa [entriesOf_append, if_pos rfl]
    · rw [AList.lookup_insert_ne (Ne.symm hkey), entriesOf_append_of_ne hkey]
      exact h key
  unfold mergeEntry
  dsimp only
  rcases h (normalizeImageId image.id) with ⟨hnone, hempty⟩ | ⟨s, hsome, hs⟩
  · rw [hnone]
    cases hid : shortId image.id with
    | none =>
      refine .inr ⟨?_, hempty, rfl⟩
      simp [newSummary, hid]
    | some id =>
      obtain ⟨s, hs⟩ : ∃ s, newSummary image = some s := by
        unfold newSummary
        rw [hid]
        exact ⟨_, rfl⟩
      refine .inl ⟨unique.insert (normalizeImageId image.id) s, ?_, hinsert s ?_, fun _ => rfl⟩
      · simp [hs]
      · rw [hempty]
        exact merges_newSummary hs
  · rw [hsome]
    refine .inl ⟨_, rfl, hinsert _ (hs.modify image), fun hempty => ?_⟩
    rw [hempty] at hs
    obtain ⟨first, hfirst, -⟩ := hs.id_eq
    cases hfirst

/-- **The entries are merged** unless a short id is cut within a character. -/
theorem foldlM_mergeEntry (images : List BollardImageSummary) :
    (∃ unique, images.foldlM mergeEntry ∅ = some unique ∧ Merged images unique ∧ ShortIds images) ∨
      images.foldlM mergeEntry ∅ = none ∧ ¬ ShortIds images := by
  induction images using List.reverseRecOn with
  | nil =>
    refine .inl ⟨∅, rfl, fun key => .inl ⟨AList.lookup_empty key, rfl⟩, ?_⟩
    intro key first hfirst
    cases hfirst
  | append_singleton images image ih =>
    rw [List.foldlM_append, shortIds_append]
    rcases ih with ⟨unique, hunique, hmerged, hids⟩ | ⟨hnone, hids⟩
    · rw [hunique]
      rcases hmerged.step image with ⟨after, hstep, hafter, hid⟩ | ⟨hstep, hempty, hid⟩
      · exact .inl ⟨after, by simp [hstep], hafter, hids, hid⟩
      · refine .inr ⟨by simp [hstep], fun h => ?_⟩
        have hsome := h.2 hempty
        rw [hid] at hsome
        cases hsome
    · refine .inr ⟨?_, fun h => hids h.1⟩
      rw [hnone]
      rfl

end Merging

/-! ## The references to an image -/

theorem sortReferences_eq_nil {references : List ImageContainerReference} :
    sortReferences references = [] ↔ references = [] := by
  unfold sortReferences
  rw [List.destutter_eq_nil, ← List.length_eq_zero_iff, List.length_mergeSort,
    List.length_eq_zero_iff]

theorem lookup_addReference {refs : References} {container : ContainerSummary} :
    ((addReference refs container).lookup key).getD [] = (refs.lookup key).getD [] ++
      if key ≠ "" ∧ normalizeImageId container.imageId = key then
        [ImageContainerReference.fromSummary container] else [] := by
  unfold addReference
  by_cases hempty : normalizeImageId container.imageId = ""
  · rw [if_pos hempty, if_neg, List.append_nil]
    rintro ⟨hkey, heq⟩
    exact hkey (heq.symm.trans hempty)
  · rw [if_neg hempty]
    by_cases hkey : normalizeImageId container.imageId = key
    · subst hkey
      rw [AList.lookup_insert, if_pos ⟨hempty, rfl⟩, Option.getD_some]
    · rw [AList.lookup_insert_ne (Ne.symm hkey), if_neg fun h => hkey h.2, List.append_nil]

theorem lookup_foldl_addReference :
    ∀ {refs : References}, ((containers.foldl addReference refs).lookup key).getD [] ≠ [] ↔
      (refs.lookup key).getD [] ≠ [] ∨
        key ≠ "" ∧ ∃ container ∈ containers, normalizeImageId container.imageId = key := by
  induction containers with
  | nil => simp
  | cons container containers ih =>
    intro refs
    rw [List.foldl_cons, ih, lookup_addReference]
    by_cases h : key ≠ "" ∧ normalizeImageId container.imageId = key
    · rw [if_pos h]
      simp [h]
    · rw [if_neg h, List.append_nil]
      simp only [List.mem_cons, exists_eq_or_imp]
      rw [and_or_left, or_iff_right h]

/-- **An image is referred to** when it has an id that is the one of a container. -/
theorem refsByImageId_ne_nil : ((refsByImageId containers).lookup key).getD [] ≠ [] ↔
      key ≠ "" ∧ ∃ container ∈ containers, normalizeImageId container.imageId = key := by
  have hall : ((containers.foldl addReference ∅).lookup key).getD [] ≠ [] ↔ _ :=
    lookup_foldl_addReference
  unfold refsByImageId
  rw [lookup_mapValues]
  cases hlookup : (containers.foldl addReference ∅).lookup key with
  | none =>
    rw [hlookup] at hall
    simpa using hall
  | some references =>
    rw [hlookup] at hall
    simpa [sortReferences_eq_nil] using hall

def ImageSummary.attach (refs : References) (image : ImageSummary) : ImageSummary :=
  let containers := (refs.lookup (normalizeImageId image.id)).getD []
  { image with containers, inUse := !containers.isEmpty }

@[simp] theorem attach_id (refs : References) (image : ImageSummary) :
    (image.attach refs).id = image.id := rfl

theorem map_id_associate (refs : References) (images : List ImageSummary) :
    (associate refs images).map (·.id) = images.map (·.id) := by
  induction images generalizing refs with
  | nil => rfl
  | cons image images ih => exact congrArg (image.id :: ·) (ih (refs.erase _))

theorem associate_eq_map {refs : References} {images : List ImageSummary}
    (h : (images.map fun image => normalizeImageId image.id).Nodup) :
    associate refs images = images.map (ImageSummary.attach refs) := by
  induction images generalizing refs with
  | nil => rfl
  | cons image images ih =>
    rw [List.map_cons, List.nodup_cons] at h
    show ImageSummary.attach refs image :: associate _ images = _
    rw [ih h.2, List.map_cons]
    refine congrArg _ (List.map_congr_left fun other hother => ?_)
    have hne : normalizeImageId other.id ≠ normalizeImageId image.id := by
      intro heq
      exact h.1 (heq ▸ List.mem_map_of_mem hother)
    unfold ImageSummary.attach
    rw [AList.lookup_erase_ne hne]

theorem attach_inUse {image : ImageSummary} :
    (image.attach (refsByImageId containers)).inUse = true ↔ normalizeImageId image.id ≠ "" ∧
      ∃ container ∈ containers, normalizeImageId container.imageId = normalizeImageId image.id := by
  rw [← refsByImageId_ne_nil]
  simp [ImageSummary.attach]

end TuxStack.Docker
