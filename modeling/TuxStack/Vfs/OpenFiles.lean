import TuxStack.Vfs.Handle

/-!
# Open files

`open` and `release` of the adapter (`crates/tuxstack-vfs/src/adapter.rs`) with `open`
and `close` of `NamespaceProvider` (`namespace.rs`). One open file is three entries: a
handle of the mounted provider, an `OpenRoute` of the namespace that holds it, and an
`OpenHandle` of the adapter that names the route.

Each `open` brings the adapter and the namespace it finds. A mounted provider is the
number of its `Arc`, and `providers` lists the handles the mounted providers hold open. What
a provider answers to `open` is arbitrary, its `close` succeeds.

The adapter fills its own table last. When that refuses the entry, the other two stay
(`leaks_when_full`); `files_accounted` is what holds otherwise.
-/

namespace TuxStack.Vfs

open Runs Assoc

structure OpenRoute where
  provider : Nat
  inner : ProviderFileHandle
deriving DecidableEq

structure OpenFiles where
  table : OpenHandleTable
  /-- `NamespaceProvider::handles` -/
  routes : AList fun _ : Nat => OpenRoute
  nextHandle : Nat
  providers : List OpenRoute

/-- What an `open` request finds; `answer` is that of the provider mounted there. -/
structure OpenRequest where
  adapter : Adapter
  namespaceProvider : NamespaceProvider
  inode : Nat
  flags : BitVec 32
  provider : Nat
  answer : Except VfsError ProviderFileHandle
  now : Nat
  index : Nat

inductive FileCall where
  | open (request : OpenRequest)
  | release (id : OpenHandleId)

def OpenRequest.check (request : OpenRequest) : Except VfsError CachedNode :=
  if !isReadOnlyOpen request.flags then .error .readOnly
  else do
    let node ← request.adapter.node request.inode
    match node.metadata.fileType with
    | .directory => .error .isDirectory
    | .regularFile => .ok node
    | .symlink => .error (.invalidInput "cannot open symlink directly")
    | _ => .error .specialFile

def OpenRequest.provided (request : OpenRequest) : Option (CachedNode × ProviderFileHandle) :=
  match request.check with
  | .error _ => none
  | .ok node =>
    match request.namespaceProvider.providerAt node.path, request.answer with
    | some _, .ok inner => some (node, inner)
    | _, _ => none

namespace OpenFiles

def namespaceOpen (s : OpenFiles) (request : OpenRequest) (path : VirtualPath) :
    Except VfsError ProviderFileHandle × OpenFiles :=
  match request.namespaceProvider.providerAt path with
  | none =>
    (.error (if request.namespaceProvider.isSyntheticDirectory path then .isDirectory
      else .notFound), s)
  | some _ =>
    match request.answer with
    | .error e => (.error e, s)
    | .ok inner =>
      (.ok ⟨s.nextHandle, path, inner.contentGeneration⟩,
        { s with
          routes := s.routes.insert s.nextHandle ⟨request.provider, inner⟩
          nextHandle := (s.nextHandle + 1) % 18446744073709551616
          providers := ⟨request.provider, inner⟩ :: s.providers })

def namespaceClose (s : OpenFiles) (handle : ProviderFileHandle) :
    Except VfsError Unit × OpenFiles :=
  match s.routes.lookup handle.id with
  | none => (.error .badHandle, s)
  | some route =>
    (.ok (),
      { s with
        routes := s.routes.erase handle.id
        providers := s.providers.erase route })

/-- `Filesystem::open`. -/
def openFile (s : OpenFiles) (request : OpenRequest) : Except VfsError OpenHandleId × OpenFiles :=
  match request.check with
  | .error e => (.error e, s)
  | .ok node =>
    match s.namespaceOpen request node.path with
    | (.error e, s) => (.error e, s)
    | (.ok providerHandle, s) =>
      let handle : OpenHandle :=
        { providerHandle := providerHandle
          resource := request.adapter.resource
          path := node.path
          contentGeneration := node.metadata.generation
          backingStrategy := "provider"
          openedAt := request.now
          lastAccessedAt := request.now }
      match s.table.insert handle request.now request.index with
      | (result, table) => (result, { s with table := table })

/-- `Filesystem::release`. -/
def release (s : OpenFiles) (id : OpenHandleId) : Except VfsError Unit × OpenFiles :=
  match s.table.remove id with
  | (.error e, table) => (.error e, { s with table := table })
  | (.ok handle, table) => namespaceClose { s with table := table } handle.providerHandle

def after (s : OpenFiles) : FileCall → OpenFiles
  | .open request => (s.openFile request).2
  | .release id => (s.release id).2

def machine : Machine OpenFiles FileCall where
  init s := (∃ maxHandles idleTimeout, OpenHandleTable.new maxHandles idleTimeout = .ok s.table) ∧
    s.routes = ∅ ∧ s.nextHandle = 1 ∧ s.providers = []
  step s call := some (s.after call)

/-! ## The accounts -/

/-- The ids the adapter's entries refer to. -/
def references (t : OpenHandleTable) : List Nat :=
  (values t.handles).map fun handle => handle.providerHandle.id

/-- Each open handle of the namespace is referred to by one entry of the adapter's table,
each open handle of a mounted provider is held by one handle of the namespace, and
nothing else is referred to or held. -/
structure Accounted (s : OpenFiles) : Prop where
  referenced : (references s.table).Perm s.routes.keys
  held : s.providers.Perm (values s.routes)

/-- When a provider opens a handle, the adapter's table has room for it, and the
namespace's counter has not wrapped onto a handle that is still open. -/
def HasRoom (s : OpenFiles) : FileCall → Prop
  | .open request =>
    request.provided ≠ none →
      s.table.len < s.table.maxHandles ∧ s.routes.lookup s.nextHandle = none
  | .release _ => True

/-- The slab inserts at a vacant key. -/
def SlabVacant (s : OpenFiles) : FileCall → Prop
  | .open request =>
    s.table.len < s.table.maxHandles → s.table.handles.lookup request.index = none
  | .release _ => True

variable {s : OpenFiles} {request : OpenRequest}

theorem openFile_of_none (h : request.provided = none) :
    ∃ e, s.openFile request = (.error e, s) := by
  unfold OpenRequest.provided at h
  unfold openFile
  cases hcheck : request.check with
  | error e => exact ⟨e, rfl⟩
  | ok node =>
    simp only [hcheck] at h
    unfold namespaceOpen
    cases hroute : request.namespaceProvider.providerAt node.path with
    | none =>
      simp only [hroute]
      exact ⟨_, rfl⟩
    | some route =>
      cases hanswer : request.answer with
      | error e =>
        simp only [hroute]
        exact ⟨e, rfl⟩
      | ok inner => simp [hroute, hanswer] at h

/-- What an `open` does once a provider has opened a handle. -/
theorem openFile_of_some {node : CachedNode} {inner : ProviderFileHandle}
    (h : request.provided = some (node, inner)) :
    ∃ handle : OpenHandle, handle.providerHandle.id = s.nextHandle ∧
      s.openFile request =
        ((s.table.insert handle request.now request.index).1,
          { table := (s.table.insert handle request.now request.index).2
            routes := s.routes.insert s.nextHandle ⟨request.provider, inner⟩
            nextHandle := (s.nextHandle + 1) % 18446744073709551616
            providers := ⟨request.provider, inner⟩ :: s.providers }) := by
  unfold OpenRequest.provided at h
  cases hcheck : request.check with
  | error e => simp [hcheck] at h
  | ok node' =>
    simp only [hcheck] at h
    split at h
    · next route inner' hroute hanswer =>
      cases h
      unfold openFile namespaceOpen
      rw [hcheck]
      simp only [hroute, hanswer]
      exact ⟨_, rfl, rfl⟩
    · cases h

/-! ## Runs -/

theorem accounted_of_init (h : machine.init s) : s.Accounted := by
  obtain ⟨⟨maxHandles, idleTimeout, hnew⟩, hroutes, -, hproviders⟩ := h
  have htable : s.table.handles = ∅ := by
    unfold OpenHandleTable.new at hnew
    split at hnew
    · cases hnew
    · rw [← Except.ok.inj hnew]
  constructor
  · rw [references, htable, hroutes]
    exact List.Perm.nil
  · rw [hproviders, hroutes]
    exact List.Perm.nil

theorem Accounted.openFile (h : s.Accounted) (hroom : HasRoom s (.open request))
    (hslab : SlabVacant s (.open request)) : (s.openFile request).2.Accounted ∧
      ∀ e, (s.openFile request).1 = .error e → (s.openFile request).2 = s := by
  cases hprovided : request.provided with
  | none =>
    obtain ⟨e, hopen⟩ := openFile_of_none (s := s) hprovided
    rw [hopen]
    exact ⟨h, fun _ _ => rfl⟩
  | some opened =>
    obtain ⟨node, inner⟩ := opened
    obtain ⟨hlen, hfresh⟩ := hroom (by rw [hprovided]; exact Option.some_ne_none _)
    have hvacant := hslab hlen
    obtain ⟨handle, hid, hopen⟩ := openFile_of_some (s := s) hprovided
    rw [hopen, OpenHandleTable.insert_of_room hlen]
    refine ⟨⟨?_, ?_⟩, fun e he => by cases he⟩
    · have hkeys : (s.routes.insert s.nextHandle ⟨request.provider, inner⟩).keys =
          s.nextHandle :: s.routes.keys := by
        rw [AList.keys_insert, List.erase_of_not_mem (AList.lookup_eq_none.mp hfresh)]
      rw [references, values_insert hvacant, List.map_cons, hkeys]
      show (handle.providerHandle.id :: references s.table).Perm _
      rw [hid]
      exact h.referenced.cons _
    · rw [values_insert hfresh]
      exact h.held.cons _

theorem Accounted.release (h : s.Accounted) (id : OpenHandleId) : (s.release id).2.Accounted := by
  unfold OpenFiles.release
  cases hfind : s.table.find? id with
  | none =>
    rw [OpenHandleTable.remove_of_find_none hfind]
    exact h
  | some handle =>
    have hlookup := (OpenHandleTable.find_eq hfind).2
    rw [OpenHandleTable.remove_of_find_some hfind]
    have htable : (references s.table).Perm (handle.providerHandle.id ::
        (values (s.table.handles.erase (unpack id).1)).map fun h => h.providerHandle.id) :=
      (perm_values_erase hlookup).map fun h : OpenHandle => h.providerHandle.id
    -- the entry's route is there, since every reference is a key
    have hmem : handle.providerHandle.id ∈ s.routes.keys :=
      h.referenced.subset (htable.symm.subset List.mem_cons_self)
    obtain ⟨route, hroute⟩ := Option.isSome_iff_exists.mp (AList.lookup_isSome.mpr hmem)
    simp only [namespaceClose, hroute]
    constructor
    · show List.Perm _ (s.routes.erase handle.providerHandle.id).keys
      apply List.Perm.cons_inv (a := handle.providerHandle.id)
      exact htable.symm.trans (h.referenced.trans (perm_keys_erase hroute))
    · have herase := (h.held.trans (perm_values_erase hroute)).erase route
      rwa [List.erase_cons_head] at herase

/-- **Every open handle is accounted for**, in every run in which the table has room
whenever a provider opens a handle: the open handles of the namespace are those the
table's entries refer to, the open handles of the mounted providers are those the
namespace holds, and an `open` that fails leaves everything as it was. -/
theorem files_accounted {s : OpenFiles}
    (h : machine.Reach (fun s call => HasRoom s call ∧ SlabVacant s call) s) :
    s.Accounted ∧ ∀ request, HasRoom s (.open request) → SlabVacant s (.open request) →
      ∀ e, (s.openFile request).1 = .error e → (s.openFile request).2 = s := by
  have hinv : s.Accounted := by
    refine h.invariant (fun s => accounted_of_init) ?_
    rintro s call s' hs ⟨hroom, hslab⟩ hstep
    cases hstep
    cases call with
    | «open» request => exact (hs.openFile hroom hslab).1
    | release id => exact hs.release id
  exact ⟨hinv, fun request hroom hslab => (hinv.openFile hroom hslab).2⟩

/-! ## A table of one slot -/

/-- An adapter that has looked the file `/volumes/v/file` up, as inode 2. -/
def sampleAdapter : Adapter :=
  { Adapter.fresh with
    nodes := AList.singleton 2
      ⟨pathOf "/volumes/v/file", VirtualMetadata.new (ascii "volume:file") .regularFile 5⟩ }

/-- The file is opened for reading, and the volume answers with a handle `id`. -/
def openRequest (id index : Nat) : OpenRequest where
  adapter := sampleAdapter
  namespaceProvider :=
    ⟨AList.singleton (pathOf "/volumes/v") ⟨"v", Adapter.linkVolume "v" VirtualPath.root⟩, ∅⟩
  inode := 2
  flags := 0
  provider := 0
  answer := .ok ⟨id, pathOf "/file", 0⟩
  now := 0
  index := index

/-- No file is open and the table has one slot. -/
def singleSlot : OpenFiles where
  table := ⟨∅, [], 1, 0, OpenHandleTable.limit_one⟩
  routes := ∅
  nextHandle := 1
  providers := []

theorem singleSlot_init : machine.init singleSlot := ⟨⟨1, 0, rfl⟩, rfl, rfl, rfl⟩

/-- The second `open` is refused with the limit's error, and the two handles that were
opened for it stay open: no entry of the table refers to them. -/
theorem leaks_when_full :
    ∃ s, machine.Reach SlabVacant s ∧ s.Accounted ∧
      (s.openFile (openRequest 8 1)).1 = .error .tooManyHandles ∧
      (s.openFile (openRequest 8 1)).2.providers =
        ⟨0, 8, pathOf "/file", 0⟩ :: s.providers ∧
      ¬ (s.openFile (openRequest 8 1)).2.Accounted := by
  refine ⟨singleSlot.after (.open (openRequest 7 0)), ?_, ?_, by decide, by decide, ?_⟩
  · have hvacant : SlabVacant singleSlot (.open (openRequest 7 0)) := fun _ => rfl
    exact .step (.init singleSlot_init) hvacant rfl
  · constructor <;> decide
  · intro h
    have hlen := h.referenced.length_eq
    revert hlen
    decide

/-- With the file released before it is opened again, nothing leaks. -/
theorem accounted_after_release :
    ∃ s, machine.Reach (fun s call => HasRoom s call ∧ SlabVacant s call) s ∧
      s.providers.length = 1 ∧ s.Accounted := by
  let calls : List FileCall :=
    [.open (openRequest 7 0), .release 0, .open (openRequest 8 0)]
  have hrun : ∃ s ∈ machine.exec singleSlot calls, s.providers.length = 1 := by decide
  obtain ⟨s, hs, hlen⟩ := hrun
  have hreach : machine.Reach (fun s call => HasRoom s call ∧ SlabVacant s call) s := by
    refine Machine.reach_of_exec (.init singleSlot_init) ?_ hs
    refine ⟨⟨fun _ => by decide, fun _ => rfl⟩, ?_⟩
    rintro s₁ ⟨⟩
    refine ⟨⟨trivial, trivial⟩, ?_⟩
    rintro s₂ ⟨⟩
    refine ⟨⟨fun _ => by decide, fun _ => by decide⟩, ?_⟩
    rintro s₃ ⟨⟩
    trivial
  exact ⟨s, hreach, hlen, (files_accounted hreach).1⟩

end OpenFiles

end TuxStack.Vfs
