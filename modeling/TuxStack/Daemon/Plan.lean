import TuxStack.Docker.Archive
import TuxStack.Docker.Container
import TuxStack.Lib.Effects
import TuxStack.Vfs.NameCodec

/-!
# The namespace plan

`add_image`, `add_container` and what they call in
`crates/tuxstack-daemon/src/state.rs`. The plan is filled through a reference, so
an early return leaves behind what was pushed before it.

Everything outside of the daemon (the answer of `inspect_container`, the local and
the helper bind providers, the providers' own answers) is an `Environment`, a new
one for each call. Providers are what they answer, as in `Vfs.Provider`.
-/

namespace TuxStack.Daemon

open Vfs Tar Docker Effect Result

/-! ## Plans -/

/-- `anyhow::Error` with what it was made of. -/
inductive DaemonError where
  | vfs (error : VfsError)
  | message (text : String)
deriving DecidableEq

structure NamespaceMount where
  path : VirtualPath
  key : String
  provider : Provider

structure NamespaceAlias where
  path : VirtualPath
  target : VirtualPathBytes
deriving DecidableEq

structure ProviderRegistries where
  images : AList fun _ : String => Provider
  containers : AList fun _ : String => ContainerProviderRouter
  rootfs : AList fun _ : String => ContainerRootfsSnapshotProvider
  archives : List ContainerArchiveProvider
  localBinds : List Provider
  helperBinds : List Provider
  volumeNames : Finset String

structure NamespacePlan where
  mounts : List NamespaceMount
  aliases : List NamespaceAlias
  registries : ProviderRegistries

def NamespacePlan.empty : NamespacePlan := ⟨[], [], ⟨∅, ∅, ∅, [], [], [], ∅⟩⟩

/-- Functions that fill a plan. -/
abbrev PlanM : Type → Type := Effects DaemonError NamespacePlan

/-- The `?` on a result of the virtual filesystem. -/
def ofVfs {α : Type} : Except VfsError α → PlanM α
  | .ok a => pure a
  | .error e => throw (.vfs e)

/-! ## Namespace paths -/

def encodedPath (parent value : String) : Except VfsError VirtualPath := do
  let parent ← VirtualPath.fromAbsolute (ascii parent)
  let encoded ← FuseNameCodec.encode value
  let name ← VirtualFileName.new encoded
  parent.join name

def containerNamespacePath (containerId : String) : Except VfsError VirtualPath :=
  encodedPath "/containers/.by-id" containerId

def imageNamespacePath (imageId : String) : Except VfsError VirtualPath :=
  encodedPath "/images/.by-id" imageId

/-! ## The outside -/

structure ImageSummary where
  id : String
  repoTags : List String

structure MountInfo where
  source : Option String
  destination : String
  mountType : String
  name : Option String

/-- `ContainerDetail`, with the fields of its summary that are read. -/
structure ContainerDetail where
  id : String
  name : String
  mounts : List MountInfo

/-- What a call meets. `generation` is what the snapshot counter handed out,
`failure` what a capture of the root filesystem ends with. -/
structure Environment where
  inspect : String → Except String ContainerDetail
  localBind : String → Except VfsError Provider
  helperBind : String → Except VfsError Provider
  imageProvider : String → Provider
  volumeProvider : String → Provider
  archiveSource : ContainerArchiveSource
  spool : ContentSpool
  generation : Nat
  failure : VfsError

/-! ## Images -/

def validateImageId (imageId : String) : Except VfsError Unit :=
  let start := "sha256:".toList
  let digest := imageId.toList.drop start.length
  if start.isPrefixOf imageId.toList ∧ digest.length = 64 ∧ digest.all fun c =>
      c.isDigit || ('a' ≤ c && c ≤ 'f') || ('A' ≤ c && c ≤ 'F') then .ok ()
  else .error (.invalidInput "image identity must be a full immutable sha256 image ID")

/-- `ImageRootfsImmutableProvider::docker`: the content provider checks first. -/
def imageRootfsProvider (env : Environment) (imageId : String) : Except VfsError Provider := do
  let _ ← ContainerArchiveProvider.new imageId env.archiveSource env.spool TarLimits.standard
  validateImageId imageId
  .ok (env.imageProvider imageId)

def addTag (path : VirtualPath) (tag : String) : PlanM Unit :=
  if tag = "<none>:<none>" then pure ()
  else do
    let aliasPath ← ofVfs (encodedPath "/images" tag)
    let target ← ofVfs (VirtualPathBytes.new path.asBytes)
    modify fun plan => { plan with aliases := plan.aliases ++ [⟨aliasPath, target⟩] }

def addTags (path : VirtualPath) : List String → PlanM Unit
  | [] => pure ()
  | tag :: tags => do
      addTag path tag
      addTags path tags

def addImage (env : Environment) (image : ImageSummary) : PlanM Unit := do
  let provider ← ofVfs (imageRootfsProvider env image.id)
  let path ← ofVfs (imageNamespacePath image.id)
  modify fun plan =>
    { plan with mounts := plan.mounts ++ [⟨path, "image:" ++ image.id, provider⟩] }
  addTags path image.repoTags
  modify fun plan =>
    { plan with
      registries :=
        { plan.registries with images := plan.registries.images.insert image.id provider } }

/-! ## Containers -/

inductive ContainerMountType where
  | volume
  | bind
  | tmpfs
  | namedPipe
  | cluster
  | image
  | unknown
deriving DecidableEq

def ContainerMountType.fromDocker (value : String) : ContainerMountType :=
  if value = "volume" then .volume
  else if value = "bind" then .bind
  else if value = "tmpfs" then .tmpfs
  else if value = "npipe" then .namedPipe
  else if value = "cluster" then .cluster
  else if value = "image" then .image
  else .unknown

/-- `str::to_ascii_lowercase` followed by `contains`. -/
def mentions (reason part : String) : Bool :=
  part.toList <:+: reason.toList.map Char.toLower

def helperBindFallbackAllowed : VfsError → Bool
  | .permissionDenied => true
  | .unavailable reason | .io reason =>
    mentions reason "openat2" || mentions reason "not supported" ||
      mentions reason "unsupported" || mentions reason "linux filesystem error 38" ||
      mentions reason "linux filesystem error 95"
  | _ => false

/-- `String::from_utf8_lossy` on the text of a destination, which comes from a
string. -/
def pathText (path : VirtualPath) : String :=
  (String.fromUTF8? ⟨path.asBytes.toArray⟩).getD ""

/-- `archive_mount`; `kind` is the name of the provider kind. -/
def archiveMount (env : Environment) (containerId : String) (destination : VirtualPath)
    (kind : String) : PlanM ResolvedContainerMount := do
  let provider ←
    ofVfs (ContainerArchiveProvider.new containerId env.archiveSource env.spool TarLimits.standard)
  modify fun plan =>
    { plan with
      registries :=
        { plan.registries with archives := plan.registries.archives ++ [provider] } }
  return { destination := destination
           providerKey := kind ++ ":" ++ containerId ++ ":" ++ pathText destination
           providerRoot := destination
           provider := provider.toProvider }

def volumeMount (env : Environment) (destination : VirtualPath) (mount : MountInfo) :
    PlanM ResolvedContainerMount :=
  match mount.name <|> mount.source with
  | none => throw (.message "named volume mount has no volume name")
  | some volumeName => do
      modify fun plan =>
        { plan with
          registries :=
            { plan.registries with
              volumeNames := insert volumeName plan.registries.volumeNames } }
      return ⟨destination, "volume:" ++ volumeName, VirtualPath.root, env.volumeProvider volumeName⟩

/-- A bind mount of a container: local, or through a helper where the host does not
let the daemon read it. -/
def bindMount (env : Environment) (destination : VirtualPath) (mount : MountInfo) :
    PlanM ResolvedContainerMount :=
  match mount.source with
  | none => throw (.message "bind mount has no source")
  | some source =>
    match env.localBind source with
    | .ok provider => do
        modify fun plan =>
          { plan with
            registries :=
              { plan.registries with localBinds := plan.registries.localBinds ++ [provider] } }
        return ⟨destination, "bind:" ++ source, VirtualPath.root, provider⟩
    | .error e =>
      if helperBindFallbackAllowed e then do
        let provider ← ofVfs (env.helperBind source)
        modify fun plan =>
          { plan with
            registries :=
              { plan.registries with
                helperBinds := plan.registries.helperBinds ++ [provider] } }
        return ⟨destination, "helper-bind:" ++ source, VirtualPath.root, provider⟩
      else throw (.vfs e)

def containerMount (env : Environment) (containerId : String) (mount : MountInfo) :
    PlanM ResolvedContainerMount := do
  let destination ← ofVfs (VirtualPath.fromAbsolute mount.destination.toUTF8.data.toList)
  if destination.isRoot then throw (.message "container root mount is unsupported")
  else
    match ContainerMountType.fromDocker mount.mountType with
    | .volume => volumeMount env destination mount
    | .bind => bindMount env destination mount
    | .tmpfs => archiveMount env containerId destination "tmpfs"
    | .namedPipe | .cluster | .image | .unknown =>
      archiveMount env containerId destination "runtime"

def runtimeMounts : List String := ["/etc/hosts", "/etc/hostname", "/etc/resolv.conf"]

/-- The mounts of a container and the destinations to hide in its root filesystem. -/
structure Mounted where
  mounts : List ResolvedContainerMount
  destinations : List VirtualPath

/-- One mount of the container: a mount that cannot be served still hides what is
below it. -/
def addMount (env : Environment) (containerId : String) (mounted : Mounted) (mount : MountInfo) :
    PlanM Mounted := do
  let destinations :=
    match VirtualPath.fromAbsolute mount.destination.toUTF8.data.toList with
    | .ok destination =>
      if destination.isRoot then mounted.destinations
      else mounted.destinations.insert destination
    | .error _ => mounted.destinations
  let mounts ← tryCatch
    (do
      let resolved ← containerMount env containerId mount
      return mounted.mounts ++ [resolved])
    fun _ => pure mounted.mounts
  return ⟨mounts, destinations⟩

/-- One of the files that Docker mounts into every container. -/
def addRuntimeMount (env : Environment) (containerId : String) (mounted : Mounted)
    (destination : String) : PlanM Mounted :=
  match VirtualPath.fromAbsolute (ascii destination) with
  | .error _ => pure mounted
  | .ok destination =>
    if destination ∈ mounted.destinations then pure mounted
    else
      tryCatch
        (do
          let resolved ← archiveMount env containerId destination "runtime"
          return ⟨mounted.mounts ++ [resolved], mounted.destinations.insert destination⟩)
        fun _ => pure mounted

def containerMounts (env : Environment) (detail : ContainerDetail) : PlanM Mounted := do
  let mounted ← detail.mounts.foldlM (addMount env detail.id) ⟨[], []⟩
  runtimeMounts.foldlM (addRuntimeMount env detail.id) mounted

def addContainer (env : Environment) (containerId : String) : PlanM Unit := do
  let detail ←
    match env.inspect containerId with
    | .ok detail => pure detail
    | .error _ => throw (.message ("inspect container " ++ containerId))
  let rootArchive ←
    ofVfs (ContainerArchiveProvider.new containerId env.archiveSource env.spool TarLimits.standard)
  let mounted ← containerMounts env detail
  let rootfs ← ofVfs (ContainerRootfsSnapshotProvider.new containerId env.generation
    TarLimits.standard (mounted.destinations.filter fun destination => !destination.isRoot))
  let router ← ofVfs (ContainerProviderRouter.new containerId rootfs mounted.mounts)
  let path ← ofVfs (containerNamespacePath containerId)
  modify fun plan =>
    { plan with
      mounts := plan.mounts ++
        [⟨path, "container:" ++ containerId, router.toProvider env.failure⟩] }
  let friendlyName := detail.name.toList.dropWhile (· = '/')
  if friendlyName ≠ [] then do
    let aliasPath ← ofVfs (encodedPath "/containers" (String.ofList friendlyName))
    let target ← ofVfs (VirtualPathBytes.new path.asBytes)
    modify fun plan => { plan with aliases := plan.aliases ++ [⟨aliasPath, target⟩] }
  modify fun plan =>
    { plan with
      registries :=
        { plan.registries with
          archives := plan.registries.archives ++ [rootArchive]
          rootfs := plan.registries.rootfs.insert containerId rootfs
          containers := plan.registries.containers.insert containerId router } }

/-! ## Calls -/

inductive Call where
  | image (env : Environment) (summary : ImageSummary)
  | container (env : Environment) (containerId : String)

def Call.effects : Call → PlanM Unit
  | .image env summary => addImage env summary
  | .container env containerId => addContainer env containerId

/-- The plan after a list of calls; `build_namespace_plan` goes on after an error. -/
def fill (plan : NamespacePlan) (calls : List Call) : NamespacePlan :=
  calls.foldl (fun plan call => (exec call.effects plan).2) plan

/-- Every mount of a resource has its provider in the registries. -/
structure InSync (plan : NamespacePlan) : Prop where
  images : ∀ mount ∈ plan.mounts, ∀ id, mount.key = "image:" ++ id →
    id ∈ plan.registries.images
  containers : ∀ mount ∈ plan.mounts, ∀ id, mount.key = "container:" ++ id →
    id ∈ plan.registries.containers ∧ id ∈ plan.registries.rootfs

/-- The call is all or nothing on mounts and aliases. -/
def Call.Clean (call : Call) (plan : NamespacePlan) : Prop :=
  ∀ e plan', exec call.effects plan = (.error e, plan') →
    plan'.mounts = plan.mounts ∧ plan'.aliases = plan.aliases

/-- The names a call still has to encode once its mount is in the plan: the tags of
an image, the friendly name of a container. -/
def Call.names : Call → List (Except VfsError VirtualPath)
  | .image _ summary =>
    (summary.repoTags.filter fun tag => tag ≠ "<none>:<none>").map (encodedPath "/images")
  | .container env containerId =>
    match env.inspect containerId with
    | .error _ => []
    | .ok detail =>
      let friendlyName := detail.name.toList.dropWhile (· = '/')
      if friendlyName = [] then []
      else [encodedPath "/containers" (String.ofList friendlyName)]

/-- The identity is one that providers and paths are made for. -/
def Call.Identified : Call → Prop
  | .image env summary =>
    (∃ provider, imageRootfsProvider env summary.id = .ok provider) ∧
      ∃ path, imageNamespacePath summary.id = .ok path
  | .container env containerId =>
    (∃ detail, env.inspect containerId = .ok detail) ∧
      (∃ archive, ContainerArchiveProvider.new containerId env.archiveSource env.spool
        TarLimits.standard = .ok archive) ∧
      validateIdentity containerId = .ok () ∧
      ∃ path, containerNamespacePath containerId = .ok path

/-- If the call gets to its mount, all its names can be encoded. -/
def Call.Nameable (call : Call) : Prop :=
  call.Identified → ∀ name ∈ call.names, ∃ path, name = .ok path

/-! ## What the parts leave alone -/

/-- What `container_mounts` has no business with. -/
def NamespacePlan.core (plan : NamespacePlan) :
    List NamespaceMount × List NamespaceAlias × (AList fun _ : String => Provider) ×
      (AList fun _ : String => ContainerProviderRouter) ×
      AList fun _ : String => ContainerRootfsSnapshotProvider :=
  (plan.mounts, plan.aliases, plan.registries.images, plan.registries.containers,
    plan.registries.rootfs)

variable {α γ : Type} {plan plan' : NamespacePlan} {call : Call} {e : VfsError}

theorem keeps_ofVfs (v : NamespacePlan → γ) (x : Except VfsError α) : Keeps v (ofVfs x) := by
  cases x with
  | ok a => exact Keeps.pure a
  | error e => exact Keeps.throw _

theorem keeps_modify_pure {v : NamespacePlan → γ} {f : NamespacePlan → NamespacePlan}
    (h : ∀ plan, v (f plan) = v plan) (a : α) : Keeps v (modify f >>= fun _ => pure a : PlanM α) :=
  Keeps.bind (Keeps.modify h) fun _ => Keeps.pure a

theorem keeps_archiveMount (env : Environment) (containerId : String) (destination : VirtualPath)
    (kind : String) : Keeps NamespacePlan.core (archiveMount env containerId destination kind) := by
  refine (keeps_ofVfs _ _).bind fun provider => ?_
  exact keeps_modify_pure (by intro plan; rfl) _

theorem keeps_containerMount (env : Environment) (containerId : String) (mount : MountInfo) :
    Keeps NamespacePlan.core (containerMount env containerId mount) := by
  refine (keeps_ofVfs _ _).bind fun destination => ?_
  split
  · exact Keeps.throw _
  · split
    · unfold volumeMount
      split
      · exact Keeps.throw _
      · exact keeps_modify_pure (by intro plan; rfl) _
    · unfold bindMount
      split
      · exact Keeps.throw _
      · split
        · exact keeps_modify_pure (by intro plan; rfl) _
        · split
          · refine (keeps_ofVfs _ _).bind fun provider => ?_
            exact keeps_modify_pure (by intro plan; rfl) _
          · exact Keeps.throw _
    all_goals exact keeps_archiveMount env containerId destination _

theorem keeps_containerMounts (env : Environment) (detail : ContainerDetail) :
    Keeps NamespacePlan.core (containerMounts env detail) := by
  refine (Keeps.foldlM (fun mounted mount => ?_) _ _).bind fun mounted =>
    Keeps.foldlM (fun mounted destination => ?_) _ _
  · refine Keeps.bind (Keeps.tryCatch ?_ fun _ => Keeps.pure _) fun _ => Keeps.pure _
    exact (keeps_containerMount env detail.id mount).bind fun _ => Keeps.pure _
  · unfold addRuntimeMount
    split
    · exact Keeps.pure _
    · split
      · exact Keeps.pure _
      · refine Keeps.tryCatch ?_ fun _ => Keeps.pure _
        exact (keeps_archiveMount env detail.id _ _).bind fun _ => Keeps.pure _

/-! ## The mounts of a container -/

theorem total_containerMounts (env : Environment) (detail : ContainerDetail) :
    Total (containerMounts env detail) := by
  refine (Total.foldlM (fun mounted mount => ?_) _ _).bind fun mounted =>
    Total.foldlM (fun mounted destination => ?_) _ _
  · exact (Total.tryCatch _ fun _ => Total.pure _).bind fun _ => Total.pure _
  · unfold addRuntimeMount
    split
    · exact Total.pure _
    · split
      · exact Total.pure _
      · exact Total.tryCatch _ fun _ => Total.pure _

/-- A mount that does not replace the root. -/
def BelowRoot (mount : ResolvedContainerMount) : Prop := mount.destination.isRoot = false

theorem yields_archiveMount (env : Environment) (containerId : String) {destination : VirtualPath}
    (hroot : destination.isRoot = false) (kind : String) :
    Yields BelowRoot (archiveMount env containerId destination kind) := by
  exact Yields.andThen _ fun provider => Yields.andThen _ fun _ => Yields.pure hroot

theorem yields_containerMount (env : Environment) (containerId : String) (mount : MountInfo) :
    Yields BelowRoot (containerMount env containerId mount) := by
  refine Yields.andThen _ fun destination => ?_
  split
  · exact Yields.throw _
  · rename_i hroot
    have hbelow : destination.isRoot = false := by simpa using hroot
    split
    · unfold volumeMount
      split
      · exact Yields.throw _
      · exact Yields.andThen _ fun _ => Yields.pure hbelow
    · unfold bindMount
      split
      · exact Yields.throw _
      · split
        · exact Yields.andThen _ fun _ => Yields.pure hbelow
        · split
          · exact Yields.andThen _ fun provider => Yields.andThen _ fun _ => Yields.pure hbelow
          · exact Yields.throw _
    all_goals exact yields_archiveMount env containerId hbelow _

theorem runtimeMounts_below : ∀ text ∈ runtimeMounts, ∀ destination,
    VirtualPath.fromAbsolute (ascii text) = .ok destination → destination.isRoot = false := by
  intro text htext destination hparsed
  have hall : ∀ text ∈ runtimeMounts,
      ∀ destination ∈ (VirtualPath.fromAbsolute (ascii text)).toOption,
        destination.isRoot = false := by
    decide
  exact hall text htext destination (by rw [hparsed]; rfl)

theorem yields_containerMounts (env : Environment) (detail : ContainerDetail) :
    Yields (fun mounted => ∀ mount ∈ mounted.mounts, BelowRoot mount)
      (containerMounts env detail) := by
  have hgrow : ∀ (mounted : Mounted) {resolved : ResolvedContainerMount},
      (∀ mount ∈ mounted.mounts, BelowRoot mount) → BelowRoot resolved →
        ∀ mount ∈ mounted.mounts ++ [resolved], BelowRoot mount := by
    intro mounted resolved hmounted hresolved mount hmount
    rcases List.mem_append.mp hmount with hmount | hmount
    · exact hmounted mount hmount
    · cases List.mem_singleton.mp hmount
      exact hresolved
  refine Yields.bind
    (Yields.foldlM _ (fun mounted mount _ hmounted => ?_) (⟨[], []⟩ : Mounted) (by simp))
    fun mounted hmounted => Yields.foldlM _ (fun mounted text htext hmounted => ?_) _ hmounted
  · refine Yields.bind (P := fun mounts => ∀ mount ∈ mounts, BelowRoot mount)
      (Yields.tryCatch ?_ fun _ => Yields.pure hmounted) fun mounts hmounts => Yields.pure hmounts
    exact (yields_containerMount env detail.id mount).bind fun resolved hresolved =>
      Yields.pure (hgrow mounted hmounted hresolved)
  · unfold addRuntimeMount
    split
    · exact Yields.pure hmounted
    · rename_i destination hparsed
      split
      · exact Yields.pure hmounted
      · refine Yields.tryCatch ?_ fun _ => Yields.pure hmounted
        have hbelow := runtimeMounts_below text htext destination hparsed
        exact (yields_archiveMount env detail.id hbelow _).bind fun resolved hresolved =>
          Yields.pure (hgrow mounted hmounted hresolved)

/-! ## The outcome of a call -/

theorem exec_ofVfs_ok {x : Except VfsError α} {a : α} (h : x = .ok a) (plan : NamespacePlan) :
    exec (ofVfs x) plan = (.ok a, plan) := by
  rw [h]
  rfl

theorem exec_ofVfs_error {x : Except VfsError α} (h : x = .error e) (plan : NamespacePlan) :
    exec (ofVfs x) plan = (.error (.vfs e), plan) := by
  rw [h]
  rfl

/-- An alias is pushed if its name can be encoded, and nothing happens otherwise. -/
theorem exec_pushAlias (name : Except VfsError VirtualPath) (path : VirtualPath)
    (plan : NamespacePlan) :
    (∃ aliasPath target, name = .ok aliasPath ∧
        exec (do
          let aliasPath ← ofVfs name
          let target ← ofVfs (VirtualPathBytes.new path.asBytes)
          modify fun plan => { plan with aliases := plan.aliases ++ [⟨aliasPath, target⟩] } :
            PlanM Unit) plan =
          (.ok (), { plan with aliases := plan.aliases ++ [⟨aliasPath, target⟩] })) ∨
      ∃ e, name = .error e ∧
        exec (do
          let aliasPath ← ofVfs name
          let target ← ofVfs (VirtualPathBytes.new path.asBytes)
          modify fun plan => { plan with aliases := plan.aliases ++ [⟨aliasPath, target⟩] } :
            PlanM Unit) plan = (.error (.vfs e), plan) := by
  cases hname : name with
  | ok aliasPath =>
    obtain ⟨target, htarget, -, -⟩ := VirtualPathBytes.new_asBytes path
    refine .inl ⟨aliasPath, target, rfl, ?_⟩
    rw [exec_bind_ok (exec_ofVfs_ok rfl plan), exec_bind_ok (exec_ofVfs_ok htarget plan)]
    rfl
  | error e =>
    exact .inr ⟨e, rfl, exec_bind_error (exec_ofVfs_error rfl plan)⟩

/-- The tags become aliases up to the first that cannot be encoded. -/
theorem exec_addTags (path : VirtualPath) : ∀ (tags : List String) (plan : NamespacePlan),
    ∃ added, (exec (addTags path tags) plan).2 = { plan with aliases := plan.aliases ++ added } ∧
      ((exec (addTags path tags) plan).1 = .ok () ↔
        ∀ tag ∈ tags, tag ≠ "<none>:<none>" →
          ∃ aliasPath, encodedPath "/images" tag = .ok aliasPath)
  | [], plan => ⟨[], by simp [addTags], by simp [addTags]⟩
  | tag :: tags, plan => by
      unfold addTags addTag
      by_cases htag : tag = "<none>:<none>"
      · rw [if_pos htag, exec_bind_ok (exec_pure _ _)]
        obtain ⟨added, hplan, hok⟩ := exec_addTags path tags plan
        refine ⟨added, hplan, hok.trans ?_⟩
        simp [htag]
      · rw [if_neg htag]
        rcases exec_pushAlias (encodedPath "/images" tag) path plan with
          ⟨aliasPath, target, hname, hrun⟩ | ⟨e, hname, hrun⟩
        · rw [exec_bind_ok hrun]
          obtain ⟨added, hplan, hok⟩ :=
            exec_addTags path tags { plan with aliases := plan.aliases ++ [⟨aliasPath, target⟩] }
          refine ⟨⟨aliasPath, target⟩ :: added, ?_, hok.trans ?_⟩
          · rw [hplan]
            simp
          · simp [htag, hname]
        · rw [exec_bind_error hrun]
          refine ⟨[], by simp, ?_⟩
          simp [htag, hname]

def Call.key : Call → String
  | .image _ summary => "image:" ++ summary.id
  | .container _ containerId => "container:" ++ containerId

/-- The provider of the mount is in the registries. -/
def Call.Registered (plan : NamespacePlan) : Call → Prop
  | .image _ summary => summary.id ∈ plan.registries.images
  | .container _ containerId =>
    containerId ∈ plan.registries.containers ∧ containerId ∈ plan.registries.rootfs

/-- The call has added its mount and registered it. -/
structure Attached (call : Call) (plan plan' : NamespacePlan) : Prop where
  mount : ∃ mount, plan'.mounts = plan.mounts ++ [mount] ∧ mount.key = call.key
  images : ∀ id ∈ plan.registries.images, id ∈ plan'.registries.images
  containers : ∀ id ∈ plan.registries.containers, id ∈ plan'.registries.containers
  rootfs : ∀ id ∈ plan.registries.rootfs, id ∈ plan'.registries.rootfs
  registered : call.Registered plan'

/-- **What a call does to the plan**: nothing without an identity, everything if all
names can be encoded; otherwise it fails and its mount stays. -/
inductive Outcome (call : Call) (plan : NamespacePlan) : Prop where
  | rejected (hidentity : ¬ call.Identified) {e : DaemonError} {plan' : NamespacePlan}
      (hrun : exec call.effects plan = (.error e, plan')) (hcore : plan'.core = plan.core)
  | attached (hidentity : call.Identified)
      (hnames : ∀ name ∈ call.names, ∃ path, name = .ok path) {plan' : NamespacePlan}
      (hrun : exec call.effects plan = (.ok (), plan')) (hattached : Attached call plan plan')
  | abandoned (hidentity : call.Identified)
      (hnames : ¬ ∀ name ∈ call.names, ∃ path, name = .ok path) {e : DaemonError}
      {plan' : NamespacePlan} {mount : NamespaceMount}
      (hrun : exec call.effects plan = (.error e, plan'))
      (hmounts : plan'.mounts = plan.mounts ++ [mount])

theorem outcome_image (env : Environment) (summary : ImageSummary) (plan : NamespacePlan) :
    Outcome (.image env summary) plan := by
  have hrun : exec (Call.effects (.image env summary)) plan = exec (addImage env summary) plan :=
    rfl
  unfold addImage at hrun
  cases hprovider : imageRootfsProvider env summary.id with
  | error e =>
    refine .rejected ?_ (hrun.trans (exec_bind_error (exec_ofVfs_error hprovider plan))) rfl
    rintro ⟨⟨provider, hok⟩, -⟩
    cases hprovider.symm.trans hok
  | ok provider =>
    rw [exec_bind_ok (exec_ofVfs_ok hprovider plan)] at hrun
    cases hpath : imageNamespacePath summary.id with
    | error e =>
      refine .rejected ?_ (hrun.trans (exec_bind_error (exec_ofVfs_error hpath plan))) rfl
      rintro ⟨-, path, hok⟩
      cases hpath.symm.trans hok
    | ok path =>
      rw [exec_bind_ok (exec_ofVfs_ok hpath plan), exec_bind_ok (exec_modify _ _)] at hrun
      have hidentity : Call.Identified (.image env summary) :=
        ⟨⟨provider, hprovider⟩, path, hpath⟩
      obtain ⟨added, hplan, hok⟩ := exec_addTags path summary.repoTags
        { plan with mounts := plan.mounts ++ [⟨path, "image:" ++ summary.id, provider⟩] }
      have hnames : (∀ name ∈ Call.names (.image env summary), ∃ path, name = .ok path) ↔
          ∀ tag ∈ summary.repoTags, tag ≠ "<none>:<none>" →
            ∃ aliasPath, encodedPath "/images" tag = .ok aliasPath := by
        constructor
        · intro hall tag htag hne
          exact hall _ (List.mem_map.mpr
            ⟨tag, List.mem_filter.mpr ⟨htag, by simpa using hne⟩, rfl⟩)
        · intro hall name hname
          obtain ⟨tag, htag, rfl⟩ := List.mem_map.mp hname
          obtain ⟨htag, hne⟩ := List.mem_filter.mp htag
          exact hall tag htag (by simpa using hne)
      rcases htags : exec (addTags path summary.repoTags)
        { plan with mounts := plan.mounts ++ [⟨path, "image:" ++ summary.id, provider⟩] }
        with ⟨e | u, plan₁⟩
      · rw [htags] at hplan hok
        dsimp only at hplan
        refine .abandoned hidentity ?_ (hrun.trans (exec_bind_error htags)) (by rw [hplan])
        intro hall
        exact absurd (hok.mpr (hnames.mp hall)) (by simp)
      · rw [htags] at hplan hok
        rw [exec_bind_ok htags] at hrun
        refine .attached hidentity (hnames.mpr (hok.mp rfl)) hrun ?_
        dsimp only at hplan
        subst hplan
        refine ⟨⟨_, rfl, rfl⟩, ?_, fun id hid => hid, fun id hid => hid, ?_⟩
        · intro id hid
          exact AList.mem_insert _ |>.mpr (.inr hid)
        · exact AList.mem_insert _ |>.mpr (.inl rfl)

/-- A valid identity with mounts below the root makes the providers. -/
theorem containerProviders_ok {containerId : String} (hid : validateIdentity containerId = .ok ())
    (generation : Nat) (destinations : List VirtualPath) {mounts : List ResolvedContainerMount}
    (hmounts : ∀ mount ∈ mounts, BelowRoot mount) :
    ∃ rootfs router,
      ContainerRootfsSnapshotProvider.new containerId generation TarLimits.standard destinations =
        .ok rootfs ∧
      ContainerProviderRouter.new containerId rootfs mounts = .ok router := by
  have hany : (mounts.any fun mount => mount.destination.isRoot) = false := by
    refine List.any_eq_false.mpr ?_
    intro mount hmount hroot
    rw [hmounts mount hmount] at hroot
    cases hroot
  obtain ⟨rootfs, hrootfs⟩ : ∃ rootfs, ContainerRootfsSnapshotProvider.new containerId generation
      TarLimits.standard destinations = .ok rootfs := by
    unfold ContainerRootfsSnapshotProvider.new
    rw [hid]
    exact ⟨_, rfl⟩
  obtain ⟨router, hrouter⟩ : ∃ router, ContainerProviderRouter.new containerId rootfs mounts =
      .ok router := by
    unfold ContainerProviderRouter.new ContainerPathRouter.new
    rw [hid, if_neg (by simp [hany])]
    exact ⟨_, rfl⟩
  exact ⟨rootfs, router, hrootfs, hrouter⟩

/-- The mount and the registrations of `add_container`. -/
theorem attached_container {env : Environment} {containerId : String}
    {plan plan₁ plan₂ : NamespacePlan} {path : VirtualPath}
    (archive : ContainerArchiveProvider) (rootfs : ContainerRootfsSnapshotProvider)
    (router : ContainerProviderRouter) (hcore : plan₁.core = plan.core)
    (hmounts : plan₂.mounts = plan₁.mounts ++
      [⟨path, "container:" ++ containerId, router.toProvider env.failure⟩])
    (hregistries : plan₂.registries = plan₁.registries) :
    Attached (.container env containerId) plan
      { plan₂ with
        registries :=
          { plan₂.registries with
            archives := plan₂.registries.archives ++ [archive]
            rootfs := plan₂.registries.rootfs.insert containerId rootfs
            containers := plan₂.registries.containers.insert containerId router } } := by
  simp only [NamespacePlan.core, Prod.mk.injEq] at hcore
  obtain ⟨hmountsCore, -, himages, hcontainers, hrootfs⟩ := hcore
  refine ⟨⟨_, by rw [hmounts, hmountsCore], rfl⟩, ?_, ?_, ?_, (AList.mem_insert _).mpr (.inl rfl),
    (AList.mem_insert _).mpr (.inl rfl)⟩
  · dsimp only
    rw [hregistries, himages]
    exact fun id hid => hid
  · refine fun id hid => (AList.mem_insert _).mpr (.inr ?_)
    rw [hregistries, hcontainers]
    exact hid
  · refine fun id hid => (AList.mem_insert _).mpr (.inr ?_)
    rw [hregistries, hrootfs]
    exact hid

theorem outcome_container (env : Environment) (containerId : String) (plan : NamespacePlan) :
    Outcome (.container env containerId) plan := by
  have hrun : exec (Call.effects (.container env containerId)) plan =
      exec (addContainer env containerId) plan := rfl
  unfold addContainer at hrun
  -- the calls of `add_container` in their order: what fails first decides the outcome
  cases hdetail : env.inspect containerId with
  | error message =>
    rw [hdetail] at hrun
    refine .rejected ?_ (hrun.trans (exec_bind_error (exec_throw _ _))) rfl
    rintro ⟨⟨detail, hok⟩, -⟩
    cases hdetail.symm.trans hok
  | ok detail =>
    rw [hdetail] at hrun
    dsimp only at hrun
    rw [exec_bind_ok (exec_pure _ _)] at hrun
    cases harchive : ContainerArchiveProvider.new containerId env.archiveSource env.spool
        TarLimits.standard with
    | error e =>
      refine .rejected ?_ (hrun.trans (exec_bind_error (exec_ofVfs_error harchive plan))) rfl
      rintro ⟨-, ⟨archive, hok⟩, -⟩
      cases harchive.symm.trans hok
    | ok archive =>
      rw [exec_bind_ok (exec_ofVfs_ok harchive plan)] at hrun
      obtain ⟨mounted, plan₁, hmounts⟩ := total_containerMounts env detail plan
      -- planning the container's own mounts leaves the plan's core alone
      have hcore : plan₁.core = plan.core := by
        have hkeeps := keeps_containerMounts env detail plan
        rw [hmounts] at hkeeps
        exact hkeeps
      have hbelow := yields_containerMounts env detail plan mounted plan₁ hmounts
      rw [exec_bind_ok hmounts] at hrun
      cases hid : validateIdentity containerId with
      | error e =>
        have hrootfs : ContainerRootfsSnapshotProvider.new containerId env.generation
            TarLimits.standard (mounted.destinations.filter fun d => !d.isRoot) = .error e := by
          unfold ContainerRootfsSnapshotProvider.new
          rw [hid]
          rfl
        refine .rejected ?_ (hrun.trans (exec_bind_error (exec_ofVfs_error hrootfs plan₁))) hcore
        rintro ⟨-, -, hok, -⟩
        cases hid.symm.trans hok
      | ok u =>
        obtain ⟨rootfs, router, hrootfs, hrouter⟩ := containerProviders_ok hid
          env.generation (mounted.destinations.filter fun d => !d.isRoot) hbelow
        rw [exec_bind_ok (exec_ofVfs_ok hrootfs plan₁),
          exec_bind_ok (exec_ofVfs_ok hrouter plan₁)] at hrun
        cases hpath : containerNamespacePath containerId with
        | error e =>
          refine .rejected ?_ (hrun.trans (exec_bind_error (exec_ofVfs_error hpath plan₁))) hcore
          rintro ⟨-, -, -, path, hok⟩
          cases hpath.symm.trans hok
        | ok path =>
          rw [exec_bind_ok (exec_ofVfs_ok hpath plan₁), exec_bind_ok (exec_modify _ _)] at hrun
          have hidentity : Call.Identified (.container env containerId) :=
            ⟨⟨detail, hdetail⟩, ⟨archive, harchive⟩, hid, path, hpath⟩
          -- a name of slashes only has no alias
          by_cases hfriendly : detail.name.toList.dropWhile (· = '/') = []
          · rw [if_neg (not_not_intro hfriendly)] at hrun
            refine .attached hidentity ?_ hrun (attached_container _ _ _ hcore rfl rfl)
            simp [Call.names, hdetail, hfriendly]
          · rw [if_pos hfriendly] at hrun
            have hnames : Call.names (.container env containerId) =
                [encodedPath "/containers"
                  (String.ofList (detail.name.toList.dropWhile (· = '/')))] := by
              simp [Call.names, hdetail, hfriendly]
            cases hname : encodedPath "/containers"
                (String.ofList (detail.name.toList.dropWhile (· = '/'))) with
            | error e =>
              refine .abandoned hidentity ?_
                (hrun.trans (exec_bind_error (exec_ofVfs_error hname _)))
                (by rw [show plan₁.mounts = plan.mounts from congrArg (·.1) hcore])
              rw [hnames]
              simp [hname]
            | ok aliasPath =>
              obtain ⟨target, htarget, -, -⟩ := VirtualPathBytes.new_asBytes path
              rw [exec_bind_ok (exec_ofVfs_ok hname _), exec_bind_ok (exec_ofVfs_ok htarget _),
                exec_bind_ok (exec_modify _ _)] at hrun
              refine .attached hidentity ?_ hrun (attached_container _ _ _ hcore rfl rfl)
              rw [hnames]
              simp [hname]

theorem Call.outcome (call : Call) (plan : NamespacePlan) : Outcome call plan := by
  cases call with
  | image env summary => exact outcome_image env summary plan
  | container env containerId => exact outcome_container env containerId plan

/-! ## Plans that are in sync -/

theorem key_inj {scheme a b : String} (h : scheme ++ a = scheme ++ b) : a = b := by
  have hlist := congrArg String.toList h
  rw [String.toList_append, String.toList_append, List.append_cancel_left_eq] at hlist
  exact String.toList_inj.mp hlist

theorem image_ne_container (a b : String) : "image:" ++ a ≠ "container:" ++ b := by
  intro h
  have hlist := congrArg (fun s => s.toList.head?) h
  simp [String.toList_append] at hlist

theorem InSync.attached (h : InSync plan) (hattached : Attached call plan plan') :
    InSync plan' := by
  obtain ⟨⟨mount, hmounts, hkey⟩, himages, hcontainers, hrootfs, hregistered⟩ := hattached
  constructor
  · intro m hm id hid
    rw [hmounts] at hm
    rcases List.mem_append.mp hm with hm | hm
    · exact himages id (h.images m hm id hid)
    · cases List.mem_singleton.mp hm
      rw [hid] at hkey
      cases call with
      | image env summary =>
        rw [key_inj hkey]
        exact hregistered
      | container env containerId => exact absurd hkey (image_ne_container _ _)
  · intro m hm id hid
    rw [hmounts] at hm
    rcases List.mem_append.mp hm with hm | hm
    · obtain ⟨hc, hr⟩ := h.containers m hm id hid
      exact ⟨hcontainers id hc, hrootfs id hr⟩
    · cases List.mem_singleton.mp hm
      rw [hid] at hkey
      cases call with
      | image env summary => exact absurd hkey.symm (image_ne_container _ _)
      | container env containerId =>
        rw [key_inj hkey]
        exact hregistered

theorem InSync.of_core (h : InSync plan) (hcore : plan'.core = plan.core) : InSync plan' := by
  have hmounts : plan'.mounts = plan.mounts := congrArg (·.1) hcore
  have himages : plan'.registries.images = plan.registries.images := congrArg (·.2.2.1) hcore
  have hcontainers : plan'.registries.containers = plan.registries.containers :=
    congrArg (·.2.2.2.1) hcore
  have hrootfs : plan'.registries.rootfs = plan.registries.rootfs := congrArg (·.2.2.2.2) hcore
  constructor
  · intro mount hmount id hid
    rw [himages]
    exact h.images mount (hmounts ▸ hmount) id hid
  · intro mount hmount id hid
    rw [hcontainers, hrootfs]
    exact h.containers mount (hmounts ▸ hmount) id hid

theorem InSync.step (h : InSync plan) (hnameable : call.Nameable) :
    InSync (exec call.effects plan).2 := by
  cases call.outcome plan with
  | rejected _ hrun hcore =>
    rw [hrun]
    exact h.of_core hcore
  | attached _ _ hrun hattached =>
    rw [hrun]
    exact h.attached hattached
  | abandoned hidentity hnames _ _ => exact absurd (hnameable hidentity) hnames

theorem InSync.fill {calls : List Call} (hnameable : ∀ call ∈ calls, call.Nameable) :
    ∀ {plan : NamespacePlan}, InSync plan → InSync (fill plan calls) := by
  induction calls with
  | nil =>
    intro plan h
    exact h
  | cons call calls ih =>
    intro plan h
    exact ih (fun c hc => hnameable c (by simp [hc])) (h.step (hnameable call (by simp)))

theorem Call.clean_iff (call : Call) (plan : NamespacePlan) :
    call.Clean plan ↔ call.Nameable := by
  cases call.outcome plan with
  | rejected hidentity hrun hcore =>
    refine ⟨fun _ hidentity' => absurd hidentity' hidentity, fun _ e plan' hrun' => ?_⟩
    rw [hrun] at hrun'
    cases hrun'
    exact ⟨congrArg (·.1) hcore, congrArg (·.2.1) hcore⟩
  | attached _ hnames hrun _ =>
    refine ⟨fun _ _ => hnames, fun _ e plan' hrun' => ?_⟩
    rw [hrun] at hrun'
    cases hrun'
  | abandoned hidentity hnames hrun hmounts =>
    constructor
    · intro hclean
      obtain ⟨hsame, -⟩ := hclean _ _ hrun
      rw [hmounts] at hsame
      simp at hsame
    · intro hnameable
      exact absurd (hnameable hidentity) hnames

/-- **Plan consistency.** From the empty plan, a list of calls leads to a plan in sync
with every failed call undone on mounts and aliases exactly when each call that
gets to its mount can encode its tags or its friendly name. -/
theorem plan_consistent_iff (calls : List Call) :
    (InSync (fill NamespacePlan.empty calls) ∧
      ∀ before call after, calls = before ++ call :: after →
        call.Clean (fill NamespacePlan.empty before)) ↔
      ∀ call ∈ calls, call.Nameable := by
  constructor
  · rintro ⟨-, hclean⟩ call hcall
    obtain ⟨before, after, hsplit⟩ := List.append_of_mem hcall
    exact (call.clean_iff _).mp (hclean before call after hsplit)
  · intro hnameable
    refine ⟨InSync.fill hnameable ⟨by simp [NamespacePlan.empty], by simp [NamespacePlan.empty]⟩,
      ?_⟩
    intro before call after hsplit
    exact (call.clean_iff _).mpr (hnameable call (by simp [hsplit]))

/-! ## A tag that is too long -/

def silent : Environment where
  inspect _ := .error "no such container"
  localBind _ := .error .notFound
  helperBind _ := .error .notFound
  imageProvider _ := ⟨fun _ _ => .error .notFound, fun _ => .error .notFound,
    fun _ => .error .notFound, fun _ => .error .notFound⟩
  volumeProvider _ := ⟨fun _ _ => .error .notFound, fun _ => .error .notFound,
    fun _ => .error .notFound, fun _ => .error .notFound⟩
  archiveSource _ _ := .error .notFound
  spool := ⟨.standard, ContentSpoolLimits.validate_standard, 0, ContentSpoolLimits.zero_le_standard⟩
  generation := 1
  failure := .notFound

def longTagImage : ImageSummary where
  id := String.ofList ("sha256:".toList ++ List.replicate 64 'a')
  repoTags := [String.ofList (List.replicate 256 'a')]

/-- `encoded_path` on a text given by its characters. -/
theorem encodedPath_ofList (parent : String) {cs : List Char} (hnul : Char.ofNat 0 ∉ cs)
    (hlong : 2 < cs.length) :
    encodedPath parent (String.ofList cs) = (do
      let parent ← VirtualPath.fromAbsolute (ascii parent)
      let name ← VirtualFileName.new (cs.flatMap FuseNameCodec.encodeChar)
      parent.join name) := by
  have hne : ∀ text : String, text.toList.length ≤ 2 → String.ofList cs ≠ text := by
    rintro text hshort rfl
    rw [String.toList_ofList] at hshort
    omega
  have hencode : FuseNameCodec.encode (String.ofList cs) =
      .ok (cs.flatMap FuseNameCodec.encodeChar) := by
    unfold FuseNameCodec.encode
    rw [String.toList_ofList, if_neg hnul, if_neg (hne _ (by decide)), if_neg (hne _ (by decide))]
  unfold encodedPath
  rw [hencode]
  rfl

/-- A first tag that cannot be encoded ends `add_image` with the mount in the plan. -/
theorem exec_addImage_tag_error {env : Environment} {image : ImageSummary} {provider : Provider}
    {path : VirtualPath} {tag : String} {tags : List String}
    (hprovider : imageRootfsProvider env image.id = .ok provider)
    (hpath : imageNamespacePath image.id = .ok path) (htags : image.repoTags = tag :: tags)
    (hnone : tag ≠ "<none>:<none>") (htag : encodedPath "/images" tag = .error e)
    (plan : NamespacePlan) : exec (addImage env image) plan = (.error (.vfs e),
      { plan with mounts := plan.mounts ++ [⟨path, "image:" ++ image.id, provider⟩] }) := by
  unfold addImage
  rw [exec_bind_ok (exec_ofVfs_ok hprovider plan), exec_bind_ok (exec_ofVfs_ok hpath plan),
    exec_bind_ok (exec_modify _ _), htags]
  apply exec_bind_error
  unfold addTags addTag
  rw [if_neg hnone]
  exact exec_bind_error (exec_bind_error (exec_ofVfs_error htag _))

theorem exec_addImage_longTagImage : ∃ mount : NamespaceMount,
    exec (addImage silent longTagImage) NamespacePlan.empty =
      (.error (.vfs .nameTooLong),
        { NamespacePlan.empty with
          mounts := [mount] }) ∧ mount.key = "image:" ++ longTagImage.id := by
  have htext : longTagImage.id = String.ofList ("sha256:".toList ++ List.replicate 64 'a') := rfl
  have hid : longTagImage.id.toList = "sha256:".toList ++ List.replicate 64 'a' :=
    String.toList_ofList
  have hobject : validateObjectId longTagImage.id = .ok () := by
    unfold validateObjectId
    rw [hid]
    decide +kernel
  have himage : validateImageId longTagImage.id = .ok () := by
    unfold validateImageId
    rw [hid]
    decide +kernel
  obtain ⟨provider, hprovider⟩ : ∃ provider,
      imageRootfsProvider silent longTagImage.id = .ok provider := by
    unfold imageRootfsProvider ContainerArchiveProvider.new
    rw [hobject, himage]
    exact ⟨_, rfl⟩
  obtain ⟨path, hpath⟩ : ∃ path, imageNamespacePath longTagImage.id = .ok path := by
    unfold imageNamespacePath
    rw [htext, encodedPath_ofList _ (by decide +kernel) (by decide +kernel)]
    exact exists_ok_of_isOk (by decide +kernel)
  have htag : encodedPath "/images" (String.ofList (List.replicate 256 'a')) =
      .error .nameTooLong := by
    rw [encodedPath_ofList _ (by decide +kernel) (by decide +kernel)]
    decide +kernel
  have hnone : String.ofList (List.replicate 256 'a') ≠ "<none>:<none>" := by
    intro h
    have hlength := congrArg (fun text => text.toList.length) h
    rw [String.toList_ofList, List.length_replicate] at hlength
    exact absurd hlength (by decide)
  exact ⟨_, exec_addImage_tag_error hprovider hpath rfl hnone htag NamespacePlan.empty, rfl⟩

/-- `add_image` fails on the tag and leaves the mount without its provider. -/
theorem long_tag_leaves_mount :
    (exec (addImage silent longTagImage) NamespacePlan.empty).1 = .error (.vfs .nameTooLong) ∧
      (fill NamespacePlan.empty [.image silent longTagImage]).mounts.map (fun m => m.key) =
        ["image:" ++ longTagImage.id] ∧
      ¬ InSync (fill NamespacePlan.empty [.image silent longTagImage]) ∧
      ¬ Call.Clean (.image silent longTagImage) NamespacePlan.empty := by
  obtain ⟨mount, hrun, hkey⟩ := exec_addImage_longTagImage
  have hplan : fill NamespacePlan.empty [.image silent longTagImage] =
      { NamespacePlan.empty with mounts := [mount] } := by
    unfold fill
    rw [List.foldl_cons, List.foldl_nil]
    show (exec (addImage silent longTagImage) NamespacePlan.empty).2 = _
    rw [hrun]
  rw [hplan, hrun]
  refine ⟨rfl, by simp [hkey], ?_, ?_⟩
  · intro hsync
    exact AList.notMem_empty _ (hsync.images mount (by simp) longTagImage.id hkey)
  · intro hclean
    have hsame := (hclean _ _ hrun).1
    simp [NamespacePlan.empty] at hsame

end TuxStack.Daemon
