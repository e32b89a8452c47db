import Mathlib.Data.List.AList
import TuxStack.Gui.Text
import TuxStack.Lib.DistinctKeys
import TuxStack.Lib.IpAddr
import TuxStack.Lib.LexicalPath

/-!
# Requests for a new container

`CreateContainerRequest::validate` (`crates/tuxstack-domain/src/container.rs`) and
`create_body` (`crates/docker-core/src/services/containers.rs`): what the page asks for is
checked entry by entry, and made into the body that Docker gets.

A published port is a duplicate when the same address, port and protocol were seen before.
An address that is left out, and `0.0.0.0` or `::`, stand for every address of the host, and
are not compared with the others (`wildcard_port_accepted`); `separated_iff` says that nothing
else is missed.
-/

namespace TuxStack.Docker

open Net
open DistinctKeys
open Result
open Lexical (Seg)

/-! ## The request -/

inductive ContainerPortProtocol where
  | tcp
  | udp
  | sctp
deriving DecidableEq

def ContainerPortProtocol.asStr : ContainerPortProtocol → String
  | tcp => "tcp"
  | udp => "udp"
  | sctp => "sctp"

structure CreateContainerPort where
  containerPort : UInt16
  protocol : ContainerPortProtocol
  hostIp : Option String
  hostPort : Option UInt16
deriving DecidableEq

inductive CreateContainerMount where
  | volume (source destination : String) (readOnly : Bool)
  | bind (source destination : String) (readOnly : Bool) (propagation : Option String)
  | tmpfs (destination : String) (sizeBytes : Option UInt64) (mode : Option UInt32)
deriving DecidableEq

def CreateContainerMount.destination : CreateContainerMount → String
  | volume _ destination _ => destination
  | bind _ destination _ _ => destination
  | tmpfs destination _ _ => destination

structure CreateEnvironmentVariable where
  key : String
  value : String
deriving DecidableEq

structure CreateContainerNetwork where
  name : String
  aliases : List String
  ipv4Address : Option String
  ipv6Address : Option String
deriving DecidableEq

inductive ContainerRestartPolicyName where
  | no
  | always
  | unlessStopped
  | onFailure
deriving DecidableEq

structure ContainerRestartPolicy where
  name : ContainerRestartPolicyName := .no
  maximumRetryCount : Option UInt64 := none
deriving DecidableEq

structure CreateContainerResources where
  cpuCoresMillis : Option UInt32 := none
  memoryBytes : Option UInt64 := none
  pidsLimit : Option Int := none
deriving DecidableEq

/-- `CreateContainerRequest`; its labels have keys of their own. -/
structure CreateContainerRequest where
  name : Option String := none
  image : String
  platform : Option String := none
  hostname : Option String := none
  domainName : Option String := none
  entrypoint : List String := []
  command : List String := []
  workingDirectory : Option String := none
  user : Option String := none
  tty : Bool := false
  openStdin : Bool := false
  ports : List CreateContainerPort := []
  mounts : List CreateContainerMount := []
  environment : List CreateEnvironmentVariable := []
  networks : List CreateContainerNetwork := []
  resources : CreateContainerResources := {}
  restartPolicy : ContainerRestartPolicy := {}
  labels : List (String × String) := []
  readOnlyRootfs : Bool := false
  privileged : Bool := false
  autoRemove : Bool := false
  createAndStart : Bool := false

/-! ## Validation -/

inductive CreateContainerValidationError where
  | missingImage
  | invalidName (name : String)
  | invalidContainerPort
  | invalidHostPort
  | invalidHostIp
  | duplicatePortBinding
  | invalidMountDestination (destination : String)
  | duplicateMountDestination (destination : String)
  | invalidMountSource
  | invalidTmpfsSize
  | invalidTmpfsMode
  | invalidWorkingDirectory
  | invalidTextValue
  | invalidOrDuplicateEnvironmentKey (key : String)
  | invalidOrDuplicateNetwork (name : String)
  | invalidCpuLimit
  | invalidMemoryLimit
  | invalidPidsLimit
  | invalidRestartPolicy
deriving DecidableEq

/-- A check that stands alone. -/
def refuseIf {ε : Type} (condition : Prop) [Decidable condition] (error : ε) : Except ε Unit :=
  if condition then .error error else .ok ()

@[simp] theorem refuseIf_eq_ok {ε : Type} {condition : Prop} [Decidable condition] {error : ε} :
    refuseIf condition error = .ok () ↔ ¬ condition := by
  unfold refuseIf
  split
  · next h => simp [h]
  · next h => simp [h]

def hasNul (text : String) : Bool := Char.ofNat 0 ∈ text.toList

def isAsciiAlphanumeric (c : Char) : Bool :=
  c.isDigit || ('a' ≤ c && c ≤ 'z') || ('A' ≤ c && c ≤ 'Z')

def validContainerName (name : String) : Bool :=
  match name.toList with
  | [] => false
  | first :: rest =>
    isAsciiAlphanumeric first &&
      rest.all fun c => isAsciiAlphanumeric c || c = '_' || c = '.' || c = '-'

def validContainerPath (path : String) : Bool :=
  path = "/" ∨ path.toList.head? = some '/' ∧ ¬ hasNul path ∧
    ∀ component ∈ (path.toList.splitOn '/').drop 1,
      component ≠ [] ∧ component ≠ ['.'] ∧ component ≠ ['.', '.']

/-- The address of a published port, with the error for a text that is none. -/
def hostAddress (hostIp : Option String) : Except CreateContainerValidationError (Option IpAddr) :=
  match hostIp with
  | none => .ok none
  | some text =>
    match parseIpAddr text with
    | none => .error .invalidHostIp
    | some address => .ok (some address)

/-- What a port is compared by: address, port and protocol on the host. -/
abbrev BindingKey : Type := Option IpAddr × UInt16 × String

/-- The checks of a port, and what it is compared by. -/
def CreateContainerPort.look (port : CreateContainerPort) :
    Except CreateContainerValidationError (Option BindingKey) := do
  refuseIf (port.containerPort = 0) .invalidContainerPort
  refuseIf (port.hostIp.any fun address => (parseIpAddr address).isNone) .invalidHostIp
  refuseIf (port.hostPort = some 0) .invalidHostPort
  match port.hostPort with
  | none => return none
  | some hostPort => return some (← hostAddress port.hostIp, hostPort, port.protocol.asStr)

def CreateContainerMount.check : CreateContainerMount → Except CreateContainerValidationError Unit
  | volume source _ _ => refuseIf (trim source = "") .invalidMountSource
  | bind source _ _ _ => refuseIf (¬ validContainerPath source) .invalidMountSource
  | tmpfs _ sizeBytes mode => do
      refuseIf (sizeBytes = some 0) .invalidTmpfsSize
      refuseIf (mode.any (· > 0o7777)) .invalidTmpfsMode

def CreateContainerMount.look (mount : CreateContainerMount) :
    Except CreateContainerValidationError (Option String) := do
  refuseIf (¬ validContainerPath mount.destination) (.invalidMountDestination mount.destination)
  mount.check
  return some mount.destination

def CreateEnvironmentVariable.look (item : CreateEnvironmentVariable) :
    Except CreateContainerValidationError (Option String) := do
  refuseIf (item.key = "" ∨ '=' ∈ item.key.toList ∨ hasNul item.key ∨
    hasNul item.value) (.invalidOrDuplicateEnvironmentKey item.key)
  return some item.key

/-- An alias that is blank, has a NUL, or was given before. -/
def badAliases (aliases : List String) : Bool :=
  ! (pass (fun name => do refuseIf (trim name = "" ∨ hasNul name) (); return some name)
      (fun _ => ()) aliases).isOk

def CreateContainerNetwork.look (network : CreateContainerNetwork) :
    Except CreateContainerValidationError (Option String) := do
  refuseIf (trim network.name = "" ∨ hasNul network.name ∨ badAliases network.aliases ∨
    (network.ipv4Address.any fun address => (parseIpv4Addr address).isNone) ∨
    network.ipv6Address.any fun address => (parseIpv6Addr address).isNone)
    (.invalidOrDuplicateNetwork network.name)
  return some network.name

namespace CreateContainerRequest

def validate (r : CreateContainerRequest) : Except CreateContainerValidationError Unit := do
  refuseIf (trim r.image = "") .missingImage
  refuseIf (r.name.any (! validContainerName ·)) (.invalidName (r.name.getD ""))
  pass (·.look) (fun _ => .duplicatePortBinding) r.ports
  refuseIf (r.workingDirectory.any (! validContainerPath ·)) .invalidWorkingDirectory
  pass (·.look) (fun mount => .duplicateMountDestination mount.destination) r.mounts
  pass (·.look) (fun item => .invalidOrDuplicateEnvironmentKey item.key) r.environment
  pass (·.look) (fun network => .invalidOrDuplicateNetwork network.name) r.networks
  refuseIf (r.resources.cpuCoresMillis = some 0) .invalidCpuLimit
  refuseIf (r.resources.memoryBytes = some 0) .invalidMemoryLimit
  refuseIf (r.resources.pidsLimit.any (· ≤ 0)) .invalidPidsLimit
  refuseIf ((r.restartPolicy.name ≠ .onFailure ∧ r.restartPolicy.maximumRetryCount.isSome) ∨
    (r.autoRemove ∧ r.restartPolicy.name ≠ .no)) .invalidRestartPolicy
  refuseIf ((r.labels.any fun (key, value) => trim key = "" || hasNul key || hasNul value) ∨
    (r.command ++ r.entrypoint).any hasNul) .invalidTextValue

end CreateContainerRequest

/-! ## The body for Docker -/

structure BollardPortBinding where
  hostIp : Option String
  hostPort : Option String
deriving DecidableEq

inductive MountType where
  | volume
  | bind
  | tmpfs
deriving DecidableEq

inductive MountBindPropagation where
  | «private»
  | rprivate
  | shared
  | rshared
  | slave
  | rslave
deriving DecidableEq

structure MountTmpfsOptions where
  sizeBytes : Option Int
  mode : Option Int
deriving DecidableEq

/-- `Mount`; of the options of a bind there is the propagation. -/
structure BollardMount where
  target : Option String
  source : Option String := none
  typ : Option MountType
  readOnly : Option Bool := none
  bindOptions : Option MountBindPropagation := none
  tmpfsOptions : Option MountTmpfsOptions := none
deriving DecidableEq

structure BollardRestartPolicy where
  name : ContainerRestartPolicyName
  maximumRetryCount : Option Int
deriving DecidableEq

abbrev PortMap : Type := AList fun _ : String => Option (List BollardPortBinding)

structure HostConfig where
  memory : Option Int
  nanoCpus : Option Int
  pidsLimit : Option Int
  portBindings : Option PortMap
  restartPolicy : Option BollardRestartPolicy
  mounts : Option (List BollardMount)
  autoRemove : Option Bool
  privileged : Option Bool
  readonlyRootfs : Option Bool

/-- `EndpointSettings` with the addresses of its `EndpointIpamConfig`. -/
structure EndpointSettings where
  aliases : Option (List String)
  ipamConfig : Option (Option String × Option String)
deriving DecidableEq

/-- `ContainerCreateBody`; the networking has one endpoint at most. -/
structure ContainerCreateBody where
  hostname : Option String
  domainname : Option String
  user : Option String
  attachStdin : Option Bool
  tty : Option Bool
  openStdin : Option Bool
  exposedPorts : Option (List String)
  env : Option (List String)
  cmd : Option (List String)
  image : Option String
  workingDir : Option String
  entrypoint : Option (List String)
  labels : Option (List (String × String))
  hostConfig : Option HostConfig
  networkingConfig : Option (String × EndpointSettings)

/-- `DockerError::InvalidContainerConfig`. -/
structure InvalidContainerConfig where
  message : String
deriving DecidableEq

/-- `i64::try_from` with the message of its failure. -/
def toI64 (message : String) (n : UInt64) : Except InvalidContainerConfig Int :=
  if n.toNat < 2 ^ 63 then .ok n.toNat else .error ⟨message⟩

/-- `(!items.is_empty()).then_some(items)`. -/
def nonEmpty {α : Type} (items : List α) : Option (List α) :=
  if items.isEmpty then none else some items

def endpointSettings (network : CreateContainerNetwork) : EndpointSettings where
  aliases := nonEmpty network.aliases
  ipamConfig :=
    if network.ipv4Address.isSome || network.ipv6Address.isSome then
      some (network.ipv4Address, network.ipv6Address)
    else none

def bindPropagation (value : String) : Except InvalidContainerConfig MountBindPropagation :=
  if value = "private" then .ok .private
  else if value = "rprivate" then .ok .rprivate
  else if value = "shared" then .ok .shared
  else if value = "rshared" then .ok .rshared
  else if value = "slave" then .ok .slave
  else if value = "rslave" then .ok .rslave
  else .error ⟨"invalid bind propagation: " ++ value⟩

def mapCreateMount : CreateContainerMount → Except InvalidContainerConfig BollardMount
  | .volume source destination readOnly =>
    .ok { target := destination, source, typ := some .volume, readOnly }
  | .bind source destination readOnly propagation => do
      let bindOptions ← propagation.mapM bindPropagation
      return { target := destination, source, typ := some .bind, readOnly, bindOptions }
  | .tmpfs destination sizeBytes mode => do
      let sizeBytes ← sizeBytes.mapM (toI64 "tmpfs size is too large")
      let mode := mode.map fun mode => (mode.toNat : Int)
      return { target := destination, typ := some .tmpfs, tmpfsOptions := some ⟨sizeBytes, mode⟩ }

/-- `format!("{}/{}", port.container_port, port.protocol.as_str())`. -/
def portKey (containerPort : UInt16) (protocol : ContainerPortProtocol) : String :=
  toString containerPort ++ "/" ++ protocol.asStr

def CreateContainerPort.key (port : CreateContainerPort) : String :=
  portKey port.containerPort port.protocol

def CreateContainerPort.binding (port : CreateContainerPort) : BollardPortBinding :=
  ⟨port.hostIp, port.hostPort.map toString⟩

/-- `entry(key).or_default().get_or_insert_with(Vec::new).push(..)`. -/
def addBinding (bindings : PortMap) (port : CreateContainerPort) : PortMap :=
  let entry := (bindings.lookup port.key).getD none
  bindings.insert port.key (some (entry.getD [] ++ [port.binding]))

def createBody (request : CreateContainerRequest) (firstNetwork : Option CreateContainerNetwork) :
    Except InvalidContainerConfig ContainerCreateBody := do
  let portBindings := request.ports.foldl addBinding ∅
  let mounts ← request.mounts.mapM mapCreateMount
  let memory ← request.resources.memoryBytes.mapM (toI64 "memory limit is too large")
  let maximumRetryCount ←
    request.restartPolicy.maximumRetryCount.mapM (toI64 "restart count is too large")
  return {
    hostname := request.hostname
    domainname := request.domainName
    user := request.user
    attachStdin := some request.openStdin
    tty := some request.tty
    openStdin := some request.openStdin
    exposedPorts := nonEmpty (request.ports.map (·.key))
    env := nonEmpty (request.environment.map fun item => item.key ++ "=" ++ item.value)
    cmd := nonEmpty request.command
    image := some request.image
    workingDir := request.workingDirectory
    entrypoint := nonEmpty request.entrypoint
    labels := nonEmpty request.labels
    hostConfig := some {
      memory
      nanoCpus := request.resources.cpuCoresMillis.map fun value => value.toNat * 1000000
      pidsLimit := request.resources.pidsLimit
      portBindings := if portBindings.entries.isEmpty then none else some portBindings
      restartPolicy := some ⟨request.restartPolicy.name, maximumRetryCount⟩
      mounts := nonEmpty mounts
      autoRemove := some request.autoRemove
      privileged := some request.privileged
      readonlyRootfs := some request.readOnlyRootfs }
    networkingConfig := firstNetwork.map fun network => (network.name, endpointSettings network) }

/-! ## Sockets of the host -/

namespace CreateContainerPort

variable {a b port : CreateContainerPort}

def address (port : CreateContainerPort) : Option IpAddr := port.hostIp.bind parseIpAddr

/-- No address, or the unspecified one: every address of the host. -/
def Wildcard (port : CreateContainerPort) : Prop :=
  port.hostIp = none ∨ port.address.any IpAddr.isUnspecified

/-- The ports are published under one number and protocol. -/
def SamePort (a b : CreateContainerPort) : Prop :=
  a.hostPort.isSome ∧ a.hostPort = b.hostPort ∧ a.protocol = b.protocol

/-- The ports ask for the same socket of the host. -/
def Competes (a b : CreateContainerPort) : Prop :=
  a.SamePort b ∧ (a.address = b.address ∨ a.Wildcard ∨ b.Wildcard)

instance : Decidable port.Wildcard := inferInstanceAs (Decidable (_ ∨ _))

instance : Decidable (a.SamePort b) := inferInstanceAs (Decidable (_ ∧ _ ∧ _))

instance : Decidable (a.Competes b) := inferInstanceAs (Decidable (_ ∧ (_ ∨ _)))

/-- What an accepted port is compared by. -/
def bindingKey (port : CreateContainerPort) : Option BindingKey :=
  port.hostPort.map fun hostPort => (port.address, hostPort, port.protocol.asStr)

theorem hostAddress_eq {hostIp : Option String} {found : Option IpAddr}
    (h : hostAddress hostIp = .ok found) : found = hostIp.bind parseIpAddr := by
  unfold hostAddress at h
  cases hostIp with
  | none =>
    cases h
    rfl
  | some text =>
    rw [Option.bind_some]
    cases hparse : parseIpAddr text with
    | none => simp [hparse] at h
    | some address =>
      simp only [hparse] at h
      cases h
      rfl

theorem look_eq {found : Option BindingKey} (h : port.look = .ok found) :
    found = port.bindingKey := by
  obtain ⟨⟨⟩, -, h⟩ := bind_eq_ok.mp h
  obtain ⟨⟨⟩, -, h⟩ := bind_eq_ok.mp h
  obtain ⟨⟨⟩, -, h⟩ := bind_eq_ok.mp h
  unfold bindingKey
  cases hport : port.hostPort with
  | none =>
    rw [hport] at h
    cases h
    rfl
  | some hostPort =>
    rw [hport] at h
    obtain ⟨found, hfound, h⟩ := bind_eq_ok.mp h
    cases h
    rw [hostAddress_eq hfound]
    rfl

theorem asStr_injective {p q : ContainerPortProtocol} (h : p.asStr = q.asStr) : p = q := by
  cases p with
  | tcp | udp | sctp => cases q <;> first | rfl | exact absurd h (by decide)

end CreateContainerPort

/-! ## Paths in the container -/

/-- The segments of a path: empty ones and `.` go nowhere. -/
def pathSegments (path : String) : List (Seg (List Char)) :=
  (path.toList.splitOn '/').filterMap fun component =>
    if component = [] ∨ component = ['.'] then none
    else if component = ['.', '.'] then some .up
    else some (.down component)

/-- Where an absolute path leads to, as names below the root; above the root is the root. -/
def containerPath (path : String) : List (List Char) := (Lexical.normal (pathSegments path)).2

theorem normal_down {α : Type} (names : List α) :
    Lexical.normal (names.map Seg.down) = (0, names) := by
  induction names using List.reverseRecOn with
  | nil => rfl
  | append_singleton names name ih =>
    rw [List.map_append, List.map_singleton, Lexical.normal_snoc, ih]
    rfl

/-- **A valid path is a normal one**: its components are the names that it leads through. -/
theorem containerPath_of_valid {path : String} (h : validContainerPath path = true)
    (hroot : path ≠ "/") : path.toList.splitOn '/' = [] :: containerPath path := by
  obtain ⟨hhead, -, hparts⟩ := (of_decide_eq_true h).resolve_left hroot
  obtain ⟨rest, hrest⟩ : ∃ rest, path.toList = '/' :: rest := by
    cases hlist : path.toList with
    | nil => simp [hlist] at hhead
    | cons c rest =>
      rw [hlist] at hhead
      cases hhead
      exact ⟨rest, rfl⟩
  have hsplit : path.toList.splitOn '/' = [] :: rest.splitOn '/' := by
    rw [hrest, ← List.nil_append ('/' :: rest),
      List.splitOn_append_cons_self_of_not_mem List.not_mem_nil]
  rw [hsplit, List.drop_one, List.tail_cons] at hparts
  unfold containerPath pathSegments
  rw [hsplit]
  congr 1
  have hsegments : (rest.splitOn '/').filterMap (fun component =>
      if component = [] ∨ component = ['.'] then none
      else if component = ['.', '.'] then some Seg.up
      else some (.down component)) = (rest.splitOn '/').map Seg.down := by
    rw [← List.filterMap_eq_map]
    refine List.filterMap_congr fun component hmem => ?_
    obtain ⟨hempty, hself, hparent⟩ := hparts component hmem
    rw [if_neg (by simp [hempty, hself]), if_neg hparent]
    rfl
  rw [List.filterMap_cons, if_pos (.inl rfl), hsegments, normal_down]

/-- **Different valid paths lead to different places.** -/
theorem containerPath_injOn {a b : String} (ha : validContainerPath a = true)
    (hb : validContainerPath b = true) (h : containerPath a = containerPath b) : a = b := by
  have hne : ∀ {path : String}, validContainerPath path = true → path ≠ "/" →
      containerPath path ≠ containerPath "/" := by
    intro path hpath hroot hsame
    have hsplit := containerPath_of_valid hpath hroot
    rw [hsame, show containerPath "/" = [] by decide] at hsplit
    obtain ⟨hhead, -⟩ := (of_decide_eq_true hpath).resolve_left hroot
    have hback : List.intercalate ['/'] (path.toList.splitOn '/') = path.toList :=
      List.intercalate_splitOn '/'
    rw [hsplit] at hback
    rw [← hback] at hhead
    cases hhead
  by_cases hra : a = "/"
  · by_cases hrb : b = "/"
    · rw [hra, hrb]
    · exact absurd (hra ▸ h.symm) (hne hb hrb)
  · by_cases hrb : b = "/"
    · exact absurd (hrb ▸ h) (hne ha hra)
    · have hsplit : a.toList.splitOn '/' = b.toList.splitOn '/' := by
        rw [containerPath_of_valid ha hra, containerPath_of_valid hb hrb, h]
      have hlist := congrArg (List.intercalate ['/']) hsplit
      rw [List.intercalate_splitOn, List.intercalate_splitOn] at hlist
      exact String.toList_inj.mp hlist

variable {found : Option String} {body : ContainerCreateBody}
  {firstNetwork : Option CreateContainerNetwork} {request : CreateContainerRequest}

theorem CreateContainerMount.look_eq {mount : CreateContainerMount} (h : mount.look = .ok found) :
    found = some mount.destination ∧ validContainerPath mount.destination = true := by
  obtain ⟨⟨⟩, hvalid, h⟩ := bind_eq_ok.mp h
  obtain ⟨⟨⟩, -, h⟩ := bind_eq_ok.mp h
  cases h
  rw [refuseIf_eq_ok, not_not] at hvalid
  exact ⟨rfl, hvalid⟩

theorem CreateEnvironmentVariable.look_eq {item : CreateEnvironmentVariable}
    (h : item.look = .ok found) : found = some item.key := by
  obtain ⟨⟨⟩, -, h⟩ := bind_eq_ok.mp h
  cases h
  rfl

theorem CreateContainerNetwork.look_eq {network : CreateContainerNetwork}
    (h : network.look = .ok found) : found = some network.name := by
  obtain ⟨⟨⟩, -, h⟩ := bind_eq_ok.mp h
  cases h
  rfl

/-! ## Port bindings -/

theorem toDigits_toString (port : UInt16) :
    (toString port).toList = Nat.toDigits 10 port.toNat := by
  show (toString port.toNat).toList = _
  rw [Nat.toString_eq_repr, Nat.toList_repr]

theorem slash_notMem_toString (port : UInt16) : '/' ∉ (toString port).toList := by
  rw [toDigits_toString]
  intro hmem
  exact absurd (Nat.isDigit_of_mem_toDigits (by decide) (by decide) hmem) (by decide)

/-- The keys of the bindings keep ports and protocols apart. -/
theorem portKey_injective {m n : UInt16} {p q : ContainerPortProtocol}
    (h : portKey m p = portKey n q) : m = n ∧ p = q := by
  have hlist : ∀ (port : UInt16) (protocol : ContainerPortProtocol),
      (portKey port protocol).toList = (toString port).toList ++ '/' :: protocol.asStr.toList := by
    intro port protocol
    unfold portKey
    rw [String.toList_append, String.toList_append, List.append_assoc]
    rfl
  have hsplit : (toString m).toList :: p.asStr.toList.splitOn '/' =
      (toString n).toList :: q.asStr.toList.splitOn '/' := by
    rw [← List.splitOn_append_cons_self_of_not_mem (slash_notMem_toString m),
      ← List.splitOn_append_cons_self_of_not_mem (slash_notMem_toString n), ← hlist, ← hlist, h]
  obtain ⟨hport, -⟩ := List.cons.inj hsplit
  have hchars := congrArg String.toList h
  rw [hlist, hlist, hport] at hchars
  refine ⟨?_, ?_⟩
  · rw [toDigits_toString, toDigits_toString] at hport
    apply UInt16.toNat_inj.mp
    rw [← Nat.ofDigitChars_ten_toDigits (n := m.toNat), hport, Nat.ofDigitChars_ten_toDigits]
  · have hprotocol := (List.cons.inj (List.append_cancel_left hchars)).2
    exact CreateContainerPort.asStr_injective (String.toList_inj.mp hprotocol)

section Bindings

variable {ports : List CreateContainerPort} {bindings : PortMap} {key : String}

def bindingsUnder (ports : List CreateContainerPort) (key : String) : List BollardPortBinding :=
  (ports.filter (·.key = key)).map (·.binding)

def PortMap.at (bindings : PortMap) (key : String) : List BollardPortBinding :=
  ((bindings.lookup key).getD none).getD []

theorem lookup_addBinding {port : CreateContainerPort} :
    (addBinding bindings port).lookup key =
      if port.key = key then some (some (bindings.at key ++ [port.binding]))
      else bindings.lookup key := by
  unfold addBinding
  split
  · next hkey =>
    subst hkey
    rw [AList.lookup_insert]
    rfl
  · next hkey => rw [AList.lookup_insert_ne (Ne.symm hkey)]

/-- **The bindings of a key stand in the order of the ports**, behind what the map had. -/
theorem lookup_foldl_addBinding : ∀ {bindings : PortMap},
    (ports.foldl addBinding bindings).lookup key =
      if bindingsUnder ports key = [] then bindings.lookup key
      else some (some (bindings.at key ++ bindingsUnder ports key)) := by
  induction ports with
  | nil =>
    intro bindings
    rw [List.foldl_nil]
    rfl
  | cons port ports ih =>
    intro bindings
    rw [List.foldl_cons, ih, lookup_addBinding]
    by_cases hkey : port.key = key
    · have hcons : bindingsUnder (port :: ports) key =
          port.binding :: bindingsUnder ports key := by
        unfold bindingsUnder
        rw [List.filter_cons_of_pos (by simpa using hkey), List.map_cons]
      have hat : (addBinding bindings port).at key = bindings.at key ++ [port.binding] := by
        rw [PortMap.at, lookup_addBinding, if_pos hkey]
        rfl
      rw [if_pos hkey, hcons, if_neg (List.cons_ne_nil _ _), hat]
      split
      · next hnil => rw [hnil]
      · rw [List.append_assoc, List.singleton_append]
    · have hcons : bindingsUnder (port :: ports) key = bindingsUnder ports key := by
        unfold bindingsUnder
        rw [List.filter_cons_of_neg (by simpa using hkey)]
      have hat : (addBinding bindings port).at key = bindings.at key := by
        rw [PortMap.at, lookup_addBinding, if_neg hkey]
        rfl
      rw [if_neg hkey, hcons, hat]

end Bindings

/-- The bindings that Docker gets; none are sent as no map. -/
def ContainerCreateBody.portBindings (body : ContainerCreateBody) : PortMap :=
  (body.hostConfig.bind (·.portBindings)).getD ∅

theorem portBindings_createBody (h : createBody request firstNetwork = .ok body) :
    body.portBindings = request.ports.foldl addBinding ∅ := by
  obtain ⟨mounts, -, h⟩ := bind_eq_ok.mp h
  obtain ⟨memory, -, h⟩ := bind_eq_ok.mp h
  obtain ⟨maximumRetryCount, -, h⟩ := bind_eq_ok.mp h
  cases h
  show (if (request.ports.foldl addBinding ∅).entries.isEmpty then none
    else some (request.ports.foldl addBinding ∅)).getD ∅ = _
  split
  · next hempty =>
    apply AList.ext
    rw [List.isEmpty_iff.mp hempty]
    rfl
  · rfl

/-- The bindings of a container port in the body are those of the request, in its order. -/
theorem lookup_portBindings (h : createBody request firstNetwork = .ok body) (key : String) :
    body.portBindings.lookup key =
      if bindingsUnder request.ports key = [] then none
      else some (some (bindingsUnder request.ports key)) := by
  rw [portBindings_createBody h, lookup_foldl_addBinding]
  split
  · exact AList.lookup_empty key
  · rfl

/-! ## What a valid request keeps apart -/

namespace CreateContainerRequest

variable {r : CreateContainerRequest}

def bindingsOf (r : CreateContainerRequest) (containerPort : UInt16)
    (protocol : ContainerPortProtocol) : List BollardPortBinding :=
  (r.ports.filter fun port =>
    port.containerPort = containerPort ∧ port.protocol = protocol).map (·.binding)

/-- What belongs to the host or the container once is asked for once, and the bindings are
passed on as they are. -/
structure Separated (r : CreateContainerRequest) : Prop where
  ports : r.ports.Pairwise fun a b => ¬ a.Competes b
  mounts : (r.mounts.map fun mount => containerPath mount.destination).Nodup
  environment : (r.environment.map (·.key)).Nodup
  networks : (r.networks.map (·.name)).Nodup
  bindings : ∀ firstNetwork body, createBody r firstNetwork = .ok body →
    (∀ containerPort protocol,
      body.portBindings.lookup (portKey containerPort protocol) =
        if r.bindingsOf containerPort protocol = [] then none
        else some (some (r.bindingsOf containerPort protocol))) ∧
    ∀ key ∈ body.portBindings.keys, ∃ port ∈ r.ports, port.key = key

/-- No two ports with one number and protocol on the host have different addresses of which
one stands for every address. -/
def WildcardsApart (r : CreateContainerRequest) : Prop :=
  r.ports.Pairwise fun a b =>
    a.SamePort b → a.address ≠ b.address → ¬ a.Wildcard ∧ ¬ b.Wildcard

instance : Decidable r.WildcardsApart := inferInstanceAs (Decidable (List.Pairwise _ _))

theorem bindingsUnder_portKey (containerPort : UInt16) (protocol : ContainerPortProtocol) :
    bindingsUnder r.ports (portKey containerPort protocol) =
      r.bindingsOf containerPort protocol := by
  unfold bindingsUnder bindingsOf
  congr 1
  refine List.filter_congr fun port _ => ?_
  rw [decide_eq_decide]
  constructor
  · exact portKey_injective
  · rintro ⟨rfl, rfl⟩
    rfl

theorem passes_of_validate (h : r.validate = .ok ()) :
    (r.ports.filterMap (·.bindingKey)).Nodup ∧
      (∀ mount ∈ r.mounts, validContainerPath mount.destination = true) ∧
      (r.mounts.map (·.destination)).Nodup ∧ (r.environment.map (·.key)).Nodup ∧
      (r.networks.map (·.name)).Nodup := by
  unfold validate at h
  obtain ⟨⟨⟩, -, h⟩ := bind_eq_ok.mp h
  obtain ⟨⟨⟩, -, h⟩ := bind_eq_ok.mp h
  obtain ⟨⟨⟩, hports, h⟩ := bind_eq_ok.mp h
  obtain ⟨⟨⟩, -, h⟩ := bind_eq_ok.mp h
  obtain ⟨⟨⟩, hmounts, h⟩ := bind_eq_ok.mp h
  obtain ⟨⟨⟩, henvironment, h⟩ := bind_eq_ok.mp h
  obtain ⟨⟨⟩, hnetworks, -⟩ := bind_eq_ok.mp h
  refine ⟨?_, ?_, ?_, ?_, ?_⟩
  · exact nodup_of_pass _ (fun _ _ => CreateContainerPort.look_eq) hports
  · intro mount hmount
    obtain ⟨found, hfound⟩ := ok_of_pass hmounts mount hmount
    exact (CreateContainerMount.look_eq hfound).2
  · have hnodup := nodup_of_pass (fun mount => some mount.destination)
      (fun _ _ hlook => (CreateContainerMount.look_eq hlook).1) hmounts
    rwa [List.filterMap_eq_map'] at hnodup
  · have hnodup := nodup_of_pass (fun item => some item.key)
      (fun _ _ => CreateEnvironmentVariable.look_eq) henvironment
    rwa [List.filterMap_eq_map'] at hnodup
  · have hnodup := nodup_of_pass (fun network => some network.name)
      (fun _ _ => CreateContainerNetwork.look_eq) hnetworks
    rwa [List.filterMap_eq_map'] at hnodup

/-- Ports that are compared alike have one address, number and protocol. -/
theorem address_ne_of_samePort {a b : CreateContainerPort}
    (hkeys : ∀ x, a.bindingKey = some x → ∀ y, b.bindingKey = some y → x ≠ y)
    (hsame : a.SamePort b) : a.address ≠ b.address := by
  obtain ⟨hsome, hport, hprotocol⟩ := hsame
  obtain ⟨hostPort, ha⟩ := Option.isSome_iff_exists.mp hsome
  have hb : b.hostPort = some hostPort := hport ▸ ha
  intro haddress
  refine hkeys _ (by rw [CreateContainerPort.bindingKey, ha]; rfl) _
    (by rw [CreateContainerPort.bindingKey, hb]; rfl) ?_
  rw [haddress, hprotocol]

/-- **What an accepted request keeps apart.** Mounts, environment, networks and bindings are as
they should be in every one; the ports are exactly when no address that stands for all others
meets another one. -/
theorem separated_iff (h : r.validate = .ok ()) : r.Separated ↔ r.WildcardsApart := by
  obtain ⟨hports, hvalid, hmounts, henvironment, hnetworks⟩ := passes_of_validate h
  have hkeys := List.pairwise_filterMap.mp hports
  constructor
  · intro hseparated
    refine hseparated.ports.imp fun hcompetes hsame _ => ?_
    rw [← not_or]
    exact fun hwild => hcompetes ⟨hsame, Or.inr hwild⟩
  · intro hapart
    refine ⟨?_, ?_, henvironment, hnetworks, ?_⟩
    · refine (hkeys.and hapart).imp ?_
      rintro a b ⟨hkey, hwild⟩ ⟨hsame, hsocket⟩
      have hne := address_ne_of_samePort hkey hsame
      obtain ⟨ha, hb⟩ := hwild hsame hne
      rcases hsocket with heq | hwild | hwild
      · exact hne heq
      · exact ha hwild
      · exact hb hwild
    · have hpaths : ((r.mounts.map (·.destination)).map containerPath).Nodup := by
        refine hmounts.map_on ?_
        intro a ha b hb hsame
        obtain ⟨mount, hmount, rfl⟩ := List.mem_map.mp ha
        obtain ⟨other, hother, rfl⟩ := List.mem_map.mp hb
        exact containerPath_injOn (hvalid mount hmount) (hvalid other hother) hsame
      rwa [List.map_map] at hpaths
    · intro firstNetwork body hbody
      refine ⟨fun containerPort protocol => ?_, fun key hkey => ?_⟩
      · rw [lookup_portBindings hbody, bindingsUnder_portKey]
      · have hfound := AList.lookup_isSome.mpr hkey
        rw [lookup_portBindings hbody] at hfound
        split at hfound
        · cases hfound
        · next hne =>
          obtain ⟨binding, hmem⟩ := List.exists_mem_of_ne_nil _ hne
          obtain ⟨port, hport, -⟩ := List.mem_map.mp hmem
          obtain ⟨hport, hkey⟩ := List.mem_filter.mp hport
          exact ⟨port, hport, of_decide_eq_true hkey⟩

def web (hostIp : Option String) : CreateContainerPort := ⟨80, .tcp, hostIp, some 8080⟩

theorem two_addresses_separated :
    ({ image := "nginx", ports := [web (some "127.0.0.1"), web (some "::1")],
       environment := [⟨"A", "1"⟩] } : CreateContainerRequest).Separated := by
  refine (separated_iff ?_).mpr ?_
  · decide +kernel
  · decide +kernel

/-- Port 8080 of every address and port 8080 of one address. -/
def overlapping : CreateContainerRequest where
  image := "nginx"
  ports := [web none, web (some "127.0.0.1")]

/-- **A port on every address is accepted beside the same port on one address.** -/
theorem wildcard_port_accepted :
    overlapping.validate = .ok () ∧ ¬ overlapping.ports.Pairwise fun a b => ¬ a.Competes b := by
  constructor
  · decide +kernel
  · decide +kernel

end CreateContainerRequest

end TuxStack.Docker
