import TuxStack.Docker.Listing
import TuxStack.Vfs.NamespaceListing

/-!
# Routing by the longest prefix

`crates/tuxstack-vfs/src/router.rs` and `namespace.rs`. The router of a container
sorts its mounts, deep ones first, and takes the first that covers a path; the
namespace takes the deepest of the mounts that cover it, in whatever order its map
yields them. `routes_by_longest_prefix` says that both follow one rule, `Longest` of
the prefix library, on components.
-/

namespace TuxStack.Docker

open Vfs LongestPrefix

def destinationKey (mount : ResolvedContainerMount) : List VirtualFileName :=
  mount.destination.components

theorem nodup_destinationKey {mounts : List ResolvedContainerMount}
    (h : (mounts.map fun mount => mount.destination).Nodup) :
    (mounts.map destinationKey).Nodup := by
  have heq : mounts.map destinationKey =
      (mounts.map fun mount => mount.destination).map VirtualPath.components := by
    rw [List.map_map]
    rfl
  rw [heq]
  exact h.map fun _ _ hcomponents => VirtualPath.ext hcomponents

namespace ContainerPathRouter

variable {containerId rootfsKey : String} {mounts : List ResolvedContainerMount}

/-- A router exists for the mounts that leave the container's root alone. -/
theorem exists_new_iff : (∃ router, new containerId rootfsKey mounts = .ok router) ↔
      ∀ mount ∈ mounts, mount.destination ≠ VirtualPath.root := by
  have hroot : (mounts.any fun mount => mount.destination.isRoot) = true ↔
      ∃ mount ∈ mounts, mount.destination = VirtualPath.root := by
    rw [List.any_eq_true]
    refine exists_congr fun mount => and_congr_right fun _ => ?_
    rw [VirtualPath.isRoot, List.isEmpty_iff]
    exact ⟨fun h => VirtualPath.ext h, fun h => by rw [h]; rfl⟩
  unfold new
  split
  · rename_i hany
    refine iff_of_false ?_ fun h => ?_
    · rintro ⟨router, h⟩
      cases h
    · obtain ⟨mount, hmem, heq⟩ := hroot.mp hany
      exact h mount hmem heq
  · rename_i hany
    exact iff_of_true ⟨_, rfl⟩ fun mount hmem heq => hany (hroot.mpr ⟨mount, hmem, heq⟩)

/-- The first mount that covers a path is the longest prefix among the mounts that
the router was made from. -/
theorem longest_of_route {router : ContainerPathRouter}
    (hnew : new containerId rootfsKey mounts = .ok router)
    (hdistinct : (mounts.map fun mount => mount.destination).Nodup) {path : VirtualPath}
    {mount : ResolvedContainerMount}
    (h : router.mounts.find? (fun mount => path.startsWith mount.destination) = some mount) :
    Longest destinationKey mounts path.components mount := by
  obtain ⟨harranged, hperm⟩ := arranged_of_new hnew hdistinct
  have hfirst : Longest destinationKey router.mounts path.components mount :=
    longest_of_find (fun _ => VirtualPath.startsWith_iff) harranged.deepFirst h
  exact (longest_perm hperm).mp hfirst

/-- A router follows the rule at `path`: the rootfs without a covering mount, and else
the mount with the longest prefix, with the rest of the path below its provider root
unless that is too long for a path. -/
def FollowsRule (router : ContainerPathRouter) (mounts : List ResolvedContainerMount)
    (rootfs : Provider) (path : VirtualPath) : Prop :=
  ((∀ mount ∈ mounts, ¬ mount.destination.components <+: path.components) ∧
      router.route rootfs path = .ok ⟨router.rootfsKey, path, rootfs, none⟩) ∨
    ∃ mount rest, Longest destinationKey mounts path.components mount ∧
      (∀ other, Longest destinationKey mounts path.components other → other = mount) ∧
      path.components = mount.destination.components ++ rest ∧
      (∀ providerPath, providerPath.components = mount.providerRoot.components ++ rest →
        router.route rootfs path =
          .ok ⟨mount.providerKey, providerPath, mount.provider, some mount⟩) ∧
      ∀ error, router.route rootfs path = .error error ↔ error = .pathTooLong ∧
        defaultMaxPathBytes < pathByteLen (mount.providerRoot.components ++ rest)

theorem followsRule {router : ContainerPathRouter}
    (hnew : new containerId rootfsKey mounts = .ok router)
    (hdistinct : (mounts.map fun mount => mount.destination).Nodup) (rootfs : Provider)
    (path : VirtualPath) : router.FollowsRule mounts rootfs path := by
  obtain ⟨-, hperm⟩ := arranged_of_new hnew hdistinct
  cases hfind : router.mounts.find? fun mount => path.startsWith mount.destination with
  | none =>
    refine .inl ⟨fun mount hmount hcovers => ?_, ?_⟩
    · exact List.find?_eq_none.mp hfind mount (hperm.mem_iff.mpr hmount)
        (VirtualPath.startsWith_iff.mpr hcovers)
    · simp only [route, hfind]
  | some mount =>
    have hlongest := longest_of_route hnew hdistinct hfind
    obtain ⟨rest, hrest⟩ := hlongest.covers
    have hdrop : path.components.drop mount.destination.depth = rest := by
      rw [← hrest]
      exact List.drop_left
    refine .inr ⟨mount, rest, hlongest,
      fun other hother => hlongest.unique (nodup_destinationKey hdistinct) hother,
      hrest.symm, ?_, ?_⟩
    · intro providerPath hprovider
      simp only [route, hfind, hdrop, ← hprovider, VirtualPath.fromComponents_components]
      rfl
    · intro error
      simp only [route, hfind, hdrop, VirtualPath.fromComponents]
      split
      · rename_i hfits
        exact iff_of_false (fun h => by cases h) fun h => absurd hfits (by omega)
      · rename_i hlong
        constructor
        · intro h
          cases h
          exact ⟨rfl, by omega⟩
        · rintro ⟨rfl, -⟩
          rfl

end ContainerPathRouter

/-- The namespace follows the rule at `path` when its map yields the mounts as in
`order`. -/
def NamespaceFollowsRule (ns order : NamespaceProvider) (path : VirtualPath) : Prop :=
  ((∀ mount ∈ ns.mounts, ¬ mount.components <+: path.components) ∧
      order.providerAt path = none) ∨
    ∃ e route, Longest NamespaceProvider.mountKey ns.mounts.entries path.components e ∧
      (∀ other, Longest NamespaceProvider.mountKey ns.mounts.entries path.components other →
        other = e) ∧
      order.providerAt path = some route ∧ route.key = e.2.key ∧
      route.provider = e.2.provider ∧ route.mountPath = e.1 ∧
      route.mountPath.components ++ route.relativePath.components = path.components

theorem namespaceFollowsRule {ns order : NamespaceProvider}
    (hperm : order.mounts.entries.Perm ns.mounts.entries) (path : VirtualPath) :
    NamespaceFollowsRule ns order path := by
  unfold NamespaceFollowsRule
  rw [NamespaceProvider.providerAt_perm hperm]
  cases hroute : ns.providerAt path with
  | none => exact .inl ⟨NamespaceProvider.providerAt_eq_none_iff.mp hroute, rfl⟩
  | some route =>
    obtain ⟨e, hlongest, hkey, hprovider, hmount, hsplit⟩ :=
      NamespaceProvider.providerAt_longest hroute
    exact .inr ⟨e, route, hlongest,
      fun other hother => hlongest.unique ns.nodup_mountKey hother, rfl, hkey, hprovider,
      hmount, hsplit⟩

/-- **Routing by the longest prefix.** For mounts with distinct destinations in any
order, a router exists when none of them is the container's root, and it follows the
rule at every path; and so does the namespace for every order of its mounts. -/
theorem routes_by_longest_prefix :
    (∀ (containerId rootfsKey : String) (mounts : List ResolvedContainerMount),
      (mounts.map fun mount => mount.destination).Nodup →
        ((∃ router, ContainerPathRouter.new containerId rootfsKey mounts = .ok router) ↔
          ∀ mount ∈ mounts, mount.destination ≠ VirtualPath.root) ∧
        ∀ router, ContainerPathRouter.new containerId rootfsKey mounts = .ok router →
          router.rootfsKey = rootfsKey ∧
          ∀ rootfs path, router.FollowsRule mounts rootfs path) ∧
    ∀ ns order : NamespaceProvider, order.mounts.entries.Perm ns.mounts.entries →
      ∀ path, NamespaceFollowsRule ns order path := by
  refine ⟨fun containerId rootfsKey mounts hdistinct =>
    ⟨ContainerPathRouter.exists_new_iff, fun router hnew => ⟨?_, ?_⟩⟩, ?_⟩
  · unfold ContainerPathRouter.new at hnew
    split at hnew
    · cases hnew
    · cases hnew
      rfl
  · exact fun rootfs path => ContainerPathRouter.followsRule hnew hdistinct rootfs path
  · exact fun ns order hperm path => namespaceFollowsRule hperm path

open ContainerProviderRouter in
/-- A mount inside a mount, the outer one first. -/
theorem routes_by_longest_prefix_nested :
    ∃ router, ContainerPathRouter.new "web" "rootfs:1" nestedMounts.reverse = .ok router ∧
      router.FollowsRule nestedMounts.reverse (oneFile (nameOf "x"))
        (pathOf "/srv/data/cache/x") := by
  obtain ⟨hexists, hrule⟩ :=
    routes_by_longest_prefix.1 "web" "rootfs:1" nestedMounts.reverse (by decide)
  obtain ⟨router, hnew⟩ := hexists.mpr (by decide)
  exact ⟨router, hnew, (hrule router hnew).2 _ _⟩

end TuxStack.Docker
