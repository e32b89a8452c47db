import TuxStack.Lib.FileTree
import TuxStack.Lib.Separated

/-!
# Paths and their components

Paths of bytes as `std::path` takes them apart: a path is a sequence of components, where
repeated and trailing slashes and every `.` but a leading one do not count, and a path that
is joined to another replaces it if it is absolute.

`absolute names` is the path that leads through `names` from the root. It is taken apart
into these names again (`components_absolute`), and one more name extends it
(`join_absolute`). In a file tree it leads to these names as they stand if there is no link
among the files on the way (`resolve_absolute`).
-/

namespace TuxStack.Files

open Separated

inductive Component where
  | rootDir
  | curDir
  | parentDir
  | normal (name : Name)
deriving DecidableEq

def Component.asBytes : Component → List UInt8
  | .rootDir => [separator]
  | .curDir => [46]
  | .parentDir => [46, 46]
  | .normal name => name

def isAbsolute (path : List UInt8) : Bool := path.head? = some separator

/-- What stands between two slashes, where it counts. -/
def componentOf (part : Name) : Option Component :=
  if part = [] ∨ part = [46] then none
  else if part = [46, 46] then some .parentDir
  else some (.normal part)

/-- `Path::components` -/
def components (path : List UInt8) : List Component :=
  let parts := path.splitOn separator
  let lead : List Component :=
    if isAbsolute path then [.rootDir] else if parts.head? = some [46] then [.curDir] else []
  lead ++ parts.filterMap componentOf

/-- `Path::join` -/
def joinPath (path other : List UInt8) : List UInt8 :=
  if isAbsolute other then other else FileTree.join path other

def ofComponents (parts : List Component) : List UInt8 :=
  parts.foldl (fun path part => joinPath path part.asBytes) []

/-- `Path::file_name` -/
def fileName (path : List UInt8) : Option Name :=
  match (components path).getLast? with
  | some (.normal name) => some name
  | _ => none

/-- `Path::parent` -/
def parent (path : List UInt8) : Option (List UInt8) :=
  match (components path).getLast? with
  | none | some .rootDir => none
  | some _ => some (ofComponents (components path).dropLast)

/-- The names on the way, each behind a slash. -/
def below (names : List Name) : List UInt8 := names.flatMap fun name => separator :: name

/-- The path through `names` from the root. -/
def absolute (names : List Name) : List UInt8 :=
  if names = [] then [separator] else below names

/-- The path through `names` from anywhere. -/
def relative (names : List Name) : List UInt8 := (below names).tail

/-! ## Taking apart -/

variable {names : List Name} {name : Name} {path : List UInt8}

theorem plainName_of_componentOf {part : Name} (hslash : separator ∉ part)
    (h : componentOf part = some (.normal name)) : PlainName name := by
  unfold componentOf at h
  split at h
  · cases h
  · next hcounts =>
    split at h
    · cases h
    · next hparent =>
      cases h
      exact ⟨fun hnil => hcounts (.inl hnil), hslash, fun hself => hcounts (.inr hself), hparent⟩

theorem componentOf_plain (h : PlainName name) : componentOf name = some (.normal name) := by
  unfold componentOf
  rw [if_neg (by simp [h.nonempty, h.notSelf]), if_neg h.notParent]

theorem filterMap_plain (h : ∀ name ∈ names, PlainName name) :
    names.filterMap componentOf = names.map .normal := by
  induction names with
  | nil => rfl
  | cons name names ih =>
    rw [List.filterMap_cons_some (componentOf_plain (h name List.mem_cons_self)),
      ih fun other hother => h other (List.mem_cons_of_mem _ hother), List.map_cons]

theorem splitOn_below (h : ∀ name ∈ names, PlainName name) :
    (below names).splitOn separator = [] :: names :=
  splitOn_flatMap fun name hname => (h name hname).noSeparator

theorem isAbsolute_absolute (names : List Name) : isAbsolute (absolute names) = true := by
  unfold absolute
  split
  · rfl
  · next hne =>
    obtain ⟨name, names, rfl⟩ := List.exists_cons_of_ne_nil hne
    rfl

theorem head_absolute (names : List Name) : (absolute names).head? = some separator :=
  of_decide_eq_true (isAbsolute_absolute names)

theorem absolute_ne_nil (names : List Name) : absolute names ≠ [] := by
  intro hnil
  have hhead := head_absolute names
  rw [hnil] at hhead
  cases hhead

/-- **The components of an absolute path** are the root and its names. -/
theorem components_absolute (h : ∀ name ∈ names, PlainName name) :
    components (absolute names) = .rootDir :: names.map .normal := by
  simp only [components, if_pos (isAbsolute_absolute names), List.singleton_append]
  unfold absolute
  split
  · next hnil =>
    rw [hnil]
    rfl
  · rw [splitOn_below h, List.filterMap_cons_none rfl, filterMap_plain h]

theorem relative_cons (name : Name) (names : List Name) :
    relative (name :: names) = name ++ below names := rfl

theorem below_cons (name : Name) (names : List Name) :
    below (name :: names) = separator :: relative (name :: names) := rfl

theorem splitOn_relative (h : ∀ name ∈ names, PlainName name) (hne : names ≠ []) :
    (relative names).splitOn separator = names := by
  obtain ⟨name, names, rfl⟩ := List.exists_cons_of_ne_nil hne
  have hwhole := splitOn_below h
  rw [below_cons, ← List.nil_append (separator :: _), List.splitOn_append_cons_self] at hwhole
  exact (List.cons.inj hwhole).2

theorem head_relative (h : ∀ name ∈ names, PlainName name) :
    (relative names).head? ≠ some separator := by
  cases names with
  | nil => simp [relative, below]
  | cons name names =>
    have hname := h name List.mem_cons_self
    obtain ⟨byte, name, rfl⟩ := List.exists_cons_of_ne_nil hname.nonempty
    have hbyte : byte ≠ separator := fun heq => hname.noSeparator (by simp [heq])
    simp [relative_cons, hbyte]

theorem components_relative (h : ∀ name ∈ names, PlainName name) :
    components (relative names) = names.map .normal := by
  cases names with
  | nil => rfl
  | cons name names =>
    have hname := h name List.mem_cons_self
    have hlead : isAbsolute (relative (name :: names)) = false := by
      simp [isAbsolute, head_relative h]
    simp only [components, splitOn_relative h (List.cons_ne_nil _ _), hlead, filterMap_plain h]
    simp [hname.notSelf]

theorem componentOf_ne_rootDir {part : Name} : componentOf part ≠ some .rootDir := by
  unfold componentOf
  split
  · simp
  · split
    · simp
    · simp

theorem components_cases (path : List UInt8) : ∃ rest : List Component, .rootDir ∉ rest ∧
    components path = if isAbsolute path then .rootDir :: rest else rest := by
  have hparts : .rootDir ∉ (path.splitOn separator).filterMap componentOf := by
    intro hmem
    obtain ⟨part, -, hpart⟩ := List.mem_filterMap.mp hmem
    exact componentOf_ne_rootDir hpart
  by_cases habsolute : isAbsolute path = true
  · refine ⟨_, hparts, ?_⟩
    rw [if_pos habsolute]
    simp only [components, if_pos habsolute]
    rfl
  · refine ⟨components path, ?_, by rw [if_neg habsolute]⟩
    simp only [components, if_neg habsolute]
    rw [List.mem_append, not_or]
    refine ⟨?_, hparts⟩
    split
    · simp
    · simp

theorem plainName_of_mem_components (h : .normal name ∈ components path) : PlainName name := by
  unfold components at h
  rcases List.mem_append.mp h with hlead | hpart
  · split at hlead
    · simp at hlead
    · split at hlead
      · simp at hlead
      · cases hlead
  · obtain ⟨part, hpart, hcomponent⟩ := List.mem_filterMap.mp hpart
    exact plainName_of_componentOf (not_mem_of_mem_splitOn hpart) hcomponent

/-! ## Putting together -/

theorem not_isAbsolute_of_plain (h : PlainName name) : isAbsolute name = false := by
  obtain ⟨byte, name, rfl⟩ := List.exists_cons_of_ne_nil h.nonempty
  have hbyte : byte ≠ separator := fun heq => h.noSeparator (by simp [heq])
  simp [isAbsolute, hbyte]

theorem getLast_below (h : ∀ name ∈ names, PlainName name) :
    (below names).getLast? ≠ some separator := by
  induction names using List.reverseRecOn with
  | nil => simp [below]
  | append_singleton names name _ =>
    have hname := h name (by simp)
    intro hlast
    have hsplit : below (names ++ [name]) = (below names ++ [separator]) ++ name := by
      simp [below]
    rw [hsplit, List.getLast?_append_of_ne_nil _ hname.nonempty] at hlast
    exact hname.noSeparator (List.mem_of_getLast? hlast)

theorem below_ne_nil (h : names ≠ []) : below names ≠ [] := by
  obtain ⟨name, names, rfl⟩ := List.exists_cons_of_ne_nil h
  simp [below]

/-- **One more name** at the end of an absolute path. -/
theorem join_absolute (h : ∀ name ∈ names, PlainName name) (hname : PlainName name) :
    joinPath (absolute names) name = absolute (names ++ [name]) := by
  have hsplit : absolute (names ++ [name]) = below names ++ separator :: name := by
    rw [absolute, if_neg (by simp)]
    simp [below]
  unfold joinPath FileTree.join
  rw [not_isAbsolute_of_plain hname, hsplit]
  by_cases hnil : names = []
  · rw [hnil]
    rfl
  · rw [absolute, if_neg hnil, if_neg Bool.false_ne_true,
      if_neg (not_or.mpr ⟨below_ne_nil hnil, getLast_below h⟩)]

theorem isAbsolute_append (h : isAbsolute path = true) (rest : List UInt8) :
    isAbsolute (path ++ rest) = true := by
  obtain ⟨tail, rfl⟩ := List.head?_eq_some_iff.mp (of_decide_eq_true h)
  rfl

theorem components_of_isAbsolute (h : isAbsolute path = true) :
    components path = .rootDir :: (path.splitOn separator).filterMap componentOf := by
  unfold components
  dsimp only
  rw [if_pos h]
  rfl

/-- **One more name** behind any absolute path: its components stay, and the name is the last
one. -/
theorem components_join (h : isAbsolute path = true) (hname : PlainName name) :
    isAbsolute (joinPath path name) = true ∧
      components (joinPath path name) = components path ++ [.normal name] := by
  have hsplit : name.splitOn separator = [name] := List.splitOn_eq_singleton hname.noSeparator
  have hjoin : joinPath path name = FileTree.join path name :=
    if_neg (by simp [not_isAbsolute_of_plain hname])
  rw [hjoin]
  unfold FileTree.join
  split
  · next hends =>
    refine ⟨isAbsolute_append h name, ?_⟩
    have hlast : path.getLast? = some separator := by
      rcases hends with rfl | hlast
      · cases h
      · exact hlast
    obtain ⟨front, rfl⟩ := List.getLast?_eq_some_iff.mp hlast
    rw [components_of_isAbsolute (isAbsolute_append h name), components_of_isAbsolute h,
      List.append_assoc, List.singleton_append, List.splitOn_append_cons_self,
      List.splitOn_append_cons_self, hsplit, List.filterMap_append, List.filterMap_append,
      List.filterMap_cons_some (componentOf_plain hname), List.splitOn_nil,
      List.filterMap_cons_none rfl, List.filterMap_nil, List.append_nil, List.cons_append]
  · refine ⟨isAbsolute_append h _, ?_⟩
    rw [components_of_isAbsolute (isAbsolute_append h _), components_of_isAbsolute h,
      List.splitOn_append_cons_self, hsplit, List.filterMap_append,
      List.filterMap_cons_some (componentOf_plain hname), List.filterMap_nil, List.cons_append]

theorem ofComponents_snoc (parts : List Component) (part : Component) :
    ofComponents (parts ++ [part]) = joinPath (ofComponents parts) part.asBytes := by
  unfold ofComponents
  rw [List.foldl_append]
  rfl

theorem ofComponents_absolute (h : ∀ name ∈ names, PlainName name) :
    ofComponents (.rootDir :: names.map .normal) = absolute names := by
  induction names using List.reverseRecOn with
  | nil => rfl
  | append_singleton names name ih =>
    have hnames : ∀ other ∈ names, PlainName other := fun other hother => h other (by simp [hother])
    rw [List.map_append, ← List.cons_append]
    show ofComponents (_ ++ [.normal name]) = _
    rw [ofComponents_snoc, ih hnames]
    exact join_absolute hnames (h name (by simp))

theorem ofComponents_relative (h : ∀ name ∈ names, PlainName name) :
    ofComponents (names.map .normal) = relative names := by
  induction names using List.reverseRecOn with
  | nil => rfl
  | append_singleton names name ih =>
    have hnames : ∀ other ∈ names, PlainName other := fun other hother => h other (by simp [hother])
    have hname := h name (by simp)
    rw [List.map_append]
    show ofComponents (_ ++ [.normal name]) = _
    rw [ofComponents_snoc, ih hnames]
    show joinPath (relative names) name = _
    unfold joinPath FileTree.join
    rw [not_isAbsolute_of_plain hname, if_neg Bool.false_ne_true]
    cases names with
    | nil => simp [relative, below]
    | cons first names =>
      have hlast : (relative (first :: names)).getLast? ≠ some separator := by
        have hfirst := (h first (by simp)).nonempty
        have hwhole := getLast_below hnames
        rw [show below (first :: names) = [separator] ++ relative (first :: names) from rfl,
          List.getLast?_append_of_ne_nil _ (by simp [relative_cons, hfirst])] at hwhole
        exact hwhole
      have hne : relative (first :: names) ≠ [] := by
        simp [relative_cons, (h first (by simp)).nonempty]
      rw [if_neg (not_or.mpr ⟨hne, hlast⟩)]
      simp [relative, below]

/-! ## Ways without links -/

namespace FileTree

variable {t : FileTree}

/-- Everything on the way to a place is there and is no link. -/
def LinkFree (t : FileTree) (names : List Name) : Prop :=
  ∀ front, front <+: names → ∃ node, t.node front = some node ∧
    ∀ target, node.kind ≠ .symlink target

theorem linkFree_nil : t.LinkFree [] := by
  intro front hfront
  obtain ⟨⟨place, node⟩, hmem, hplace, hkind⟩ := t.rooted
  rw [List.prefix_nil.mp hfront]
  refine ⟨node, node_eq_some.mpr (hplace ▸ hmem), ?_⟩
  intro target hlink
  rw [hkind] at hlink
  cases hlink

variable {names : List Name} {name : Name} {node : FileNode}

theorem LinkFree.snoc (h : t.LinkFree names) (hnode : t.node (names ++ [name]) = some node)
    (hkind : ∀ target, node.kind ≠ .symlink target) : t.LinkFree (names ++ [name]) := by
  intro front hfront
  rcases List.prefix_concat_iff.mp hfront with rfl | hfront
  · exact ⟨node, hnode, hkind⟩
  · exact h front hfront

theorem directory_of_child {place : List Name} (h : t.node (place ++ [name]) = some node) :
    ∃ directory, t.node place = some directory ∧ directory.kind = .directory := by
  obtain ⟨-, ⟨place', directory⟩, hmem, hplace, hkind⟩ :=
    t.placed _ (node_eq_some.mp h) (by simp)
  rw [List.dropLast_concat] at hplace
  exact ⟨directory, node_eq_some.mpr (hplace ▸ hmem), hkind⟩

theorem walkComponents_linkFree (follow : Bool)
    (jump : List Name → List Name → Except IoError (List Name)) :
    ∀ {rest here : List Name}, (∀ name ∈ rest, PlainName name) → t.LinkFree (here ++ rest) →
      t.walkComponents follow jump here rest = .ok (here ++ rest) := by
  intro rest
  induction rest with
  | nil =>
    intro here _ _
    rw [List.append_nil]
    rfl
  | cons name rest ih =>
    intro here hplain hfree
    have hname := hplain name List.mem_cons_self
    have hwhole : here ++ name :: rest = here ++ [name] ++ rest := by simp
    obtain ⟨node, hnode, hkind⟩ := hfree (here ++ [name]) (hwhole ▸ List.prefix_append _ _)
    obtain ⟨directory, hdirectory, hisdir⟩ := directory_of_child hnode
    have hrest := ih (fun other hother => hplain other (List.mem_cons_of_mem _ hother))
      (hwhole ▸ hfree)
    rw [hwhole, walkComponents, hdirectory]
    dsimp only
    rw [if_neg (not_not.mpr hisdir), if_neg (by simp [hname.nonempty, hname.notSelf]),
      if_neg hname.notParent, hnode]
    dsimp only
    split
    · next target hlink => exact absurd hlink (hkind target)
    · exact hrest

/-- **A path without links** leads where its names do. -/
theorem resolve_absolute (follow : Bool) (hplain : ∀ name ∈ names, PlainName name)
    (hfree : t.LinkFree names) : t.resolve follow (absolute names) = .ok names := by
  obtain ⟨⟨place, root⟩, hmem, rfl, hkind⟩ := t.rooted
  have hroot : t.node [] = some root := node_eq_some.mpr hmem
  have hdirectory : ¬ root.kind ≠ .directory := not_not.mpr hkind
  have hslash : ∀ jump rest, t.walkComponents follow jump [] ([] :: rest) =
      t.walkComponents follow jump [] rest := by
    intro jump rest
    rw [walkComponents, hroot]
    dsimp only
    rw [if_neg hdirectory, if_pos (.inl rfl)]
  unfold resolve
  rw [if_neg (absolute_ne_nil names)]
  show t.walkComponents follow (t.walk follow 39) [] ((absolute names).splitOn separator) = _
  by_cases hnil : names = []
  · rw [hnil]
    show t.walkComponents follow _ [] [[], []] = _
    rw [hslash, hslash]
    rfl
  · rw [absolute, if_neg hnil, splitOn_below hplain, hslash]
    exact walkComponents_linkFree follow _ hplain hfree

theorem symlinkMetadata_absolute (hplain : ∀ name ∈ names, PlainName name)
    (hfree : t.LinkFree names) : t.symlinkMetadata (absolute names) = t.nodeAt names := by
  unfold symlinkMetadata
  rw [resolve_absolute false hplain hfree]
  rfl

theorem symlinkMetadata_snoc (hplain : ∀ name ∈ names, PlainName name) (hfree : t.LinkFree names)
    (hname : PlainName name) :
    t.symlinkMetadata (absolute (names ++ [name])) = (t.child names name).bind t.nodeAt := by
  have hjoin : absolute (names ++ [name]) = join (absolute names) name := by
    rw [← join_absolute hplain hname, joinPath, if_neg (by simp [not_isAbsolute_of_plain hname])]
  rw [hjoin, symlinkMetadata, resolve_join (absolute_ne_nil names) hname,
    resolve_absolute true hplain hfree]
  rfl

theorem node_of_symlinkMetadata (hplain : ∀ name ∈ names, PlainName name) (hfree : t.LinkFree names)
    (hname : PlainName name) (h : t.symlinkMetadata (absolute (names ++ [name])) = .ok node) :
    t.node (names ++ [name]) = some node := by
  rw [symlinkMetadata_snoc hplain hfree hname] at h
  unfold child at h
  split at h
  · cases h
  · split at h
    · cases h
    · split at h
      · cases h
      · next child hchild =>
        change t.nodeAt (names ++ [name]) = .ok node at h
        rw [nodeAt, hchild] at h
        cases h
        exact hchild

end FileTree

end TuxStack.Files
