import TuxStack.Lib.PathComponents

/-!
# Ways that lead to the same place

What a walk through a file tree does at a name depends neither on what follows nor on the
links that may still be taken (`walk_cons_cases`). So what follows a part of the way can be
exchanged, if the two continuations are the same wherever this part leads (`walk_congr`).

A name that is a directory and the `..` behind it cancel out, and an empty name or a `.`
can be left out (`walk_cancel`, `walk_skip_here`). `Straight` says where this is so, and
`walk_collapse` that the way that is left then leads to the same place.
-/

namespace TuxStack.Files.FileTree

variable {t : FileTree} {here place : List Name} {name : Name} {links : Nat}

def IsDirectory (t : FileTree) (place : List Name) : Prop :=
  ∃ node, t.node place = some node ∧ node.kind = .directory

/-- A walk that takes a link. -/
def follow (t : FileTree) : Nat → List Name → List Name → Except IoError (List Name)
  | 0, _, _ => .error .loop
  | links + 1, here, rest => t.walk true links here rest

theorem walk_nil : t.walk true links here [] = .ok here := by
  cases links with
  | zero => rfl
  | succ links => rfl

theorem walk_cons (links : Nat) (here : List Name) (name : Name) (rest : List Name) :
    t.walk true links here (name :: rest) =
      match t.node here with
      | none => .error .notDirectory
      | some node =>
        if node.kind ≠ .directory then .error .notDirectory
        else if name = [] ∨ name = [46] then t.walk true links here rest
        else if name = [46, 46] then t.walk true links here.dropLast rest
        else
          match t.node (here ++ [name]) with
          | none => .error .notFound
          | some child =>
            match child.kind with
            | .symlink target =>
              t.follow links (if target.head? = some separator then [] else here)
                (components target ++ rest)
            | _ => t.walk true links (here ++ [name]) rest := by
  have hlast : ¬ (rest = [] ∧ true = false) := by simp
  cases links with
  | zero | succ links =>
    simp only [walk, walkComponents, if_neg hlast]
    rfl

theorem isDirectory_root : t.IsDirectory [] := by
  obtain ⟨⟨place, node⟩, hmem, rfl, hkind⟩ := t.rooted
  exact ⟨node, node_eq_some.mpr hmem, hkind⟩

theorem walk_of_not_directory (h : ¬ t.IsDirectory here) (rest : List Name) :
    t.walk true links here (name :: rest) = .error .notDirectory := by
  rw [walk_cons]
  cases hnode : t.node here with
  | none => rfl
  | some node =>
    dsimp only
    rw [if_pos fun hkind => h ⟨node, hnode, hkind⟩]

theorem walk_skip (h : t.IsDirectory here) (hname : name = [] ∨ name = [46]) (rest : List Name) :
    t.walk true links here (name :: rest) = t.walk true links here rest := by
  obtain ⟨node, hnode, hkind⟩ := h
  rw [walk_cons, hnode]
  dsimp only
  rw [if_neg (not_not.mpr hkind), if_pos hname]

theorem walk_up (h : t.IsDirectory here) (rest : List Name) :
    t.walk true links here ([46, 46] :: rest) = t.walk true links here.dropLast rest := by
  obtain ⟨node, hnode, hkind⟩ := h
  rw [walk_cons, hnode]
  dsimp only
  rw [if_neg (not_not.mpr hkind), if_neg (by decide), if_pos rfl]

section Names

variable (hskip : ¬ (name = [] ∨ name = [46])) (hup : name ≠ [46, 46])

include hskip hup

theorem walk_missing (h : t.IsDirectory here) (hchild : t.node (here ++ [name]) = none)
    (rest : List Name) : t.walk true links here (name :: rest) = .error .notFound := by
  obtain ⟨node, hnode, hkind⟩ := h
  rw [walk_cons, hnode]
  dsimp only
  rw [if_neg (not_not.mpr hkind), if_neg hskip, if_neg hup, hchild]

theorem walk_enter {child : FileNode} (hchild : t.node (here ++ [name]) = some child)
    (hkind : ∀ target, child.kind ≠ .symlink target) (rest : List Name) :
    t.walk true links here (name :: rest) = t.walk true links (here ++ [name]) rest := by
  obtain ⟨node, hnode, hdirectory⟩ := directory_of_child hchild
  rw [walk_cons, hnode]
  dsimp only
  rw [if_neg (not_not.mpr hdirectory), if_neg hskip, if_neg hup, hchild]
  dsimp only
  split
  · next target hlink => exact absurd hlink (hkind target)
  · rfl

theorem walk_link {child : FileNode} {target : List UInt8}
    (hchild : t.node (here ++ [name]) = some child) (hkind : child.kind = .symlink target)
    (rest : List Name) :
    t.walk true links here (name :: rest) =
      t.follow links (if target.head? = some separator then [] else here)
        (components target ++ rest) := by
  obtain ⟨node, hnode, hdirectory⟩ := directory_of_child hchild
  rw [walk_cons, hnode]
  dsimp only
  rw [if_neg (not_not.mpr hdirectory), if_neg hskip, if_neg hup, hchild]
  dsimp only
  rw [hkind]

end Names

theorem walk_linkFree : ∀ {names here : List Name}, (∀ other ∈ names, PlainName other) →
    t.LinkFree (here ++ names) → ∀ rest,
      t.walk true links here (names ++ rest) = t.walk true links (here ++ names) rest := by
  intro names
  induction names with
  | nil =>
    intro here _ _ rest
    rw [List.append_nil]
    rfl
  | cons name names ih =>
    intro here hplain hfree rest
    have hname := hplain name List.mem_cons_self
    have hwhole : here ++ name :: names = here ++ [name] ++ names := List.append_cons ..
    obtain ⟨child, hchild, hkind⟩ := hfree (here ++ [name]) (hwhole ▸ List.prefix_append _ _)
    rw [List.cons_append, walk_enter (by simp [hname.nonempty, hname.notSelf]) hname.notParent
      hchild hkind, hwhole]
    exact ih (fun other hother => hplain other (List.mem_cons_of_mem _ hother))
      (hwhole ▸ hfree) rest

/-- **One name of a walk**: it ends here, goes on elsewhere, or takes a link. -/
theorem walk_cons_cases (t : FileTree) (here : List Name) (name : Name) :
    (∃ error, ∀ links rest, t.walk true links here (name :: rest) = .error error) ∨
    (∃ next, ∀ links rest, t.walk true links here (name :: rest) = t.walk true links next rest) ∨
    ∃ next lead, ∀ links rest,
      t.walk true links here (name :: rest) = t.follow links next (lead ++ rest) := by
  by_cases hhere : t.IsDirectory here
  · by_cases hskip : name = [] ∨ name = [46]
    · exact .inr (.inl ⟨_, fun _ rest => walk_skip hhere hskip rest⟩)
    · by_cases hup : name = [46, 46]
      · subst hup
        exact .inr (.inl ⟨_, fun _ rest => walk_up hhere rest⟩)
      · cases hchild : t.node (here ++ [name]) with
        | none => exact .inl ⟨_, fun _ rest => walk_missing hskip hup hhere hchild rest⟩
        | some child =>
          by_cases hlink : ∃ target, child.kind = .symlink target
          · obtain ⟨target, hkind⟩ := hlink
            exact .inr (.inr ⟨_, _, fun _ rest => walk_link hskip hup hchild hkind rest⟩)
          · exact .inr (.inl ⟨_, fun _ rest =>
            walk_enter hskip hup hchild (fun target hkind => hlink ⟨target, hkind⟩) rest⟩)
  · exact .inl ⟨_, fun _ rest => walk_of_not_directory hhere rest⟩

/-! ## One name looked up -/

theorem child_of_not_directory (h : ¬ t.IsDirectory here) :
    t.child here name = .error .notDirectory := by
  unfold child
  cases hnode : t.node here with
  | none => rfl
  | some node =>
    dsimp only
    rw [if_pos fun hkind => h ⟨node, hnode, hkind⟩]

theorem child_missing (h : t.IsDirectory here) (hchild : t.node (here ++ [name]) = none) :
    t.child here name = .error .notFound := by
  obtain ⟨node, hnode, hkind⟩ := h
  unfold child
  rw [hnode]
  dsimp only
  rw [if_neg (not_not.mpr hkind), hchild]

theorem child_there {node : FileNode} (hchild : t.node (here ++ [name]) = some node) :
    t.child here name = .ok (here ++ [name]) := by
  obtain ⟨directory, hnode, hkind⟩ := directory_of_child hchild
  unfold child
  rw [hnode]
  dsimp only
  rw [if_neg (not_not.mpr hkind), hchild]

/-! ## Continuations -/

/-- A way leads to a place, through however many links. -/
def LeadsTo (t : FileTree) (here names place : List Name) : Prop :=
  ∃ links, t.walk true links here names = .ok place

section Continuations

variable {front rest rest' : List Name}

/-- Wherever the way leads, it makes no difference which of the two follows. -/
def SameBehind (t : FileTree) (here front rest rest' : List Name) : Prop :=
  ∀ place, t.LeadsTo here front place → ∀ links,
    t.walk true links place rest = t.walk true links place rest'

theorem walk_congr_of_follow (hfollow : ∀ front next, t.SameBehind next front rest rest' →
      t.follow links next (front ++ rest) = t.follow links next (front ++ rest')) :
    ∀ front here, t.SameBehind here front rest rest' →
      t.walk true links here (front ++ rest) = t.walk true links here (front ++ rest') := by
  intro front
  induction front with
  | nil => exact fun here h => h here ⟨0, walk_nil⟩ _
  | cons name front ih =>
    intro here h
    rw [List.cons_append, List.cons_append]
    rcases walk_cons_cases t here name with ⟨error, hwalk⟩ | ⟨next, hwalk⟩ | ⟨next, lead, hwalk⟩
    · rw [hwalk, hwalk]
    · rw [hwalk, hwalk]
      refine ih next fun place hplace => h place ?_
      obtain ⟨links, hlinks⟩ := hplace
      exact ⟨links, (hwalk _ _).trans hlinks⟩
    · rw [hwalk, hwalk, ← List.append_assoc, ← List.append_assoc]
      refine hfollow _ next fun place hplace => h place ?_
      obtain ⟨links, hlinks⟩ := hplace
      exact ⟨links + 1, (hwalk _ _).trans hlinks⟩

/-- **What follows a part of a way** can be exchanged. -/
theorem walk_congr : ∀ (links : Nat) (front here : List Name), t.SameBehind here front rest rest' →
    t.walk true links here (front ++ rest) = t.walk true links here (front ++ rest') := by
  intro links
  induction links with
  | zero => exact walk_congr_of_follow fun _ _ _ => rfl
  | succ links ih => exact walk_congr_of_follow ih

end Continuations

/-! ## Collapsing -/

/-- One name is pushed, or taken, as `..` says. -/
def collapseStep (stack : List Name) (name : Name) : List Name :=
  if name = [] ∨ name = [46] then stack
  else if name = [46, 46] then stack.dropLast
  else stack ++ [name]

/-- The names that are left of a way from `stack` on. -/
def collapse (stack names : List Name) : List Name := names.foldl collapseStep stack

/-- The way through `names` and `rest`, from `stack` on, stays the same when `names` are
collapsed: what a `..` takes away is a directory, and what a slash at the very end follows
is one. -/
def Straight (t : FileTree) : List Name → List Name → List Name → Prop
  | _, [], _ => True
  | stack, name :: names, rest =>
    (if name = [] ∨ name = [46] then
      names ++ rest = [] → ∀ place, t.LeadsTo [] stack place → t.IsDirectory place
    else if name = [46, 46] then
      ∀ taken, stack.getLast? = some taken → ∀ place, t.LeadsTo [] stack.dropLast place →
        t.IsDirectory (place ++ [taken])
    else True) ∧ Straight t (collapseStep stack name) names rest

theorem walk_skip_here (hname : name = [] ∨ name = [46]) {rest : List Name}
    (h : rest = [] → t.IsDirectory here) :
    t.walk true links here (name :: rest) = t.walk true links here rest := by
  by_cases hhere : t.IsDirectory here
  · exact walk_skip hhere hname rest
  · obtain ⟨next, rest, rfl⟩ := List.exists_cons_of_ne_nil fun hnil => hhere (h hnil)
    rw [walk_of_not_directory hhere, walk_of_not_directory hhere]

/-- A directory and the `..` behind it cancel out. -/
theorem walk_cancel (hname : PlainName name) (h : t.IsDirectory (here ++ [name]))
    (rest : List Name) :
    t.walk true links here (name :: [46, 46] :: rest) = t.walk true links here rest := by
  obtain ⟨node, hnode, hkind⟩ := h
  have hnolink : ∀ target, node.kind ≠ .symlink target := by
    intro target hlink
    rw [hkind] at hlink
    cases hlink
  rw [walk_enter (by simp [hname.nonempty, hname.notSelf]) hname.notParent hnode hnolink,
    walk_up ⟨node, hnode, hkind⟩, List.dropLast_concat]

theorem plain_collapseStep {stack : List Name} (h : ∀ other ∈ stack, PlainName other)
    (hname : separator ∉ name) : ∀ other ∈ collapseStep stack name, PlainName other := by
  unfold collapseStep
  split
  · exact h
  · next hskip =>
    split
    · exact fun other hother => h other (List.dropLast_subset _ hother)
    · next hup =>
      intro other hother
      rcases List.mem_append.mp hother with hother | hother
      · exact h other hother
      · rw [List.mem_singleton.mp hother]
        exact ⟨fun hnil => hskip (.inl hnil), hname, fun hself => hskip (.inr hself), hup⟩

theorem plain_collapse {names : List Name} (hnames : ∀ name ∈ names, separator ∉ name) :
    ∀ {stack : List Name}, (∀ other ∈ stack, PlainName other) →
      ∀ other ∈ collapse stack names, PlainName other := by
  induction names with
  | nil => exact fun h => h
  | cons name names ih =>
    intro stack h
    exact ih (fun other hother => hnames other (List.mem_cons_of_mem _ hother))
      (plain_collapseStep h (hnames name List.mem_cons_self))

theorem walk_collapseStep {stack names rest : List Name} (hstack : ∀ other ∈ stack, PlainName other)
    (h : t.Straight stack (name :: names) rest) :
    t.walk true links [] (stack ++ (name :: (names ++ rest))) =
      t.walk true links [] (collapseStep stack name ++ (names ++ rest)) := by
  obtain ⟨hhere, -⟩ := h
  unfold collapseStep
  split
  · next hskip =>
    rw [if_pos hskip] at hhere
    exact walk_congr links stack [] fun place hplace _ =>
      walk_skip_here hskip fun hnil => hhere hnil place hplace
  · next hskip =>
    rw [if_neg hskip] at hhere
    split
    · next hup =>
      subst hup
      rw [if_pos rfl] at hhere
      rcases List.eq_nil_or_concat stack with rfl | ⟨front, taken, rfl⟩
      · exact walk_up isDirectory_root _
      · have htaken : PlainName taken := hstack taken (by simp)
        rw [List.concat_eq_append] at hhere ⊢
        rw [List.dropLast_concat] at hhere ⊢
        rw [List.append_assoc]
        exact walk_congr links front [] fun place hplace _ =>
          walk_cancel htaken (hhere taken List.getLast?_concat place hplace) _
    · rw [List.append_assoc]
      rfl

/-- **A straight way** leads where it does when it is collapsed. -/
theorem walk_collapse (links : Nat) {rest : List Name} : ∀ {names stack : List Name},
    (∀ other ∈ stack, PlainName other) → (∀ name ∈ names, separator ∉ name) →
    t.Straight stack names rest →
    t.walk true links [] (stack ++ (names ++ rest)) =
      t.walk true links [] (collapse stack names ++ rest) := by
  intro names
  induction names with
  | nil => exact fun _ _ _ => rfl
  | cons name names ih =>
    intro stack hstack hnames h
    rw [List.cons_append, walk_collapseStep hstack h]
    exact ih (plain_collapseStep hstack (hnames name List.mem_cons_self))
      (fun other hother => hnames other (List.mem_cons_of_mem _ hother)) h.2

end TuxStack.Files.FileTree
