import TuxStack.Gui.FileBrowser
import TuxStack.Lib.PathComponents

/-!
# Tokens and local paths

`encode_path_token`, `decode_path_token` and `join_validated_components` of the file browser
(`crates/gui/src/controllers/local_fuse_files.rs`): a token of valid components is decoded to
them, a text that is decoded names valid components only, and below an absolute root they lead
to a path with the components of the root in front (`path_tokens`).
-/

namespace TuxStack.Gui

open Vfs Files Separated

/-! ## Round trips -/

/-- **The three bytes of a byte**: its two digits have the values of its halves. -/
theorem encodeByte_spec (byte : UInt8) :
    hexValue (hexDigit (byte >>> 4)) = some (byte >>> 4) ∧
      hexValue (hexDigit (byte &&& 0x0F)) = some (byte &&& 0x0F) ∧
        (byte >>> 4) <<< 4 ||| (byte &&& 0x0F) = byte ∧ slash ∉ encodeByte byte := by
  have hall : ∀ n : Fin 256, hexValue (hexDigit (UInt8.ofFin n >>> 4)) =
    some (UInt8.ofFin n >>> 4) ∧
      hexValue (hexDigit (UInt8.ofFin n &&& 0x0F)) = some (UInt8.ofFin n &&& 0x0F) ∧
        (UInt8.ofFin n >>> 4) <<< 4 ||| (UInt8.ofFin n &&& 0x0F) = UInt8.ofFin n ∧
          slash ∉ encodeByte (UInt8.ofFin n) := by
    decide +kernel
  exact hall byte.toFin

theorem decodeChunks_encodeByte (byte : UInt8) (rest : Bytes) :
    decodeChunks (encodeByte byte ++ rest) = (decodeChunks rest).map (byte :: ·) := by
  obtain ⟨hhigh, hlow, hboth, -⟩ := encodeByte_spec byte
  show decodeChunks (percent :: hexDigit (byte >>> 4) :: hexDigit (byte &&& 0x0F) :: rest) = _
  rw [decodeChunks, if_neg (not_not_intro rfl), hhigh, hlow]
  cases hrest : decodeChunks rest with
  | error message => rfl
  | ok decoded =>
    show Except.ok (((byte >>> 4) <<< 4 ||| (byte &&& 0x0F)) :: decoded) = _
    rw [hboth]
    rfl

theorem decodeChunks_encode (component : Bytes) :
    decodeChunks (component.flatMap encodeByte) = .ok component := by
  induction component with
  | nil => rfl
  | cons byte component ih =>
    rw [List.flatMap_cons, decodeChunks_encodeByte, ih]
    rfl

theorem length_encode (component : Bytes) :
    (component.flatMap encodeByte).length = 3 * component.length := by
  induction component with
  | nil => rfl
  | cons byte component ih =>
    rw [List.flatMap_cons, List.length_append, ih, List.length_cons]
    show 3 + 3 * component.length = _
    omega

theorem slash_notMem_encode (component : Bytes) : slash ∉ component.flatMap encodeByte := by
  intro hmem
  obtain ⟨byte, -, hbyte⟩ := List.mem_flatMap.mp hmem
  exact (encodeByte_spec byte).2.2.2 hbyte

variable {component : Bytes} {components : List Bytes}

theorem decodeComponent_encode (h : validComponent component = true) :
    decodeComponent (component.flatMap encodeByte) = .ok component := by
  have hne : component ≠ [] := (of_decide_eq_true h).1
  have hpos : 0 < component.length := List.length_pos_iff.mpr hne
  have hlength := length_encode component
  unfold decodeComponent
  rw [if_neg, decodeChunks_encode]
  · exact if_pos h
  · rw [not_or, not_not]
    refine ⟨fun hnil => ?_, by omega⟩
    rw [hnil, List.length_nil] at hlength
    omega

theorem plainName_encode (h : validComponent component = true) :
    PlainName (component.flatMap encodeByte) := by
  have hne : component ≠ [] := (of_decide_eq_true h).1
  have hpos : 0 < component.length := List.length_pos_iff.mpr hne
  have hlength := length_encode component
  refine ⟨?_, slash_notMem_encode component, ?_, ?_⟩
  · intro hnil
    rw [hnil, List.length_nil] at hlength
    omega
  · intro hdot
    rw [hdot, List.length_singleton] at hlength
    omega
  · intro hdots
    rw [hdots, List.length_cons, List.length_singleton] at hlength
    omega

/-- A token is an absolute path of encoded components. -/
theorem encodePathToken_eq (components : List Bytes) : encodePathToken components =
    absolute (components.map fun component => component.flatMap encodeByte) := by
  cases components with
  | nil => rfl
  | cons component components =>
    show (component :: components).flatMap (fun component =>
      slash :: component.flatMap encodeByte) =
      below _
    unfold below
    rw [List.flatMap_map]
    rfl

theorem mapM_decodeComponent (h : ∀ component ∈ components, validComponent component = true) :
    (components.map fun component => component.flatMap encodeByte).mapM decodeComponent =
      .ok components := by
  induction components with
  | nil => rfl
  | cons component components ih =>
    obtain ⟨hcomponent, hrest⟩ := List.forall_mem_cons.mp h
    rw [List.map_cons, List.mapM_cons, decodeComponent_encode hcomponent, ih hrest]
    rfl

/-- **A token of valid components** is decoded to them. -/
theorem decodePathToken_encode (h : ∀ component ∈ components, validComponent component = true) :
    decodePathToken (encodePathToken components) = .ok components := by
  by_cases hnil : components = []
  · rw [hnil]
    rfl
  · have hplain : ∀ piece ∈ components.map fun component => component.flatMap encodeByte,
        PlainName piece := by
      intro piece hpiece
      obtain ⟨component, hcomponent, rfl⟩ := List.mem_map.mp hpiece
      exact plainName_encode (h component hcomponent)
    have hpieces : (components.map fun component => component.flatMap encodeByte) ≠ [] :=
      fun hmap => hnil (List.map_eq_nil_iff.mp hmap)
    have hlast :
      (absolute (components.map fun component => component.flatMap encodeByte)).getLast? ≠
        some slash := by
      unfold absolute
      rw [if_neg hpieces]
      exact getLast_below hplain
    have hdrop : (absolute (components.map fun component => component.flatMap encodeByte)).drop 1 =
        relative (components.map fun component => component.flatMap encodeByte) := by
      unfold absolute relative
      rw [if_neg hpieces, List.drop_one]
    rw [encodePathToken_eq]
    unfold decodePathToken
    rw [if_neg, if_neg, hdrop, show slash = separator from rfl, splitOn_relative hplain hpieces,
      mapM_decodeComponent h]
    · rw [not_or, not_not]
      exact ⟨head_absolute _, hlast⟩
    · intro hroot
      rw [hroot] at hlast
      exact hlast rfl

/-! ## Local paths -/

theorem plainName_of_valid (h : validComponent component = true) : PlainName component := by
  obtain ⟨hne, hself, hparent, -, hslash⟩ := of_decide_eq_true h
  exact ⟨hne, hslash, hself, hparent⟩

/-- `PathBuf::push` of a name. -/
theorem pushComponent_eq {path : Bytes} (hpath : isAbsolute path = true)
    (hcomponent : PlainName component) :
    pushComponent path component = joinPath path component := by
  have hne : path ≠ [] := by
    rintro rfl
    cases hpath
  unfold joinPath FileTree.join pushComponent
  rw [not_isAbsolute_of_plain hcomponent, if_neg Bool.false_ne_true]
  simp only [hne, false_or]
  rfl

theorem components_push : ∀ {path : Bytes}, isAbsolute path = true →
    (∀ component ∈ components, validComponent component = true) →
      Files.components (components.foldl pushComponent path) =
        Files.components path ++ components.map .normal := by
  induction components with
  | nil =>
    intro path _ _
    exact (List.append_nil _).symm
  | cons component components ih =>
    intro path hpath hvalid
    obtain ⟨hcomponent, hrest⟩ := List.forall_mem_cons.mp hvalid
    have hplain := plainName_of_valid hcomponent
    obtain ⟨habsolute, hjoin⟩ := components_join hpath hplain
    rw [List.foldl_cons, pushComponent_eq hpath hplain, ih habsolute hrest, hjoin,
      List.append_assoc]
    rfl

/-- **Path tokens**: valid components are found again, only these are found, and a root with
them has their path below its own components. -/
theorem path_tokens :
    (∀ components : List Bytes, (∀ component ∈ components, validComponent component = true) →
      decodePathToken (encodePathToken components) = .ok components) ∧
    (∀ token components, decodePathToken token = .ok components →
      ∀ component ∈ components, validComponent component = true) ∧
    ∀ root components, isAbsolute root = true →
      (∀ component ∈ components, validComponent component = true) →
        ∃ path, joinValidatedComponents root components = .ok path ∧
          Files.components path = Files.components root ++ components.map .normal := by
  refine ⟨fun components h => decodePathToken_encode h,
    fun token components h => valid_of_decodePathToken h, fun root components hroot h => ?_⟩
  refine ⟨components.foldl pushComponent root, ?_, components_push hroot h⟩
  have habsolute : ¬ root.head? ≠ some slash := not_not_intro (of_decide_eq_true hroot)
  unfold joinValidatedComponents
  rw [if_neg habsolute, if_pos (List.all_eq_true.mpr h)]

/-- A file with a byte that is no text, below a mount. -/
theorem mount_token :
    decodePathToken (encodePathToken [ascii "etc", [0xFF]]) = .ok [ascii "etc", [0xFF]] ∧
      ∃ path, joinValidatedComponents (ascii "/mnt/tux/") [ascii "etc", [0xFF]] = .ok path ∧
        Files.components path = Files.components (ascii "/mnt/tux/") ++
          [.normal (ascii "etc"), .normal [0xFF]] := by
  have hvalid : ∀ component ∈ [ascii "etc", [0xFF]], validComponent component = true := by decide
  exact ⟨path_tokens.1 _ hvalid, path_tokens.2.2 _ _ (by decide) hvalid⟩

end TuxStack.Gui
