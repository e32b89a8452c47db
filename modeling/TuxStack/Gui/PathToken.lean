import TuxStack.Lib.Result
import TuxStack.Vfs.Path

/-!
# Path tokens

`encode_path_token` and `decode_path_token` of the file browser
(`crates/gui/src/controllers/local_fuse_files.rs`). QML gets a path as a slash and the
percent-encoded bytes of each component; a token is the bytes of such a text.
-/

namespace TuxStack.Gui

open Vfs

def validComponent (value : Bytes) : Bool :=
  value ≠ [] ∧ value ≠ [dot] ∧ value ≠ [dot, dot] ∧ 0 ∉ value ∧ slash ∉ value

def hexDigit (value : UInt8) : UInt8 := if value ≤ 9 then 48 + value else 65 + value - 10

def hexValue (value : UInt8) : Option UInt8 :=
  if 48 ≤ value ∧ value ≤ 57 then some (value - 48)
  else if 97 ≤ value ∧ value ≤ 102 then some (value - 97 + 10)
  else if 65 ≤ value ∧ value ≤ 70 then some (value - 65 + 10)
  else none

/-- The byte `%`. -/
def percent : UInt8 := 37

def encodeByte (byte : UInt8) : Bytes :=
  [percent, hexDigit (byte >>> 4), hexDigit (byte &&& 0x0F)]

def encodePathToken (components : List Bytes) : Bytes :=
  if components = [] then [slash]
  else components.flatMap fun component => slash :: component.flatMap encodeByte

def decodeChunks : Bytes → Except String Bytes
  | mark :: high :: low :: rest => do
      if mark ≠ percent then throw "path tokens must percent-encode every byte"
      let some high := hexValue high | throw "invalid path token escape"
      let some low := hexValue low | throw "invalid path token escape"
      return ((high <<< 4) ||| low) :: (← decodeChunks rest)
  | _ => .ok []

def decodeComponent (bytes : Bytes) : Except String Bytes :=
  if bytes = [] ∨ bytes.length % 3 ≠ 0 then .error "invalid path token component"
  else do
    let decoded ← decodeChunks bytes
    if validComponent decoded then .ok decoded else .error "invalid path component"

def decodePathToken (token : Bytes) : Except String (List Bytes) :=
  if token = [slash] then .ok []
  else if token.head? ≠ some slash ∨ token.getLast? = some slash then .error "invalid path token"
  else ((token.drop 1).splitOn slash).mapM decodeComponent

theorem valid_of_decodeComponent {bytes component : Bytes}
    (h : decodeComponent bytes = .ok component) : validComponent component = true := by
  unfold decodeComponent at h
  split at h
  · cases h
  · obtain ⟨decoded, -, h⟩ := Result.bind_eq_ok.mp h
    split at h
    · next hvalid =>
      cases h
      exact hvalid
    · cases h

/-- **What a token names is a path of valid components.** -/
theorem valid_of_decodePathToken {token : Bytes} {components : List Bytes}
    (h : decodePathToken token = .ok components) :
    ∀ component ∈ components, validComponent component = true := by
  unfold decodePathToken at h
  split_ifs at h
  · cases h
    simp
  · intro component hmem
    obtain ⟨bytes, -, hdecode⟩ := Result.exists_of_mem_mapM_ok h hmem
    exact valid_of_decodeComponent hdecode

end TuxStack.Gui
