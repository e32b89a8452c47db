import TuxStack.Lib.Result
import TuxStack.Vfs.Path

/-!
# Base64 fields and path tokens

`crates/tuxstack-fs-protocol/src/lib.rs`: names and paths travel between the helper and the
daemon as base64, and a path below the browse root as a token, `v1:` and the base64 of its
bytes. Texts are the bytes of their UTF-8.

A token that was made of a path is taken for that path again (`decodeRelative_encode`).
-/

namespace TuxStack.FsHelper

open Vfs Result

/-! ## Base64 -/

def b64Alphabet : Bytes :=
  ascii "ABCDEFGHIJKLMNOPQRSTUVWXYZabcdefghijklmnopqrstuvwxyz0123456789+/"

/-- `=` -/
def padding : UInt8 := 61

/-- `B64_ALPHABET[n & 63]`. -/
def digit (n : Nat) : UInt8 := b64Alphabet.getD (n % 64) 0

/-- The four characters of a chunk of one to three bytes. -/
def encodeChunk (b0 : UInt8) (b1 b2 : Option UInt8) : Bytes :=
  let triple := b0.toNat * 65536 + (b1.getD 0).toNat * 256 + (b2.getD 0).toNat
  [digit (triple / 262144), digit (triple / 4096),
    if b1.isSome then digit (triple / 64) else padding,
    if b2.isSome then digit triple else padding]

def encodeBase64 : Bytes → Bytes
  | [] => []
  | [b0] => encodeChunk b0 none none
  | [b0, b1] => encodeChunk b0 (some b1) none
  | b0 :: b1 :: b2 :: data => encodeChunk b0 (some b1) (some b2) ++ encodeBase64 data

/-- `value`: the number of a base64 character. -/
def digitValue (byte : UInt8) : Option Nat :=
  if 65 ≤ byte ∧ byte ≤ 90 then some (byte.toNat - 65)
  else if 97 ≤ byte ∧ byte ≤ 122 then some (byte.toNat - 97 + 26)
  else if 48 ≤ byte ∧ byte ≤ 57 then some (byte.toNat - 48 + 52)
  else if byte = 43 then some 62
  else if byte = 47 then some 63
  else none

/-- `u8::is_ascii_whitespace`. -/
def isAsciiWhitespace (byte : UInt8) : Bool :=
  byte = 32 || byte = 9 || byte = 10 || byte = 12 || byte = 13

def quadValue (byte : UInt8) : Except Bytes Nat :=
  if byte = padding then .ok 0
  else
    match digitValue byte with
    | some value => .ok value
    | none => .error (ascii "invalid base64 character")

/-- The bytes of four characters; padding stands for a byte less at the end. -/
def decodeQuad (c0 c1 c2 c3 : UInt8) : Except Bytes Bytes := do
  let q0 ← quadValue c0
  let q1 ← quadValue c1
  let q2 ← quadValue c2
  let q3 ← quadValue c3
  let triple := q0 * 262144 + q1 * 4096 + q2 * 64 + q3
  .ok ((triple / 65536).toUInt8 ::
    ((if c2 ≠ padding then [(triple / 256).toUInt8] else []) ++
      if c3 ≠ padding then [triple.toUInt8] else []))

def decodeLoop : Bytes → Except Bytes Bytes
  | c0 :: c1 :: c2 :: c3 :: input => do
      let bytes ← decodeQuad c0 c1 c2 c3
      let more ← decodeLoop input
      .ok (bytes ++ more)
  | _ => .ok []

def decodeBase64 (input : Bytes) : Except Bytes Bytes :=
  let clean := input.filter fun byte => !isAsciiWhitespace byte
  if clean.length % 4 ≠ 0 then .error (ascii "invalid base64 length") else decodeLoop clean

/-! ## Path tokens -/

/-- `validate_relative`. -/
def validateParts : List Bytes → Except Bytes Unit
  | [] => .ok ()
  | part :: parts =>
    if part = [dot, dot] then .error (ascii "path token must not contain '..'")
    else if part = [dot] then .error (ascii "path token must not contain '.'")
    else if part = [] then .error (ascii "path token must not contain empty components")
    else validateParts parts

def validateRelative (relative : Bytes) : Except Bytes Unit :=
  if relative = [] then .ok ()
  else if relative.head? = some slash then
    .error (ascii "path token must be root-relative, not absolute")
  else if 0 ∈ relative then .error (ascii "path token contains a NUL byte")
  else validateParts (relative.splitOn slash)

/-- `PATH_TOKEN_VERSION` and a colon. -/
def tokenPrefix : Bytes := ascii "v1:"

/-- `FilesystemPathToken::encode_relative`. -/
def encodeRelative (relative : Bytes) : Except Bytes Bytes := do
  validateRelative relative
  .ok (tokenPrefix ++ encodeBase64 relative)

def decodeRelative (token : Bytes) : Except Bytes Bytes :=
  if ¬ tokenPrefix <+: token then .error (ascii "unsupported path token version: " ++ token)
  else
    match decodeBase64 (token.drop tokenPrefix.length) with
    | .error message => .error (ascii "invalid path token encoding: " ++ message)
    | .ok bytes => do
        validateRelative bytes
        .ok bytes

/-! ## Round trips -/

section Digits

theorem digit_spec : ∀ n < 64, digitValue (digit n) = some n ∧ digit n ≠ padding ∧
    isAsciiWhitespace (digit n) = false := by
  decide +kernel

theorem digit_mod (n : Nat) : digit n = digit (n % 64) := by
  unfold digit
  rw [Nat.mod_mod]

theorem digit_ne_padding (n : Nat) : digit n ≠ padding := by
  rw [digit_mod]
  exact (digit_spec _ (Nat.mod_lt _ (by decide))).2.1

theorem digit_not_space (n : Nat) : isAsciiWhitespace (digit n) = false := by
  rw [digit_mod]
  exact (digit_spec _ (Nat.mod_lt _ (by decide))).2.2

theorem quadValue_digit (n : Nat) : quadValue (digit n) = .ok (n % 64) := by
  unfold quadValue
  rw [if_neg (digit_ne_padding n), digit_mod, (digit_spec _ (Nat.mod_lt _ (by decide))).1]

@[simp] theorem quadValue_padding : quadValue padding = .ok 0 := rfl

end Digits

variable {relative token : Bytes} {n : Nat}

theorem toUInt8_eq {byte : UInt8} (h : n % 256 = byte.toNat) : n.toUInt8 = byte := by
  apply UInt8.toNat_inj.mp
  simpa using h

theorem sextets (h : n < 16777216) :
    n / 262144 % 64 * 262144 + n / 4096 % 64 * 4096 + n / 64 % 64 * 64 + n % 64 = n := by
  omega

theorem decodeQuad_chunk (b0 : UInt8) (b1 b2 : Option UInt8) (h : b2.isSome → b1.isSome) :
    ∃ c0 c1 c2 c3, encodeChunk b0 b1 b2 = [c0, c1, c2, c3] ∧
      decodeQuad c0 c1 c2 c3 = .ok (b0 :: (b1.toList ++ b2.toList)) := by
  have h0 := b0.toNat_lt
  have hzero : (0 : UInt8).toNat = 0 := rfl
  refine ⟨_, _, _, _, rfl, ?_⟩
  cases b1 with
  | none =>
    cases b2 with
    | some b2 => cases h rfl
    | none =>
      simp only [decodeQuad, quadValue_digit, Option.getD_none, hzero, Option.isSome_none,
        quadValue_padding, Bool.false_eq_true, if_false]
      show Except.ok _ = _
      simp only [ne_eq, not_true_eq_false, if_false, List.append_nil, Option.toList_none,
        Except.ok.injEq, List.cons.injEq, and_true]
      apply toUInt8_eq
      omega
  | some b1 =>
    have h1 := b1.toNat_lt
    cases b2 with
    | none =>
      simp only [decodeQuad, quadValue_digit, Option.getD_some, Option.getD_none, hzero,
        Option.isSome_some, Option.isSome_none, quadValue_padding, Bool.false_eq_true, if_false,
        if_true]
      show Except.ok _ = _
      simp only [ne_eq, digit_ne_padding, not_false_eq_true, not_true_eq_false, if_true,
        if_false, List.append_nil, Option.toList_none, Option.toList_some, Except.ok.injEq,
        List.cons.injEq, and_true]
      constructor
      · apply toUInt8_eq
        omega
      · apply toUInt8_eq
        omega
    | some b2 =>
      have h2 := b2.toNat_lt
      simp only [decodeQuad, quadValue_digit, Option.getD_some, Option.isSome_some, if_true]
      show Except.ok _ = _
      simp only [ne_eq, digit_ne_padding, not_false_eq_true, if_true, Option.toList_some,
        Except.ok.injEq, List.cons.injEq, List.cons_append, List.nil_append, and_true]
      rw [sextets (by omega)]
      refine ⟨?_, ?_, ?_⟩
      · apply toUInt8_eq
        omega
      · apply toUInt8_eq
        omega
      · apply toUInt8_eq
        omega

theorem decodeLoop_chunk (b0 : UInt8) (b1 b2 : Option UInt8) (h : b2.isSome → b1.isSome)
    (rest : Bytes) :
    decodeLoop (encodeChunk b0 b1 b2 ++ rest) =
      (decodeLoop rest).map fun more => b0 :: (b1.toList ++ b2.toList) ++ more := by
  obtain ⟨c0, c1, c2, c3, hchunk, hquad⟩ := decodeQuad_chunk b0 b1 b2 h
  rw [hchunk]
  show (decodeQuad c0 c1 c2 c3).bind (fun bytes => (decodeLoop rest).bind fun more =>
    .ok (bytes ++ more)) = _
  rw [hquad]
  cases decodeLoop rest with
  | error message => rfl
  | ok more => rfl

theorem decodeLoop_encode (data : Bytes) : decodeLoop (encodeBase64 data) = .ok data := by
  induction data using encodeBase64.induct with
  | case1 => rfl
  | case2 b0 => exact decodeLoop_chunk b0 none none (by simp) []
  | case3 b0 b1 => exact decodeLoop_chunk b0 (some b1) none (by simp) []
  | case4 b0 b1 b2 data ih =>
    rw [encodeBase64, decodeLoop_chunk b0 (some b1) (some b2) (fun _ => rfl), ih]
    rfl

theorem encodeChunk_clean (b0 : UInt8) (b1 b2 : Option UInt8) :
    (encodeChunk b0 b1 b2).length = 4 ∧
      ∀ byte ∈ encodeChunk b0 b1 b2, isAsciiWhitespace byte = false := by
  refine ⟨rfl, ?_⟩
  intro byte hbyte
  unfold encodeChunk at hbyte
  simp only [List.mem_cons, List.not_mem_nil, or_false] at hbyte
  rcases hbyte with rfl | rfl | rfl | rfl
  · exact digit_not_space _
  · exact digit_not_space _
  · split
    · exact digit_not_space _
    · rfl
  · split
    · exact digit_not_space _
    · rfl

theorem encodeBase64_clean (data : Bytes) : (encodeBase64 data).length % 4 = 0 ∧
    ∀ byte ∈ encodeBase64 data, isAsciiWhitespace byte = false := by
  induction data using encodeBase64.induct with
  | case1 => exact ⟨rfl, fun byte hbyte => by cases hbyte⟩
  | case2 b0 =>
    obtain ⟨hlength, hclean⟩ := encodeChunk_clean b0 none none
    exact ⟨by rw [encodeBase64, hlength], hclean⟩
  | case3 b0 b1 =>
    obtain ⟨hlength, hclean⟩ := encodeChunk_clean b0 (some b1) none
    exact ⟨by rw [encodeBase64, hlength], hclean⟩
  | case4 b0 b1 b2 data ih =>
    obtain ⟨hlength, hclean⟩ := encodeChunk_clean b0 (some b1) (some b2)
    rw [encodeBase64, List.length_append, hlength]
    refine ⟨by omega, fun byte hbyte => ?_⟩
    rcases List.mem_append.mp hbyte with hbyte | hbyte
    · exact hclean byte hbyte
    · exact ih.2 byte hbyte

/-- **Base64 round trip.** -/
theorem decodeBase64_encode (data : Bytes) : decodeBase64 (encodeBase64 data) = .ok data := by
  obtain ⟨hlength, hclean⟩ := encodeBase64_clean data
  have hfilter : (encodeBase64 data).filter (fun byte => !isAsciiWhitespace byte) =
      encodeBase64 data := by
    rw [List.filter_eq_self]
    intro byte hbyte
    rw [hclean byte hbyte]
    rfl
  unfold decodeBase64
  rw [hfilter, if_neg (by omega)]
  exact decodeLoop_encode data

/-- **A token is taken for the path it was made of.** -/
theorem decodeRelative_encode (h : encodeRelative relative = .ok token) :
    decodeRelative token = .ok relative := by
  obtain ⟨⟨⟩, hvalid, h⟩ := bind_eq_ok.mp h
  cases h
  unfold decodeRelative
  rw [if_neg (not_not.mpr (List.prefix_append ..)), List.drop_left, decodeBase64_encode]
  show (validateRelative relative).bind _ = _
  rw [hvalid]
  rfl

/-! ## What a token can name -/

theorem validateParts_iff {parts : List Bytes} : validateParts parts = .ok () ↔
    ∀ part ∈ parts, part ≠ [dot, dot] ∧ part ≠ [dot] ∧ part ≠ [] := by
  induction parts with
  | nil => simp [validateParts]
  | cons part parts ih =>
    rw [List.forall_mem_cons, validateParts]
    split
    · next hparent => simp [hparent]
    · next hparent =>
      split
      · next hself => simp [hself]
      · next hself =>
        split
        · next hempty => simp [hempty]
        · next hempty =>
          rw [ih]
          simp [hparent, hself, hempty]

theorem validateRelative_iff : validateRelative relative = .ok () ↔
    relative = [] ∨ relative.head? ≠ some slash ∧ 0 ∉ relative ∧
      ∀ part ∈ relative.splitOn slash, part ≠ [dot, dot] ∧ part ≠ [dot] ∧ part ≠ [] := by
  unfold validateRelative
  split
  · next hempty => simp [hempty]
  · next hempty =>
    split
    · next hhead => simp [hempty, hhead]
    · next hhead =>
      split
      · next hnul => simp [hempty, hnul]
      · next hnul =>
        rw [validateParts_iff]
        simp [hempty, hhead, hnul]

theorem getLast_of_valid (h : validateRelative relative = .ok ()) :
    relative.getLast? ≠ some slash := by
  rcases validateRelative_iff.mp h with rfl | ⟨-, -, hparts⟩
  · simp
  · intro hlast
    obtain ⟨front, rfl⟩ : ∃ front, relative = front ++ [slash] :=
      ⟨relative.dropLast, (List.dropLast_append_getLast? _ hlast).symm⟩
    have hsplit : (front ++ [slash]).splitOn slash = front.splitOn slash ++ [[]] :=
      List.splitOn_append_cons_self ..
    exact (hparts [] (by rw [hsplit]; simp)).2.2 rfl

theorem decodeRelative_valid (h : decodeRelative token = .ok relative) :
    validateRelative relative = .ok () := by
  unfold decodeRelative at h
  split at h
  · cases h
  · split at h
    · cases h
    · obtain ⟨⟨⟩, hvalid, h⟩ := bind_eq_ok.mp h
      cases h
      exact hvalid

/-- **A name below a valid path** is again a valid path, when the name is none of the special
ones and holds no NUL. -/
theorem validateRelative_child {name : Bytes} (h : validateRelative relative = .ok ())
    (hslash : slash ∉ name) :
    validateRelative (if relative = [] then name else relative ++ slash :: name) = .ok () ↔
      relative = [] ∧ name = [] ∨ 0 ∉ name ∧ name ≠ [dot, dot] ∧ name ≠ [dot] ∧ name ≠ [] := by
  have hname : name.splitOn slash = [name] := List.splitOn_eq_singleton hslash
  rw [validateRelative_iff]
  by_cases hempty : relative = []
  · rw [if_pos hempty, hname]
    have hhead : name.head? ≠ some slash := fun hhead => hslash (List.mem_of_mem_head? hhead)
    simp [hempty, hhead]
  · rw [if_neg hempty]
    obtain ⟨hhead, hnul, hparts⟩ := (validateRelative_iff.mp h).resolve_left hempty
    have hsplit : (relative ++ slash :: name).splitOn slash = relative.splitOn slash ++ [name] := by
      rw [List.splitOn_append_cons_self, hname]
    have hfirst : (relative ++ slash :: name).head? = relative.head? :=
      List.head?_append_of_ne_nil _ hempty
    have hzero : (0 : UInt8) ≠ slash := by decide
    rw [hsplit, hfirst]
    constructor
    · rintro (hnil | ⟨-, hbytes, hall⟩)
      · simp at hnil
      · refine .inr ⟨fun hmem => hbytes ?_, hall name (by simp)⟩
        exact List.mem_append_right _ (List.mem_cons_of_mem _ hmem)
    · rintro (⟨hnil, -⟩ | ⟨hbytes, hspecial⟩)
      · exact absurd hnil hempty
      · refine .inr ⟨hhead, ?_, ?_⟩
        · simp [hnul, hbytes, hzero]
        · intro part hpart
          rcases List.mem_append.mp hpart with hpart | hpart
          · exact hparts part hpart
          · exact List.mem_singleton.mp hpart ▸ hspecial

end TuxStack.FsHelper
