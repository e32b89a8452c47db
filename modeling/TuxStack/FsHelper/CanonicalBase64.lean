import TuxStack.FsHelper.Token

/-!
# Which base64 texts are read

`decode_base64` of `crates/tuxstack-fs-protocol/src/lib.rs` takes `=` for a zero digit wherever
it stands, and drops the bits that are left over before it. So more than one text is read as
the same bytes; the one that `encode_base64` writes is the one with padding in its place and
no bits left over (`canonical_iff`).
-/

namespace TuxStack.FsHelper

open Vfs Result

/-- The digit has no bits below `n`, a power of two. -/
def NoBitsBelow (n : Nat) (byte : UInt8) : Prop :=
  ∃ value, digitValue byte = some value ∧ value % n = 0

instance (n : Nat) (byte : UInt8) : Decidable (NoBitsBelow n byte) :=
  match h : digitValue byte with
  | none => isFalse fun ⟨_, hvalue, _⟩ => nomatch h.symm.trans hvalue
  | some value =>
    if hzero : value % n = 0 then isTrue ⟨value, h, hzero⟩
    else isFalse fun ⟨_, hvalue, hzero'⟩ =>
      hzero (Option.some.inj (h.symm.trans hvalue) ▸ hzero')

/-- Padding is only at the end, at most two characters of it, and no bits are left over. -/
def Canonical : Bytes → Prop
  | [] => True
  | [c0, c1, c2, c3] =>
    c0 ≠ padding ∧ c1 ≠ padding ∧
      (c2 ≠ padding ∧ c3 ≠ padding ∨ c2 ≠ padding ∧ c3 = padding ∧ NoBitsBelow 4 c2 ∨
        c2 = padding ∧ c3 = padding ∧ NoBitsBelow 16 c1)
  | c0 :: c1 :: c2 :: c3 :: rest =>
    c0 ≠ padding ∧ c1 ≠ padding ∧ c2 ≠ padding ∧ c3 ≠ padding ∧ Canonical rest
  | _ => False

/-! ## What the encoder writes -/

theorem digitValue_digit (n : Nat) : digitValue (digit n) = some (n % 64) := by
  rw [digit_mod]
  exact (digit_spec _ (Nat.mod_lt _ (by decide))).1

theorem noBitsBelow_digit {n m : Nat} (h : m % 64 % n = 0) : NoBitsBelow n (digit m) :=
  ⟨m % 64, digitValue_digit m, h⟩

/-- **What the encoder writes is canonical.** -/
theorem canonical_encode (data : Bytes) : Canonical (encodeBase64 data) := by
  have hzero : (0 : UInt8).toNat = 0 := rfl
  induction data using encodeBase64.induct with
  | case1 => trivial
  | case2 b0 =>
    refine ⟨digit_ne_padding _, digit_ne_padding _, .inr (.inr ⟨rfl, rfl, ?_⟩)⟩
    refine noBitsBelow_digit ?_
    simp only [Option.getD_none, hzero]
    omega
  | case3 b0 b1 =>
    refine ⟨digit_ne_padding _, digit_ne_padding _,
      .inr (.inl ⟨digit_ne_padding _, rfl, ?_⟩)⟩
    refine noBitsBelow_digit ?_
    simp only [Option.getD_some, Option.getD_none, hzero]
    omega
  | case4 b0 b1 b2 data ih =>
    rw [encodeBase64]
    cases hrest : encodeBase64 data with
    | nil => exact ⟨digit_ne_padding _, digit_ne_padding _,
      .inl ⟨digit_ne_padding _, digit_ne_padding _⟩⟩
    | cons c rest =>
      rw [hrest] at ih
      exact ⟨digit_ne_padding _, digit_ne_padding _, digit_ne_padding _, digit_ne_padding _, ih⟩

/-! ## What the decoder reads of a canonical text -/

theorem digit_of_value {byte : UInt8} {value : Nat} (h : digitValue byte = some value) :
    value < 64 ∧ digit value = byte := by
  have hall : ∀ n < 256, (digitValue n.toUInt8).all fun value =>
      value < 64 ∧ digit value = n.toUInt8 := by
    decide +kernel
  have hsame : byte.toNat.toUInt8 = byte := UInt8.ofNat_toNat
  have hbyte := hall byte.toNat byte.toNat_lt
  rw [hsame, h, Option.all_some, decide_eq_true_eq] at hbyte
  exact hbyte

theorem quadValue_of_ne {byte : UInt8} {value : Nat} (hne : byte ≠ padding)
    (h : quadValue byte = .ok value) : digitValue byte = some value := by
  unfold quadValue at h
  rw [if_neg hne] at h
  split at h
  · next hvalue =>
    cases h
    exact hvalue
  · cases h

theorem toNat_toUInt8 (n : Nat) : n.toUInt8.toNat = n % 256 := by
  exact UInt8.toNat_ofNat'

variable {bytes : Bytes} {c0 c1 c2 c3 : UInt8}

theorem decodeQuad_eq_ok (h : decodeQuad c0 c1 c2 c3 = .ok bytes) :
    ∃ q0 q1 q2 q3, quadValue c0 = .ok q0 ∧
      quadValue c1 = .ok q1 ∧ quadValue c2 = .ok q2 ∧ quadValue c3 = .ok q3 ∧
      bytes = ((q0 * 262144 + q1 * 4096 + q2 * 64 + q3) / 65536).toUInt8 ::
        (
         (if c2 ≠ padding then [((q0 * 262144 + q1 * 4096 + q2 * 64 + q3) / 256).toUInt8] else [])
         ++
          if c3 ≠ padding then [(q0 * 262144 + q1 * 4096 + q2 * 64 + q3).toUInt8] else []) := by
  obtain ⟨q0, h0, h⟩ := bind_eq_ok.mp h
  obtain ⟨q1, h1, h⟩ := bind_eq_ok.mp h
  obtain ⟨q2, h2, h⟩ := bind_eq_ok.mp h
  obtain ⟨q3, h3, h⟩ := bind_eq_ok.mp h
  exact ⟨q0, q1, q2, q3, h0, h1, h2, h3, (Except.ok.inj h).symm⟩

theorem three_bytes {v : Nat} (h : v < 16777216) :
    v / 65536 % 256 * 65536 + v / 256 % 256 * 256 + v % 256 = v := by
  omega

theorem digit_sextets (q0 q1 q2 q3 : Nat) {n : Nat}
    (hn : n = q0 * 262144 + q1 * 4096 + q2 * 64 + q3)
    (h1 : q1 < 64) (h2 : q2 < 64) (h3 : q3 < 64) :
    digit (n / 262144) = digit q0 ∧ digit (n / 4096) = digit q1 ∧ digit (n / 64) = digit q2 ∧
      digit n = digit q3 := by
  have e0 : n / 262144 = q0 := by omega
  have e1 : n / 4096 % 64 = q1 := by omega
  have e2 : n / 64 % 64 = q2 := by omega
  have e3 : n % 64 = q3 := by omega
  rw [digit_mod (n / 4096), digit_mod (n / 64), digit_mod n, e0, e1, e2, e3]
  exact ⟨rfl, rfl, rfl, rfl⟩

/-- A quad without padding is the chunk of the bytes that it is read as. -/
theorem encode_three (h : decodeQuad c0 c1 c2 c3 = .ok bytes) (hne0 : c0 ≠ padding)
    (hne1 : c1 ≠ padding) (hne2 : c2 ≠ padding) (hne3 : c3 ≠ padding) :
    ∃ b0 b1 b2, bytes = [b0, b1, b2] ∧ encodeChunk b0 (some b1) (some b2) = [c0, c1, c2, c3] := by
  obtain ⟨q0, q1, q2, q3, h0, h1, h2, h3, rfl⟩ := decodeQuad_eq_ok h
  obtain ⟨hlt0, hdigit0⟩ := digit_of_value (quadValue_of_ne hne0 h0)
  obtain ⟨hlt1, hdigit1⟩ := digit_of_value (quadValue_of_ne hne1 h1)
  obtain ⟨hlt2, hdigit2⟩ := digit_of_value (quadValue_of_ne hne2 h2)
  obtain ⟨hlt3, hdigit3⟩ := digit_of_value (quadValue_of_ne hne3 h3)
  rw [if_pos hne2, if_pos hne3]
  refine ⟨_, _, _, rfl, ?_⟩
  simp only [encodeChunk, Option.getD_some, toNat_toUInt8, Option.isSome_some, if_true]
  obtain ⟨e0, e1, e2, e3⟩ := digit_sextets q0 q1 q2 q3 (three_bytes (by omega)) hlt1 hlt2 hlt3
  rw [e0, e1, e2, e3, hdigit0, hdigit1, hdigit2, hdigit3]

/-- A quad with one character of padding, and no bits left over. -/
theorem encode_two (h : decodeQuad c0 c1 c2 padding = .ok bytes) (hne0 : c0 ≠ padding)
    (hne1 : c1 ≠ padding) (hne2 : c2 ≠ padding) (hbits : NoBitsBelow 4 c2) :
    encodeBase64 bytes = [c0, c1, c2, padding] := by
  obtain ⟨q0, q1, q2, q3, h0, h1, h2, h3, rfl⟩ := decodeQuad_eq_ok h
  obtain ⟨value, hvalue, hzero⟩ := hbits
  cases h3
  cases hvalue.symm.trans (quadValue_of_ne hne2 h2)
  obtain ⟨hlt0, hdigit0⟩ := digit_of_value (quadValue_of_ne hne0 h0)
  obtain ⟨hlt1, hdigit1⟩ := digit_of_value (quadValue_of_ne hne1 h1)
  obtain ⟨hlt2, hdigit2⟩ := digit_of_value hvalue
  rw [if_pos hne2, if_neg (not_not.mpr rfl)]
  simp only [List.append_nil, encodeBase64, encodeChunk, Option.getD_some, Option.getD_none,
    toNat_toUInt8, Option.isSome_some, Option.isSome_none, if_true, Bool.false_eq_true, if_false]
  have hlow : (q0 * 262144 + q1 * 4096 + q2 * 64 + 0) % 256 = (0 : UInt8).toNat := by
    rw [UInt8.toNat_zero]
    omega
  obtain ⟨e0, e1, e2, -⟩ := digit_sextets q0 q1 q2 0
    (hlow ▸ three_bytes (by omega)) hlt1 hlt2 (Nat.zero_lt_succ 63)
  rw [e0, e1, e2, hdigit0, hdigit1, hdigit2]

/-- A quad with two characters of padding, and no bits left over. -/
theorem encode_one (h : decodeQuad c0 c1 padding padding = .ok bytes) (hne0 : c0 ≠ padding)
    (hne1 : c1 ≠ padding) (hbits : NoBitsBelow 16 c1) :
    encodeBase64 bytes = [c0, c1, padding, padding] := by
  obtain ⟨q0, q1, q2, q3, h0, h1, h2, h3, rfl⟩ := decodeQuad_eq_ok h
  obtain ⟨value, hvalue, hzero⟩ := hbits
  cases h2
  cases h3
  cases hvalue.symm.trans (quadValue_of_ne hne1 h1)
  obtain ⟨hlt0, hdigit0⟩ := digit_of_value (quadValue_of_ne hne0 h0)
  obtain ⟨hlt1, hdigit1⟩ := digit_of_value hvalue
  rw [if_neg (not_not.mpr rfl), if_neg (not_not.mpr rfl)]
  simp only [List.append_nil, encodeBase64, encodeChunk, Option.getD_none, toNat_toUInt8,
    Option.isSome_none, Bool.false_eq_true, if_false]
  have hmiddle : (q0 * 262144 + q1 * 4096 + 0 * 64 + 0) / 256 % 256 = (0 : UInt8).toNat := by
    rw [UInt8.toNat_zero]
    omega
  have hlow : (q0 * 262144 + q1 * 4096 + 0 * 64 + 0) % 256 = (0 : UInt8).toNat := by
    rw [UInt8.toNat_zero]
    omega
  have hbytes := three_bytes (v := q0 * 262144 + q1 * 4096 + 0 * 64 + 0) (by omega)
  rw [hmiddle, hlow] at hbytes
  obtain ⟨e0, e1, -, -⟩ := digit_sextets q0 q1 0 0 hbytes hlt1 (Nat.zero_lt_succ 63)
    (Nat.zero_lt_succ 63)
  rw [e0, e1, hdigit0, hdigit1]

theorem decodeLoop_cons {rest : Bytes} (h : decodeLoop (c0 :: c1 :: c2 :: c3 :: rest) = .ok bytes) :
    ∃ front more, decodeQuad c0 c1 c2 c3 = .ok front ∧ decodeLoop rest = .ok more ∧
      bytes = front ++ more := by
  obtain ⟨front, hfront, h⟩ := bind_eq_ok.mp h
  obtain ⟨more, hmore, h⟩ := bind_eq_ok.mp h
  exact ⟨front, more, hfront, hmore, (Except.ok.inj h).symm⟩

/-- **A canonical text is what the encoder writes** of the bytes that it is read as. -/
theorem encode_of_canonical {text : Bytes} (hcanonical : Canonical text)
    (h : decodeLoop text = .ok bytes) : encodeBase64 bytes = text := by
  fun_induction Canonical text generalizing bytes with
  | case1 =>
    cases h
    rfl
  | case2 c0 c1 c2 c3 =>
    obtain ⟨hne0, hne1, hend⟩ := hcanonical
    obtain ⟨front, more, hfront, hmore, rfl⟩ := decodeLoop_cons h
    cases hmore
    rw [List.append_nil]
    rcases hend with ⟨hne2, hne3⟩ | ⟨hne2, rfl, hbits⟩ | ⟨rfl, rfl, hbits⟩
    · obtain ⟨b0, b1, b2, rfl, hchunk⟩ := encode_three hfront hne0 hne1 hne2 hne3
      rw [encodeBase64, encodeBase64, List.append_nil, hchunk]
    · exact encode_two hfront hne0 hne1 hne2 hbits
    · exact encode_one hfront hne0 hne1 hbits
  | case3 c0 c1 c2 c3 rest hrest ih =>
    obtain ⟨hne0, hne1, hne2, hne3, hcanonical⟩ := hcanonical
    obtain ⟨front, more, hfront, hmore, rfl⟩ := decodeLoop_cons h
    obtain ⟨b0, b1, b2, rfl, hchunk⟩ := encode_three hfront hne0 hne1 hne2 hne3
    show encodeChunk b0 (some b1) (some b2) ++ encodeBase64 more = _
    rw [hchunk, ih hcanonical hmore]
    rfl
  | case4 => exact hcanonical.elim

/-! ## Texts and tokens -/

/-- **Base64 round trip, and the texts that are not unique.** What is written is read again;
of the texts without white space that are read as some bytes, exactly the canonical one is
what is written, and a token is the one token of its path exactly if its text is canonical. -/
theorem canonical_iff (data : Bytes) :
    decodeBase64 (encodeBase64 data) = .ok data ∧
    (∀ text bytes, (∀ byte ∈ text, isAsciiWhitespace byte = false) →
      decodeBase64 text = .ok bytes → (encodeBase64 bytes = text ↔ Canonical text)) ∧
    ∀ text relative, (∀ byte ∈ text, isAsciiWhitespace byte = false) →
      decodeRelative (tokenPrefix ++ text) = .ok relative →
        (encodeRelative relative = .ok (tokenPrefix ++ text) ↔ Canonical text) := by
  have hread : ∀ text bytes, (∀ byte ∈ text, isAsciiWhitespace byte = false) →
      decodeBase64 text = .ok bytes → (encodeBase64 bytes = text ↔ Canonical text) := by
    intro text bytes hclean h
    have hfilter : text.filter (fun byte => !isAsciiWhitespace byte) = text := by
      rw [List.filter_eq_self]
      intro byte hbyte
      rw [hclean byte hbyte]
      rfl
    unfold decodeBase64 at h
    rw [hfilter] at h
    constructor
    · intro hsame
      rw [← hsame]
      exact canonical_encode bytes
    · intro hcanonical
      dsimp only at h
      split at h
      · cases h
      · exact encode_of_canonical hcanonical h
  refine ⟨decodeBase64_encode data, hread, fun text relative hclean h => ?_⟩
  have hvalid := decodeRelative_valid h
  unfold decodeRelative at h
  rw [if_neg (not_not.mpr (List.prefix_append ..)), List.drop_left] at h
  split at h
  · cases h
  · next bytes hbytes =>
    obtain ⟨⟨⟩, -, h⟩ := bind_eq_ok.mp h
    cases h
    rw [← hread text relative hclean hbytes]
    unfold encodeRelative
    rw [hvalid]
    show Except.ok (tokenPrefix ++ encodeBase64 relative) = .ok (tokenPrefix ++ text) ↔ _
    rw [Except.ok.injEq, List.append_cancel_left_eq]

/-- The text and the token of `a`. -/
theorem a_text_canonical :
    (encodeBase64 (ascii "a") = ascii "YQ==" ↔ Canonical (ascii "YQ==")) ∧
    (encodeRelative (ascii "a") = .ok (tokenPrefix ++ ascii "YQ==") ↔ Canonical (ascii "YQ==")) :=
  ⟨(canonical_iff (ascii "a")).2.1 _ _ (by decide +kernel) (by decide +kernel),
    (canonical_iff (ascii "a")).2.2 _ _ (by decide +kernel) (by decide +kernel)⟩

/-- **Padding alone is a byte**, and the token of `a` has a twin with bits left over. -/
theorem second_texts :
    decodeBase64 (ascii "====") = .ok [0] ∧ encodeBase64 [0] = ascii "AA==" ∧
    decodeRelative (ascii "v1:YR==") = .ok (ascii "a") ∧
    decodeRelative (ascii "v1:YQ==") = .ok (ascii "a") ∧
    ¬ ∀ text bytes, (∀ byte ∈ text, isAsciiWhitespace byte = false) →
      decodeBase64 text = .ok bytes → encodeBase64 bytes = text := by
  have hread : decodeBase64 (ascii "====") = .ok [0] := by decide +kernel
  refine ⟨hread, by decide +kernel, by decide +kernel, by decide +kernel, fun hall => ?_⟩
  have hsame := hall (ascii "====") [0] (by decide +kernel) hread
  exact absurd hsame (by decide +kernel)

end TuxStack.FsHelper
