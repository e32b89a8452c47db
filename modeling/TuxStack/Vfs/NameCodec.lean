import TuxStack.Lib.Utf8
import TuxStack.Vfs.PathLaws

/-!
# Names as bytes

`FuseNameCodec` of `crates/tuxstack-vfs/src/path.rs` on arbitrary bytes. `encodeBytes`
goes through the bytes by runs: text as far as it is well-formed, then the ill-formed
sequence that `from_utf8` reports, byte by byte. `Encoded` forgets the runs: a text that
stands for bytes is made of safe characters and of escapes, and a byte is escaped only
where no safe character stands.

The daemon calls `encode` on the bytes of a `str`. These are valid UTF-8, so the loop takes
all of them in its first round; `encode` is the function on such texts.
-/

namespace TuxStack.Vfs

open Utf8

namespace FuseNameCodec

/-! ## Texts -/

/-- `char::is_control`. -/
def isControl (c : Char) : Bool := c.toNat < 0x20 || (0x7F ≤ c.toNat && c.toNat < 0xA0)

def isSafe (c : Char) : Bool :=
  !isControl c && !(c = '/' || c = ':' || c = '@' || c = '%' || c = '\\')

def hexDigit (n : Nat) : UInt8 := if n < 10 then (48 + n).toUInt8 else (55 + n).toUInt8

def pushPercent (byte : UInt8) : Bytes :=
  [37, hexDigit (byte.toNat / 16), hexDigit (byte.toNat % 16)]

/-- One character of `encode_unicode`. -/
def encodeChar (c : Char) : Bytes :=
  if isSafe c then String.utf8EncodeChar c else (String.utf8EncodeChar c).flatMap pushPercent

/-- `FuseNameCodec::encode` on a text, as the bytes of the string it returns. -/
def encode (name : String) : Except VfsError Bytes :=
  if Char.ofNat 0 ∈ name.toList then .error (.invalidInput "NUL is not encodable")
  else if name = "." then .ok (ascii "%2E")
  else if name = ".." then .ok (ascii "%2E%2E")
  else .ok (name.toList.flatMap encodeChar)

/-! ## The two functions -/

def percentText (byte : UInt8) : List Char := (pushPercent byte).map fun b => Char.ofNat b.toNat

/-- `encode_unicode` on one character. -/
def encodeCharacter (character : Char) : List Char :=
  if isSafe character then [character]
  else (String.utf8EncodeChar character).flatMap percentText

def encodeUnicode (text : List Char) : List Char := text.flatMap encodeCharacter

def encodeValid (name : Bytes) (validEnd : Nat) : Except Failure (List Char) :=
  if 0 < validEnd then
    encodeUnicode <$> expect "validated UTF-8" (fromUtf8 (name.take validEnd))
  else .ok []

variable {text : List Char} {c : Char} {name raw : Bytes}

theorem errorLen_progress {error : Utf8Error} (h : fromUtf8 name = .error error) :
    (name.drop (error.validUpTo +
      error.errorLen.getD (name.length - error.validUpTo))).length < name.length := by
  rcases fromUtf8_cases name with ⟨text, -, hok⟩ | ⟨text, rest, hname, hne, hnone, herror⟩
  · rw [h] at hok
    cases hok
  · rw [h] at herror
    cases herror
    have hspec := errorLen_spec hne hnone
    have hlen : name.length - (encodeText text).length = rest.length := by
      rw [hname, List.length_append, Nat.add_sub_cancel_left]
    simp only [hlen]
    rw [List.length_drop]
    have hpos := List.length_pos_of_ne_nil hne
    omega

def encodeLoop (name : Bytes) : Except Failure (List Char) :=
  if name = [] then .ok []
  else
    match _h : fromUtf8 name with
    | .ok text => .ok (encodeUnicode text)
    | .error error => do
        let validEnd := error.validUpTo
        let valid ← encodeValid name validEnd
        let invalidLen := error.errorLen.getD (name.length - validEnd)
        let rest ← encodeLoop (name.drop (validEnd + invalidLen))
        .ok (valid ++ ((name.drop validEnd).take invalidLen).flatMap percentText ++ rest)
termination_by name.length
decreasing_by exact errorLen_progress _h

/-- `FuseNameCodec::encode`. -/
def encodeBytes (name : Bytes) : Except Failure (List Char) :=
  if 0 ∈ name then .error (.error (.invalidInput "NUL is not encodable"))
  else if name = [dot] then .ok "%2E".toList
  else if name = [dot, dot] then .ok "%2E%2E".toList
  else encodeLoop name

/-- The private `hex`. -/
def hex (byte : UInt8) : Except VfsError UInt8 :=
  if 48 ≤ byte && byte ≤ 57 then .ok (byte - 48)
  else if 97 ≤ byte && byte ≤ 102 then .ok (byte - 97 + 10)
  else if 65 ≤ byte && byte ≤ 70 then .ok (byte - 65 + 10)
  else .error .invalidEncoding

def decodeLoop (bytes : Bytes) : Except VfsError Bytes :=
  match bytes with
  | [] => .ok []
  | byte :: rest =>
    if byte = 37 then
      match rest with
      | first :: second :: rest => do
          let high ← hex first
          let low ← hex second
          let byte := high <<< 4 ||| low
          if byte = 0 then .error (.invalidInput "decoded NUL is not allowed")
          else do
            let tail ← decodeLoop rest
            .ok (byte :: tail)
      | _ => .error .invalidEncoding
    else
      match _h : firstChar (byte :: rest) with
      | none => .error .invalidEncoding
      | some character => do
          let tail ← decodeLoop ((byte :: rest).drop character.utf8Size)
          .ok (String.utf8EncodeChar character ++ tail)
termination_by bytes.length
decreasing_by
  · simp only [List.length_cons]
    omega
  · exact drop_lt_of_firstChar _h

/-- `FuseNameCodec::decode`. -/
def decode (encoded : List Char) : Except VfsError Bytes := decodeLoop (encodeText encoded)

/-! ## What a text stands for -/

/-- `text` stands for `raw`: safe characters as they are, and escapes of bytes at which
no safe character stands. -/
inductive Encoded : Bytes → List Char → Prop where
  | nil : Encoded [] []
  | safe {c : Char} {raw : Bytes} {text : List Char} : isSafe c = true → Encoded raw text →
      Encoded (String.utf8EncodeChar c ++ raw) (c :: text)
  | escaped {byte : UInt8} {raw : Bytes} {text : List Char} : byte ≠ 0 →
      (byte < 128 → isSafe (Char.ofNat byte.toNat) = false) → Encoded raw text →
      Encoded (byte :: raw) (percentText byte ++ text)

theorem Encoded.append {raw' : Bytes} {text' : List Char} (h : Encoded raw text)
    (h' : Encoded raw' text') : Encoded (raw ++ raw') (text ++ text') := by
  induction h with
  | nil => exact h'
  | safe hsafe _ ih =>
    rw [List.append_assoc]
    exact .safe hsafe ih
  | escaped hne hunsafe _ ih =>
    rw [List.append_assoc]
    exact .escaped hne hunsafe ih

theorem encoded_escapes : ∀ {bytes : Bytes},
    (∀ byte ∈ bytes, byte ≠ 0 ∧ (byte < 128 → isSafe (Char.ofNat byte.toNat) = false)) →
      Encoded bytes (bytes.flatMap percentText)
  | [], _ => .nil
  | byte :: bytes, h => by
      obtain ⟨⟨hne, hunsafe⟩, hrest⟩ := List.forall_mem_cons.mp h
      exact .escaped hne hunsafe (encoded_escapes hrest)

theorem encoded_unicode : ∀ {text : List Char}, 0 ∉ encodeText text →
    Encoded (encodeText text) (encodeUnicode text)
  | [], _ => .nil
  | c :: text, h => by
      rw [encodeText_cons, List.mem_append, not_or] at h
      have hrest := encoded_unicode h.2
      change Encoded (String.utf8EncodeChar c ++ encodeText text)
        (encodeCharacter c ++ encodeUnicode text)
      unfold encodeCharacter
      cases hsafe : isSafe c with
      | true => exact .safe hsafe hrest
      | false =>
        refine Encoded.append (encoded_escapes fun byte hbyte => ⟨?_, fun hascii => ?_⟩) hrest
        · rintro rfl
          exact h.1 hbyte
        · rw [← (encode_of_mem_ascii hbyte hascii).1]
          exact hsafe

/-- The bytes before `valid_end` are text, so the `expect` does not fire. -/
theorem encodeValid_eq (text : List Char) (rest : Bytes) :
    encodeValid (encodeText text ++ rest) (encodeText text).length = .ok (encodeUnicode text) := by
  unfold encodeValid
  split
  · rw [List.take_left, fromUtf8_encodeText]
    rfl
  · rename_i hempty
    cases text with
    | nil => rfl
    | cons c text =>
      have hpos := c.utf8Size_pos
      rw [encodeText_cons, List.length_append, String.length_utf8EncodeChar] at hempty
      omega

/-- **The loop of `encode`** returns, and its text stands for the bytes. -/
theorem exists_encodeLoop (name : Bytes) :
    0 ∉ name → ∃ text, encodeLoop name = .ok text ∧ Encoded name text := by
  induction hlen : name.length using Nat.strong_induction_on generalizing name with
  | _ n ih =>
    intro hnul
    subst hlen
    rw [encodeLoop]
    by_cases hnil : name = []
    · rw [if_pos hnil, hnil]
      exact ⟨[], rfl, .nil⟩
    rw [if_neg hnil]
    split
    · rename_i text hok
      rcases fromUtf8_cases name with ⟨text', hname, hok'⟩ | ⟨_, _, -, -, -, herror⟩
      · rw [hok] at hok'
        cases hok'
        exact ⟨_, rfl, hname ▸ encoded_unicode (hname ▸ hnul)⟩
      · rw [hok] at herror
        cases herror
    · rename_i error herror
      have hprogress := errorLen_progress herror
      rcases fromUtf8_cases name with ⟨_, -, hok⟩ | ⟨text, rest, hname, hne, hnone, herror'⟩
      · rw [herror] at hok
        cases hok
      rw [herror] at herror'
      cases herror'
      have hdrop : name.drop (encodeText text).length = rest := by
        rw [hname, List.drop_left]
      have hlen : name.length - (encodeText text).length = rest.length := by
        rw [← hdrop, List.length_drop]
      simp only [hlen] at hprogress ⊢
      obtain ⟨-, -, hlarge⟩ := errorLen_spec hne hnone
      generalize (errorLen rest).getD rest.length = invalidLen at hprogress hlarge ⊢
      have hafter : name.drop ((encodeText text).length + invalidLen) = rest.drop invalidLen := by
        rw [← hdrop, List.drop_drop]
      rw [hname, List.mem_append, not_or] at hnul
      obtain ⟨htext, hrest⟩ := hnul
      have hnulAfter : 0 ∉ rest.drop invalidLen := fun h => hrest (List.mem_of_mem_drop h)
      rw [hafter] at hprogress
      -- valid text, then the invalid bytes as escapes, then what the loop makes of the rest
      obtain ⟨after, hloop, hencoded⟩ := ih _ hprogress _ rfl hnulAfter
      refine ⟨encodeUnicode text ++ (rest.take invalidLen).flatMap percentText ++ after, ?_, ?_⟩
      · have hvalid := encodeValid_eq text rest
        rw [← hname] at hvalid
        rw [hvalid, hafter, hloop, hdrop]
        rfl
      · have hinvalid : Encoded (rest.take invalidLen)
            ((rest.take invalidLen).flatMap percentText) := by
          refine encoded_escapes fun byte hbyte => ⟨?_, fun hascii => ?_⟩
          · rintro rfl
            exact hrest (List.mem_of_mem_take hbyte)
          · exact absurd hascii (UInt8.not_lt.mpr (hlarge byte hbyte))
        have hall := ((encoded_unicode htext).append hinvalid).append hencoded
        rwa [List.append_assoc, List.take_append_drop, ← hname] at hall

/-! ## Reading it back -/

/-- The digits that `push_percent` writes. -/
def isHexUpper (c : Char) : Bool := c.isDigit || ('A' ≤ c && c ≤ 'F')

theorem hex_hexDigit : ∀ n < 16, hexDigit n < 128 ∧ hex (hexDigit n) = .ok n.toUInt8 ∧
    isHexUpper (Char.ofNat (hexDigit n).toNat) = true := by
  decide +kernel

theorem nibbles : ∀ n < 256,
    ((n / 16).toUInt8 <<< (4 : UInt8) ||| (n % 16).toUInt8 : UInt8) = n.toUInt8 := by
  decide +kernel

theorem nibble_lt (byte : UInt8) : byte.toNat / 16 < 16 ∧ byte.toNat % 16 < 16 :=
  ⟨Nat.div_lt_of_lt_mul byte.toNat_lt, Nat.mod_lt _ (by decide)⟩

theorem encodeText_percentText (byte : UInt8) :
    encodeText (percentText byte) = pushPercent byte := by
  obtain ⟨hhigh, hlow⟩ := nibble_lt byte
  refine encodeText_ascii fun digit hdigit => ?_
  simp only [pushPercent, List.mem_cons, List.not_mem_nil, or_false] at hdigit
  rcases hdigit with rfl | rfl | rfl
  · decide
  · exact (hex_hexDigit _ hhigh).1
  · exact (hex_hexDigit _ hlow).1

theorem decodeLoop_character (hne : c ≠ '%') (rest : Bytes) :
    decodeLoop (String.utf8EncodeChar c ++ rest) = (do
      let tail ← decodeLoop rest
      .ok (String.utf8EncodeChar c ++ tail)) := by
  obtain ⟨byte, more, hbytes⟩ : ∃ byte more, String.utf8EncodeChar c = byte :: more := by
    refine List.exists_cons_of_ne_nil fun hnil => ?_
    have hlen := String.length_utf8EncodeChar c
    rw [hnil] at hlen
    exact absurd hlen (Nat.ne_of_lt c.utf8Size_pos)
  have hpercent : byte ≠ 37 := by
    rintro rfl
    have hmem : (37 : UInt8) ∈ String.utf8EncodeChar c := by simp [hbytes]
    exact hne (encode_of_mem_ascii hmem (by decide)).1
  have hfirst := firstChar_encode_append c rest
  have hdrop : (String.utf8EncodeChar c ++ rest).drop c.utf8Size = rest := by
    rw [← String.length_utf8EncodeChar, List.drop_left]
  rw [hbytes, List.cons_append] at hfirst hdrop ⊢
  rw [decodeLoop.eq_def]
  dsimp only
  rw [if_neg hpercent]
  split
  · rename_i hnone
    rw [hfirst] at hnone
    cases hnone
  · rename_i d hsome
    rw [hfirst] at hsome
    cases hsome
    rw [hdrop, hbytes]

theorem decodeLoop_percent {byte : UInt8} (hne : byte ≠ 0) (rest : Bytes) :
    decodeLoop (encodeText (percentText byte) ++ rest) = (do
      let tail ← decodeLoop rest
      .ok (byte :: tail)) := by
  obtain ⟨hhigh, hlow⟩ := nibble_lt byte
  have hbyte : ((byte.toNat / 16).toUInt8 <<< (4 : UInt8) ||| (byte.toNat % 16).toUInt8 : UInt8) =
      byte :=
    (nibbles byte.toNat byte.toNat_lt).trans UInt8.ofNat_toNat
  rw [encodeText_percentText]
  change decodeLoop (37 :: hexDigit (byte.toNat / 16) :: hexDigit (byte.toNat % 16) :: rest) = _
  rw [decodeLoop.eq_def]
  dsimp only
  rw [if_pos rfl]
  simp only [(hex_hexDigit _ hhigh).2.1, (hex_hexDigit _ hlow).2.1, bind, Except.bind, hbyte,
    if_neg hne]

/-- **Decoding** a text gives what it stands for. -/
theorem decode_of_encoded (h : Encoded raw text) : decode text = .ok raw := by
  unfold decode
  induction h with
  | nil => rw [encodeText_nil, decodeLoop]
  | @safe c raw text hsafe _ ih =>
    have hne : c ≠ '%' := by
      rintro rfl
      exact absurd hsafe (by decide)
    rw [encodeText_cons, decodeLoop_character hne, ih]
    rfl
  | @escaped byte raw text hne _ _ ih =>
    rw [encodeText_append, decodeLoop_percent hne, ih]
    rfl

/-! ## The characters of a text -/

theorem percentText_spec (byte : UInt8) : ∃ high low : Char,
    percentText byte = ['%', high, low] ∧ isHexUpper high = true ∧ isHexUpper low = true := by
  obtain ⟨hhigh, hlow⟩ := nibble_lt byte
  exact ⟨_, _, rfl, (hex_hexDigit _ hhigh).2.2, (hex_hexDigit _ hlow).2.2⟩

def Harmless (c : Char) : Prop :=
  c ≠ '/' ∧ c ≠ ':' ∧ c ≠ '@' ∧ c ≠ '\\' ∧ isControl c = false

theorem harmless_of_isSafe (h : isSafe c = true) : Harmless c ∧ c ≠ '%' := by
  simp only [isSafe, Bool.and_eq_true, Bool.not_eq_true', Bool.or_eq_false_iff,
    decide_eq_false_iff_not] at h
  obtain ⟨hcontrol, ⟨⟨⟨hslash, hcolon⟩, hat⟩, hpercent⟩, hbackslash⟩ := h
  exact ⟨⟨hslash, hcolon, hat, hbackslash, hcontrol⟩, hpercent⟩

theorem isSafe_of_isHexUpper (h : isHexUpper c = true) : isSafe c = true := by
  have hrange : (48 ≤ c.toNat ∧ c.toNat ≤ 57) ∨ (65 ≤ c.toNat ∧ c.toNat ≤ 70) := by
    simp only [isHexUpper, Char.isDigit, Bool.or_eq_true, Bool.and_eq_true, decide_eq_true_eq,
      Char.le_def, ge_iff_le, UInt32.le_iff_toNat_le] at h
    exact h
  have hne : ∀ d : Char, d.toNat < 48 ∨ (57 < d.toNat ∧ d.toNat < 65) ∨ 70 < d.toNat → c ≠ d := by
    rintro d hd rfl
    omega
  simp only [isSafe, isControl, Bool.and_eq_true, Bool.not_eq_true', Bool.or_eq_false_iff,
    decide_eq_false_iff_not]
  refine ⟨⟨by omega, ?_⟩, ⟨⟨⟨hne _ (by decide), hne _ (by decide)⟩, hne _ (by decide)⟩,
    hne _ (by decide)⟩, hne _ (by decide)⟩
  rw [Bool.and_eq_false_iff, decide_eq_false_iff_not]
  exact .inl (by omega)

theorem harmless_percentText (byte : UInt8) : ∀ c ∈ percentText byte, Harmless c := by
  obtain ⟨high, low, htext, hhigh, hlow⟩ := percentText_spec byte
  intro c hc
  simp only [htext, List.mem_cons, List.not_mem_nil, or_false] at hc
  rcases hc with rfl | rfl | rfl
  · exact ⟨by decide, by decide, by decide, by decide, by decide⟩
  · exact (harmless_of_isSafe (isSafe_of_isHexUpper hhigh)).1
  · exact (harmless_of_isSafe (isSafe_of_isHexUpper hlow)).1

theorem harmless_of_encoded (h : Encoded raw text) : ∀ c ∈ text, Harmless c := by
  induction h with
  | nil =>
    intro c hc
    cases hc
  | safe hsafe _ ih => exact List.forall_mem_cons.mpr ⟨(harmless_of_isSafe hsafe).1, ih⟩
  | escaped _ _ _ ih =>
    intro c hc
    rcases List.mem_append.mp hc with hc | hc
    · exact harmless_percentText _ c hc
    · exact ih c hc

/-- Every `%` of `text` starts a two-digit escape. -/
def EscapesWhole (text : List Char) : Prop :=
  ∀ before after, text = before ++ '%' :: after →
    ∃ high low rest, after = high :: low :: rest ∧ isHexUpper high = true ∧
      isHexUpper low = true

/-- A character other than `%` can be put in front. -/
theorem EscapesWhole.cons (h : EscapesWhole text) (hne : c ≠ '%') : EscapesWhole (c :: text) := by
  intro before after heq
  cases before with
  | nil =>
    rw [List.nil_append, List.cons.injEq] at heq
    exact absurd heq.1 hne
  | cons d before =>
    rw [List.cons_append, List.cons.injEq] at heq
    exact h before after heq.2

theorem EscapesWhole.nil : EscapesWhole [] := fun _ _ heq => absurd heq (by simp)

/-- An escape can be put in front. -/
theorem EscapesWhole.percent (h : EscapesWhole text) (byte : UInt8) :
    EscapesWhole (percentText byte ++ text) := by
  obtain ⟨high, low, htext, hhigh, hlow⟩ := percentText_spec byte
  have hrest : EscapesWhole (high :: low :: text) :=
    (h.cons (harmless_of_isSafe (isSafe_of_isHexUpper hlow)).2).cons
      (harmless_of_isSafe (isSafe_of_isHexUpper hhigh)).2
  rw [htext]
  intro before after heq
  cases before with
  | nil =>
    cases heq
    exact ⟨high, low, text, rfl, hhigh, hlow⟩
  | cons d before =>
    have htail : high :: low :: text = before ++ '%' :: after := (List.cons.inj heq).2
    exact hrest before after htail

theorem escapesWhole_of_encoded (h : Encoded raw text) : EscapesWhole text := by
  induction h with
  | nil => exact .nil
  | safe hsafe _ ih => exact ih.cons (harmless_of_isSafe hsafe).2
  | escaped _ _ _ ih => exact ih.percent _

/-! ## The codec -/

/-- A name is encoded as a text that stands for it, the two dot names apart. -/
theorem exists_encodeBytes (hnul : 0 ∉ name) : ∃ text,
    encodeBytes name = .ok text ∧ ((name = [dot] ∧ text = "%2E".toList) ∨
      (name = [dot, dot] ∧ text = "%2E%2E".toList) ∨
      (name ≠ [dot] ∧ name ≠ [dot, dot] ∧ Encoded name text)) := by
  unfold encodeBytes
  rw [if_neg hnul]
  split
  · rename_i hdot
    exact ⟨_, rfl, .inl ⟨hdot, rfl⟩⟩
  · rename_i hdot
    split
    · rename_i hdots
      exact ⟨_, rfl, .inr (.inl ⟨hdots, rfl⟩)⟩
    · rename_i hdots
      obtain ⟨text, hloop, hencoded⟩ := exists_encodeLoop name hnul
      exact ⟨text, hloop, .inr (.inr ⟨hdot, hdots, hencoded⟩)⟩

/-- **The round trip**: decoding an encoded name gives the name. -/
theorem decode_encodeBytes (h : encodeBytes name = .ok text) : decode text = .ok name := by
  have hnul : 0 ∉ name := by
    intro hmem
    rw [encodeBytes, if_pos hmem] at h
    cases h
  obtain ⟨text', hencode, hcases⟩ := exists_encodeBytes hnul
  cases hencode.symm.trans h
  rcases hcases with ⟨rfl, rfl⟩ | ⟨rfl, rfl⟩ | ⟨-, -, hencoded⟩
  · change decodeLoop (encodeText (percentText dot) ++ []) = _
    rw [decodeLoop_percent (by decide), decodeLoop]
    rfl
  · change decodeLoop (encodeText (percentText dot) ++ (encodeText (percentText dot) ++ [])) = _
    rw [decodeLoop_percent (by decide), decodeLoop_percent (by decide), decodeLoop]
    rfl
  · exact decode_of_encoded hencoded

/-- Dot names are never written: they decode to names that are encoded otherwise. -/
theorem encodeBytes_ne_dots (h : encodeBytes name = .ok text) :
    text ≠ ['.'] ∧ text ≠ ['.', '.'] := by
  have hdecode := decode_encodeBytes h
  have hdot : Encoded (String.utf8EncodeChar '.' ++ []) ['.'] := .safe (by decide) .nil
  constructor
  · rintro rfl
    rw [decode_of_encoded hdot] at hdecode
    cases hdecode
    cases h
  · rintro rfl
    rw [show ['.', '.'] = ['.'] ++ ['.'] from rfl, decode_of_encoded (hdot.append hdot)] at hdecode
    cases hdecode
    cases h

/-- **The name codec.** Every NUL-free name has an encoding, which decodes to the name and
so is its alone; it is no dot name, holds nothing that a host gives a meaning to, and
every `%` in it starts an escape. -/
theorem encodeBytes_spec (name : Bytes) (hnul : 0 ∉ name) : ∃ text,
    encodeBytes name = .ok text ∧ decode text = .ok name ∧
      (∀ other, encodeBytes other = .ok text → other = name) ∧
      text ≠ ['.'] ∧ text ≠ ['.', '.'] ∧ (∀ c ∈ text, Harmless c) ∧ EscapesWhole text := by
  obtain ⟨text, hencode, hcases⟩ := exists_encodeBytes hnul
  have hdecode := decode_encodeBytes hencode
  refine ⟨text, hencode, hdecode, fun other hother => ?_, (encodeBytes_ne_dots hencode).1,
    (encodeBytes_ne_dots hencode).2, ?_⟩
  · have hsame := decode_encodeBytes hother
    rw [hdecode] at hsame
    cases hsame
    rfl
  · rcases hcases with ⟨-, rfl⟩ | ⟨-, rfl⟩ | ⟨-, -, hencoded⟩
    · exact ⟨harmless_percentText dot, EscapesWhole.nil.percent dot⟩
    · refine ⟨fun c hc => harmless_percentText dot c ?_, (EscapesWhole.nil.percent dot).percent dot⟩
      exact (List.mem_append.mp (show c ∈ percentText dot ++ percentText dot from hc)).elim id id
    · exact ⟨harmless_of_encoded hencoded, escapesWhole_of_encoded hencoded⟩

/-! ## Text names -/

theorem encodeText_encodeUnicode (text : List Char) :
    encodeText (encodeUnicode text) = text.flatMap encodeChar := by
  induction text with
  | nil => rfl
  | cons c text ih =>
    have hescapes : ∀ bytes : Bytes,
        encodeText (bytes.flatMap percentText) = bytes.flatMap pushPercent := by
      intro bytes
      induction bytes with
      | nil => rfl
      | cons byte bytes ihbytes =>
        rw [List.flatMap_cons, List.flatMap_cons, encodeText_append, ihbytes,
          encodeText_percentText]
    change encodeText (encodeCharacter c ++ encodeUnicode text) =
      encodeChar c ++ text.flatMap encodeChar
    rw [encodeText_append, ih]
    unfold encodeCharacter encodeChar
    split
    · simp
    · rw [hescapes]

/-- On the bytes of a text the codec is the one the daemon calls. -/
theorem encode_eq_encodeBytes {name : String}
    (h : encodeBytes (encodeText name.toList) = .ok text) :
    encode name = .ok (encodeText text) := by
  have hinjective : ∀ other : List Char, encodeText name.toList = encodeText other →
      name.toList = other := by
    intro other heq
    have hread := fromUtf8_encodeText name.toList
    rw [heq, fromUtf8_encodeText] at hread
    cases hread
    rfl
  have hnul : Char.ofNat 0 ∉ name.toList := by
    intro hmem
    have hbyte : (0 : UInt8) ∈ encodeText name.toList :=
      List.mem_flatMap.mpr ⟨Char.ofNat 0, hmem, by decide⟩
    rw [encodeBytes, if_pos hbyte] at h
    cases h
  unfold encodeBytes at h
  unfold encode
  rw [if_neg hnul]
  split at h
  · cases h
  rename_i hnulBytes
  by_cases hdot : name = "."
  · subst hdot
    rw [if_pos (by decide)] at h
    cases h
    rfl
  by_cases hdots : name = ".."
  · subst hdots
    rw [if_neg (by decide), if_pos (by decide)] at h
    cases h
    rfl
  have hneDot : encodeText name.toList ≠ [dot] := fun heq =>
    hdot (String.toList_injective (hinjective ['.'] heq))
  have hneDots : encodeText name.toList ≠ [dot, dot] := fun heq =>
    hdots (String.toList_injective (hinjective ['.', '.'] heq))
  rw [if_neg hneDot, if_neg hneDots, encodeLoop] at h
  rw [if_neg hdot, if_neg hdots, ← encodeText_encodeUnicode]
  split at h
  · rename_i hnil
    cases h
    rw [hinjective [] hnil]
    rfl
  · split at h
    -- the bytes of a string are valid, so the loop ends in its first round
    · rename_i text' hok
      rw [fromUtf8_encodeText] at hok
      cases hok
      cases h
      rfl
    · rename_i error herror
      rw [fromUtf8_encodeText] at herror
      cases herror

/-- An ill-formed name: a sequence that `a` cuts short, and one the end cuts short. -/
theorem encodeBytes_spec_truncated : ∃ text,
    encodeBytes [0xE2, 0x82, 97, 58, 0xF0, 0x9F] = .ok text ∧
      decode text = .ok [0xE2, 0x82, 97, 58, 0xF0, 0x9F] := by
  obtain ⟨text, hencode, hdecode, -⟩ :=
    encodeBytes_spec [0xE2, 0x82, 97, 58, 0xF0, 0x9F] (by decide)
  exact ⟨text, hencode, hdecode⟩

end FuseNameCodec

end TuxStack.Vfs
