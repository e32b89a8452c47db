import TuxStack.Vfs.NameCodec

/-!
# Collision suffixes

`with_collision_suffix` and `split_collision_suffix` of `crates/tuxstack-vfs/src/path.rs`.
A friendly name that is taken gets a `~` and the hash of an identity in 16 digits; the
split takes off what looks like that. The marker is a safe character, so a name can
look suffixed by itself: `split_iff` says for which names the split keeps a plain
encoding, in terms of the name.
-/

namespace TuxStack.Vfs

open Utf8

namespace FuseNameCodec

/-! ## The two functions -/

def fnv1a64 (bytes : Bytes) : UInt64 :=
  bytes.foldl (fun hash byte => (hash ^^^ byte.toUInt64) * 0x100000001b3) 0xcbf29ce484222325

/-- `{hash:016x}`. -/
def lowerHex16 (hash : UInt64) : List Char :=
  (List.range 16).reverse.map fun i => Nat.digitChar (hash.toNat / 16 ^ i % 16)

/-- `FuseNameCodec::with_collision_suffix`. -/
def withCollisionSuffix (encoded stableId : List Char) : List Char :=
  encoded ++ '~' :: lowerHex16 (fnv1a64 (encodeText stableId))

/-- `str::rsplit_once`. -/
def rsplitOnce (mark : Char) : List Char → Option (List Char × List Char)
  | [] => none
  | c :: rest =>
    match rsplitOnce mark rest with
    | some (before, after) => some (c :: before, after)
    | none => if c = mark then some ([], rest) else none

/-- `u8::is_ascii_hexdigit`. -/
def isAsciiHexdigit (byte : UInt8) : Bool :=
  (48 ≤ byte && byte ≤ 57) || (97 ≤ byte && byte ≤ 102) || (65 ≤ byte && byte ≤ 70)

/-- What `split_collision_suffix` takes for a suffix. -/
def isSuffix (bytes : Bytes) : Bool := bytes.length = 16 && bytes.all isAsciiHexdigit

def splitCollisionSuffix (name : List Char) : List Char :=
  match rsplitOnce '~' name with
  | some (base, suffix) => if isSuffix (encodeText suffix) then base else name
  | none => name

/-! ## The last marker -/

variable {text : List Char} {mark : Char} {raw : Bytes}

theorem rsplitOnce_none_iff : ∀ {text : List Char},
    rsplitOnce mark text = none ↔ mark ∉ text
  | [] => by simp [rsplitOnce]
  | c :: rest => by
      have ih : rsplitOnce mark rest = none ↔ mark ∉ rest := rsplitOnce_none_iff
      unfold rsplitOnce
      cases hrest : rsplitOnce mark rest with
      | some parts =>
        obtain ⟨before, after⟩ := parts
        have hmem : mark ∈ rest := by
          by_contra hnot
          rw [ih.mpr hnot] at hrest
          cases hrest
        simp [hmem]
      | none =>
        have hnot := ih.mp hrest
        by_cases hc : c = mark
        · simp [hc]
        · simp [hc, hnot, Ne.symm hc]

theorem rsplitOnce_append {after : List Char} (h : mark ∉ after) :
    ∀ before : List Char, rsplitOnce mark (before ++ mark :: after) = some (before, after)
  | [] => by simp [rsplitOnce, rsplitOnce_none_iff.mpr h]
  | c :: before => by simp [rsplitOnce, rsplitOnce_append h before]

theorem rsplitOnce_some {before after : List Char}
    (h : rsplitOnce mark text = some (before, after)) :
    text = before ++ mark :: after ∧ mark ∉ after := by
  induction text generalizing before with
  | nil => cases h
  | cons c rest ih =>
    unfold rsplitOnce at h
    cases hrest : rsplitOnce mark rest with
    | some parts =>
      obtain ⟨before', after'⟩ := parts
      rw [hrest] at h
      cases h
      obtain ⟨hrest', hnot⟩ := ih hrest
      exact ⟨by rw [hrest', List.cons_append], hnot⟩
    | none =>
      rw [hrest] at h
      dsimp only at h
      split at h
      · rename_i hc
        cases h
        exact ⟨by rw [hc, List.nil_append], rsplitOnce_none_iff.mp hrest⟩
      · cases h

/-! ## A suffixed name -/

theorem digitChar_spec : ∀ n < 16, Nat.digitChar n ≠ '~' ∧
    String.utf8EncodeChar (Nat.digitChar n) = [(Nat.digitChar n).toNat.toUInt8] ∧
    isAsciiHexdigit (Nat.digitChar n).toNat.toUInt8 = true := by
  decide

theorem isSuffix_digits : ∀ {digits : List Nat}, (∀ n ∈ digits, n < 16) →
    (encodeText (digits.map Nat.digitChar)).length = digits.length ∧
      (encodeText (digits.map Nat.digitChar)).all isAsciiHexdigit = true
  | [], _ => ⟨rfl, rfl⟩
  | n :: digits, h => by
      obtain ⟨hn, hrest⟩ := List.forall_mem_cons.mp h
      obtain ⟨hlen, hall⟩ := isSuffix_digits hrest
      obtain ⟨-, hencode, hdigit⟩ := digitChar_spec n hn
      rw [List.map_cons, encodeText_cons, hencode]
      exact ⟨by simp [hlen], by simp only [List.singleton_append, List.all_cons, hdigit, hall,
        Bool.and_true]⟩

theorem lowerHex16_spec (hash : UInt64) :
    '~' ∉ lowerHex16 hash ∧ isSuffix (encodeText (lowerHex16 hash)) = true := by
  have heq : lowerHex16 hash =
      ((List.range 16).reverse.map fun i => hash.toNat / 16 ^ i % 16).map Nat.digitChar := by
    rw [List.map_map]
    rfl
  have hdigits : ∀ n ∈ (List.range 16).reverse.map fun i => hash.toNat / 16 ^ i % 16, n < 16 := by
    intro n hn
    obtain ⟨i, -, rfl⟩ := List.mem_map.mp hn
    exact Nat.mod_lt _ (by decide)
  rw [heq]
  constructor
  · intro hmem
    obtain ⟨n, hn, hmark⟩ := List.mem_map.mp hmem
    exact (digitChar_spec n (hdigits n hn)).1 hmark
  · obtain ⟨hlen, hall⟩ := isSuffix_digits hdigits
    rw [isSuffix, hlen, hall]
    simp

/-- **A suffix is taken off again**, whatever the name before it. -/
theorem split_withCollisionSuffix (encoded stableId : List Char) :
    splitCollisionSuffix (withCollisionSuffix encoded stableId) = encoded := by
  obtain ⟨hmark, hsuffix⟩ := lowerHex16_spec (fnv1a64 (encodeText stableId))
  unfold splitCollisionSuffix withCollisionSuffix
  rw [rsplitOnce_append hmark]
  simp only [hsuffix, if_true]

/-! ## A plain name -/

def EndsLikeSuffix (name : Bytes) : Prop := ∃ base digits, name = base ++ 126 :: digits ∧
  isSuffix digits = true

/-- The split changes the names that end like a suffixed one. -/
theorem split_eq_self_iff (text : List Char) :
    splitCollisionSuffix text = text ↔
      ¬ ∃ base suffix, text = base ++ '~' :: suffix ∧ '~' ∉ suffix ∧
        isSuffix (encodeText suffix) = true := by
  unfold splitCollisionSuffix
  cases hsplit : rsplitOnce '~' text with
  | none =>
    refine iff_of_true rfl ?_
    rintro ⟨base, suffix, rfl, -, -⟩
    exact rsplitOnce_none_iff.mp hsplit (by simp)
  | some parts =>
    obtain ⟨base, suffix⟩ := parts
    obtain ⟨htext, hmark⟩ := rsplitOnce_some hsplit
    dsimp only
    split
    · rename_i hsuffix
      refine iff_of_false (fun heq => ?_) fun h => h ⟨base, suffix, htext, hmark, hsuffix⟩
      have hlen := congrArg List.length (heq.trans htext)
      rw [List.length_append, List.length_cons] at hlen
      omega
    · rename_i hsuffix
      refine iff_of_true rfl ?_
      rintro ⟨base', suffix', htext', hmark', hsuffix'⟩
      rw [htext', rsplitOnce_append hmark'] at hsplit
      cases hsplit
      exact hsuffix hsuffix'

theorem encoded_nil (h : Encoded [] text) : text = [] := by
  generalize hraw : ([] : Bytes) = raw at h
  cases h with
  | nil => rfl
  | @safe c raw text _ _ =>
    have hlen := congrArg List.length hraw
    have hpos := c.utf8Size_pos
    rw [List.length_append, String.length_utf8EncodeChar] at hlen
    simp only [List.length_nil] at hlen
    omega
  | escaped _ _ _ => cases hraw

/-- A safe character in the text stands at its place in the bytes. -/
theorem Encoded.split_safe (h : Encoded raw text) :
    ∀ {before after : List Char}, text = before ++ '~' :: after →
      ∃ base rest, raw = base ++ 126 :: rest ∧ Encoded rest after := by
  induction h with
  | nil =>
    intro before after heq
    exact absurd heq (by simp)
  | @safe c raw text _ hrest ih =>
    intro before after heq
    cases before with
    | nil =>
      obtain ⟨rfl, rfl⟩ := List.cons.inj heq
      exact ⟨[], raw, rfl, hrest⟩
    | cons d before =>
      obtain ⟨-, htail⟩ := List.cons.inj heq
      obtain ⟨base, rest, hraw, hafter⟩ := ih htail
      exact ⟨String.utf8EncodeChar c ++ base, rest, by rw [hraw, List.append_assoc], hafter⟩
  | @escaped byte raw text _ _ _ ih =>
    intro before after heq
    obtain ⟨high, low, hpercent, hhigh, hlow⟩ := percentText_spec byte
    have hne : ∀ c : Char, isHexUpper c = true → c ≠ '~' := by
      rintro c hc rfl
      exact absurd hc (by decide)
    simp only [hpercent, List.cons_append, List.nil_append] at heq
    obtain ⟨before', rfl⟩ : ∃ before', before = '%' :: high :: low :: before' := by
      match before, heq with
      | [], heq => exact absurd (List.cons.inj heq).1 (by decide)
      | [_], heq => exact absurd (List.cons.inj (List.cons.inj heq).2).1 (hne high hhigh)
      | [_, _], heq =>
        exact absurd (List.cons.inj (List.cons.inj (List.cons.inj heq).2).2).1 (hne low hlow)
      | a :: b :: c :: before', heq =>
        simp only [List.cons_append, List.cons.injEq] at heq
        obtain ⟨rfl, rfl, rfl, -⟩ := heq
        exact ⟨before', rfl⟩
    have htail : text = before' ++ '~' :: after := by simpa using heq
    obtain ⟨base, rest, hraw, hafter⟩ := ih htail
    exact ⟨byte :: base, rest, by rw [hraw, List.cons_append], hafter⟩

/-- A text without escapes stands for its own bytes. -/
theorem Encoded.eq_encodeText (h : Encoded raw text) (hnone : '%' ∉ text) :
    raw = encodeText text := by
  induction h with
  | nil => rfl
  | safe _ _ ih => rw [encodeText_cons, ih fun hmem => hnone (List.mem_cons_of_mem _ hmem)]
  | @escaped byte _ _ _ _ _ _ =>
    obtain ⟨high, low, hpercent, -, -⟩ := percentText_spec byte
    rw [hpercent] at hnone
    exact absurd (by simp) hnone

/-- A safe ASCII byte at the end of the bytes is a character at the end of the text. -/
theorem Encoded.last_safe (h : Encoded raw text) {byte : UInt8} (hascii : byte < 128)
    (hsafe : isSafe (Char.ofNat byte.toNat) = true) : ∀ {front : Bytes}, raw = front ++ [byte] →
      ∃ before, text = before ++ [Char.ofNat byte.toNat] ∧ Encoded front before := by
  induction h with
  | nil =>
    intro front heq
    exact absurd heq (by simp)
  | @safe c raw text hc hrest ih =>
    intro front heq
    rcases List.eq_nil_or_concat raw with rfl | ⟨raw', last, rfl⟩
    · rw [List.append_nil] at heq
      have hmem : byte ∈ String.utf8EncodeChar c := by rw [heq]; simp
      obtain ⟨rfl, hencode⟩ := encode_of_mem_ascii hmem hascii
      have hfront : front = [] := by
        rw [hencode] at heq
        exact (List.append_eq_cons_iff.mp heq.symm).elim (fun h => h.1)
          fun ⟨_, _, h⟩ => by simp at h
      subst hfront
      rw [encoded_nil hrest]
      exact ⟨[], rfl, .nil⟩
    · rw [List.concat_eq_append, ← List.append_assoc] at heq
      obtain ⟨hfront, hlast⟩ := List.append_inj' heq rfl
      cases hlast
      obtain ⟨before, rfl, hbefore⟩ := ih List.concat_eq_append
      exact ⟨c :: before, rfl, hfront ▸ .safe hc hbefore⟩
  | @escaped first raw text hne hescaped hrest ih =>
    intro front heq
    rcases List.eq_nil_or_concat raw with rfl | ⟨raw', last, rfl⟩
    · have hsame : first = byte := by
        rcases List.append_eq_cons_iff.mp heq.symm with ⟨-, h⟩ | ⟨_, _, h⟩
        · exact (List.cons.inj h).1.symm
        · simp at h
      subst hsame
      rw [hescaped hascii] at hsafe
      cases hsafe
    · rw [List.concat_eq_append, ← List.cons_append] at heq
      obtain ⟨hfront, hlast⟩ := List.append_inj' heq rfl
      cases hlast
      obtain ⟨before, rfl, hbefore⟩ := ih List.concat_eq_append
      refine ⟨percentText first ++ before, (List.append_assoc ..).symm, ?_⟩
      rw [← hfront]
      exact .escaped hne hescaped hbefore

/-- The same for a run of such bytes. -/
theorem Encoded.tail_safe {tail : Bytes}
    (htail : ∀ byte ∈ tail, byte < 128 ∧ isSafe (Char.ofNat byte.toNat) = true) :
    ∀ {front : Bytes} {text : List Char}, Encoded (front ++ tail) text →
      ∃ before, text = before ++ tail.map (fun byte => Char.ofNat byte.toNat) ∧
        Encoded front before := by
  induction tail using List.reverseRecOn with
  | nil =>
    intro front text h
    rw [List.append_nil] at h
    exact ⟨text, (List.append_nil _).symm, h⟩
  | append_singleton tail byte ih =>
    intro front text h
    obtain ⟨hascii, hsafe⟩ := htail byte (by simp)
    obtain ⟨middle, rfl, hmiddle⟩ := h.last_safe hascii hsafe (List.append_assoc ..).symm
    obtain ⟨before, rfl, hbefore⟩ := ih (fun b hb => htail b (by simp [hb])) hmiddle
    exact ⟨before, by rw [List.map_append, List.append_assoc]; rfl, hbefore⟩

theorem hexdigit_spec {byte : UInt8} (h : isAsciiHexdigit byte = true) :
    byte < 128 ∧ byte ≠ 126 ∧ isSafe (Char.ofNat byte.toNat) = true := by
  have hall : ∀ n < 256, isAsciiHexdigit n.toUInt8 = true →
      n.toUInt8 < 128 ∧ n.toUInt8 ≠ 126 ∧ isSafe (Char.ofNat n) = true := by
    decide +kernel
  have hbyte : byte.toNat.toUInt8 = byte := UInt8.ofNat_toNat
  have hspec := hall byte.toNat byte.toNat_lt
  rw [hbyte] at hspec
  exact hspec h

theorem isSuffix_iff {bytes : Bytes} : isSuffix bytes = true ↔
    bytes.length = 16 ∧ ∀ byte ∈ bytes, isAsciiHexdigit byte = true := by
  simp [isSuffix]

/-- **Plain names**: an encoding ends like a suffixed name exactly when the name does. -/
theorem encoded_endsLikeSuffix {name : Bytes} (h : Encoded name text) :
    (∃ base suffix, text = base ++ '~' :: suffix ∧ '~' ∉ suffix ∧
      isSuffix (encodeText suffix) = true) ↔ EndsLikeSuffix name := by
  constructor
  · rintro ⟨base, suffix, rfl, -, hsuffix⟩
    obtain ⟨front, rest, rfl, hrest⟩ := h.split_safe rfl
    have hplain : '%' ∉ suffix := by
      intro hmem
      have hbyte : (37 : UInt8) ∈ encodeText suffix :=
        List.mem_flatMap.mpr ⟨'%', hmem, by decide⟩
      exact absurd ((isSuffix_iff.mp hsuffix).2 37 hbyte) (by decide)
    rw [hrest.eq_encodeText hplain]
    exact ⟨front, encodeText suffix, rfl, hsuffix⟩
  · rintro ⟨base, digits, rfl, hdigits⟩
    have hspec := (isSuffix_iff.mp hdigits).2
    have htail : ∀ byte ∈ (126 : UInt8) :: digits,
        byte < 128 ∧ isSafe (Char.ofNat byte.toNat) = true := by
      refine List.forall_mem_cons.mpr ⟨by decide, fun byte hbyte => ?_⟩
      obtain ⟨hascii, -, hsafe⟩ := hexdigit_spec (hspec byte hbyte)
      exact ⟨hascii, hsafe⟩
    obtain ⟨before, rfl, -⟩ := h.tail_safe htail
    refine ⟨before, digits.map fun byte => Char.ofNat byte.toNat, rfl, ?_, ?_⟩
    · intro hmem
      obtain ⟨byte, hbyte, hmark⟩ := List.mem_map.mp hmem
      obtain ⟨hascii, hne, -⟩ := hexdigit_spec (hspec byte hbyte)
      have hencode := encode_ascii hascii
      rw [hmark] at hencode
      exact hne (List.cons.inj hencode).1.symm
    · rw [encodeText_ascii fun byte hbyte => (hexdigit_spec (hspec byte hbyte)).1]
      exact hdigits

/-- **Which names stay apart from suffixed ones.** A suffix is always taken off an
encoding again; the plain encoding of a name is left alone exactly when the name does not
itself end in `~` and 16 hexadecimal digits. -/
theorem split_iff (name : Bytes) (stableId : List Char) (hnul : 0 ∉ name) : ∃ text,
    encodeBytes name = .ok text ∧
      ((splitCollisionSuffix (withCollisionSuffix text stableId) = text ∧
        splitCollisionSuffix text = text) ↔ ¬ EndsLikeSuffix name) := by
  obtain ⟨text, hencode, hcases⟩ := exists_encodeBytes hnul
  refine ⟨text, hencode, ?_⟩
  rw [and_iff_right (split_withCollisionSuffix text stableId)]
  have hlong : EndsLikeSuffix name → 17 ≤ name.length := by
    rintro ⟨base, digits, rfl, hdigits⟩
    have hlen := (isSuffix_iff.mp hdigits).1
    rw [List.length_append, List.length_cons]
    omega
  rcases hcases with ⟨rfl, rfl⟩ | ⟨rfl, rfl⟩ | ⟨-, -, hencoded⟩
  · exact iff_of_true (by decide) fun h => absurd (hlong h) (by decide)
  · exact iff_of_true (by decide) fun h => absurd (hlong h) (by decide)
  · rw [split_eq_self_iff, encoded_endsLikeSuffix hencoded]

/-- A container name beside one that ends in a `~` alone. -/
theorem split_iff_web : ∃ text, encodeBytes (ascii "web~") = .ok text ∧
    splitCollisionSuffix (withCollisionSuffix text "container-one".toList) = text ∧
      splitCollisionSuffix text = text := by
  obtain ⟨text, hencode, hiff⟩ := split_iff (ascii "web~") "container-one".toList (by decide)
  refine ⟨text, hencode, hiff.mpr ?_⟩
  rintro ⟨base, digits, hname, hdigits⟩
  have hlen := congrArg List.length hname
  rw [List.length_append, List.length_cons, (isSuffix_iff.mp hdigits).1] at hlen
  have hshort : (ascii "web~").length = 4 := by decide
  omega

/-- The plain name `data~0123456789abcdef` is taken apart. -/
theorem plain_name_split : 0 ∉ ascii "data~0123456789abcdef" ∧ ∃ text,
    encodeBytes (ascii "data~0123456789abcdef") = .ok text ∧ splitCollisionSuffix text ≠ text := by
  have hnul : 0 ∉ ascii "data~0123456789abcdef" := by decide
  obtain ⟨text, hencode, hcases⟩ := exists_encodeBytes hnul
  refine ⟨hnul, text, hencode, ?_⟩
  rcases hcases with ⟨hdot, -⟩ | ⟨hdots, -⟩ | ⟨-, -, hencoded⟩
  · exact absurd hdot (by decide)
  · exact absurd hdots (by decide)
  · rw [Ne, split_eq_self_iff, not_not, encoded_endsLikeSuffix hencoded]
    exact ⟨ascii "data", ascii "0123456789abcdef", by decide, by decide⟩

end FuseNameCodec

end TuxStack.Vfs
