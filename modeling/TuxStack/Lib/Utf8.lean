import Mathlib.Data.List.Infix

/-!
# Reading UTF-8

A byte string is read as characters as far as it is well-formed. `fromUtf8` follows
`str::from_utf8`: the text, or how many bytes are well-formed and how long the
ill-formed sequence after them is, with no length when the input ends within a
sequence. What is well-formed is Lean's own `ByteArray.utf8DecodeChar?`.
-/

namespace TuxStack.Utf8

def encodeText (text : List Char) : List UInt8 := text.flatMap String.utf8EncodeChar

@[simp] theorem encodeText_nil : encodeText [] = [] := rfl

@[simp] theorem encodeText_cons (c : Char) (text : List Char) :
    encodeText (c :: text) = String.utf8EncodeChar c ++ encodeText text := rfl

@[simp] theorem encodeText_append (text text' : List Char) :
    encodeText (text ++ text') = encodeText text ++ encodeText text' :=
  List.flatMap_append

/-! ## One character -/

/-- The character whose encoding the bytes start with. -/
def firstChar (bytes : List UInt8) : Option Char := bytes.toByteArray.utf8DecodeChar? 0

@[simp] theorem firstChar_nil : firstChar [] = none := rfl

@[simp] theorem firstChar_encode_append (c : Char) (rest : List UInt8) :
    firstChar (String.utf8EncodeChar c ++ rest) = some c := by
  rw [firstChar, List.toByteArray_append]
  exact ByteArray.utf8DecodeChar?_utf8EncodeChar_append

variable {byte : UInt8} {bytes : List UInt8} {c : Char}

theorem eq_append_of_firstChar (h : firstChar bytes = some c) :
    bytes = String.utf8EncodeChar c ++ bytes.drop c.utf8Size := by
  obtain ⟨rest, hrest⟩ := ByteArray.exists_of_utf8DecodeChar?_eq_some h
  have hlist : bytes = String.utf8EncodeChar c ++ rest.data.toList := by
    have hdata := congrArg (fun b => b.data.toList) hrest
    simpa using hdata
  rw [hlist, ← String.length_utf8EncodeChar, List.drop_left]

theorem drop_lt_of_firstChar (h : firstChar bytes = some c) :
    (bytes.drop c.utf8Size).length < bytes.length := by
  have hlen := congrArg List.length (eq_append_of_firstChar h)
  have hpos := c.utf8Size_pos
  rw [List.length_append, String.length_utf8EncodeChar] at hlen
  omega

theorem le_or {x y : UInt8} (h : 128 ≤ y) : 128 ≤ x ||| y := by
  rw [UInt8.le_iff_toNat_le] at *
  rw [UInt8.toNat_or]
  exact h.trans Nat.right_le_or

/-- The bytes of an encoding are 128 or more unless it is one byte, the character. -/
theorem encode_cases (c : Char) :
    (c.toNat < 128 ∧ String.utf8EncodeChar c = [c.toNat.toUInt8]) ∨
      (128 ≤ c.toNat ∧ ∀ byte ∈ String.utf8EncodeChar c, 128 ≤ byte) := by
  rcases c.utf8Size_eq with hsize | hsize | hsize | hsize
  · refine .inl ⟨?_, String.utf8EncodeChar_eq_singleton hsize⟩
    have hle := Char.utf8Size_eq_one_iff.mp hsize
    rw [UInt32.le_iff_toNat_le] at hle
    exact Nat.lt_succ_of_le hle
  · refine .inr ⟨?_, ?_⟩
    · have hlt := (Char.utf8Size_eq_two_iff.mp hsize).1
      rw [UInt32.lt_iff_toNat_lt] at hlt
      exact hlt
    · rw [String.utf8EncodeChar_eq_cons_cons hsize]
      simp only [List.forall_mem_cons]
      exact ⟨le_or (by decide), le_or (by decide), fun _ h => by cases h⟩
  · refine .inr ⟨?_, ?_⟩
    · have hlt := (Char.utf8Size_eq_three_iff.mp hsize).1
      rw [UInt32.lt_iff_toNat_lt] at hlt
      exact le_trans (by decide) hlt.le
    · rw [String.utf8EncodeChar_eq_cons_cons_cons hsize]
      simp only [List.forall_mem_cons]
      exact ⟨le_or (by decide), le_or (by decide), le_or (by decide), fun _ h => by cases h⟩
  · refine .inr ⟨?_, ?_⟩
    · have hlt := Char.utf8Size_eq_four_iff.mp hsize
      rw [UInt32.lt_iff_toNat_lt] at hlt
      exact le_trans (by decide) hlt.le
    · rw [String.utf8EncodeChar_eq_cons_cons_cons_cons hsize]
      simp only [List.forall_mem_cons]
      exact ⟨le_or (by decide), le_or (by decide), le_or (by decide), le_or (by decide),
        fun _ h => by cases h⟩

/-- A byte below 128 is a character of its own. -/
theorem encode_ascii (h : byte < 128) : String.utf8EncodeChar (Char.ofNat byte.toNat) = [byte] := by
  rw [UInt8.lt_iff_toNat_lt] at h
  have hnat : (Char.ofNat byte.toNat).toNat = byte.toNat := by
    have hvalid : byte.toNat.isValidChar := .inl (lt_trans h (by decide))
    rw [Char.ofNat, dif_pos hvalid]
    rfl
  rcases encode_cases (Char.ofNat byte.toNat) with ⟨-, hencode⟩ | ⟨hlarge, -⟩
  · rw [hencode, hnat]
    simp
  · rw [hnat] at hlarge
    exact absurd h (Nat.not_lt.mpr hlarge)

/-- ASCII bytes as characters are these bytes again. -/
theorem encodeText_ascii : ∀ {bytes : List UInt8}, (∀ byte ∈ bytes, byte < 128) →
    encodeText (bytes.map fun byte => Char.ofNat byte.toNat) = bytes
  | [], _ => rfl
  | byte :: bytes, h => by
      obtain ⟨hbyte, hbytes⟩ := List.forall_mem_cons.mp h
      rw [List.map_cons, encodeText_cons, encode_ascii hbyte, encodeText_ascii hbytes,
        List.singleton_append]

/-- A byte below 128 stands for itself only. -/
theorem encode_of_mem_ascii (hmem : byte ∈ String.utf8EncodeChar c) (h : byte < 128) :
    c = Char.ofNat byte.toNat ∧ String.utf8EncodeChar c = [byte] := by
  rcases encode_cases c with ⟨hsmall, hencode⟩ | ⟨-, hall⟩
  · rw [hencode, List.mem_singleton] at hmem
    subst hmem
    refine ⟨?_, hencode⟩
    have hnat : c.toNat.toUInt8.toNat = c.toNat := by
      exact UInt8.toNat_ofNat_of_lt' (lt_trans hsmall (by decide))
    rw [hnat, Char.ofNat_toNat]
  · exact absurd h (UInt8.not_lt.mpr (hall byte hmem))

/-- Where no character stands, the first byte is 128 or more. -/
theorem le_of_firstChar_none {rest : List UInt8} (h : firstChar (byte :: rest) = none) :
    128 ≤ byte := by
  refine UInt8.not_lt.mp fun hsmall => ?_
  have hencode := encode_ascii hsmall
  have hfirst := firstChar_encode_append (Char.ofNat byte.toNat) rest
  rw [hencode, List.singleton_append, h] at hfirst
  cases hfirst

/-! ## The longest well-formed prefix -/

/-- The characters of the longest well-formed prefix. -/
def validChars (bytes : List UInt8) : List Char :=
  match _h : firstChar bytes with
  | none => []
  | some c => c :: validChars (bytes.drop c.utf8Size)
termination_by bytes.length
decreasing_by exact drop_lt_of_firstChar _h

theorem validChars_of_none (h : firstChar bytes = none) : validChars bytes = [] := by
  rw [validChars]
  split
  · rfl
  · rename_i hsome
    rw [h] at hsome
    cases hsome

@[simp] theorem validChars_encode_append (c : Char) (rest : List UInt8) :
    validChars (String.utf8EncodeChar c ++ rest) = c :: validChars rest := by
  rw [validChars]
  split
  · rename_i hnone
    rw [firstChar_encode_append] at hnone
    cases hnone
  · rename_i d hsome
    rw [firstChar_encode_append] at hsome
    cases hsome
    rw [← String.length_utf8EncodeChar, List.drop_left]

theorem validChars_encodeText_append (text : List Char) (rest : List UInt8) :
    validChars (encodeText text ++ rest) = text ++ validChars rest := by
  induction text with
  | nil => rfl
  | cons c text ih =>
    rw [encodeText_cons, List.append_assoc, validChars_encode_append, ih, List.cons_append]

/-- What is left after the longest well-formed prefix does not start with a character. -/
theorem exists_rest (bytes : List UInt8) :
    ∃ rest, bytes = encodeText (validChars bytes) ++ rest ∧ firstChar rest = none := by
  induction bytes using validChars.induct with
  | case1 bytes h =>
    rw [validChars_of_none h]
    exact ⟨bytes, rfl, h⟩
  | case2 bytes c h ih =>
    obtain ⟨rest, hrest, hnone⟩ := ih
    have hbytes := eq_append_of_firstChar h
    generalize bytes.drop c.utf8Size = after at hbytes hrest
    subst hbytes
    refine ⟨rest, ?_, hnone⟩
    rw [validChars_encode_append, encodeText_cons, List.append_assoc, ← hrest]

/-! ## Text or error -/

structure Utf8Error where
  validUpTo : Nat
  errorLen : Option Nat
deriving DecidableEq

def isContinuation (byte : UInt8) : Bool := 0x80 ≤ byte && byte ≤ 0xBF

/-- The second bytes of a sequence of three. -/
def isSecondOfThree (first second : UInt8) : Bool :=
  if first = 0xE0 then 0xA0 ≤ second && second ≤ 0xBF
  else if first = 0xED then 0x80 ≤ second && second ≤ 0x9F
  else isContinuation second

/-- The second bytes of a sequence of four. -/
def isSecondOfFour (first second : UInt8) : Bool :=
  if first = 0xF0 then 0x90 ≤ second && second ≤ 0xBF
  else if first = 0xF4 then 0x80 ≤ second && second ≤ 0x8F
  else isContinuation second

/-- `error_len` of the sequence at the front, which is no character: how many bytes
could have started one, at least one, and `none` when the input ends before that is
decided. -/
def errorLen : List UInt8 → Option Nat
  | [] => none
  | first :: rest =>
    if 0xC2 ≤ first && first ≤ 0xDF then
      if rest.isEmpty then none else some 1
    else if 0xE0 ≤ first && first ≤ 0xEF then
      match rest with
      | [] => none
      | second :: rest =>
        if !isSecondOfThree first second then some 1
        else if rest.isEmpty then none
        else some 2
    else if 0xF0 ≤ first && first ≤ 0xF4 then
      match rest with
      | [] => none
      | second :: rest =>
        if !isSecondOfFour first second then some 1
        else
          match rest with
          | [] => none
          | third :: rest =>
            if !isContinuation third then some 2
            else if rest.isEmpty then none
            else some 3
    else some 1

/-- `str::from_utf8`. -/
def fromUtf8 (bytes : List UInt8) : Except Utf8Error (List Char) :=
  let text := validChars bytes
  let validUpTo := (encodeText text).length
  if validUpTo = bytes.length then .ok text
  else .error ⟨validUpTo, errorLen (bytes.drop validUpTo)⟩

theorem le_of_isSecondOfThree {first second : UInt8} (h : isSecondOfThree first second = true) :
    128 ≤ second := by
  unfold isSecondOfThree isContinuation at h
  split_ifs at h <;> simp only [Bool.and_eq_true, decide_eq_true_eq] at h
  · exact UInt8.le_trans (b := 0xA0) (by decide) h.1
  · exact h.1
  · exact h.1

theorem le_of_isSecondOfFour {first second : UInt8} (h : isSecondOfFour first second = true) :
    128 ≤ second := by
  unfold isSecondOfFour isContinuation at h
  split_ifs at h <;> simp only [Bool.and_eq_true, decide_eq_true_eq] at h
  · exact UInt8.le_trans (b := 0x90) (by decide) h.1
  · exact h.1
  · exact h.1

/-- **The ill-formed sequence** has at least one byte, is within the input, and none of
its bytes is below 128. -/
theorem errorLen_spec {rest : List UInt8} (hne : rest ≠ []) (hnone : firstChar rest = none) :
    0 < (errorLen rest).getD rest.length ∧ (errorLen rest).getD rest.length ≤ rest.length ∧
      ∀ byte ∈ rest.take ((errorLen rest).getD rest.length), 128 ≤ byte := by
  obtain ⟨first, rest, rfl⟩ := List.exists_cons_of_ne_nil hne
  have hfirst := le_of_firstChar_none hnone
  simp only [errorLen]
  split
  · cases rest <;> simp [hfirst]
  split
  · cases rest with
    | nil => simp [hfirst]
    | cons second rest =>
      cases hsecond : isSecondOfThree first second with
      | false => simp [hsecond, hfirst]
      | true => cases rest <;> simp [hsecond, hfirst, le_of_isSecondOfThree hsecond]
  split
  · cases rest with
    | nil => simp [hfirst]
    | cons second rest =>
      cases hsecond : isSecondOfFour first second with
      | false => simp [hsecond, hfirst]
      | true =>
        have hsecond' := le_of_isSecondOfFour hsecond
        cases rest with
        | nil => simp [hsecond, hfirst, hsecond']
        | cons third rest =>
          cases hthird : isContinuation third with
          | false => simp [hsecond, hthird, hfirst, hsecond']
          | true =>
            have hthird' : 128 ≤ third := by
              unfold isContinuation at hthird
              simp only [Bool.and_eq_true, decide_eq_true_eq] at hthird
              exact hthird.1
            cases rest <;> simp [hsecond, hthird, hfirst, hsecond', hthird']
  · simp [hfirst]

theorem fromUtf8_encodeText (text : List Char) : fromUtf8 (encodeText text) = .ok text := by
  have hvalid : validChars (encodeText text) = text := by
    have h := validChars_encodeText_append text []
    rwa [List.append_nil, validChars_of_none firstChar_nil, List.append_nil] at h
  simp only [fromUtf8, hvalid, if_true]

/-- **What `from_utf8` says**: the bytes are a text, or a text followed by something that
no character starts. -/
theorem fromUtf8_cases (bytes : List UInt8) :
    (∃ text, bytes = encodeText text ∧ fromUtf8 bytes = .ok text) ∨
      ∃ text rest, bytes = encodeText text ++ rest ∧ rest ≠ [] ∧ firstChar rest = none ∧
        fromUtf8 bytes = .error ⟨(encodeText text).length, errorLen rest⟩ := by
  obtain ⟨rest, hrest, hnone⟩ := exists_rest bytes
  by_cases hnil : rest = []
  · rw [hnil, List.append_nil] at hrest
    refine .inl ⟨_, hrest, ?_⟩
    rw [hrest, fromUtf8_encodeText, ← hrest]
  · refine .inr ⟨_, rest, hrest, hnil, hnone, ?_⟩
    have hlen := congrArg List.length hrest
    have hpos := List.length_pos_of_ne_nil hnil
    rw [List.length_append] at hlen
    have hdrop : bytes.drop (encodeText (validChars bytes)).length = rest := by
      rw [hrest, validChars_encodeText_append, validChars_of_none hnone, List.append_nil,
        List.drop_left]
    simp only [fromUtf8]
    rw [if_neg (by omega), hdrop]

end TuxStack.Utf8
