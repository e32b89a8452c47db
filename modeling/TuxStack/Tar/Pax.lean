import TuxStack.Lib.Decimal
import TuxStack.Tar.Header

/-!
# PAX records

`parse_pax` of `crates/docker-core/src/vfs_providers/tar_index.rs`. A record is
`length key=value` and a newline, and its length counts all of it, its own digits too.

The parser slices the data by lengths that it reads from it. `parsePaxChecked` is the parser
with slices and indices that fail where Rust panics, and never does
(`parsePaxChecked_eq`). What it reads from well-formed records is the last value of each key
(`parsePax_records`): a key ends at the first `=`, so keys that hold one are read as others.
-/

namespace TuxStack.Tar

open Vfs Result Decimal

/-! ## No index outside -/

/-- `data[start..stop]`, `none` where it panics. -/
def slice (data : Bytes) (start stop : Nat) : Option Bytes :=
  if start ≤ stop ∧ stop ≤ data.length then some (field data start stop) else none

variable {data text : Bytes}

theorem slice_eq {start stop : Nat} (hle : start ≤ stop) (hstop : stop ≤ data.length) :
    slice data start stop = some (field data start stop) :=
  if_pos ⟨hle, hstop⟩

/-- `paxRecord` with slices that can fail. -/
def paxRecordChecked (data : Bytes) (offset : Nat) : Option (Except VfsError PaxRecord) := do
  let rest ← slice data offset data.length
  match rest.findIdx? (· = 32) with
  | none => some (.error (.io "PAX record has no length"))
  | some position =>
    let space := position + offset
    let text ← slice data offset space
    match parseU64 text with
    | none => some (.error (.io "invalid PAX record length"))
    | some length =>
      if offset + length > u64Max then some (.error (.io "PAX record overflow"))
      else
        let stop := offset + length
        if stop > data.length ∨ stop ≤ space + 2 then
          some (.error (.io "invalid PAX record boundary"))
        else do
          let last ← data[stop - 1]?
          if last ≠ 10 then some (.error (.io "invalid PAX record boundary"))
          else do
            let record ← slice data (space + 1) (stop - 1)
            match record.findIdx? (· = 61) with
            | none => some (.error (.io "invalid PAX key/value"))
            | some equals => do
                let key ← slice record 0 equals
                let value ← slice record (equals + 1) record.length
                if 0 ∈ value then some (.error (.io "NUL in PAX value"))
                else some (.ok ⟨key, value, stop⟩)

def parsePaxCheckedLoop (data : Bytes) :
    Nat → Nat → PaxValues → Option (Except VfsError PaxValues)
  | 0, _, result => some (.ok result)
  | rounds + 1, offset, result =>
    if offset < data.length then do
      match ← paxRecordChecked data offset with
      | .error e => some (.error e)
      | .ok record =>
        match result.set record.key record.value with
        | .error e => some (.error e)
        | .ok result => parsePaxCheckedLoop data rounds record.next result
    else some (.ok result)

/-- `parse_pax`, `none` where it panics. -/
def parsePaxChecked (data : Bytes) : Option (Except VfsError PaxValues) :=
  parsePaxCheckedLoop data data.length 0 PaxValues.empty

theorem findIdx?_lt {α : Type*} {p : α → Bool} {l : List α} {i : Nat}
    (h : l.findIdx? p = some i) : i < l.length :=
  (List.findIdx?_eq_some_iff_getElem.mp h).1

theorem paxRecordChecked_eq {offset : Nat} (h : offset ≤ data.length) :
    paxRecordChecked data offset = some (paxRecord data offset) := by
  have hrest : field data offset data.length = data.drop offset := by
    unfold field
    rw [← List.length_drop, List.take_length]
  unfold paxRecordChecked paxRecord
  rw [slice_eq h le_rfl, hrest]
  dsimp only [bind, Option.bind]
  cases hspace : (data.drop offset).findIdx? (· = 32) with
  | none => rfl
  | some position =>
    have hlt := findIdx?_lt hspace
    rw [List.length_drop] at hlt
    have htext : slice data offset (position + offset) =
        some ((data.drop offset).take position) := by
      rw [slice_eq (by omega) (by omega), field, Nat.add_sub_cancel]
    dsimp only
    rw [htext]
    dsimp only
    cases parseU64 ((data.drop offset).take position) with
    | none => rfl
    | some length =>
      dsimp only
      by_cases hbig : offset + length > u64Max
      · rw [if_pos hbig, if_pos hbig]
      · rw [if_neg hbig, if_neg hbig]
        -- from here on the bounds that were checked make every slice defined
        by_cases hbounds : offset + length > data.length ∨
            offset + length ≤ position + offset + 2
        · rw [if_pos hbounds, if_pos (by tauto)]
        · obtain ⟨hend, hbody⟩ := not_or.mp hbounds
          have hlast : data[offset + length - 1]? =
              some (data.getD (offset + length - 1) 0) := by
            rw [List.getD_eq_getElem?_getD, List.getElem?_eq_getElem (by omega)]
            rfl
          rw [if_neg hbounds, hlast]
          dsimp only
          by_cases hnewline : data.getD (offset + length - 1) 0 ≠ 10
          · rw [if_pos hnewline, if_pos (.inr (.inr hnewline))]
          · rw [if_neg hnewline, if_neg (by tauto),
              slice_eq (by omega) (by omega)]
            dsimp only
            cases hequals : (field data (position + offset + 1)
                (offset + length - 1)).findIdx? (· = 61) with
            | none => rfl
            | some equals =>
              have hkey := findIdx?_lt hequals
              generalize field data (position + offset + 1) (offset + length - 1) = record
                at hkey
              have hvalue : field record (equals + 1) record.length =
                  record.drop (equals + 1) := by
                unfold field
                rw [← List.length_drop, List.take_length]
              have hkey' : field record 0 equals = record.take equals := by
                rw [field, List.drop_zero, Nat.sub_zero]
              dsimp only
              rw [slice_eq (Nat.zero_le _) hkey.le, slice_eq hkey le_rfl, hvalue, hkey']
              dsimp only
              split
              · rfl
              · rfl

theorem parsePaxCheckedLoop_eq (data : Bytes) : ∀ (rounds offset : Nat) (result : PaxValues),
    parsePaxCheckedLoop data rounds offset result =
      some (parsePaxLoop data rounds offset result)
  | 0, _, _ => rfl
  | rounds + 1, offset, result => by
      unfold parsePaxCheckedLoop parsePaxLoop
      split
      · next hlt =>
        rw [paxRecordChecked_eq hlt.le]
        dsimp only [bind, Option.bind]
        cases paxRecord data offset with
        | error e => rfl
        | ok record =>
          dsimp only [Except.bind]
          cases result.set record.key record.value with
          | error e => rfl
          | ok result => exact parsePaxCheckedLoop_eq data rounds record.next result
      · rfl

/-- **`parse_pax` never panics.** -/
theorem parsePaxChecked_eq (data : Bytes) : parsePaxChecked data = some (parsePax data) :=
  parsePaxCheckedLoop_eq data data.length 0 PaxValues.empty

/-! ## Writing records -/

def paxText (length : Nat) (key value : Bytes) : Bytes :=
  decimal length ++ 32 :: (key ++ 61 :: (value ++ [10]))

theorem length_paxText (length : Nat) (key value : Bytes) : (paxText length key value).length =
    (decimal length).length + (key.length + value.length + 3) := by
  simp only [paxText, List.length_append, List.length_cons, List.length_nil]
  omega

/-- The records of some pairs, each with a length that is its own. -/
inductive PaxRecords : List (Bytes × Bytes) → Bytes → Prop where
  | nil : PaxRecords [] []
  | cons {length : Nat} {key value : Bytes} {pairs : List (Bytes × Bytes)} {rest : Bytes}
      (hlength : (paxText length key value).length = length) (hrest : PaxRecords pairs rest) :
      PaxRecords ((key, value) :: pairs) (paxText length key value ++ rest)

/-! ## What the pairs say -/

/-- A value that the numeric keys take. -/
structure IsNumber (text : Bytes) : Prop where
  nonempty : text ≠ []
  decimal : ∀ byte ∈ text, isDigit byte = true
  fits : digits 10 0 text ≤ u64Max

/-- The part of a time before the fraction. -/
def integerPart (text : Bytes) : Bytes := text.takeWhile (· ≠ dot)

/-- An integer without its sign. -/
def magnitude (integer : Bytes) : Bytes :=
  if integer.head? = some 45 ∨ integer.head? = some 43 then integer.tail else integer

/-- A value that `mtime` takes: an integer with or without a sign, and any fraction. -/
structure IsTime (text : Bytes) : Prop where
  nonempty : magnitude (integerPart text) ≠ []
  decimal : ∀ byte ∈ magnitude (integerPart text), isDigit byte = true
  fits : digits 10 0 (magnitude (integerPart text)) ≤
    if (integerPart text).head? = some 45 then i64Max + 1 else i64Max

def secondsOf (text : Bytes) : Int :=
  if (integerPart text).head? = some 45 then
    -(digits 10 0 (magnitude (integerPart text)) : Int)
  else (digits 10 0 (magnitude (integerPart text)) : Int)

/-- A pair that can be written and read back. -/
structure IsPair (pair : Bytes × Bytes) : Prop where
  key : 61 ∉ pair.1
  value : 0 ∉ pair.2
  number : pair.1 = ascii "size" ∨ pair.1 = ascii "uid" ∨ pair.1 = ascii "gid" → IsNumber pair.2
  time : pair.1 = ascii "mtime" → IsTime pair.2

def lastOf (pairs : List (Bytes × Bytes)) (key : Bytes) : Option Bytes :=
  (pairs.reverse.find? fun pair => pair.1 = key).map Prod.snd

def lastValues (pairs : List (Bytes × Bytes)) : PaxValues where
  path := lastOf pairs (ascii "path")
  linkPath := lastOf pairs (ascii "linkpath")
  size := (lastOf pairs (ascii "size")).map (digits 10 0)
  uid := (lastOf pairs (ascii "uid")).map (digits 10 0)
  gid := (lastOf pairs (ascii "gid")).map (digits 10 0)
  mtime := (lastOf pairs (ascii "mtime")).map secondsOf

theorem lastOf_concat (pairs : List (Bytes × Bytes)) (pair : Bytes × Bytes) (key : Bytes) :
    lastOf (pairs ++ [pair]) key = if pair.1 = key then some pair.2 else lastOf pairs key := by
  unfold lastOf
  rw [List.reverse_append, List.reverse_singleton, List.singleton_append, List.find?_cons]
  by_cases h : pair.1 = key
  · simp [h]
  · simp [h]

/-! ## Reading values -/

theorem parseDigits_eq (hne : text ≠ []) (hdigits : ∀ byte ∈ text, isDigit byte = true) :
    parseDigits text = some (digits 10 0 text) := by
  unfold parseDigits
  rw [if_neg]
  rintro (h | h)
  · exact hne h
  · rw [Bool.not_eq_true', List.all_eq_false] at h
    obtain ⟨byte, hbyte, hnot⟩ := h
    exact hnot (hdigits byte hbyte)

theorem head_ne_of_digits (hdigits : ∀ byte ∈ text, isDigit byte = true) {sign : UInt8}
    (hsign : isDigit sign = false) : text.head? ≠ some sign := by
  intro h
  rw [hdigits sign (List.mem_of_head? h)] at hsign
  cases hsign

theorem parseU64_eq (h : IsNumber text) : parseU64 text = some (digits 10 0 text) := by
  unfold parseU64
  rw [if_neg (head_ne_of_digits h.decimal (by decide))]
  dsimp only
  rw [parseDigits_eq h.nonempty h.decimal, Option.filter_some, if_pos]
  exact decide_eq_true h.fits

theorem decimalU64_eq (h : IsNumber text) (label : String) :
    decimalU64 text label = .ok (digits 10 0 text) := by
  unfold decimalU64
  rw [if_neg, parseU64_eq h]
  rintro (hnil | hdigits)
  · exact h.nonempty hnil
  · rw [Bool.not_eq_true', List.all_eq_false] at hdigits
    obtain ⟨byte, hbyte, hnot⟩ := hdigits
    exact hnot (h.decimal byte hbyte)

theorem paxMtime_eq (h : IsTime text) : paxMtime text = .ok (secondsOf text) := by
  obtain ⟨hne, hdigits, hfits⟩ := h
  have hparse : parseI64 (integerPart text) = some (secondsOf text) := by
    unfold parseI64 secondsOf
    by_cases hminus : (integerPart text).head? = some 45
    · have hmagnitude : magnitude (integerPart text) = (integerPart text).tail :=
        if_pos (.inl hminus)
      rw [hmagnitude] at hne hdigits hfits ⊢
      rw [if_pos hminus] at hfits
      rw [if_pos hminus, if_pos hminus, parseDigits_eq hne hdigits, Option.filter_some,
        if_pos (decide_eq_true hfits)]
      rfl
    · rw [if_neg hminus] at hfits
      rw [if_neg hminus, if_neg hminus]
      by_cases hplus : (integerPart text).head? = some 43
      · have hmagnitude : magnitude (integerPart text) = (integerPart text).tail :=
          if_pos (.inr hplus)
        rw [hmagnitude] at hne hdigits hfits ⊢
        rw [if_pos hplus]
        dsimp only
        rw [parseDigits_eq hne hdigits, Option.filter_some, if_pos (decide_eq_true hfits)]
        rfl
      · have hmagnitude : magnitude (integerPart text) = integerPart text :=
          if_neg (not_or.mpr ⟨hminus, hplus⟩)
        rw [hmagnitude] at hne hdigits hfits ⊢
        rw [if_neg hplus]
        dsimp only
        rw [parseDigits_eq hne hdigits, Option.filter_some, if_pos (decide_eq_true hfits)]
        rfl
  unfold paxMtime
  rw [show text.takeWhile (· ≠ dot) = integerPart text from rfl, hparse]

theorem set_lastValues {pairs : List (Bytes × Bytes)} {key value : Bytes}
    (h : IsPair (key, value)) : (lastValues pairs).set key value =
      .ok (lastValues (pairs ++ [(key, value)])) := by
  obtain ⟨-, -, hnumber, htime⟩ := h
  unfold PaxValues.set lastValues
  simp only [lastOf_concat]
  by_cases hpath : key = ascii "path"
  · subst hpath
    simp +decide
  · by_cases hlink : key = ascii "linkpath"
    · subst hlink
      simp +decide
    · by_cases hsize : key = ascii "size"
      · subst hsize
        rw [decimalU64_eq (hnumber (.inl rfl))]
        simp +decide [bind, Except.bind]
      · by_cases huid : key = ascii "uid"
        · subst huid
          rw [decimalU64_eq (hnumber (.inr (.inl rfl))) "PAX uid"]
          simp +decide [bind, Except.bind]
        · by_cases hgid : key = ascii "gid"
          · subst hgid
            rw [decimalU64_eq (hnumber (.inr (.inr rfl))) "PAX gid"]
            simp +decide [bind, Except.bind]
          · by_cases hmtime : key = ascii "mtime"
            · subst hmtime
              rw [paxMtime_eq (htime rfl)]
              simp +decide [bind, Except.bind]
            · simp [hpath, hlink, hsize, huid, hgid, hmtime]

/-! ## Reading records -/

theorem findIdx?_append_cons {α : Type*} {p : α → Bool} {front rest : List α} {a : α}
    (hfront : ∀ x ∈ front, p x = false) (ha : p a = true) :
    (front ++ a :: rest).findIdx? p = some front.length := by
  rw [List.findIdx?_append, List.findIdx?_eq_none_iff.mpr hfront, List.findIdx?_cons, ha]
  simp

theorem isNumber_decimal {n : Nat} (h : n ≤ u64Max) : IsNumber (decimal n) where
  nonempty := decimal_ne_nil n
  decimal byte hbyte := by
    obtain ⟨hlow, hhigh⟩ := mem_decimal hbyte
    simp only [isDigit, Bool.and_eq_true, decide_eq_true_eq, UInt8.le_iff_toNat_le]
    exact ⟨hlow, hhigh⟩
  fits := (foldl_decimal n).trans_le h

/-- **One record is cut out whole**, wherever it stands. -/
theorem paxRecord_paxText {front key value rest : Bytes} {length : Nat}
    (hlength : (paxText length key value).length = length)
    (hfits : (front ++ (paxText length key value ++ rest)).length ≤ u64Max)
    (hkey : 61 ∉ key) (hvalue : 0 ∉ value) :
    paxRecord (front ++ (paxText length key value ++ rest)) front.length =
      .ok ⟨key, value, front.length + length⟩ := by
  have hsize := length_paxText length key value
  rw [hlength] at hsize
  have hfits' : front.length + length ≤ u64Max := by
    rw [List.length_append, List.length_append, hlength] at hfits
    omega
  have hdrop : (front ++ (paxText length key value ++ rest)).drop front.length =
      decimal length ++ 32 :: (key ++ 61 :: (value ++ [10]) ++ rest) := by
    rw [List.drop_left, paxText, List.append_assoc]
    rfl
  -- a decimal has no space in it, so the first space ends it
  have hspace : (decimal length ++ 32 :: (key ++ 61 :: (value ++ [10]) ++ rest)).findIdx?
      (· = 32) = some (decimal length).length := by
    refine findIdx?_append_cons (fun byte hbyte => decide_eq_false ?_) (decide_eq_true rfl)
    rintro rfl
    exact absurd (mem_decimal hbyte).1 (by decide)
  have hnumber : parseU64 (decimal length) = some length := by
    rw [parseU64_eq (isNumber_decimal (by omega))]
    exact congrArg some (foldl_decimal length)
  have hrecord : field (front ++ (paxText length key value ++ rest))
      ((decimal length).length + front.length + 1) (front.length + length - 1) =
        key ++ 61 :: value := by
    have hsplit : front ++ (paxText length key value ++ rest) =
        (front ++ (decimal length ++ [32])) ++ ((key ++ 61 :: value) ++ (10 :: rest)) := by
      simp [paxText]
    have hstart : (decimal length).length + front.length + 1 =
        (front ++ (decimal length ++ [32])).length := by
      simp only [List.length_append, List.length_singleton]
      omega
    have hcount : front.length + length - 1 - ((decimal length).length + front.length + 1) =
        (key ++ 61 :: value).length := by
      simp only [List.length_append, List.length_cons]
      omega
    rw [field, hcount, hsplit, hstart, List.drop_left, List.take_left]
  have hlast : (front ++ (paxText length key value ++ rest)).getD (front.length + length - 1) 0 =
      10 := by
    have hsplit : front ++ (paxText length key value ++ rest) =
        (front ++ (decimal length ++ 32 :: (key ++ 61 :: value))) ++ 10 :: rest := by
      simp [paxText]
    have hindex : front.length + length - 1 =
        (front ++ (decimal length ++ 32 :: (key ++ 61 :: value))).length := by
      simp only [List.length_append, List.length_cons]
      omega
    rw [hsplit, hindex, List.getD_eq_getElem?_getD, List.getElem?_append_right le_rfl,
      Nat.sub_self]
    rfl
  have hequals : (key ++ 61 :: value).findIdx? (· = 61) = some key.length := by
    refine findIdx?_append_cons (fun byte hbyte => decide_eq_false ?_) (decide_eq_true rfl)
    rintro rfl
    exact hkey hbyte
  unfold paxRecord
  rw [hdrop, hspace]
  dsimp only
  rw [List.take_left, hnumber]
  dsimp only
  rw [if_neg (Nat.not_lt.mpr hfits'), if_neg, hrecord, hequals]
  · dsimp only
    have hvalue' : (key ++ 61 :: value).drop (key.length + 1) = value := by
      rw [← List.drop_drop, List.drop_left]
      rfl
    rw [hvalue', if_neg hvalue, List.take_left]
  · rw [hlast]
    simp only [List.length_append, hlength]
    rintro (hlong | hshort | hnewline)
    · omega
    · omega
    · exact hnewline rfl

/-- **The run over the records**: what was there before, and then the pairs. -/
theorem parsePaxLoop_records {done pairs : List (Bytes × Bytes)} {front : Bytes}
    (h : PaxRecords pairs data) (hpairs : ∀ pair ∈ pairs, IsPair pair)
    (hfits : (front ++ data).length ≤ u64Max) : ∀ {rounds : Nat}, data.length ≤ rounds →
      parsePaxLoop (front ++ data) rounds front.length (lastValues done) =
        .ok (lastValues (done ++ pairs)) := by
  induction h generalizing done front with
  | nil =>
    intro rounds _
    cases rounds with
    | zero | succ rounds => simp [parsePaxLoop]
  | @cons length key value pairs rest hlength hrest ih =>
    intro rounds hrounds
    have hpair := hpairs (key, value) List.mem_cons_self
    have hsize := length_paxText length key value
    rw [hlength] at hsize
    rw [List.length_append, hlength] at hrounds
    obtain ⟨rounds, rfl⟩ := Nat.exists_eq_succ_of_ne_zero (by omega : rounds ≠ 0)
    have hlt : front.length < (front ++ (paxText length key value ++ rest)).length := by
      simp only [List.length_append, hlength]
      omega
    have hnext : front.length + length = (front ++ paxText length key value).length := by
      rw [List.length_append, hlength]
    have hrun : parsePaxLoop (front ++ paxText length key value ++ rest) rounds
        (front ++ paxText length key value).length (lastValues (done ++ [(key, value)])) =
          .ok (lastValues (done ++ [(key, value)] ++ pairs)) :=
      ih (fun pair hp => hpairs pair (List.mem_cons_of_mem _ hp)) (by rwa [List.append_assoc])
        (by omega)
    rw [List.append_assoc, ← hnext, List.append_assoc] at hrun
    rw [parsePaxLoop, if_pos hlt, paxRecord_paxText hlength hfits hpair.key hpair.value]
    show ((lastValues done).set key value >>= fun result =>
      parsePaxLoop (front ++ (paxText length key value ++ rest)) rounds (front.length + length)
        result) = _
    rw [set_lastValues hpair]
    exact hrun

/-- **PAX parsing.** `parse_pax` ends by itself and never panics, on any bytes; and from the
records of any pairs it reads the last value of each key. -/
theorem parsePax_records :
    (∀ data, parsePaxChecked data = some (parsePax data) ∧ ∀ more,
      parsePaxLoop data (data.length + more) 0 PaxValues.empty = parsePax data) ∧
    ∀ pairs data, PaxRecords pairs data → data.length ≤ u64Max → (∀ pair ∈ pairs, IsPair pair) →
      parsePax data = .ok (lastValues pairs) := by
  refine ⟨fun data => ⟨parsePaxChecked_eq data, fun more => ?_⟩,
    fun pairs data h hfits hpairs => ?_⟩
  · exact parsePaxLoop_rounds data.length more 0 PaxValues.empty (Nat.sub_le _ _)
  · have hfits' : ([] ++ data).length ≤ u64Max := hfits
    have hrun : parsePaxLoop ([] ++ data) data.length ([] : Bytes).length (lastValues []) =
        .ok (lastValues ([] ++ pairs)) := parsePaxLoop_records h hpairs hfits' le_rfl
    exact hrun

/-- Two paths and a size, the second path with all that a value can hold. -/
def samplePairs : List (Bytes × Bytes) :=
  [(ascii "path", ascii "old"), (ascii "size", ascii "7"), (ascii "path", ascii "a =\nb")]

theorem samplePairs_read : ∃ data, PaxRecords samplePairs data ∧
    parsePax data = .ok { PaxValues.empty with
      path := some (ascii "a =\nb"), size := some 7 } := by
  have hrecords : PaxRecords samplePairs
      (paxText 12 (ascii "path") (ascii "old") ++ (paxText 9 (ascii "size") (ascii "7") ++
        (paxText 14 (ascii "path") (ascii "a =\nb") ++ []))) :=
    .cons (by decide) (.cons (by decide) (.cons (by decide) .nil))
  refine ⟨_, hrecords, (parsePax_records.2 _ _ hrecords (by decide) ?_).trans (by decide)⟩
  intro pair hpair
  simp only [samplePairs, List.mem_cons, List.not_mem_nil, or_false] at hpair
  rcases hpair with rfl | rfl | rfl
  · exact ⟨by decide, by decide, fun h => absurd h (by decide), fun h => absurd h (by decide)⟩
  · exact ⟨by decide, by decide, fun _ => ⟨by decide, by decide +kernel, by decide⟩,
      fun h => absurd h (by decide)⟩
  · exact ⟨by decide, by decide, fun h => absurd h (by decide), fun h => absurd h (by decide)⟩

/-- A key with an `=` is read as what stands before it. -/
theorem equals_in_key_misread :
    PaxRecords [(ascii "path=x", ascii "y")] (paxText 12 (ascii "path=x") (ascii "y")) ∧
      0 ∉ ascii "y" ∧
      parsePax (paxText 12 (ascii "path=x") (ascii "y")) =
        .ok { PaxValues.empty with path := some (ascii "x=y") } ∧
      lastOf [(ascii "path=x", ascii "y")] (ascii "path") = none := by
  refine ⟨?_, by decide, by decide, by decide⟩
  have hrecords : PaxRecords [(ascii "path=x", ascii "y")]
      (paxText 12 (ascii "path=x") (ascii "y") ++ []) := .cons (by decide) .nil
  rwa [List.append_nil] at hrecords

end TuxStack.Tar
