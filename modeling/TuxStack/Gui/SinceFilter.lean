import TuxStack.Gui.Logs

/-!
# The time from which logs are shown

`parse_since_at` and `set_since_at` (`crates/gui/src/controllers/container_logs.rs`) for every
text, and what `bollard_logs_options` (`crates/docker-core/src/services/containers.rs`) makes
of a time that was taken. A duration of more seconds than chrono has for a time difference,
and not more than a 64-bit number holds, stops the program; every other text is handled
(`sinceSound_iff`).
-/

namespace TuxStack.Gui

/-! ## The options of the request -/

/-- `LogsOptions` of bollard, without `until`. -/
structure LogsOptions where
  stdout : Bool
  stderr : Bool
  follow : Bool
  timestamps : Bool
  tail : String
  since : Int32

def bollardLogsOptions (options : ContainerLogsOptions) : LogsOptions where
  stdout := options.stdout
  stderr := options.stderr
  follow := options.follow
  timestamps := options.timestamps
  tail := (options.tail.map toString).getD "all"
  since := (options.since.map fun value => Int32.ofInt (timestampSeconds value)).getD 0

/-- The seconds that the Docker API takes. -/
def InApiRange (seconds : Int) : Prop := -2 ^ 31 ≤ seconds ∧ seconds < 2 ^ 31

instance (seconds : Int) : Decidable (InApiRange seconds) :=
  inferInstanceAs (Decidable (_ ∧ _))

theorem timestampSeconds_mul (seconds : Int) : timestampSeconds (seconds * 10 ^ 9) = seconds := by
  unfold timestampSeconds
  omega

theorem timestampSeconds_sub (now seconds : Int) :
    timestampSeconds (now - seconds * 10 ^ 9) = timestampSeconds now - seconds := by
  unfold timestampSeconds
  omega

theorem since_bollardLogsOptions {options : ContainerLogsOptions} {time : Int}
    (h : options.since = some time) (hrange : InApiRange (timestampSeconds time)) :
    (bollardLogsOptions options).since.toInt = timestampSeconds time := by
  have hsince : (bollardLogsOptions options).since = Int32.ofInt (timestampSeconds time) := by
    rw [bollardLogsOptions, h]
    rfl
  rw [hsince]
  exact Int32.toInt_ofInt_of_le hrange.1 hrange.2

/-! ## Durations -/

/-- A number of a unit of time, as a user writes it: in upper or lower case, with white space
around the unit, and with ` ago` behind it or not. -/
def IsDuration (input : String) (amount : Nat) (unitSeconds : Int) : Prop :=
  ∃ digits front unit back ago : List Char,
    (asciiLowercase input).toList = digits ++ (front ++ unit ++ back) ++ ago ∧
      parseDigits digits = some amount ∧ (∀ c ∈ front, isWhitespace c = true) ∧
      (∀ c ∈ back, isWhitespace c = true) ∧
      secondsPerUnit (String.ofList unit) = some unitSeconds ∧
      (ago = [] ∨ ago = " ago".toList)

/-- What `parse_since_at` takes for a duration: the amount and the seconds of the unit. -/
def durationOf (input : String) : Option (Int × Int) :=
  let lower := asciiLowercase input
  let relative := ((stripSuffix lower " ago").getD lower).toList
  match parseI64 (String.ofList (relative.takeWhile Char.isDigit)),
    secondsPerUnit (trim (String.ofList (relative.dropWhile Char.isDigit))) with
  | some amount, some unitSeconds => some (amount, unitSeconds)
  | _, _ => none

section Characters

variable {c : Char}

/-- The lower case of a letter comes behind all digits and signs. -/
theorem eq_of_toLower_eq {d : Char} (h : c.toLower = d) (hd : d.toNat < 97) : c = d := by
  by_cases hupper : c.val ≥ 'A'.val ∧ c.val ≤ 'Z'.val
  · have hlower : c.toLower.val = c.val + 32 := by
      rw [Char.toLower, dif_pos hupper]
      rfl
    rw [h] at hlower
    have hnat : d.toNat = (c.val + 32).toNat := congrArg UInt32.toNat hlower
    simp only [ge_iff_le, UInt32.le_iff_toNat_le, UInt32.toNat_add] at hupper hnat
    simp at hupper hnat
    omega
  · have hsame : c.toLower = c := dif_neg hupper
    rw [← hsame, h]

theorem toNat_of_isDigit (h : c.isDigit = true) : c.toNat < 97 := by
  simp only [Char.isDigit, Bool.and_eq_true, decide_eq_true_eq, UInt32.le_iff_toNat_le] at h
  exact Nat.lt_of_le_of_lt h.2 (by decide)

theorem isDigit_of_isWhitespace (h : isWhitespace c = true) : c.isDigit = false := by
  rw [← Bool.not_eq_true]
  intro hdigit
  simp only [Char.isDigit, Bool.and_eq_true, decide_eq_true_eq, UInt32.le_iff_toNat_le] at hdigit
  change 48 ≤ c.toNat ∧ c.toNat ≤ 57 at hdigit
  simp only [isWhitespace, Bool.or_eq_true, Bool.and_eq_true, decide_eq_true_eq] at h
  omega

theorem toNat_of_isLower (h : c.isLower = true) : 97 ≤ c.toNat ∧ c.toNat ≤ 122 := by
  simp only [Char.isLower, Bool.and_eq_true, decide_eq_true_eq, ge_iff_le,
    UInt32.le_iff_toNat_le] at h
  exact h

theorem isDigit_of_isLower (h : c.isLower = true) : c.isDigit = false := by
  rw [← Bool.not_eq_true]
  intro hdigit
  have hsmall := toNat_of_isDigit hdigit
  have hletter := (toNat_of_isLower h).1
  omega

theorem isWhitespace_of_isLower (h : c.isLower = true) : isWhitespace c = false := by
  rw [← Bool.not_eq_true]
  intro hwhite
  have hletter := toNat_of_isLower h
  simp only [isWhitespace, Bool.or_eq_true, Bool.and_eq_true, decide_eq_true_eq] at hwhite
  omega

/-- Texts that differ in the case of letters have the same digits. -/
theorem isDigit_toLower (c : Char) : c.toLower.isDigit = c.isDigit := by
  by_cases hupper : c.val ≥ 'A'.val ∧ c.val ≤ 'Z'.val
  · have hnot : c.isDigit = false := by
      rw [← Bool.not_eq_true]
      intro hdigit
      simp only [Char.isDigit, Bool.and_eq_true, decide_eq_true_eq, UInt32.le_iff_toNat_le]
        at hdigit
      change 48 ≤ c.toNat ∧ c.toNat ≤ 57 at hdigit
      have hletter := hupper.1
      simp only [ge_iff_le, UInt32.le_iff_toNat_le] at hletter
      change 65 ≤ c.toNat at hletter
      omega
    have hlower : c.toLower.isDigit = false := by
      rw [← Bool.not_eq_true]
      intro hdigit
      have heq := eq_of_toLower_eq (c := c) rfl (toNat_of_isDigit hdigit)
      rw [← heq, hnot] at hdigit
      cases hdigit
    rw [hlower, hnot]
  · have hsame : c.toLower = c := dif_neg hupper
    rw [hsame]

end Characters

/-- Lower case letters, of which the last is no `o`. -/
def isUnitName (name : List Char) : Bool :=
  name.all Char.isLower && name ≠ [] && name.getLast? ≠ some 'o'

theorem isUnitName_of_secondsPerUnit {unit : String} {unitSeconds : Int}
    (h : secondsPerUnit unit = some unitSeconds) :
    0 < unitSeconds ∧ isUnitName unit.toList = true := by
  have hnames : ∀ {names : List String}, names.all (isUnitName ·.toList) = true →
      unit ∈ names → isUnitName unit.toList = true :=
    fun hall hunit => List.all_eq_true.mp hall unit hunit
  unfold secondsPerUnit at h
  split at h
  · next hunit =>
    cases h
    exact ⟨by decide, hnames (by decide) hunit⟩
  · split at h
    · next hunit =>
      cases h
      exact ⟨by decide, hnames (by decide) hunit⟩
    · split at h
      · next hunit =>
        cases h
        exact ⟨by decide, hnames (by decide) hunit⟩
      · split at h
        · next hunit =>
          cases h
          exact ⟨by decide, hnames (by decide) hunit⟩
        · cases h

/-- White space, a unit, and white space again. -/
structure UnitText (front unit back : List Char) : Prop where
  front : ∀ c ∈ front, isWhitespace c = true
  unit : isUnitName unit = true
  back : ∀ c ∈ back, isWhitespace c = true

namespace UnitText

variable {front unit back : List Char} {c : Char}

theorem letters (h : UnitText front unit back) : ∀ c ∈ unit, c.isLower = true := by
  have hunit := h.unit
  simp only [isUnitName, Bool.and_eq_true, List.all_eq_true] at hunit
  exact hunit.1.1

theorem ne_nil (h : UnitText front unit back) : unit ≠ [] := by
  have hunit := h.unit
  simp only [isUnitName, Bool.and_eq_true] at hunit
  exact of_decide_eq_true hunit.1.2

theorem getLast (h : UnitText front unit back) : unit.getLast? ≠ some 'o' := by
  have hunit := h.unit
  simp only [isUnitName, Bool.and_eq_true] at hunit
  exact of_decide_eq_true hunit.2

theorem mem (h : UnitText front unit back) (hc : c ∈ front ++ unit ++ back) :
    isWhitespace c = true ∨ c.isLower = true := by
  rcases List.mem_append.mp hc with hc | hc
  · rcases List.mem_append.mp hc with hc | hc
    · exact .inl (h.front c hc)
    · exact .inr (h.letters c hc)
  · exact .inl (h.back c hc)

theorem isDigit (h : UnitText front unit back) (hc : c ∈ front ++ unit ++ back) :
    c.isDigit = false := by
  rcases h.mem hc with hwhite | hletter
  · exact isDigit_of_isWhitespace hwhite
  · exact isDigit_of_isLower hletter

theorem trim (h : UnitText front unit back) :
    TuxStack.trim (String.ofList (front ++ unit ++ back)) = String.ofList unit := by
  obtain ⟨first, rest, hunit⟩ := List.exists_cons_of_ne_nil h.ne_nil
  have hstart : (front ++ unit ++ back).dropWhile isWhitespace = unit ++ back := by
    rw [List.append_assoc, List.dropWhile_append_of_pos h.front, hunit, List.cons_append,
      List.dropWhile_cons_of_neg]
    have hletter := h.letters first (by simp [hunit])
    simp [isWhitespace_of_isLower hletter]
  have hlast : isWhitespace (unit.getLast h.ne_nil) = false :=
    isWhitespace_of_isLower (h.letters _ (List.getLast_mem h.ne_nil))
  have hend : (unit ++ back).rdropWhile isWhitespace = unit := by
    unfold List.rdropWhile
    rw [List.reverse_append, List.dropWhile_append_of_pos fun c hc =>
      h.back c (List.mem_reverse.mp hc), ← List.rdropWhile, List.rdropWhile_eq_self_iff]
    intro _
    simp [hlast]
  unfold TuxStack.trim trimBoth trimStart trimEnd
  rw [String.toList_ofList, hstart, hend]

end UnitText

section Reading

variable {input : String} {amount : Nat} {unitSeconds : Int}

/-- ` ago` is taken from the end, where it stands. -/
theorem stripSuffix_ago {text : String} {body ago : List Char} (htext : text.toList = body ++ ago)
    (hago : ago = [] ∨ ago = " ago".toList) (hbody : body.getLast? ≠ some 'o') :
    ((stripSuffix text " ago").getD text).toList = body := by
  unfold stripSuffix
  rcases hago with rfl | rfl
  · rw [List.append_nil] at htext
    rw [if_neg]
    · exact htext
    · rintro ⟨front, hfront⟩
      rw [htext] at hfront
      rw [← hfront] at hbody
      exact hbody (by simp)
  · rw [if_pos ⟨body, htext.symm⟩, Option.getD_some, String.toList_ofList, htext,
      List.length_append, Nat.add_sub_cancel, List.take_left]

theorem parseI64_digits {digits : List Char} (h : ∀ c ∈ digits, c.isDigit = true) :
    parseI64 (String.ofList digits) =
      ((parseDigits digits).map Int.ofNat).filter fun n => n < 2 ^ 63 := by
  have hplain : parseI64 (String.ofList digits) =
      ((parseDigits digits).map Int.ofNat).filter fun n => -2 ^ 63 ≤ n ∧ n < 2 ^ 63 := by
    unfold parseI64
    rw [String.toList_ofList]
    cases digits with
    | nil => rfl
    | cons first rest =>
      have hfirst := h first List.mem_cons_self
      split
      · next heq =>
        cases heq
        exact absurd hfirst (by decide)
      · next heq =>
        cases heq
        exact absurd hfirst (by decide)
      · rfl
  rw [hplain]
  cases parseDigits digits with
  | none => rfl
  | some n =>
    have hnonneg : -2 ^ 63 ≤ Int.ofNat n := by
      show -2 ^ 63 ≤ (n : Int)
      omega
    simp only [Option.map_some, Option.filter_some, hnonneg, true_and]

/-- The body of a duration ends with a unit or with white space. -/
theorem getLast_body {digits front unit back : List Char} (h : UnitText front unit back) :
    (digits ++ (front ++ unit ++ back)).getLast? ≠ some 'o' := by
  cases back using List.reverseRecOn with
  | nil =>
    rw [List.append_nil, ← List.append_assoc, List.getLast?_append_of_ne_nil _ h.ne_nil]
    exact h.getLast
  | append_singleton back last =>
    have hlast := h.back last (by simp)
    rw [← List.append_assoc, ← List.append_assoc, List.getLast?_concat]
    rintro heq
    cases heq
    exact absurd hlast (by decide)

/-- **A duration is read as it is written**, when its number is one of 64 bits. -/
theorem durationOf_of_isDuration (h : IsDuration input amount unitSeconds) :
    durationOf input =
      if (amount : Int) < 2 ^ 63 then some ((amount : Int), unitSeconds) else none := by
  obtain ⟨digits, front, unit, back, ago, htext, hdigits, hfront, hback, hunit, hago⟩ := h
  have hword : UnitText front unit back :=
    ⟨hfront, by simpa using (isUnitName_of_secondsPerUnit hunit).2, hback⟩
  have hall := (parseDigits_spec hdigits).2
  have hrelative := stripSuffix_ago htext hago (getLast_body hword)
  have hnone : (front ++ unit ++ back).takeWhile Char.isDigit = [] ∧
      (front ++ unit ++ back).dropWhile Char.isDigit = front ++ unit ++ back := by
    cases hrest : front ++ unit ++ back with
    | nil => exact ⟨rfl, rfl⟩
    | cons first rest =>
      have hfirst : first.isDigit = false := hword.isDigit (by rw [hrest]; simp)
      exact ⟨List.takeWhile_cons_of_neg (by simp [hfirst]),
        List.dropWhile_cons_of_neg (by simp [hfirst])⟩
  have hnumber : parseI64 (String.ofList digits) =
      if (amount : Int) < 2 ^ 63 then some (amount : Int) else none := by
    rw [parseI64_digits hall, hdigits, Option.map_some, Option.filter_some]
    simp only [decide_eq_true_eq, Int.ofNat_eq_natCast]
  unfold durationOf
  simp only [hrelative, List.takeWhile_append_of_pos hall, List.dropWhile_append_of_pos hall,
    hnone.1, hnone.2, List.append_nil, hword.trim, hunit, hnumber]
  by_cases hlt : (amount : Int) < 2 ^ 63
  · simp only [if_pos hlt]
  · simp only [if_neg hlt]

theorem exists_trim (text : List Char) : ∃ front back : List Char,
    text = front ++ (trim (String.ofList text)).toList ++ back ∧
      (∀ c ∈ front, isWhitespace c = true) ∧ ∀ c ∈ back, isWhitespace c = true := by
  refine ⟨text.takeWhile isWhitespace, (text.dropWhile isWhitespace).rtakeWhile isWhitespace, ?_,
    fun c => List.mem_takeWhile_imp, fun c => List.mem_rtakeWhile_imp⟩
  have htrim : (trim (String.ofList text)).toList =
      (text.dropWhile isWhitespace).rdropWhile isWhitespace := by
    unfold trim
    rw [String.toList_ofList, String.toList_ofList]
    rfl
  rw [htrim, List.append_assoc, List.rdropWhile_append_rtakeWhile,
    List.takeWhile_append_dropWhile]

/-- **What is read as a duration is written as one.** -/
theorem isDuration_of_durationOf {n : Int} (h : durationOf input = some (n, unitSeconds)) :
    ∃ amount : Nat, n = amount ∧ IsDuration input amount unitSeconds := by
  unfold durationOf at h
  dsimp only at h
  obtain ⟨ago, hago, htext⟩ : ∃ ago : List Char, (ago = [] ∨ ago = " ago".toList) ∧
      (asciiLowercase input).toList =
        ((stripSuffix (asciiLowercase input) " ago").getD (asciiLowercase input)).toList ++
          ago := by
    unfold stripSuffix
    split
    · next hsuffix =>
      obtain ⟨body, hbody⟩ := hsuffix
      refine ⟨" ago".toList, .inr rfl, ?_⟩
      rw [Option.getD_some, String.toList_ofList, ← hbody, List.length_append,
        Nat.add_sub_cancel, List.take_left]
    · exact ⟨[], .inl rfl, by simp⟩
  generalize ((stripSuffix (asciiLowercase input) " ago").getD
    (asciiLowercase input)).toList = relative at h htext
  have hall : ∀ c ∈ relative.takeWhile Char.isDigit, c.isDigit = true :=
    fun c => List.mem_takeWhile_imp
  rw [parseI64_digits hall] at h
  split at h
  · next k seconds hamount hunit =>
    cases h
    obtain ⟨amount, hdigits, hn⟩ :=
      Option.map_eq_some_iff.mp (Option.filter_eq_some_iff.mp hamount).1
    obtain ⟨front, back, hsplit, hfront, hback⟩ := exists_trim (relative.dropWhile Char.isDigit)
    refine ⟨amount, hn.symm, relative.takeWhile Char.isDigit, front, _, back, ago, ?_, hdigits,
      hfront, hback, by rw [String.ofList_toList]; exact hunit, hago⟩
    rw [← hsplit, List.takeWhile_append_dropWhile]
    exact htext
  · cases h

theorem toList_asciiLowercase (text : String) :
    (asciiLowercase text).toList = text.toList.map Char.toLower := by
  unfold asciiLowercase
  rw [String.toList_ofList]

theorem mem_of_isDuration (h : IsDuration input amount unitSeconds) {c : Char}
    (hc : c ∈ (asciiLowercase input).toList) :
    c.isDigit = true ∨ isWhitespace c = true ∨ c.isLower = true := by
  obtain ⟨digits, front, unit, back, ago, htext, hdigits, hfront, hback, hunit, hago⟩ := h
  have hword : UnitText front unit back :=
    ⟨hfront, by simpa using (isUnitName_of_secondsPerUnit hunit).2, hback⟩
  rw [htext] at hc
  rcases List.mem_append.mp hc with hc | hc
  · rcases List.mem_append.mp hc with hc | hc
    · exact .inl ((parseDigits_spec hdigits).2 c hc)
    · exact .inr (hword.mem hc)
  · right
    rcases hago with rfl | rfl
    · cases hc
    · have hletters : " ago".toList.all (fun c => isWhitespace c || c.isLower) = true := by decide
      simpa using List.all_eq_true.mp hletters c hc

theorem exists_digit_of_isDuration (h : IsDuration input amount unitSeconds) :
    ∃ first rest, input.toList = first :: rest ∧ first.isDigit = true := by
  obtain ⟨digits, front, unit, back, ago, htext, hdigits, -⟩ := h
  obtain ⟨hne, hall⟩ := parseDigits_spec hdigits
  obtain ⟨digit, others, rfl⟩ := List.exists_cons_of_ne_nil hne
  rw [toList_asciiLowercase] at htext
  cases hinput : input.toList with
  | nil =>
    rw [hinput] at htext
    cases htext
  | cons first rest =>
    rw [hinput] at htext
    have hfirst : first.toLower = digit := (List.cons.inj htext).1
    refine ⟨first, rest, rfl, ?_⟩
    rw [← isDigit_toLower, hfirst]
    exact hall digit List.mem_cons_self

theorem not_all_of_isDuration (h : IsDuration input amount unitSeconds) :
    ¬ (input = "" ∨ eqIgnoreAsciiCase input "all" ∨ eqIgnoreAsciiCase input "all time") := by
  obtain ⟨first, rest, hinput, hfirst⟩ := exists_digit_of_isDuration h
  have hlower : ∀ word : String, (word.toList.map Char.toLower).head? = some 'a' →
      ¬ eqIgnoreAsciiCase input word = true := by
    intro word hword heq
    have hsame := congrArg String.toList (of_decide_eq_true heq)
    rw [toList_asciiLowercase, toList_asciiLowercase, hinput] at hsame
    rw [← hsame, List.map_cons, List.head?_cons, Option.some.injEq] at hword
    rw [← isDigit_toLower, hword] at hfirst
    exact absurd hfirst (by decide)
  rintro (rfl | hall | hall)
  · cases hinput
  · exact hlower _ (by decide) hall
  · exact hlower _ (by decide) hall

theorem parseI64_of_isDuration (h : IsDuration input amount unitSeconds) :
    parseI64 input = none := by
  have hletter : ∃ c ∈ input.toList, c.isDigit = false := by
    obtain ⟨digits, front, unit, back, ago, htext, -, hfront, hback, hunit, -⟩ := h
    have hword : UnitText front unit back :=
      ⟨hfront, by simpa using (isUnitName_of_secondsPerUnit hunit).2, hback⟩
    obtain ⟨letter, others, hletter⟩ := List.exists_cons_of_ne_nil hword.ne_nil
    have hmem : letter ∈ (asciiLowercase input).toList := by
      rw [htext, hletter]
      simp
    rw [toList_asciiLowercase] at hmem
    obtain ⟨c, hc, hlower⟩ := List.mem_map.mp hmem
    refine ⟨c, hc, ?_⟩
    rw [← isDigit_toLower, hlower]
    exact isDigit_of_isLower (hword.letters letter (by simp [hletter]))
  obtain ⟨first, rest, hinput, hfirst⟩ := exists_digit_of_isDuration h
  have hnone : parseDigits input.toList = none := by
    unfold parseDigits
    rw [if_pos]
    right
    obtain ⟨c, hc, hdigit⟩ := hletter
    rw [List.all_eq_true]
    intro hall
    rw [hall c hc] at hdigit
    cases hdigit
  unfold parseI64
  rw [hinput] at hnone ⊢
  split
  · next heq =>
    cases heq
    exact absurd hfirst (by decide)
  · next heq =>
    cases heq
    exact absurd hfirst (by decide)
  · rw [hnone]
    rfl

theorem colon_notMem_of_isDuration (h : IsDuration input amount unitSeconds) :
    ':' ∉ input.toList := by
  intro hmem
  have hcolon : ':' ∈ (asciiLowercase input).toList := by
    rw [toList_asciiLowercase]
    exact List.mem_map.mpr ⟨':', hmem, by decide⟩
  rcases mem_of_isDuration h hcolon with hdigit | hwhite | hletter
  · exact absurd hdigit (by decide)
  · exact absurd hwhite (by decide)
  · exact absurd hletter (by decide)

end Reading

/-! ## Times before now -/

/-- The time a duration before now. -/
def relativeSince [Chrono] (amount unitSeconds now : Int) : Option (Except String LogSince) :=
  if amount ≤ 0 ∨ 2 ^ 63 ≤ amount * unitSeconds then
    some (.error
      "Since must be all, a Unix timestamp, RFC 3339, or a duration such as 5m, 1h, or 24h.")
  else if maxDeltaSeconds < amount * unitSeconds then none
  else if now - amount * unitSeconds * 10 ^ 9 < Chrono.earliest then
    some (.error
      "Since must be all, a Unix timestamp, RFC 3339, or a duration such as 5m, 1h, or 24h.")
  else
    some (validatedSinceTimestamp (timestampSeconds (now - amount * unitSeconds * 10 ^ 9)))

/-- What is documented of chrono: the text of a time has a colon, and times go back over
200000 years. -/
structure Chrono.Documented [Chrono] : Prop where
  colon : ∀ text time, Chrono.parseFromRfc3339 text = some time → ':' ∈ text.toList
  earliest : Chrono.earliest ≤ -2 ^ 31 * 10 ^ 9

section Durations

variable [Chrono] {input : String} {amount : Nat} {unitSeconds now : Int}

/-- A text that is no number and no time is read as a duration. -/
theorem parseSinceAt_eq_relativeSince (now : Int)
    (hall : ¬ (input = "" ∨ eqIgnoreAsciiCase input "all" ∨ eqIgnoreAsciiCase input "all time"))
    (hnumber : parseI64 input = none) (hrfc : Chrono.parseFromRfc3339 input = none) :
    parseSinceAt input now =
      match durationOf input with
      | some (amount, unitSeconds) => relativeSince amount unitSeconds now
      | none => some (.error
          "Since must be all, a Unix timestamp, RFC 3339, or a duration such as 5m, 1h, or 24h.") :=
    by
  unfold parseSinceAt durationOf
  rw [if_neg hall, hnumber, hrfc]
  dsimp only
  generalize parseI64 _ = amount
  generalize secondsPerUnit _ = unit
  cases amount <;> cases unit <;> rfl

/-- Only a text that is read as a duration can stop the program. -/
theorem parseSinceAt_eq_none (h : parseSinceAt input now = none) :
    ∃ n seconds, durationOf input = some (n, seconds) ∧ relativeSince n seconds now = none := by
  by_cases hall :
      input = "" ∨ eqIgnoreAsciiCase input "all" ∨ eqIgnoreAsciiCase input "all time"
  · unfold parseSinceAt at h
    rw [if_pos hall] at h
    cases h
  cases hnumber : parseI64 input with
  | some seconds =>
    unfold parseSinceAt at h
    rw [if_neg hall, hnumber] at h
    cases h
  | none =>
    cases hrfc : Chrono.parseFromRfc3339 input with
    | some time =>
      unfold parseSinceAt at h
      rw [if_neg hall, hnumber, hrfc] at h
      cases h
    | none =>
      rw [parseSinceAt_eq_relativeSince now hall hnumber hrfc] at h
      cases hduration : durationOf input with
      | none =>
        rw [hduration] at h
        cases h
      | some duration =>
        rw [hduration] at h
        exact ⟨duration.1, duration.2, rfl, h⟩

/-- **A duration is taken back from now**, and nothing else is read in it. -/
theorem parseSinceAt_of_isDuration (now : Int) (hchrono : Chrono.Documented)
    (h : IsDuration input amount unitSeconds) :
    parseSinceAt input now = relativeSince amount unitSeconds now := by
  have hrfc : Chrono.parseFromRfc3339 input = none := by
    cases htime : Chrono.parseFromRfc3339 input with
    | none => rfl
    | some time => exact absurd (hchrono.colon input time htime) (colon_notMem_of_isDuration h)
  rw [parseSinceAt_eq_relativeSince now (not_all_of_isDuration h) (parseI64_of_isDuration h) hrfc,
    durationOf_of_isDuration h]
  obtain ⟨digits, front, unit, back, ago, -, -, -, -, hunit, -⟩ := h
  have hpositive := (isUnitName_of_secondsPerUnit hunit).1
  by_cases hlt : (amount : Int) < 2 ^ 63
  · rw [if_pos hlt]
  · rw [if_neg hlt]
    have hlong : (2 : Int) ^ 63 ≤ amount * unitSeconds := by
      have hgrow := Int.mul_le_mul_of_nonneg_left (show (1 : Int) ≤ unitSeconds from hpositive)
        (Int.natCast_nonneg amount)
      omega
    unfold relativeSince
    rw [if_pos (.inr hlong)]

/-- **A duration that chrono can hold** gives the second of that time before now, or is
rejected when the Docker API cannot hold it. -/
theorem relativeSince_spec (hchrono : Chrono.Documented) (hnow : now < 2 ^ 62 * 10 ^ 9)
    (hamount : 0 < amount)
    (hheld : ¬ (maxDeltaSeconds < amount * unitSeconds ∧ amount * unitSeconds < 2 ^ 63)) :
    (InApiRange (timestampSeconds now - amount * unitSeconds) →
      relativeSince amount unitSeconds now =
        some (.ok (.timestamp ((timestampSeconds now - amount * unitSeconds) * 10 ^ 9)))) ∧
    (¬ InApiRange (timestampSeconds now - amount * unitSeconds) →
      ∃ message, relativeSince amount unitSeconds now = some (.error message)) := by
  have hsecond : timestampSeconds now < 2 ^ 62 := by
    unfold timestampSeconds
    omega
  have hearliest := hchrono.earliest
  have hpositive : ¬ (amount : Int) ≤ 0 := by omega
  have hmax : maxDeltaSeconds = (2 ^ 63 - 1) / 1000 := rfl
  have htime : (timestampSeconds now - amount * unitSeconds) * 10 ^ 9 ≤
      now - amount * unitSeconds * 10 ^ 9 := by
    unfold timestampSeconds
    omega
  unfold relativeSince InApiRange validatedSinceTimestamp
  rw [timestampSeconds_sub]
  generalize (amount : Int) * unitSeconds = seconds at *
  generalize (amount : Int) = n at *
  by_cases hlong : 2 ^ 63 ≤ seconds
  · rw [if_pos (.inr hlong)]
    exact ⟨fun hrange => absurd hrange (by omega), fun _ => ⟨_, rfl⟩⟩
  · rw [if_neg (by omega), if_neg (by omega)]
    by_cases hold : now - seconds * 10 ^ 9 < Chrono.earliest
    · rw [if_pos hold]
      refine ⟨fun hrange => absurd hold ?_, fun _ => ⟨_, rfl⟩⟩
      have hrange' := hrange.1
      omega
    · rw [if_neg hold]
      constructor
      · intro hrange
        rw [if_pos hrange]
      · intro hrange
        rw [if_neg hrange]
        exact ⟨_, rfl⟩

/-- Every time that is taken is one that the Docker API can hold. -/
theorem inApiRange_of_parseSinceAt {time : Int}
    (h : parseSinceAt input now = some (.ok (.timestamp time))) :
    InApiRange (timestampSeconds time) := by
  have hvalid : ∀ seconds, validatedSinceTimestamp seconds = .ok (.timestamp time) →
      InApiRange (timestampSeconds time) := by
    intro seconds hseconds
    unfold validatedSinceTimestamp at hseconds
    split at hseconds
    · next hrange =>
      cases hseconds
      rw [timestampSeconds_mul]
      exact hrange
    · cases hseconds
  unfold parseSinceAt at h
  dsimp only at h
  split at h
  · cases h
  · split at h
    · exact hvalid _ (Option.some.inj h)
    · exact hvalid _ (Option.some.inj h)
    · split at h
      · split at h
        · cases h
        · split at h
          · cases h
          · split at h
            · cases h
            · exact hvalid _ (Option.some.inj h)
      · cases h

end Durations

/-! ## Setting the time -/

theorem setValidationError_options (s : ContainerLogsState) (message : String) :
    (s.setValidationError message).2.since = s.since ∧
      (s.setValidationError message).2.sinceInput = s.sinceInput ∧
      (s.setValidationError message).2.generation = s.generation := by
  unfold ContainerLogsState.setValidationError
  split <;> exact ⟨rfl, rfl, rfl⟩

theorem clearValidationError_options (s : ContainerLogsState) :
    s.clearValidationError.2.since = s.since ∧
      s.clearValidationError.2.sinceInput = s.sinceInput ∧
      s.clearValidationError.2.generation = s.generation := by
  unfold ContainerLogsState.clearValidationError
  split <;> exact ⟨rfl, rfl, rfl⟩

section Setting

variable [Chrono]

/-- What `set_since_at` should do with a text: it returns; a duration that is not already in
force gives the second that long before now, or is rejected when the Docker API cannot hold
that; a time that is taken is sent as it is; and a text that is rejected changes no option. -/
structure SinceSound (s : ContainerLogsState) (value : String) (now : Int) : Prop where
  returns : (s.setSinceAt value now).isSome = true
  duration : ∀ amount unitSeconds, IsDuration (trim value) amount unitSeconds → 0 < amount →
    ¬ eqIgnoreAsciiCase (trim value) s.sinceInput →
    (InApiRange (timestampSeconds now - amount * unitSeconds) →
      ∃ t, s.setSinceAt value now = some (true, t) ∧
        t.since = .timestamp ((timestampSeconds now - amount * unitSeconds) * 10 ^ 9)) ∧
    (¬ InApiRange (timestampSeconds now - amount * unitSeconds) →
      ∃ message, s.setSinceAt value now = some (s.setValidationError message))
  accepted : ∀ time, parseSinceAt (trim value) now = some (.ok (.timestamp time)) →
    InApiRange (timestampSeconds time) ∧ ∀ options : ContainerLogsOptions,
      options.since = some time →
        (bollardLogsOptions options).since.toInt = timestampSeconds time
  rejected : ∀ message, parseSinceAt (trim value) now = some (.error message) →
    ∀ changed t, s.setSinceAt value now = some (changed, t) →
      t.since = s.since ∧ t.sinceInput = s.sinceInput ∧ t.generation = s.generation

/-- A duration that is not in force, with more seconds than chrono has for a time difference,
of which there are not too many for 64 bits. -/
def DurationTooLong (s : ContainerLogsState) (value : String) : Prop :=
  ¬ eqIgnoreAsciiCase (trim value) s.sinceInput ∧
    ∃ amount unitSeconds, IsDuration (trim value) amount unitSeconds ∧
      maxDeltaSeconds < amount * unitSeconds ∧ amount * unitSeconds < 2 ^ 63

variable {s : ContainerLogsState} {value : String} {now : Int}

theorem setSinceAt_of_new (now : Int) (h : ¬ eqIgnoreAsciiCase (trim value) s.sinceInput) :
    (∀ message, parseSinceAt (trim value) now = some (.error message) →
      s.setSinceAt value now = some (s.setValidationError message)) ∧
    (∀ since, parseSinceAt (trim value) now = some (.ok since) →
      ∃ t, s.setSinceAt value now = some (true, t) ∧ t.since = since) ∧
    (parseSinceAt (trim value) now = none → s.setSinceAt value now = none) := by
  unfold ContainerLogsState.setSinceAt
  dsimp only
  rw [if_neg h]
  refine ⟨fun message hparse => ?_, fun since hparse => ?_, fun hparse => ?_⟩
  · rw [hparse]
    rfl
  · rw [hparse]
    exact ⟨_, rfl, rfl⟩
  · rw [hparse]
    rfl

theorem setSinceAt_in_force (h : eqIgnoreAsciiCase (trim value) s.sinceInput) :
    s.setSinceAt value now = some s.clearValidationError := by
  unfold ContainerLogsState.setSinceAt
  exact if_pos h

/-- The program is stopped by the durations that are too long, and by no other text. -/
theorem setSinceAt_eq_none (hchrono : Chrono.Documented) :
    s.setSinceAt value now = none ↔ DurationTooLong s value := by
  by_cases hforce : eqIgnoreAsciiCase (trim value) s.sinceInput = true
  · rw [setSinceAt_in_force hforce]
    exact iff_of_false (by simp) fun hlong => hlong.1 hforce
  · obtain ⟨herror, hok, hnone⟩ := setSinceAt_of_new now hforce
    constructor
    · intro hstop
      have hparse : parseSinceAt (trim value) now = none := by
        cases hparse : parseSinceAt (trim value) now with
        | none => rfl
        | some result =>
          cases result with
          | error message =>
            rw [herror message hparse] at hstop
            cases hstop
          | ok since =>
            obtain ⟨t, ht, -⟩ := hok since hparse
            rw [ht] at hstop
            cases hstop
      obtain ⟨n, seconds, hduration, hrelative⟩ := parseSinceAt_eq_none hparse
      obtain ⟨amount, rfl, hwritten⟩ := isDuration_of_durationOf hduration
      unfold relativeSince at hrelative
      split at hrelative
      · cases hrelative
      · next hbound =>
        split at hrelative
        · next hlong =>
          exact ⟨hforce, amount, seconds, hwritten, hlong, by omega⟩
        · split at hrelative <;> cases hrelative
    · rintro ⟨-, amount, unitSeconds, hwritten, hlong, hbound⟩
      apply hnone
      rw [parseSinceAt_of_isDuration now hchrono hwritten]
      have hamount : ¬ (amount : Int) ≤ 0 := by
        intro hzero
        have hmax : (0 : Int) < maxDeltaSeconds := by decide
        have hnil : (amount : Int) = 0 := by omega
        rw [hnil] at hlong
        omega
      unfold relativeSince
      rw [if_neg (by omega), if_pos hlong]

/-- **When a text for the time is handled**: always, but for the durations that are too
long. -/
theorem sinceSound_iff (hchrono : Chrono.Documented) (hnow : now < 2 ^ 62 * 10 ^ 9)
    (s : ContainerLogsState) (value : String) :
    SinceSound s value now ↔ ¬ DurationTooLong s value := by
  have hnone : s.setSinceAt value now = none ↔ DurationTooLong s value :=
    setSinceAt_eq_none hchrono
  constructor
  · intro hsound hlong
    have hreturns := hsound.returns
    rw [hnone.mpr hlong] at hreturns
    cases hreturns
  · intro hheld
    refine ⟨?_, ?_, ?_, ?_⟩
    · rw [Option.isSome_iff_ne_none]
      exact fun hstop => hheld (hnone.mp hstop)
    · intro amount unitSeconds hwritten hamount hnew
      obtain ⟨herror, hok, -⟩ := setSinceAt_of_new now hnew
      have hparse := parseSinceAt_of_isDuration now hchrono hwritten
      obtain ⟨htaken, hrejected⟩ := relativeSince_spec hchrono hnow hamount
        fun hlong => hheld ⟨hnew, amount, unitSeconds, hwritten, hlong⟩
      constructor
      · intro hrange
        exact hok _ (hparse.trans (htaken hrange))
      · intro hrange
        obtain ⟨message, hmessage⟩ := hrejected hrange
        exact ⟨message, herror message (hparse.trans hmessage)⟩
    · intro time hparse
      have hrange := inApiRange_of_parseSinceAt hparse
      exact ⟨hrange, fun options hsince => since_bollardLogsOptions hsince hrange⟩
    · intro message hparse changed t ht
      by_cases hforce : eqIgnoreAsciiCase (trim value) s.sinceInput = true
      · rw [setSinceAt_in_force hforce] at ht
        obtain rfl := congrArg Prod.snd (Option.some.inj ht)
        exact clearValidationError_options s
      · rw [(setSinceAt_of_new now hforce).1 message hparse] at ht
        obtain rfl := congrArg Prod.snd (Option.some.inj ht)
        exact setValidationError_options s message

end Setting

/-- Chrono, for texts that are no times. -/
abbrev calendar : Chrono := ⟨fun _ => "", fun _ => none, -8334601228800 * 10 ^ 9⟩

/-- Half an hour before a time. -/
theorem thirtyMinutes_taken :
    @SinceSound calendar {} "30m" (1700000000 * 10 ^ 9) ∧
      (@ContainerLogsState.setSinceAt {} calendar "30m" (1700000000 * 10 ^ 9)).map (·.2.since) =
        some (.timestamp (1699998200 * 10 ^ 9)) := by
  have hchrono : @Chrono.Documented calendar := by
    refine @Chrono.Documented.mk calendar ?_ (by decide)
    intro text time h
    cases h
  have hset : (@ContainerLogsState.setSinceAt {} calendar "30m" (1700000000 * 10 ^ 9)).map
      (·.2.since) = some (.timestamp (1699998200 * 10 ^ 9)) := by
    decide +kernel
  refine ⟨(@sinceSound_iff calendar _ hchrono (by decide) {} "30m").mpr fun hlong => ?_, hset⟩
  rw [(@setSinceAt_eq_none calendar _ _ _ hchrono).mpr hlong] at hset
  cases hset

/-- **More seconds than chrono has stop the program.** -/
theorem long_duration_panics :
    ¬ @SinceSound calendar {} "9223372036854776s" (1700000000 * 10 ^ 9) := by
  have hstop : (@ContainerLogsState.setSinceAt {} calendar "9223372036854776s"
      (1700000000 * 10 ^ 9)).isSome = false := by
    decide +kernel
  intro h
  have hreturns := @SinceSound.returns calendar _ _ _ h
  rw [hstop] at hreturns
  cases hreturns

end TuxStack.Gui
