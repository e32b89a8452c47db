import Mathlib.Data.List.Basic

/-!
# Pull readers over chunked streams

A source hands out a sequence in chunks of any size, empty ones included; a
reader keeps the part of the last chunk it has not used in a buffer. The number of
received items is bounded by a budget.

`left` forgets the chunk borders: it is the buffer followed by all chunks still
to come. On a clean source (no failing chunk ahead, everything within the budget)
each reading loop is a function of `left` alone (`readExact_clean`,
`skipExact_clean`, `drain_clean`).
-/

namespace TuxStack.Chunks

structure Source (ε α : Type) where
  stream : List (Except ε (List α))
  buffer : List α
  received : Nat
  ended : Bool

/-- The budget of a reader and the errors it answers. -/
structure Policy (ε : Type) where
  budget : Nat
  overBudget : ε
  truncated : ε

variable {ε α : Type} (p : Policy ε)

namespace Source

def ofStream (stream : List (Except ε (List α))) : Source ε α := ⟨stream, [], 0, false⟩

/-- Pull until a nonempty chunk or the end of the stream. -/
def pull : List (Except ε (List α)) → Nat → Except ε (Source ε α)
  | [], received => .ok ⟨[], [], received, true⟩
  | .error e :: _, _ => .error e
  | .ok chunk :: stream, received =>
    if chunk.isEmpty then pull stream received
    else if received + chunk.length > p.budget then .error p.overBudget
    else .ok ⟨stream, chunk, received + chunk.length, false⟩

/-- Pull when there is nothing in the buffer. -/
def fill (s : Source ε α) : Except ε (Source ε α) :=
  if s.buffer.isEmpty && !s.ended then pull p s.stream s.received else .ok s

/-- Collect `n` more items behind `acc`. Every round takes at least one item, so
`n` rounds are enough. -/
def takeLoop : Nat → Nat → List α → Source ε α → Except ε (List α × Source ε α)
  | 0, _, acc, s => .ok (acc, s)
  | rounds + 1, n, acc, s =>
    if n = 0 then .ok (acc, s)
    else
      match fill p s with
      | .error e => .error e
      | .ok s =>
        if s.buffer.isEmpty then .error p.truncated
        else
          let take := min n s.buffer.length
          takeLoop rounds (n - take) (acc ++ s.buffer.take take)
            { s with buffer := s.buffer.drop take }

def readExact (n : Nat) (s : Source ε α) : Except ε (List α × Source ε α) :=
  takeLoop p n n [] s

/-- Drop `n` items. -/
def skipLoop : Nat → Nat → Source ε α → Except ε (Source ε α)
  | 0, _, s => .ok s
  | rounds + 1, n, s =>
    if n = 0 then .ok s
    else
      match fill p s with
      | .error e => .error e
      | .ok s =>
        if s.buffer.isEmpty then .error p.truncated
        else
          let take := min n s.buffer.length
          skipLoop rounds (n - take) { s with buffer := s.buffer.drop take }

def skipExact (n : Nat) (s : Source ε α) : Except ε (Source ε α) := skipLoop p n n s

/-- Read to the end; every item must pass `test`. Every round but the first
takes a chunk from the stream. -/
def drainLoop (test : α → Bool) (bad : ε) : Nat → Source ε α → Except ε (Source ε α)
  | 0, s => .ok s
  | rounds + 1, s =>
    match fill p s with
    | .error e => .error e
    | .ok s =>
      if s.buffer.isEmpty then .ok s
      else if !s.buffer.all test then .error bad
      else drainLoop test bad rounds { s with buffer := [] }

def drain (test : α → Bool) (bad : ε) (s : Source ε α) : Except ε (Source ε α) :=
  drainLoop p test bad (s.stream.length + 2) s

/-! ## What is left to read -/

def items : List (Except ε (List α)) → List α
  | [] => []
  | .error _ :: stream => items stream
  | .ok chunk :: stream => chunk ++ items stream

def left (s : Source ε α) : List α := s.buffer ++ items s.stream

/-- No failing chunk ahead, and all that is to come fits in the budget. -/
structure Clean (s : Source ε α) : Prop where
  noError : ∀ c ∈ s.stream, ∃ chunk, c = .ok chunk
  fits : s.received + (items s.stream).length ≤ p.budget
  atEnd : s.ended = true → s.stream = []

variable {p}

variable {s s' : Source ε α} {k n : Nat}

theorem Clean.withBuffer (h : Clean p s) (buffer : List α) : Clean p { s with buffer := buffer } :=
  { h with }

theorem pull_clean : ∀ {stream : List (Except ε (List α))} {received : Nat},
    (∀ c ∈ stream, ∃ chunk, c = .ok chunk) →
      received + (items stream).length ≤ p.budget →
        ∃ s, pull p stream received = .ok s ∧ Clean p s ∧ s.left = items stream ∧
          (s.buffer = [] → s.left = []) ∧
          s.stream.length + min 1 s.buffer.length ≤ stream.length
  | [], received, _, hfits =>
    ⟨⟨[], [], received, true⟩, rfl, ⟨by simp, hfits, fun _ => rfl⟩, rfl, fun _ => rfl, by simp⟩
  | .error e :: stream, _, hok, _ => by
      obtain ⟨chunk, hc⟩ := hok (.error e) (by simp)
      cases hc
  | .ok chunk :: stream, received, hok, hfits => by
      have hok' : ∀ c ∈ stream, ∃ chunk, c = .ok chunk := fun c hc => hok c (by simp [hc])
      simp only [items, List.length_append] at hfits
      unfold pull
      by_cases hempty : chunk.isEmpty
      · rw [if_pos hempty]
        obtain ⟨s, hs, hclean, hleft, hend, hlen⟩ :=
          @pull_clean stream received hok' (by omega)
        refine ⟨s, hs, hclean, ?_, hend, by simp only [List.length_cons]; omega⟩
        rw [hleft, items, List.isEmpty_iff.mp hempty, List.nil_append]
      · rw [if_neg hempty, if_neg (by omega)]
        refine ⟨_, rfl, ⟨hok', by simp only; omega, fun h => by cases h⟩, rfl, fun h => ?_, ?_⟩
        · simp only at h
          simp [h] at hempty
        · simp only [List.length_cons]
          omega

/-- Filling keeps what is left, and leaves an empty buffer only at the end. -/
theorem fill_clean (h : Clean p s) :
    ∃ s', fill p s = .ok s' ∧ Clean p s' ∧ s'.left = s.left ∧ (s'.buffer = [] → s'.left = []) ∧
      (s.buffer = [] → s'.stream.length + min 1 s'.buffer.length ≤ s.stream.length) := by
  unfold fill
  by_cases hempty : s.buffer = []
  · by_cases hend : s.ended = true
    · have hnil := h.atEnd hend
      refine ⟨s, by simp [hend], h, rfl, fun _ => ?_, fun _ => by simp [hempty]⟩
      simp [left, hempty, hnil, items]
    · obtain ⟨s', hs, hclean, hleft, hstop, hlen⟩ := pull_clean h.noError h.fits
      refine ⟨s', by simp [hempty, hend, hs], hclean, ?_, hstop, fun _ => hlen⟩
      rw [hleft, left, hempty, List.nil_append]
  · refine ⟨s, by simp [hempty], h, rfl, fun hb => absurd hb hempty, fun hb => absurd hb hempty⟩

theorem left_drop_buffer (hk : k ≤ s.buffer.length) :
    left { s with buffer := s.buffer.drop k } = s.left.drop k := by
  simp [left, List.drop_append_of_le_length hk]

theorem take_left (hk : k ≤ s.buffer.length) : s.left.take k = s.buffer.take k := by
  simp [left, List.take_append_of_le_length hk]

theorem pull_ok : ∀ {stream : List (Except ε (List α))} {received : Nat} {s : Source ε α},
    pull p stream received = .ok s → s.left = items stream
  | [], received, s, h => by
      cases h
      rfl
  | .error e :: stream, received, s, h => by cases h
  | .ok chunk :: stream, received, s, h => by
      unfold pull at h
      split at h
      · rename_i hempty
        rw [pull_ok h, items, List.isEmpty_iff.mp hempty, List.nil_append]
      · split at h
        · cases h
        · cases h
          rfl

theorem fill_ok (h : fill p s = .ok s') : s'.left = s.left := by
  unfold fill at h
  split at h
  · rename_i hpull
    simp only [Bool.and_eq_true, List.isEmpty_iff] at hpull
    rw [pull_ok h, left, hpull.1, List.nil_append]
  · cases h
    rfl

/-- A successful read took the first items of what was left, whatever is wrong
with the source further on. -/
theorem takeLoop_ok : ∀ {rounds n : Nat} {acc out : List α} {s s' : Source ε α},
    takeLoop p rounds n acc s = .ok (out, s') → n ≤ rounds →
      n ≤ s.left.length ∧ out = acc ++ s.left.take n ∧ s'.left = s.left.drop n
  | 0, n, acc, out, s, s', h, hn => by
      obtain rfl : n = 0 := by omega
      cases h
      simp
  | rounds + 1, n, acc, out, s, s', h, hn => by
      unfold takeLoop at h
      split at h
      · rename_i hzero
        cases h
        simp [hzero]
      · cases hfill : fill p s with
        | error e =>
          rw [hfill] at h
          cases h
        | ok s₁ =>
          rw [hfill] at h
          have hleft := fill_ok hfill
          dsimp only at h
          split at h
          · cases h
          · rename_i hempty
            have hpos : 0 < s₁.buffer.length := by
              cases hb : s₁.buffer with
              | nil => simp [hb] at hempty
              | cons _ _ => simp
            have hk : min n s₁.buffer.length ≤ s₁.buffer.length := Nat.min_le_right _ _
            have hlen : s₁.buffer.length ≤ s₁.left.length := by simp [left]
            obtain ⟨hle, hout, hs'⟩ := takeLoop_ok h (by omega)
            rw [left_drop_buffer hk, hleft] at hle hout hs'
            rw [hleft] at hlen
            rw [← take_left hk, hleft, List.append_assoc, ← List.take_add] at hout
            rw [List.drop_drop] at hs'
            rw [List.length_drop] at hle
            have hsum : min n s₁.buffer.length + (n - min n s₁.buffer.length) = n := by omega
            rw [hsum] at hout hs'
            exact ⟨by omega, hout, hs'⟩

theorem readExact_ok {out : List α} (h : readExact p n s = .ok (out, s')) :
    n ≤ s.left.length ∧ out = s.left.take n ∧ s'.left = s.left.drop n :=
  takeLoop_ok h (Nat.le_refl n)

/-- **Reading is a function of what is left.** -/
theorem takeLoop_clean : ∀ (rounds n : Nat) (acc : List α) (s : Source ε α), Clean p s →
    n ≤ rounds →
      (n ≤ s.left.length ∧ ∃ s', takeLoop p rounds n acc s = .ok (acc ++ s.left.take n, s') ∧
          Clean p s' ∧ s'.left = s.left.drop n) ∨
        (s.left.length < n ∧ takeLoop p rounds n acc s = .error p.truncated)
  | 0, n, acc, s, h, hn => by
      obtain rfl : n = 0 := by omega
      exact .inl ⟨Nat.zero_le _, s, by simp [takeLoop], h, by simp⟩
  | rounds + 1, n, acc, s, h, hn => by
      unfold takeLoop
      by_cases hzero : n = 0
      · subst hzero
        exact .inl ⟨Nat.zero_le _, s, by simp, h, by simp⟩
      · obtain ⟨s₁, hfill, hclean, hleft, hstop, -⟩ := fill_clean h
        rw [if_neg hzero, hfill]
        by_cases hempty : s₁.buffer = []
        · right
          simp [← hleft, hstop hempty, hempty]
          omega
        · have hpos : 0 < s₁.buffer.length := List.length_pos_of_ne_nil hempty
          have hk : min n s₁.buffer.length ≤ s₁.buffer.length := Nat.min_le_right _ _
          have hdrop := left_drop_buffer hk
          have htake := take_left hk
          have hlen : s₁.buffer.length ≤ s₁.left.length := by simp [left]
          simp only [List.isEmpty_iff, hempty, if_false]
          rcases takeLoop_clean rounds (n - min n s₁.buffer.length)
              (acc ++ s₁.buffer.take (min n s₁.buffer.length))
              { s₁ with buffer := s₁.buffer.drop (min n s₁.buffer.length) }
              (hclean.withBuffer _) (by omega) with ⟨hle, s', hs', hclean', hleft'⟩ | ⟨hlt, herr⟩
          · refine .inl ⟨?_, s', ?_, hclean', ?_⟩
            · rw [hdrop, List.length_drop] at hle
              rw [← hleft]
              omega
            · rw [hs', hdrop, ← htake, List.append_assoc, ← hleft, ← List.take_add]
              congr 4
              omega
            · rw [hleft', hdrop, List.drop_drop, ← hleft]
              congr 1
              omega
          · refine .inr ⟨?_, herr⟩
            rw [hdrop, List.length_drop] at hlt
            rw [← hleft]
            omega

theorem readExact_clean (h : Clean p s) (n : Nat) :
    (n ≤ s.left.length ∧ ∃ s', readExact p n s = .ok (s.left.take n, s') ∧
        Clean p s' ∧ s'.left = s.left.drop n) ∨
      (s.left.length < n ∧ readExact p n s = .error p.truncated) := by
  simpa [readExact] using takeLoop_clean n n [] s h (Nat.le_refl n)

theorem skipLoop_eq : ∀ (rounds n : Nat) (acc : List α) (s : Source ε α),
    skipLoop p rounds n s = (takeLoop p rounds n acc s).map Prod.snd
  | 0, _, _, _ => rfl
  | rounds + 1, n, acc, s => by
      unfold skipLoop takeLoop
      split
      · rfl
      · cases fill p s with
        | error e => rfl
        | ok s₁ =>
          simp only
          split
          · rfl
          · exact skipLoop_eq rounds _ _ _

theorem skipExact_ok (h : skipExact p n s = .ok s') :
    n ≤ s.left.length ∧ s'.left = s.left.drop n := by
  rw [skipExact, skipLoop_eq n n []] at h
  cases htake : takeLoop p n n [] s with
  | error e =>
    rw [htake] at h
    cases h
  | ok r =>
    rw [htake] at h
    cases h
    obtain ⟨hle, -, hleft⟩ := takeLoop_ok htake (Nat.le_refl n)
    exact ⟨hle, hleft⟩

theorem skipExact_clean (h : Clean p s) (n : Nat) :
    (n ≤ s.left.length ∧ ∃ s', skipExact p n s = .ok s' ∧ Clean p s' ∧
        s'.left = s.left.drop n) ∨
      (s.left.length < n ∧ skipExact p n s = .error p.truncated) := by
  unfold skipExact
  rw [skipLoop_eq n n []]
  rcases takeLoop_clean n n [] s h (Nat.le_refl n) with ⟨hle, s', hs', hclean, hleft⟩ | ⟨hlt, herr⟩
  · exact .inl ⟨hle, s', by rw [hs']; rfl, hclean, hleft⟩
  · exact .inr ⟨hlt, by rw [herr]; rfl⟩

/-! ## Skipping in parts -/

theorem skipLoop_rounds : ∀ {rounds rounds' n : Nat} (s : Source ε α), n ≤ rounds → n ≤ rounds' →
    skipLoop p rounds n s = skipLoop p rounds' n s
  | 0, rounds', n, s, h, _ => by
      obtain rfl : n = 0 := by omega
      cases rounds' <;> simp [skipLoop]
  | rounds + 1, 0, n, s, _, h => by
      obtain rfl : n = 0 := by omega
      simp [skipLoop]
  | rounds + 1, rounds' + 1, n, s, h, h' => by
      unfold skipLoop
      split
      · rfl
      · cases fill p s with
        | error e => rfl
        | ok s₁ =>
          dsimp only
          split
          · rfl
          · next hempty =>
            have hpos : 0 < s₁.buffer.length :=
              List.length_pos_of_ne_nil (by simpa using hempty)
            exact skipLoop_rounds _ (by omega) (by omega)

theorem skipExact_of_fill {s₁ : Source ε α} (hn : n ≠ 0) (hfill : fill p s = .ok s₁)
    (hbuffer : s₁.buffer ≠ []) : skipExact p n s = skipExact p (n - min n s₁.buffer.length)
      { s₁ with buffer := s₁.buffer.drop (min n s₁.buffer.length) } := by
  have hpos := List.length_pos_of_ne_nil hbuffer
  obtain ⟨m, rfl⟩ := Nat.exists_eq_succ_of_ne_zero hn
  unfold skipExact
  rw [skipLoop, if_neg hn, hfill]
  simp only [List.isEmpty_iff, hbuffer, if_false]
  exact skipLoop_rounds _ (by omega) (by omega)

theorem fill_of_buffer (h : s.buffer ≠ []) : fill p s = .ok s := by
  unfold fill
  rw [if_neg (by simp [h])]

/-- **A part of the buffer can be taken first**, the rest of the skip stays the same. -/
theorem skipExact_drop {s₁ : Source ε α} (hfill : fill p s = .ok s₁) (hpos : 0 < k) (hn : k ≤ n)
    (hbuffer : k ≤ s₁.buffer.length) :
    skipExact p n s = skipExact p (n - k) { s₁ with buffer := s₁.buffer.drop k } := by
  have hne : s₁.buffer ≠ [] := List.ne_nil_of_length_pos (by omega)
  rw [skipExact_of_fill (by omega) hfill hne]
  rcases Nat.eq_or_lt_of_le (Nat.le_min.mpr ⟨hn, hbuffer⟩) with heq | hlt
  · rw [← heq]
  · have hrest : s₁.buffer.drop k ≠ [] := by
      refine List.ne_nil_of_length_pos ?_
      rw [List.length_drop]
      omega
    have hmin : min (n - k) (s₁.buffer.length - k) = min n s₁.buffer.length - k := by omega
    have hstays : fill p { s₁ with buffer := s₁.buffer.drop k } =
        .ok { s₁ with buffer := s₁.buffer.drop k } := fill_of_buffer hrest
    rw [skipExact_of_fill (by omega) hstays hrest]
    have hrounds : n - k - (min n s₁.buffer.length - k) = n - min n s₁.buffer.length := by omega
    have hparts : k + (min n s₁.buffer.length - k) = min n s₁.buffer.length := by omega
    simp only [List.length_drop, List.drop_drop, hmin, hrounds, hparts]

theorem drainLoop_clean {test : α → Bool} {bad : ε} : ∀ (rounds : Nat) (s : Source ε α),
    Clean p s → s.stream.length + min 1 s.buffer.length < rounds →
      (s.left.all test = true ∧ ∃ s', drainLoop p test bad rounds s = .ok s' ∧ Clean p s' ∧
          s'.left = []) ∨
        (s.left.all test = false ∧ drainLoop p test bad rounds s = .error bad)
  | 0, _, _, hr => absurd hr (Nat.not_lt_zero _)
  | rounds + 1, s, h, hr => by
      obtain ⟨s₁, hfill, hclean, hleft, hstop, hlen⟩ := fill_clean h
      unfold drainLoop
      rw [hfill]
      by_cases hempty : s₁.buffer = []
      · left
        refine ⟨?_, s₁, by simp [hempty], hclean, hstop hempty⟩
        rw [← hleft, hstop hempty]
        rfl
      · have hsplit : s.left.all test = (s₁.buffer.all test && (items s₁.stream).all test) := by
          rw [← hleft, Source.left, List.all_append]
        have hsame : s.buffer ≠ [] → s₁ = s := by
          intro hb
          rw [fill, if_neg (by simp [hb])] at hfill
          cases hfill
          rfl
        have hrounds : s₁.stream.length < rounds := by
          have hpos : 0 < s₁.buffer.length := List.length_pos_of_ne_nil hempty
          by_cases hb : s.buffer = []
          · have := hlen hb
            omega
          · have hs := hsame hb
            subst hs
            omega
        cases hall : s₁.buffer.all test with
        | false => exact .inr ⟨by simp [hsplit, hall], by simp [hempty, hall]⟩
        | true =>
          simp only [List.isEmpty_iff, hempty, if_false, hall, Bool.not_true,
            Bool.false_eq_true]
          rw [hsplit, hall, Bool.true_and]
          exact drainLoop_clean rounds { s₁ with buffer := [] } (hclean.withBuffer _)
            (by simpa using hrounds)

theorem drain_clean (test : α → Bool) (bad : ε) (h : Clean p s) :
    (s.left.all test = true ∧ ∃ s', drain p test bad s = .ok s' ∧ Clean p s' ∧ s'.left = []) ∨
      (s.left.all test = false ∧ drain p test bad s = .error bad) :=
  drainLoop_clean _ s h (by omega)

end Source

end TuxStack.Chunks
