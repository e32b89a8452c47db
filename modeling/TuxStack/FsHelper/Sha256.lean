import Mathlib.Data.List.GetD
import TuxStack.FsHelper.Token
import TuxStack.Lib.BlockStream
import TuxStack.Lib.Sha2

/-!
# The two streaming SHA-256

`Sha256` of `crates/tuxstack-fs-helper/src/hash.rs` and the copy of it inside `sha256_hex` of
`crates/docker-core/src/services/filesystem/volume_provider.rs`. They are written alike, each
with its own table of constants, so the functions are given over the table.

A value holds the hash of the whole blocks so far and a buffer with what is left
(`update_absorbs`), so a message can come in any pieces.
-/

namespace TuxStack.FsHelper

open Vfs Fips180

/-- `buffer[start..start + data.len()].copy_from_slice(data)`. -/
def copyInto (buffer : Bytes) (start : Nat) (data : Bytes) : Bytes :=
  buffer.take start ++ data ++ buffer.drop (start + data.length)

theorem length_copyInto {buffer : Bytes} {start : Nat} {data : Bytes}
    (h : start + data.length ≤ buffer.length) :
    (copyInto buffer start data).length = buffer.length := by
  unfold copyInto
  simp only [List.length_append, List.length_take, List.length_drop]
  omega

theorem take_copyInto (buffer : Bytes) (start : Nat) (data : Bytes)
    (h : start + data.length ≤ buffer.length) :
    (copyInto buffer start data).take (start + data.length) = buffer.take start ++ data := by
  refine List.take_left' ?_
  rw [List.length_append, List.length_take]
  omega

/-- `Sha256`; `buffer_len` is below 64 between two calls. -/
structure Sha256 where
  state : Words
  buffer : Bytes
  bufferLen : Nat
  total : Nat
  sized : buffer.length = 64
  fits : bufferLen < 64

/-! ## `compress` -/

/-- The words of `block.chunks_exact(4)`. -/
def beWords : Bytes → List Word
  | b0 :: b1 :: b2 :: b3 :: rest => BitVec.ofNat 32 (ofBigEndian [b0, b1, b2, b3]) :: beWords rest
  | _ => []

def scheduleStep (w : List Word) (i : Nat) : List Word :=
  let word := fun j => w.getD j 0
  let s0 := (word (i - 15)).rotateRight 7 ^^^ (word (i - 15)).rotateRight 18 ^^^ word (i - 15) >>> 3
  let s1 := (word (i - 2)).rotateRight 17 ^^^ (word (i - 2)).rotateRight 19 ^^^ word (i - 2) >>> 10
  w.set i (word (i - 16) + s0 + word (i - 7) + s1)

def roundStep (k w : List Word) (v : Words) (i : Nat) : Words :=
  let s1 := v.e.rotateRight 6 ^^^ v.e.rotateRight 11 ^^^ v.e.rotateRight 25
  let ch := (v.e &&& v.f) ^^^ (~~~v.e &&& v.g)
  let t1 := v.h + s1 + ch + k.getD i 0 + w.getD i 0
  let s0 := v.a.rotateRight 2 ^^^ v.a.rotateRight 13 ^^^ v.a.rotateRight 22
  let maj := (v.a &&& v.b) ^^^ (v.a &&& v.c) ^^^ (v.b &&& v.c)
  let t2 := s0 + maj
  { h := v.g, g := v.f, f := v.e, e := v.d + t1, d := v.c, c := v.b, b := v.a, a := t1 + t2 }

def compressBlock (k : List Word) (state : Words) (block : Bytes) : Words :=
  let words := beWords block
  let w := (List.range' 16 48).foldl scheduleStep (words ++ List.replicate (64 - words.length) 0)
  let v := (List.range 64).foldl (roundStep k w) state
  ⟨state.a + v.a, state.b + v.b, state.c + v.c, state.d + v.d,
    state.e + v.e, state.f + v.f, state.g + v.g, state.h + v.h⟩

namespace Sha256

variable (k : List Word)

theorem sized_copy (s : Sha256) {start : Nat} {data : Bytes} (h : start + data.length ≤ 64) :
    (copyInto s.buffer start data).length = 64 := by
  rw [length_copyInto (by rw [s.sized]; exact h), s.sized]

theorem sized_fill (s : Sha256) (data : Bytes) :
    (copyInto s.buffer s.bufferLen (data.take (min (64 - s.bufferLen) data.length))).length =
      64 := by
  refine s.sized_copy ?_
  have := s.fits
  rw [List.length_take]
  omega

theorem fits_fill (s : Sha256) {data : Bytes}
    (h : s.bufferLen + min (64 - s.bufferLen) data.length ≠ 64) :
    s.bufferLen + min (64 - s.bufferLen) data.length < 64 := by
  have := s.fits
  omega

/-- The first part of `update`: what is in the buffer is made a block, if it can be. -/
def fill (s : Sha256) (data : Bytes) : Sha256 × Bytes :=
  if s.bufferLen > 0 then
    let take := min (64 - s.bufferLen) data.length
    let buffer := copyInto s.buffer s.bufferLen (data.take take)
    if h : s.bufferLen + take = 64 then
      ({ s with
          state := compressBlock k s.state buffer
          buffer := buffer
          bufferLen := 0
          sized := s.sized_fill data
          fits := Nat.zero_lt_succ 63 },
        data.drop take)
    else
      ({ s with
          buffer := buffer
          bufferLen := s.bufferLen + take
          sized := s.sized_fill data
          fits := s.fits_fill h },
        data.drop take)
  else (s, data)

/-- The last part of `update`: what is left goes to the buffer. -/
def keep (s : Sha256) (data : Bytes) (h : data.length < 64) : Sha256 :=
  if data = [] then s
  else
    { s with
      buffer := copyInto s.buffer 0 data
      bufferLen := data.length
      sized := s.sized_copy (by rw [Nat.zero_add]; exact h.le)
      fits := h }

/-- The whole blocks of what is left, and then `keep`; the loop is `Blocks.absorb`. -/
def takeBlocks (s : Sha256) (data : Bytes) : Sha256 :=
  let blocks := Blocks.absorb (compressBlock k) 64 s.state data
  keep { s with state := blocks.1 } blocks.2 (Blocks.length_rest (Nat.zero_lt_succ 63))

def update (s : Sha256) (data : Bytes) : Sha256 :=
  let filled := fill k { s with total := (s.total + data.length) % 2 ^ 64 } data
  takeBlocks k filled.1 filled.2

/-- The loop of `finish`, for at most `rounds` rounds. -/
def padLoop : Nat → Sha256 → Option Sha256
  | rounds, s =>
    if s.bufferLen ≠ 56 then
      match rounds with
      | 0 => none
      | rounds + 1 => padLoop rounds (update k s [0])
    else some s

/-- `finish`, if its loop comes to an end in `rounds` rounds. -/
def finish (rounds : Nat) (s : Sha256) : Option Bytes :=
  let bitLen := s.total * 8 % 2 ^ 64
  (padLoop k rounds (update k s [128])).map fun s =>
    (update k s (bigEndian 8 bitLen)).state.toList.flatMap fun word => bigEndian 4 word.toNat

end Sha256

/-! ## The compression function -/

theorem getD_beWords : ∀ {m : Nat} {block : Bytes}, block.length = 4 * m → ∀ {j : Nat}, j < m →
    (beWords block).getD j 0 = blockWord block j := by
  intro m
  induction m with
  | zero =>
    intro block _ j hj
    exact absurd hj (Nat.not_lt_zero j)
  | succ m ih =>
    intro block h j hj
    match block, h with
    | b0 :: b1 :: b2 :: b3 :: rest, h =>
      cases j with
      | zero => rfl
      | succ j =>
        have hrest : rest.length = 4 * m := by
          simp only [List.length_cons] at h
          omega
        have hdrop : (b0 :: b1 :: b2 :: b3 :: rest).drop (4 * (j + 1)) = rest.drop (4 * j) :=
          rfl
        rw [beWords, List.getD_cons_succ, ih hrest (by omega)]
        unfold blockWord
        rw [hdrop]

theorem length_beWords : ∀ {m : Nat} {block : Bytes}, block.length = 4 * m →
    (beWords block).length = m := by
  intro m
  induction m with
  | zero =>
    intro block h
    rw [List.length_eq_zero_iff.mp h]
    rfl
  | succ m ih =>
    intro block h
    match block, h with
    | b0 :: b1 :: b2 :: b3 :: rest, h =>
      simp only [List.length_cons] at h
      rw [beWords, List.length_cons, ih (by omega)]

variable {block : Bytes}

theorem schedule_of_lt {t : Nat} (h : t < 16) : schedule block t = blockWord block t := by
  rw [schedule, if_pos h]

theorem schedule_of_le {t : Nat} (h : 16 ≤ t) :
    schedule block t = smallSigma1 (schedule block (t - 2)) + schedule block (t - 7) +
      smallSigma0 (schedule block (t - 15)) + schedule block (t - 16) := by
  rw [schedule, if_neg (Nat.not_lt.mpr h)]

/-- The loop over `w` writes the message schedule. -/
theorem schedule_loop {w : List Word} (hlength : w.length = 64)
    (hwords : ∀ t < 16, w.getD t 0 = schedule block t) : ∀ n ≤ 48,
      ((List.range' 16 n).foldl scheduleStep w).length = 64 ∧
      ∀ t < 16 + n, ((List.range' 16 n).foldl scheduleStep w).getD t 0 = schedule block t := by
  intro n
  induction n with
  | zero => exact fun _ => ⟨hlength, hwords⟩
  | succ n ih =>
    intro hn
    obtain ⟨hlen, hbefore⟩ := ih (by omega)
    rw [List.range'_concat, Nat.one_mul, List.foldl_append, List.foldl_cons, List.foldl_nil]
    generalize (List.range' 16 n).foldl scheduleStep w = w' at hlen hbefore
    refine ⟨by rw [scheduleStep, List.length_set, hlen], fun t ht => ?_⟩
    by_cases hlast : t = 16 + n
    · rw [hlast, schedule_of_le (by omega), ← hbefore (16 + n - 2) (by omega),
        ← hbefore (16 + n - 7) (by omega), ← hbefore (16 + n - 15) (by omega),
        ← hbefore (16 + n - 16) (by omega), scheduleStep, List.getD_eq_getElem?_getD,
        List.getElem?_set_self (by omega), Option.getD_some]
      dsimp only [smallSigma0, smallSigma1]
      ac_rfl
    · rw [scheduleStep, List.getD_eq_getElem?_getD, List.getElem?_set_ne (by omega),
        ← List.getD_eq_getElem?_getD]
      exact hbefore t (by omega)

/-- **`compress` is the compression function of the standard.** -/
theorem compressBlock_eq (state : Words) (h : block.length = 64) :
    compressBlock roundConstants state block = compress state block := by
  have h16 : block.length = 4 * 16 := h
  have hwords : (beWords block).length = 16 := length_beWords h16
  have hstart : ∀ t < 16, (beWords block ++ List.replicate (64 - 16) 0).getD t 0 =
      schedule block t := by
    intro t ht
    rw [List.getD_append _ _ _ _ (by omega), getD_beWords h16 ht, schedule_of_lt ht]
  have hlength : (beWords block ++ List.replicate (64 - 16) (0 : Word)).length = 64 := by
    rw [List.length_append, hwords, List.length_replicate]
  obtain ⟨-, hschedule⟩ := schedule_loop hlength hstart 48 (le_refl 48)
  have hrounds : (List.range 64).foldl (roundStep roundConstants ((List.range' 16 48).foldl
      scheduleStep (beWords block ++ List.replicate (64 - 16) 0))) state = rounds state block := by
    refine List.foldl_ext _ _ state fun v t ht => ?_
    rw [roundStep, hschedule t (List.mem_range.mp ht)]
    rfl
  simp only [compressBlock, hwords]
  rw [hrounds]
  rfl

/-! ## What is in a value -/

namespace Sha256

variable {k : List Word} {s : Sha256}

def pending (s : Sha256) : Bytes := s.buffer.take s.bufferLen

theorem length_pending : s.pending.length = s.bufferLen := by
  unfold pending
  rw [List.length_take, s.sized]
  exact Nat.min_eq_left s.fits.le

theorem pending_of_empty (h : s.bufferLen = 0) : s.pending = [] := by
  unfold pending
  rw [h, List.take_zero]

/-- What has been taken of the bytes of a value and of those that come. -/
def taken (k : List Word) (s : Sha256) (data : Bytes) : Words × Bytes :=
  Blocks.absorb (compressBlock k) 64 s.state (s.pending ++ data)

/-- `fill` takes bytes over, and either the buffer or what comes is empty then. -/
theorem taken_fill (s : Sha256) (data : Bytes) :
    taken k (fill k s data).1 (fill k s data).2 = taken k s data ∧
      ((fill k s data).1.bufferLen = 0 ∨ (fill k s data).2 = []) := by
  have hfits := s.fits
  unfold fill
  split
  · next hpos =>
    dsimp only
    have htake : (data.take (min (64 - s.bufferLen) data.length)).length =
        min (64 - s.bufferLen) data.length := by
      rw [List.length_take]
      omega
    have hfront : (copyInto s.buffer s.bufferLen
        (data.take (min (64 - s.bufferLen) data.length))).take
          (s.bufferLen + min (64 - s.bufferLen) data.length) =
            s.pending ++ data.take (min (64 - s.bufferLen) data.length) := by
      have hcopy := take_copyInto s.buffer s.bufferLen
        (data.take (min (64 - s.bufferLen) data.length)) (by rw [htake, s.sized]; omega)
      rwa [htake] at hcopy
    have hwhole : s.pending ++ data = (s.pending ++
        data.take (min (64 - s.bufferLen) data.length)) ++
          data.drop (min (64 - s.bufferLen) data.length) := by
      rw [List.append_assoc, List.take_append_drop]
    split
    · next hfull =>
      refine ⟨?_, .inl rfl⟩
      rw [hfull, List.take_of_length_le (s.sized_fill data).le] at hfront
      unfold taken
      rw [hwhole, ← hfront, Blocks.absorb_block (Nat.zero_lt_succ 63) (s.sized_fill data)]
      rfl
    · next hpart =>
      refine ⟨?_, .inr (List.drop_eq_nil_of_le (by omega))⟩
      unfold taken
      rw [hwhole, ← hfront]
      rfl
  · next hzero =>
    dsimp only
    exact ⟨rfl, .inl (by omega)⟩

theorem keep_eq {data : Bytes} (h : data.length < 64) (hempty : s.bufferLen = 0 ∨ data = []) :
    (keep s data h).state = s.state ∧ (keep s data h).pending = s.pending ++ data ∧
      (keep s data h).total = s.total := by
  unfold keep
  split
  · next hnil =>
    rw [hnil, List.append_nil]
    exact ⟨rfl, rfl, rfl⟩
  · next hsome =>
    refine ⟨rfl, ?_, rfl⟩
    have hfront := take_copyInto s.buffer 0 data
      (by rw [s.sized, Nat.zero_add]; exact h.le)
    rw [Nat.zero_add] at hfront
    rw [pending_of_empty (hempty.resolve_right hsome)]
    exact hfront

theorem takeBlocks_eq {data : Bytes} (hempty : s.bufferLen = 0 ∨ data = []) :
    ((takeBlocks k s data).state, (takeBlocks k s data).pending) = taken k s data ∧
      (takeBlocks k s data).total = s.total := by
  have hkeep : s.bufferLen = 0 ∨ (Blocks.absorb (compressBlock k) 64 s.state data).2 = [] := by
    refine hempty.imp_right fun hnil => ?_
    rw [hnil, Blocks.absorb_of_lt (Nat.zero_lt_succ 63)]
  obtain ⟨hstate, hpending, htotal⟩ := keep_eq
    (s := { s with state := (Blocks.absorb (compressBlock k) 64 s.state data).1 })
    (Blocks.length_rest (Nat.zero_lt_succ 63)) hkeep
  refine ⟨?_, htotal⟩
  unfold takeBlocks taken
  dsimp only
  rw [hstate, hpending]
  show (_, s.pending ++ _) = _
  rcases hempty with hempty | rfl
  · rw [pending_of_empty hempty]
    rfl
  · have hlt : (s.pending ++ ([] : Bytes)).length < 64 := by
      rw [List.append_nil, length_pending]
      exact s.fits
    rw [Blocks.absorb_of_lt hlt, Blocks.absorb_of_lt (Nat.zero_lt_succ 63)]

/-- **`update` takes the bytes** behind those that wait. -/
theorem update_absorbs (s : Sha256) (data : Bytes) :
    ((update k s data).state, (update k s data).pending) = taken k s data ∧
      (update k s data).total = (s.total + data.length) % 2 ^ 64 := by
  obtain ⟨htaken, hempty⟩ :=
    taken_fill (k := k) { s with total := (s.total + data.length) % 2 ^ 64 } data
  obtain ⟨hblocks, htotal⟩ := takeBlocks_eq (k := k) hempty
  refine ⟨hblocks.trans htaken, htotal.trans ?_⟩
  unfold fill
  split
  · dsimp only
    split <;> rfl
  · rfl

/-! ## Messages -/

/-- The value has taken a message. -/
structure Absorbed (k : List Word) (start : Words) (s : Sha256) (message : Bytes) : Prop where
  taken : (s.state, s.pending) = Blocks.absorb (compressBlock k) 64 start message
  total : s.total = message.length % 2 ^ 64

variable {message : Bytes} {start : Words}

theorem Absorbed.bufferLen (h : Absorbed k start s message) :
    s.bufferLen = message.length % 64 := by
  have hrest : (Blocks.absorb (compressBlock k) 64 start message).2.length =
      message.length % 64 :=
    Blocks.length_rest_eq (Nat.zero_lt_succ 63)
  rw [← length_pending, ← hrest, ← h.taken]

theorem Absorbed.update (h : Absorbed k start s message) (data : Bytes) :
    Absorbed k start (update k s data) (message ++ data) := by
  obtain ⟨htaken, htotal⟩ := update_absorbs (k := k) s data
  constructor
  · rw [htaken, Blocks.absorb_append (Nat.zero_lt_succ 63), ← h.taken]
    rfl
  · rw [htotal, h.total, List.length_append]
    omega

theorem Absorbed.updates (pieces : List Bytes) : ∀ {s : Sha256} {message : Bytes},
    Absorbed k start s message →
      Absorbed k start (pieces.foldl (Sha256.update k) s) (message ++ pieces.flatten) := by
  induction pieces with
  | nil =>
    intro s message h
    rw [List.flatten_nil, List.append_nil]
    exact h
  | cons piece pieces ih =>
    intro s message h
    rw [List.foldl_cons, List.flatten_cons, ← List.append_assoc]
    exact ih (h.update piece)

/-- **The loop of `finish` comes to its end**: it adds zeros up to the next 56 of 64. -/
theorem Absorbed.padLoop : ∀ {zeros rounds : Nat} {s : Sha256} {message : Bytes},
    Absorbed k start s message → zeros = (120 - message.length % 64) % 64 → zeros ≤ rounds →
      ∃ s', padLoop k rounds s = some s' ∧
        Absorbed k start s' (message ++ List.replicate zeros 0) := by
  intro zeros
  induction zeros with
  | zero =>
    intro rounds s message h hzeros _
    have hlen := h.bufferLen
    refine ⟨s, ?_, by rw [List.replicate_zero, List.append_nil]; exact h⟩
    unfold Sha256.padLoop
    rw [if_neg (by omega)]
  | succ zeros ih =>
    intro rounds s message h hzeros hrounds
    have hlen := h.bufferLen
    obtain ⟨rounds, rfl⟩ : ∃ n, rounds = n + 1 := ⟨rounds - 1, by omega⟩
    obtain ⟨s', hloop, hs'⟩ := ih (h.update [0])
      (by rw [List.length_append, List.length_singleton]; omega) (Nat.le_of_succ_le_succ hrounds)
    rw [List.append_assoc, List.singleton_append, ← List.replicate_succ] at hs'
    refine ⟨s', ?_, hs'⟩
    unfold Sha256.padLoop
    rw [if_pos (by omega)]
    exact hloop

theorem bitLen_eq (h : message.length < 2 ^ 61) :
    message.length % 2 ^ 64 * 8 % 2 ^ 64 = 8 * message.length := by
  omega

/-- **`finish` gives the digest of the standard**, if the tables are those of the standard. -/
theorem Absorbed.finish (h : Absorbed roundConstants (.ofList initialHash) s message)
    (hlength : message.length < 2 ^ 61) {rounds : Nat} (hrounds : 64 ≤ rounds) :
    finish roundConstants rounds s = some (sha256 message) := by
  have hpadded : (message ++ [128]).length = message.length + 1 := by
    rw [List.length_append, List.length_singleton]
  obtain ⟨s', hloop, hs'⟩ := (h.update [128]).padLoop rfl
    (show _ ≤ rounds by omega)
  have hzeros : (120 - (message ++ [(128 : UInt8)]).length % 64) % 64 =
      (119 - message.length % 64) % 64 := by
    omega
  have hwhole := hs'.update (bigEndian 8 (8 * message.length))
  rw [hzeros, List.append_assoc message, List.singleton_append] at hwhole
  have hstate : (Sha256.update roundConstants s' (bigEndian 8 (8 * message.length))).state =
      hashValue message := by
    have htaken := congrArg Prod.fst hwhole.taken
    change _ = (Blocks.absorb (compressBlock roundConstants) 64 _ (pad message)).1 at htaken
    rw [Blocks.absorb_blocks (Nat.zero_lt_succ 63) (length_pad message)] at htaken
    refine htaken.trans ?_
    unfold hashValue
    rw [length_pad, Nat.mul_div_cancel_left _ (Nat.zero_lt_succ 63)]
    refine List.foldl_ext _ _ _ fun hash i hi => compressBlock_eq hash ?_
    rw [List.length_take, List.length_drop, length_pad]
    have := List.mem_range.mp hi
    omega
  unfold Sha256.finish
  rw [hloop, h.total, bitLen_eq hlength, Option.map_some, hstate]
  rfl

end Sha256

/-! ## The copy of the helper -/

namespace Hash

/-- `K` of `hash.rs`. -/
def K : List Word :=
  [0x428a2f98, 0x71374491, 0xb5c0fbcf, 0xe9b5dba5, 0x3956c25b, 0x59f111f1, 0x923f82a4, 0xab1c5ed5,
    0xd807aa98, 0x12835b01, 0x243185be, 0x550c7dc3, 0x72be5d74, 0x80deb1fe, 0x9bdc06a7, 0xc19bf174,
    0xe49b69c1, 0xefbe4786, 0x0fc19dc6, 0x240ca1cc, 0x2de92c6f, 0x4a7484aa, 0x5cb0a9dc, 0x76f988da,
    0x983e5152, 0xa831c66d, 0xb00327c8, 0xbf597fc7, 0xc6e00bf3, 0xd5a79147, 0x06ca6351, 0x14292967,
    0x27b70a85, 0x2e1b2138, 0x4d2c6dfc, 0x53380d13, 0x650a7354, 0x766a0abb, 0x81c2c92e, 0x92722c85,
    0xa2bfe8a1, 0xa81a664b, 0xc24b8b70, 0xc76c51a3, 0xd192e819, 0xd6990624, 0xf40e3585, 0x106aa070,
    0x19a4c116, 0x1e376c08, 0x2748774c, 0x34b0bcb5, 0x391c0cb3, 0x4ed8aa4a, 0x5b9cca4f, 0x682e6ff3,
    0x748f82ee, 0x78a5636f, 0x84c87814, 0x8cc70208, 0x90befffa, 0xa4506ceb, 0xbef9a3f7, 0xc67178f2]

/-- `Sha256::new` of `hash.rs`. -/
def new : Sha256 where
  state :=
    ⟨0x6a09e667, 0xbb67ae85, 0x3c6ef372, 0xa54ff53a, 0x510e527f, 0x9b05688c, 0x1f83d9ab, 0x5be0cd19⟩
  buffer := List.replicate 64 0
  bufferLen := 0
  total := 0
  sized := List.length_replicate
  fits := Nat.zero_lt_succ 63

/-- `Sha256::update` of `hash.rs`. -/
def update : Sha256 → Bytes → Sha256 := Sha256.update K

/-- `Sha256::finish` of `hash.rs`. -/
def finish : Nat → Sha256 → Option Bytes := Sha256.finish K

end Hash

/-- `{byte:02x}`. -/
def formatByte (byte : UInt8) : List Char :=
  let digits := Nat.toDigits 16 byte.toNat
  List.replicate (2 - digits.length) '0' ++ digits

def hex (bytes : Bytes) : String := String.ofList (bytes.flatMap formatByte)

theorem absorbed_new {s : Sha256} (hstate : s.state = .ofList initialHash) (hlen : s.bufferLen = 0)
    (htotal : s.total = 0) : s.Absorbed roundConstants (.ofList initialHash) [] := by
  refine ⟨?_, htotal⟩
  rw [Blocks.absorb_of_lt (Nat.zero_lt_succ 63), hstate, Sha256.pending_of_empty hlen]

/-- **Pieces are hashed as their whole**, by a copy with the constants of the standard. -/
theorem finish_updates (pieces : List Bytes) {s : Sha256} (hstate : s.state = .ofList initialHash)
    (hlen : s.bufferLen = 0) (htotal : s.total = 0)
    (hlength : pieces.flatten.length < 2 ^ 61) {rounds : Nat} (hrounds : 64 ≤ rounds) :
    Sha256.finish roundConstants rounds (pieces.foldl (Sha256.update roundConstants) s) =
      some (sha256 pieces.flatten) :=
  ((absorbed_new hstate hlen htotal).updates pieces).finish hlength hrounds

theorem Hash.K_eq : Hash.K = roundConstants := by
  unfold roundConstants
  rw [primes_eq]
  decide +kernel

theorem Hash.state_new : Hash.new.state = .ofList initialHash := by
  unfold initialHash
  rw [primes_eq]
  decide +kernel

end TuxStack.FsHelper
