import Mathlib.Data.Nat.NthRoot.Defs
import Mathlib.Data.Nat.Prime.Basic

/-!
# SHA-256

The hash function of FIPS 180-4 over messages of whole bytes: the functions of section 4, the
padding and the blocks of section 5 and the computation of section 6.2. The constants are not
tables but what the standard makes them of, the roots of the first primes.
-/

namespace TuxStack.Fips180

abbrev Word := BitVec 32

/-! ## Functions and constants -/

def ch (x y z : Word) : Word := (x &&& y) ^^^ (~~~x &&& z)

def maj (x y z : Word) : Word := (x &&& y) ^^^ (x &&& z) ^^^ (y &&& z)

def bigSigma0 (x : Word) : Word := x.rotateRight 2 ^^^ x.rotateRight 13 ^^^ x.rotateRight 22

def bigSigma1 (x : Word) : Word := x.rotateRight 6 ^^^ x.rotateRight 11 ^^^ x.rotateRight 25

def smallSigma0 (x : Word) : Word := x.rotateRight 7 ^^^ x.rotateRight 18 ^^^ x >>> 3

def smallSigma1 (x : Word) : Word := x.rotateRight 17 ^^^ x.rotateRight 19 ^^^ x >>> 10

def primes : List Nat := (List.range 312).filter Nat.Prime

theorem prime_iff {p : Nat} (h : p < 324) :
    p.Prime ↔ 2 ≤ p ∧ ∀ d < 18, 2 ≤ d → d * d ≤ p → p % d ≠ 0 := by
  rw [Nat.prime_def_le_sqrt]
  refine and_congr_right fun _ => ?_
  constructor
  · intro hall d _ htwo hsquare hzero
    exact hall d htwo (Nat.le_sqrt.mpr hsquare) (Nat.dvd_of_mod_eq_zero hzero)
  · intro hall d htwo hroot hdvd
    have hsquare := Nat.le_sqrt.mp hroot
    have hlt : d < 18 := by
      by_contra hge
      have := Nat.mul_le_mul (Nat.le_of_not_lt hge) (Nat.le_of_not_lt hge)
      omega
    exact hall d hlt htwo hsquare (Nat.mod_eq_zero_of_dvd hdvd)

theorem primes_eq : primes =
    [2, 3, 5, 7, 11, 13, 17, 19, 23, 29, 31, 37, 41, 43, 47, 53, 59, 61, 67, 71, 73, 79, 83, 89, 97,
      101, 103, 107, 109, 113, 127, 131, 137, 139, 149, 151, 157, 163, 167, 173, 179, 181, 191,
      193, 197, 199, 211, 223, 227, 229, 233, 239, 241, 251, 257, 263, 269, 271, 277, 281, 283,
      293, 307, 311] := by
  have hfilter : primes = (List.range 312).filter fun p =>
      2 ≤ p ∧ ∀ d < 18, 2 ≤ d → d * d ≤ p → p % d ≠ 0 := by
    refine List.filter_congr fun p hp => ?_
    have := List.mem_range.mp hp
    exact decide_eq_decide.mpr (prime_iff (by omega))
  rw [hfilter]
  decide +kernel

/-- The first 32 bits of the fractional parts of the cube roots of the first 64 primes. -/
def roundConstants : List Word :=
  primes.map fun p => BitVec.ofNat 32 (Nat.nthRoot 3 (p * 2 ^ 96))

structure Words where
  a : Word
  b : Word
  c : Word
  d : Word
  e : Word
  f : Word
  g : Word
  h : Word
deriving DecidableEq

def Words.toList (w : Words) : List Word := [w.a, w.b, w.c, w.d, w.e, w.f, w.g, w.h]

/-- The first 32 bits of the fractional parts of the square roots of the first eight primes. -/
def initialHash : List Word :=
  (primes.take 8).map fun p => BitVec.ofNat 32 (Nat.nthRoot 2 (p * 2 ^ 64))

def Words.ofList (words : List Word) : Words :=
  let word := fun i => words.getD i 0
  ⟨word 0, word 1, word 2, word 3, word 4, word 5, word 6, word 7⟩

/-! ## Bytes -/

/-- A number in `count` bytes, the highest first. -/
def bigEndian : Nat → Nat → List UInt8
  | 0, _ => []
  | count + 1, n => bigEndian count (n / 256) ++ [n.toUInt8]

@[simp] theorem length_bigEndian : ∀ count n, (bigEndian count n).length = count
  | 0, _ => rfl
  | count + 1, n => by rw [bigEndian, List.length_append, length_bigEndian, List.length_singleton]

def ofBigEndian (bytes : List UInt8) : Nat := bytes.foldl (fun n byte => 256 * n + byte.toNat) 0

/-- The padded message: a one and zeros up to 448 bits of the last block, and the number of
bits of the message in 64 bits. -/
def pad (message : List UInt8) : List UInt8 :=
  message ++ 128 :: List.replicate ((119 - message.length % 64) % 64) 0 ++
    bigEndian 8 (8 * message.length)

theorem length_pad (message : List UInt8) :
    (pad message).length = 64 * ((message.length + 8) / 64 + 1) := by
  unfold pad
  rw [List.length_append, List.length_append, List.length_cons, List.length_replicate,
    length_bigEndian]
  omega

/-- Block `i` of a padded message. -/
def block (padded : List UInt8) (i : Nat) : List UInt8 := (padded.drop (64 * i)).take 64

def blockWord (block : List UInt8) (j : Nat) : Word :=
  BitVec.ofNat 32 (ofBigEndian ((block.drop (4 * j)).take 4))

/-! ## The computation -/

def schedule (block : List UInt8) (t : Nat) : Word :=
  if t < 16 then blockWord block t
  else smallSigma1 (schedule block (t - 2)) + schedule block (t - 7) +
    smallSigma0 (schedule block (t - 15)) + schedule block (t - 16)
termination_by t

/-- One of the 64 rounds, with its constant and its word of the schedule. -/
def round (v : Words) (k w : Word) : Words :=
  let t1 := v.h + bigSigma1 v.e + ch v.e v.f v.g + k + w
  let t2 := bigSigma0 v.a + maj v.a v.b v.c
  ⟨t1 + t2, v.a, v.b, v.c, v.d + t1, v.e, v.f, v.g⟩

def rounds (v : Words) (block : List UInt8) : Words :=
  (List.range 64).foldl (fun v t => round v (roundConstants.getD t 0) (schedule block t)) v

def compress (hash : Words) (block : List UInt8) : Words :=
  let v := rounds hash block
  ⟨hash.a + v.a, hash.b + v.b, hash.c + v.c, hash.d + v.d,
    hash.e + v.e, hash.f + v.f, hash.g + v.g, hash.h + v.h⟩

def hashValue (message : List UInt8) : Words :=
  (List.range ((pad message).length / 64)).foldl
    (fun hash i => compress hash (block (pad message) i)) (.ofList initialHash)

/-- The bytes of a hash value. -/
def Words.bytes (w : Words) : List UInt8 := w.toList.flatMap fun word => bigEndian 4 word.toNat

/-- **SHA-256 of a message of whole bytes.** -/
def sha256 (message : List UInt8) : List UInt8 := (hashValue message).bytes

end TuxStack.Fips180
