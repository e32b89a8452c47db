import TuxStack.FsHelper.Sha256

/-!
# The digest of a layer

`sha256_hex` of `crates/docker-core/src/services/filesystem/volume_provider.rs`, which names the
layer and the configuration of an image that it builds, beside the `Sha256` of the helper. Both
give what the standard gives (`sha256_copies`), the one for a message in any pieces and the
other in hexadecimal digits.
-/

namespace TuxStack.Docker

open Vfs FsHelper Fips180

namespace VolumeProvider

/-- `K` of `sha256_hex`. -/
def K : List Word :=
  [0x428a2f98, 0x71374491, 0xb5c0fbcf, 0xe9b5dba5, 0x3956c25b, 0x59f111f1, 0x923f82a4, 0xab1c5ed5,
    0xd807aa98, 0x12835b01, 0x243185be, 0x550c7dc3, 0x72be5d74, 0x80deb1fe, 0x9bdc06a7, 0xc19bf174,
    0xe49b69c1, 0xefbe4786, 0x0fc19dc6, 0x240ca1cc, 0x2de92c6f, 0x4a7484aa, 0x5cb0a9dc, 0x76f988da,
    0x983e5152, 0xa831c66d, 0xb00327c8, 0xbf597fc7, 0xc6e00bf3, 0xd5a79147, 0x06ca6351, 0x14292967,
    0x27b70a85, 0x2e1b2138, 0x4d2c6dfc, 0x53380d13, 0x650a7354, 0x766a0abb, 0x81c2c92e, 0x92722c85,
    0xa2bfe8a1, 0xa81a664b, 0xc24b8b70, 0xc76c51a3, 0xd192e819, 0xd6990624, 0xf40e3585, 0x106aa070,
    0x19a4c116, 0x1e376c08, 0x2748774c, 0x34b0bcb5, 0x391c0cb3, 0x4ed8aa4a, 0x5b9cca4f, 0x682e6ff3,
    0x748f82ee, 0x78a5636f, 0x84c87814, 0x8cc70208, 0x90befffa, 0xa4506ceb, 0xbef9a3f7, 0xc67178f2]

theorem length_emptyBuffer : (List.replicate 64 (0 : UInt8)).length = 64 := List.length_replicate

theorem emptyBuffer_fits : 0 < 64 := Nat.zero_lt_succ 63

def new : Sha256 where
  state :=
    ⟨0x6a09e667, 0xbb67ae85, 0x3c6ef372, 0xa54ff53a, 0x510e527f, 0x9b05688c, 0x1f83d9ab, 0x5be0cd19⟩
  buffer := List.replicate 64 0
  bufferLen := 0
  total := 0
  sized := length_emptyBuffer
  fits := emptyBuffer_fits

/-- `sha256_hex`, if its loop comes to an end in `rounds` rounds. -/
def sha256Hex (rounds : Nat) (data : Bytes) : Option String :=
  (Sha256.finish K rounds (Sha256.update K new data)).map hex

theorem K_eq : K = roundConstants := by
  unfold roundConstants
  rw [primes_eq]
  decide +kernel

theorem state_new : new.state = .ofList initialHash := by
  unfold initialHash
  rw [primes_eq]
  decide +kernel

end VolumeProvider

def lowerHex (bytes : Bytes) : String :=
  String.ofList (bytes.flatMap fun byte =>
    [Nat.digitChar (byte.toNat / 16), Nat.digitChar (byte.toNat % 16)])

theorem formatByte_eq : ∀ byte : UInt8, formatByte byte =
    [Nat.digitChar (byte.toNat / 16), Nat.digitChar (byte.toNat % 16)] := by
  have hall : ∀ n < 256, formatByte n.toUInt8 =
      [Nat.digitChar (n / 16), Nat.digitChar (n % 16)] := by
    decide +kernel
  intro byte
  have hsame : byte.toNat.toUInt8 = byte := UInt8.ofNat_toNat
  have hbyte := hall byte.toNat byte.toNat_lt
  rwa [hsame] at hbyte

theorem hex_eq (bytes : Bytes) : hex bytes = lowerHex bytes := by
  unfold hex lowerHex
  rw [funext formatByte_eq]

/-- **Both copies give SHA-256**: the one of the helper of all pieces together, and `sha256_hex`
in lowercase digits. The loop of `finish` needs no more than 64 rounds. -/
theorem sha256_copies (pieces : List Bytes) (h : pieces.flatten.length < 2 ^ 61) (rounds : Nat)
    (hrounds : 64 ≤ rounds) :
    Hash.finish rounds (pieces.foldl Hash.update Hash.new) = some (sha256 pieces.flatten) ∧
      VolumeProvider.sha256Hex rounds pieces.flatten = some (lowerHex (sha256 pieces.flatten)) := by
  constructor
  · show Sha256.finish Hash.K rounds (pieces.foldl (Sha256.update Hash.K) Hash.new) = _
    rw [Hash.K_eq]
    exact finish_updates pieces Hash.state_new rfl rfl h hrounds
  · have hwhole : [pieces.flatten].flatten = pieces.flatten := List.append_nil _
    have hone := finish_updates [pieces.flatten] VolumeProvider.state_new rfl rfl
      (by rwa [hwhole]) hrounds
    rw [hwhole] at hone
    unfold VolumeProvider.sha256Hex
    rw [VolumeProvider.K_eq]
    change (Sha256.finish roundConstants rounds
      (List.foldl (Sha256.update roundConstants) VolumeProvider.new [pieces.flatten])).map hex = _
    rw [hone, Option.map_some, hex_eq]

/-- The bytes of `abc` in three pieces, one of them empty. -/
theorem abc_in_pieces : [ascii "a", [], ascii "bc"].flatten.length < 2 ^ 61 ∧
    Hash.finish 64 ([ascii "a", [], ascii "bc"].foldl Hash.update Hash.new) =
      some (sha256 [ascii "a", [], ascii "bc"].flatten) ∧
    VolumeProvider.sha256Hex 64 [ascii "a", [], ascii "bc"].flatten =
      some (lowerHex (sha256 [ascii "a", [], ascii "bc"].flatten)) :=
  ⟨by decide, sha256_copies [ascii "a", [], ascii "bc"] (by decide) 64 (le_refl 64)⟩

end TuxStack.Docker
