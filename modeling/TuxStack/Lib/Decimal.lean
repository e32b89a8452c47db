import Mathlib

/-!
# Decimal text

The decimal digits of a number as bytes, as a number is written, and what a reader finds in
them: digits only, and the number.
-/

namespace TuxStack.Decimal

/-- `to_string` of a number, as bytes. -/
def decimal (n : Nat) : List UInt8 := (Nat.toDigits 10 n).map fun c => c.toNat.toUInt8

theorem isDigit_bounds {c : Char} (h : c.isDigit = true) : 48 ≤ c.toNat ∧ c.toNat ≤ 57 := by
  simp only [Char.isDigit, Bool.and_eq_true, decide_eq_true_eq, UInt32.le_iff_toNat_le] at h
  exact h

theorem toNat_byte {c : Char} (h : c.isDigit = true) : c.toNat.toUInt8.toNat = c.toNat := by
  have hbounds := isDigit_bounds h
  show c.toNat % 256 = c.toNat
  omega

theorem isDigit_of_mem {n : Nat} {c : Char} (h : c ∈ Nat.toDigits 10 n) : c.isDigit = true :=
  Nat.isDigit_of_mem_toDigits (by decide) (by decide) h

theorem decimal_ne_nil (n : Nat) : decimal n ≠ [] :=
  fun h => Nat.toDigits_ne_nil (List.map_eq_nil_iff.mp h)

theorem mem_decimal {n : Nat} {byte : UInt8} (h : byte ∈ decimal n) :
    48 ≤ byte.toNat ∧ byte.toNat ≤ 57 := by
  obtain ⟨c, hc, rfl⟩ := List.mem_map.mp h
  rw [toNat_byte (isDigit_of_mem hc)]
  exact isDigit_bounds (isDigit_of_mem hc)

theorem foldl_bytes : ∀ {cs : List Char} (start : Nat), (∀ c ∈ cs, c.isDigit = true) →
    (cs.map fun c => c.toNat.toUInt8).foldl
      (fun value (byte : UInt8) => value * 10 + (byte.toNat - 48)) start =
      Nat.ofDigitChars 10 cs start
  | [], _, _ => rfl
  | c :: cs, start, h => by
      rw [List.map_cons, List.foldl_cons, Nat.ofDigitChars_cons,
        toNat_byte (h c List.mem_cons_self),
        foldl_bytes _ fun c' hc' => h c' (List.mem_cons_of_mem _ hc'), Nat.mul_comm]
      rfl

/-- **The number comes back.** -/
theorem foldl_decimal (n : Nat) : (decimal n).foldl
    (fun value (byte : UInt8) => value * 10 + (byte.toNat - 48)) 0 = n := by
  unfold decimal
  rw [foldl_bytes 0 fun c hc => isDigit_of_mem hc, Nat.ofDigitChars_ten_toDigits]

end TuxStack.Decimal
