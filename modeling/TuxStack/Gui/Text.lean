import TuxStack.Lib.Text
import TuxStack.Vfs.Path

/-!
# Text

What the pages of the GUI do with text: `String::from_utf8_lossy` and `str::contains`.
`str::to_lowercase` follows the tables of Unicode and is a parameter of the definitions that
use it, for the tables of a page together with the texts of `PageText`.
-/

namespace TuxStack.Gui

open Vfs

/-- Texts that are not computed here: `str::to_lowercase`, which follows the tables of
Unicode, and `format_bytes`, which rounds in floating point. -/
class PageText where
  lowercase : String → String
  formatBytes : UInt64 → String

/-- `str::contains`. -/
def contains (text part : String) : Bool := part.toList <:+: text.toList

/-- A character of which some bytes have been read. -/
structure PartialChar where
  value : Nat
  expected : List (UInt8 × UInt8)

/-- The first byte of a character, and the ranges of the bytes that must follow it. -/
def firstByte (byte : UInt8) : Option PartialChar :=
  let n := byte.toNat
  let tail := (0x80, 0xBF)
  if n < 0x80 then some ⟨n, []⟩
  else if 0xC2 ≤ n ∧ n ≤ 0xDF then some ⟨n - 0xC0, [tail]⟩
  else if n = 0xE0 then some ⟨0, [(0xA0, 0xBF), tail]⟩
  else if n = 0xED then some ⟨n - 0xE0, [(0x80, 0x9F), tail]⟩
  else if 0xE1 ≤ n ∧ n ≤ 0xEF then some ⟨n - 0xE0, [tail, tail]⟩
  else if n = 0xF0 then some ⟨0, [(0x90, 0xBF), tail, tail]⟩
  else if 0xF1 ≤ n ∧ n ≤ 0xF3 then some ⟨n - 0xF0, [tail, tail, tail]⟩
  else if n = 0xF4 then some ⟨4, [(0x80, 0x8F), tail, tail]⟩
  else none

def replacement : Char := Char.ofNat 0xFFFD

/-- The characters that are complete, and the one that is not. -/
def PartialChar.emit (char : PartialChar) : List Char × Option PartialChar :=
  if char.expected = [] then ([Char.ofNat char.value], none) else ([], some char)

/-- A byte where a character begins. -/
def startChar (byte : UInt8) : List Char × Option PartialChar :=
  match firstByte byte with
  | some char => char.emit
  | none => ([replacement], none)

/-- A byte after those of `pending`. What cannot be completed is replaced as a whole, and
the byte begins the next character. -/
def nextByte (pending : Option PartialChar) (byte : UInt8) : List Char × Option PartialChar :=
  match pending with
  | none => startChar byte
  | some char =>
    match char.expected with
    | (low, high) :: rest =>
      if low ≤ byte ∧ byte ≤ high then
        (⟨char.value * 64 + (byte.toNat - 0x80), rest⟩ : PartialChar).emit
      else
        let (chars, pending) := startChar byte
        (replacement :: chars, pending)
    | [] => startChar byte

def lossyChars : Option PartialChar → Bytes → List Char
  | none, [] => []
  | some _, [] => [replacement]
  | pending, byte :: bytes =>
    let (chars, pending) := nextByte pending byte
    chars ++ lossyChars pending bytes

/-- `String::from_utf8_lossy`. -/
def fromUtf8Lossy (bytes : Bytes) : String := String.ofList (lossyChars none bytes)

example : fromUtf8Lossy [0x66, 0x80, 0x6F] = "f\uFFFDo" := by decide +kernel

end TuxStack.Gui
