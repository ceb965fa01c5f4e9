import SceneTemplates.Text.Basic

/-!
# Base64

Three bytes are written as four letters, and the last group is filled with `=`.
-/
namespace SceneTemplates.Text.Base64

/-- The letter for six bits. -/
def letter (n : Nat) : CodePoint :=
  if n < 26 then 65 + n
  else if n < 52 then 97 + (n - 26)
  else if n < 62 then 48 + (n - 52)
  else if n = 62 then '+'.toNat
  else '/'.toNat

/-- The letters for a sequence of bytes. -/
def encode : List UInt8 → Text
  | a :: b :: c :: rest =>
    let n := a.toNat * 65536 + b.toNat * 256 + c.toNat
    letter (n / 262144) :: letter (n / 4096 % 64) :: letter (n / 64 % 64) :: letter (n % 64)
      :: encode rest
  | [a, b] =>
    let n := a.toNat * 256 + b.toNat
    [letter (n / 1024), letter (n / 16 % 64), letter (n * 4 % 64), '='.toNat]
  | [a] => [letter (a.toNat / 4), letter (a.toNat * 16 % 64), '='.toNat, '='.toNat]
  | [] => []

/-- The six bits of a letter. -/
def sixBits? (c : CodePoint) : Option Nat :=
  if 65 ≤ c && c ≤ 90 then some (c - 65)
  else if 97 ≤ c && c ≤ 122 then some (c - 97 + 26)
  else if 48 ≤ c && c ≤ 57 then some (c - 48 + 52)
  else if c = '+'.toNat then some 62
  else if c = '/'.toNat then some 63
  else none

/-- The bytes that letters encode, the filling left out. -/
def decodeLetters : List Nat → List UInt8
  | a :: b :: c :: d :: rest =>
    let n := ((a * 64 + b) * 64 + c) * 64 + d
    UInt8.ofNat (n / 65536) :: UInt8.ofNat (n / 256) :: UInt8.ofNat n :: decodeLetters rest
  | [a, b, c] =>
    let n := (a * 64 + b) * 64 + c
    [UInt8.ofNat (n / 1024), UInt8.ofNat (n / 4)]
  | [a, b] => [UInt8.ofNat ((a * 64 + b) / 16)]
  | _ => []

/-- The bytes of a Base64 text. -/
def decode (t : Text) : List UInt8 := decodeLetters (t.filterMap sixBits?)

end SceneTemplates.Text.Base64
