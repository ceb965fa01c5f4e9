/-!
# Text as code points

Sources, names and string values are sequences of code points. A code point is a plain
number, so that an escape may denote one half of a surrogate pair. Lengths and positions
count code points, and the order of texts is the lexicographic order of their code points.
-/
namespace SceneTemplates

/-- A code point. Surrogates are included, because an escape can write one alone. -/
abbrev CodePoint := Nat

/-- A sequence of code points. -/
abbrev Text := List CodePoint

namespace Text

def ofString (s : String) : Text := s.toList.map Char.toNat

instance : Coe String Text := ⟨ofString⟩

instance : HAppend String Text Text := ⟨fun s t => ofString s ++ t⟩

instance : HAppend Text String Text := ⟨fun t s => t ++ ofString s⟩

/-- The parts one after the other. -/
def concat (parts : List Text) : Text := parts.flatten

@[simp] theorem concat_nil : concat [] = [] := rfl

@[simp] theorem concat_cons (part : Text) (parts : List Text) :
    concat (part :: parts) = part ++ concat parts := rfl

/-- The parts with a separator between neighbours. -/
def joinWith (separator : Text) (parts : List Text) : Text :=
  (parts.intersperse separator).flatten

/-- The decimal digits of a natural number, without leading zeros. -/
def ofNat (n : Nat) : Text := (Nat.toDigits 10 n).map Char.toNat

/-- The decimal digits of an integer, after a minus sign if it is negative. -/
def ofInt : Int → Text
  | .ofNat n => ofNat n
  | .negSucc n => "-" ++ ofNat (n + 1)

/-- The lower-case hexadecimal digits of a number, padded with zeros to a width. -/
def hexadecimal (width n : Nat) : Text :=
  let digits := (Nat.toDigits 16 n).map Char.toNat
  List.replicate (width - digits.length) '0'.toNat ++ digits

/-- Lexicographic order of code points. -/
def precedes (a b : Text) : Bool := decide (a < b)

/-- Sorted by code points; equal texts keep their order. -/
def sort (texts : List Text) : List Text :=
  texts.mergeSort fun a b => !precedes b a

/-- A code point that stands alone for a character: not a surrogate. -/
def isScalar (c : CodePoint) : Bool := c < 0xD800 || (0xDFFF < c && c < 0x110000)

/-- The string with these code points. A surrogate has no place in a string and becomes the
replacement character. -/
def toString (t : Text) : String :=
  String.ofList (t.map fun c => if isScalar c then Char.ofNat c else Char.ofNat 0xFFFD)

/-- The value of an ASCII decimal digit. -/
def asciiDigit? (c : CodePoint) : Option Nat :=
  if 48 ≤ c && c ≤ 57 then some (c - 48) else none

/-- The value of an ASCII hexadecimal digit of either case. -/
def hexDigit? (c : CodePoint) : Option Nat :=
  if 48 ≤ c && c ≤ 57 then some (c - 48)
  else if 97 ≤ c && c ≤ 102 then some (c - 87)
  else if 65 ≤ c && c ≤ 70 then some (c - 55)
  else none

/-- The number that digits of a base denote, the most significant first. -/
def ofDigits (base : Nat) (digits : List Nat) : Nat :=
  digits.foldl (fun n d => base * n + d) 0

/-- ASCII letters in lower case, all else unchanged. -/
def toLowerAscii (t : Text) : Text :=
  t.map fun c => if 65 ≤ c && c ≤ 90 then c + 32 else c

/-- Inclusive ranges of code points. -/
abbrev Ranges := List (CodePoint × CodePoint)

/-- Whether some range holds the code point. -/
def Ranges.contains (ranges : Ranges) (c : CodePoint) : Bool :=
  ranges.any fun (first, last) => first ≤ c && c ≤ last

end Text

end SceneTemplates
