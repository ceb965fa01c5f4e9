import SceneTemplates.Text.Basic

/-!
# Styling sequences

A terminal takes a sequence of an escape, an opening bracket, parameters, intermediate code points
and a final one for a command about colour or position. Lines that a report echoes hold text of a
document, and so they are written without such sequences: one pass from the left, and what is left
is not read again.
-/
namespace SceneTemplates.Text

/-- The code point that opens a styling sequence. -/
def escape : CodePoint := 0x1B

/-- Whether a code point is a parameter: a digit, a separator or a mark of private use. -/
def isStylingParameter (c : CodePoint) : Bool := 0x30 ≤ c && c ≤ 0x3F

/-- Whether a code point may stand between the parameters and the end: a space or a sign. -/
def isStylingIntermediate (c : CodePoint) : Bool := 0x20 ≤ c && c ≤ 0x2F

/-- Whether a code point ends a styling sequence: a letter or a sign of the same columns. -/
def isStylingFinal (c : CodePoint) : Bool := 0x40 ≤ c && c ≤ 0x7E

/-- The length of the styling sequence at the start of a text; zero if none starts there. -/
def stylingLength : Text → Nat
  | c :: bracket :: rest =>
    if c = escape && bracket = '['.toNat then
      let parameters := rest.takeWhile isStylingParameter
      let behind := rest.drop parameters.length
      let intermediates := behind.takeWhile isStylingIntermediate
      match behind.drop intermediates.length with
      | [] => 0
      | final :: _ =>
        if isStylingFinal final then parameters.length + intermediates.length + 3 else 0
    else 0
  | _ => 0

/-- The text behind a number of code points without the styling sequences in it. -/
def unstyledBehind : Nat → Text → Text
  | _, [] => []
  | skipped + 1, _ :: rest => unstyledBehind skipped rest
  | 0, c :: rest =>
    match stylingLength (c :: rest) with
    | 0 => c :: unstyledBehind 0 rest
    | n + 1 => unstyledBehind n rest

/-- The text without the styling sequences in it. -/
def unstyled (t : Text) : Text := unstyledBehind 0 t

end SceneTemplates.Text
