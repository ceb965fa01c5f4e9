import SceneTemplates.Number.Numeral
import SceneTemplates.Text.Blank
import SceneTemplates.Text.JsonText
import SceneTemplates.Value.Basic

/-!
# JSON

Reading takes a JSON value from a file. Spaces and line breaks separate its tokens, tabs do not.
Line breaks inside a text are folded, and a key stands on one line with its colon. A blank file
holds null, and a list may also be written with each item on a line of its own behind a dash.
Writing lays a value out over lines, indented by two, in ASCII.
-/
namespace SceneTemplates.JsonFile

/-! ## Reading -/

/-- The code points that a file may hold: no controls but tabs and line breaks. -/
def permitted : Text.Ranges :=
  [(0x09, 0x0A), (0x20, 0x7E), (0x85, 0x85), (0xA0, 0xD7FF), (0xE000, 0xFFFD),
   (0x10000, 0x10FFFF)]

/-- The text with a line feed for a carriage return, be it alone or before a line feed. -/
def withLineFeeds : Text → Text
  | [] => []
  | c :: rest =>
    if c ≠ '\r'.toNat then c :: withLineFeeds rest
    else if rest.head? = some '\n'.toNat then withLineFeeds rest
    else '\n'.toNat :: withLineFeeds rest

/-- Whether a code point ends a line and counts as a line feed. -/
def isPlainBreak (c : CodePoint) : Bool := c = '\n'.toNat || c = 0x85

/-- Whether a code point ends a line. -/
def isLineBreak (c : CodePoint) : Bool := isPlainBreak c || c = 0x2028 || c = 0x2029

/-- Whether a code point separates tokens. -/
def isSeparator (c : CodePoint) : Bool := c = ' '.toNat || isLineBreak c

/-- Whether a code point is a space inside a text. -/
def isGap (c : CodePoint) : Bool := c = ' '.toNat || c = '\t'.toNat

/-- The text without the separators before it. -/
def skipBlanks (t : Text) : Text := t.dropWhile isSeparator

/-- The rest behind a word. -/
def behind? : Text → Text → Option Text
  | [], t => some t
  | _ :: _, [] => none
  | a :: word, c :: t => if a = c then behind? word t else none

/-- The body of a text up to its closing quote, and the rest behind the quote. -/
def body? : Text → Option (Text × Text)
  | [] => none
  | c :: t =>
    if c = '"'.toNat then some ([], t)
    else if c = '\\'.toNat then
      match t with
      | [] => none
      | e :: rest => (body? rest).map fun (body, after) => (c :: e :: body, after)
    else (body? t).map fun (body, after) => (c :: body, after)

/-- A line break or a space as it stands in the body of a JSON text: line feeds and tabs are
escaped. -/
def escapedSpace (c : CodePoint) : Text :=
  if isPlainBreak c then "\\n"
  else if c = '\t'.toNat then "\\t"
  else [c]

/-- What stands for line breaks in a row: a space for a single line feed; a line feed before other
breaks goes, and all others stay. -/
def foldedBreaks : List CodePoint → Text
  | [] => []
  | first :: others =>
    if !isPlainBreak first then (first :: others).flatMap escapedSpace
    else if others.isEmpty then " "
    else others.flatMap escapedSpace

/-- The body of a text with its line breaks folded, each together with the spaces around it. The
spaces and the breaks that were read just before are given. -/
def folded (spaces : Text) (breaks : List CodePoint) : Text → Text
  | [] => foldedBreaks breaks ++ spaces
  | c :: rest =>
    if isLineBreak c then folded [] (breaks ++ [c]) rest
    else if isGap c then
      if breaks.isEmpty then folded (spaces ++ escapedSpace c) [] rest else folded [] breaks rest
    else if c = '\\'.toNat then
      match rest with
      | [] => foldedBreaks breaks ++ spaces ++ [c]
      | e :: after => foldedBreaks breaks ++ spaces ++ c :: e :: folded [] [] after
    else foldedBreaks breaks ++ spaces ++ c :: folded [] [] rest

/-- Whether a line is a boundary between documents: three dashes or points alone in a word. -/
def isBoundary (line : Text) : Bool :=
  [("---" : Text), "..."].any fun mark =>
    match behind? mark line with
    | some (c :: _) => isGap c || isLineBreak c
    | _ => false

/-- Whether a boundary begins a line behind the first one. -/
def hasBoundary : Text → Bool
  | [] => false
  | c :: rest => (isLineBreak c && isBoundary rest) || hasBoundary rest

/-- The text that a body denotes. -/
def content? (body : Text) : Option Text :=
  if hasBoundary body then none else (JsonText.decode (folded [] [] body)).toOption

/-- The text behind an opening quote. -/
def text? (t : Text) : Option (Text × Text) := do
  let (body, rest) ← body? t
  return (← content? body, rest)

/-- The largest number of code points from the opening quote of a key to its colon. -/
def maxKeyLength : Nat := 1024

/-- The key behind an opening quote, and the rest behind its colon. -/
def key? (t : Text) : Option (Text × Text) := do
  let (body, after) ← body? t
  let gap := after.takeWhile (· = ' '.toNat)
  if body.any isLineBreak || maxKeyLength < body.length + 2 + gap.length then none
  else
    match content? body, after.drop gap.length with
    | some content, c :: rest => if c = ':'.toNat then some (content, rest) else none
    | _, _ => none

/-- A number: an exact integer if it has neither point nor exponent. -/
def number? (t : Text) : Option (Number × Text) := do
  let (negative, unsigned) :=
    match t with
    | c :: rest => if c = '-'.toNat then (true, rest) else (false, t)
    | [] => (false, t)
  let (numeral, rest) ← Numeral.scan? Text.asciiDigit? unsigned
  if numeral.isInteger then
    let n : Int := numeral.toNat
    return (.int (if negative then -n else n), rest)
  else return (.double (numeral.toDouble negative), rest)

/-- A word or a number. -/
def scalar? (t : Text) : Option (Value × Text) :=
  match behind? "null" t with
  | some rest => some (.null, rest)
  | none =>
    match behind? "true" t with
    | some rest => some (.bool true, rest)
    | none =>
      match behind? "false" t with
      | some rest => some (.bool false, rest)
      | none => (number? t).map fun (n, rest) => (.number n, rest)

mutual

/-- The value at the front of a text and the rest. The first argument bounds the number of steps;
each step takes at least one code point. -/
def value? : Nat → Text → Option (Value × Text)
  | 0, _ => none
  | fuel + 1, t =>
    match skipBlanks t with
    | [] => none
    | c :: rest =>
      if c = '"'.toNat then (text? rest).map fun (decoded, rest) => (.text decoded, rest)
      else if c = '['.toNat then
        match skipBlanks rest with
        | [] => none
        | d :: after =>
          if d = ']'.toNat then some (Value.newList [], after)
          else (items? fuel rest).map fun (items, rest) => (Value.newList items, rest)
      else if c = '\x7b'.toNat then
        match skipBlanks rest with
        | [] => none
        | d :: after =>
          if d = '\x7d'.toNat then some (Value.newMapping [], after)
          else
            (entries? fuel [] rest).map fun (entries, rest) => (Value.newMapping entries, rest)
      else scalar? (c :: rest)

def items? : Nat → Text → Option (List Value × Text)
  | 0, _ => none
  | fuel + 1, t => do
    let (v, rest) ← value? fuel t
    match skipBlanks rest with
    | [] => none
    | c :: rest =>
      if c = ']'.toNat then return ([v], rest)
      else if c = ','.toNat then
        let (others, rest) ← items? fuel rest
        return (v :: others, rest)
      else none

/-- Entries up to the closing brace, stored behind those already there. -/
def entries? : Nat → Entries Value → Text → Option (Entries Value × Text)
  | 0, _, _ => none
  | fuel + 1, stored, t =>
    match skipBlanks t with
    | [] => none
    | c :: rest =>
      if c ≠ '"'.toNat then none
      else do
        let (key, rest) ← key? rest
        let (v, rest) ← value? fuel rest
        let stored := Entries.put key v stored
        match skipBlanks rest with
        | [] => none
        | c :: rest =>
          if c = '\x7d'.toNat then return (stored, rest)
          else if c = ','.toNat then entries? fuel stored rest
          else none

end

def whole? (t : Text) : Option Value :=
  match value? (t.length + 1) t with
  | some (v, rest) => if (skipBlanks rest).isEmpty then some v else none
  | none => none

def lines : Text → List Text
  | [] => []
  | c :: rest =>
    if c = '\n'.toNat then [] :: lines rest
    else
      match lines rest with
      | line :: others => (c :: line) :: others
      | [] => [[c]]

/-- The item on a line behind a dash. -/
def dashItem? (line : Text) : Option Value :=
  match behind? "- " line with
  | some item => whole? item
  | none => none

/-- A list with each item on a line of its own. -/
def dashList? (t : Text) : Option Value :=
  match (lines t).filter fun line => !(skipBlanks line).isEmpty with
  | [] => none
  | rows => (rows.mapM dashItem?).map Value.newList

/-- The text of blanks that are no separators, without the separators around them. -/
def blankText? (t : Text) : Option Value :=
  if t.all fun c => isSeparator c || (Text.isSpace c && !isGap c) then
    (content? (Text.trimBy isSeparator t)).map Value.text
  else none

/-- The text of a file without the mark that may stand at its start. -/
def withoutMark : Text → Text
  | [] => []
  | c :: rest => if c = 0xFEFF then rest else c :: rest

/-- The value in a file; nothing if it cannot be read. -/
def read? (content : Text) : Option Value :=
  let content := withLineFeeds (withoutMark content)
  if !content.all permitted.contains then none
  else if (skipBlanks content).isEmpty then some .null
  else
    match whole? content with
    | some v => some v
    | none =>
      match dashList? content with
      | some v => some v
      | none => blankText? content

/-! ## Writing -/

/-- The start of a line at a depth of nesting. -/
def newLine (depth : Nat) : Text := '\n'.toNat :: List.replicate (2 * depth) ' '.toNat

/-- Parts between brackets, each on a line of its own. -/
def bracketed (opening closing : Text) (depth : Nat) (parts : List Text) : Text :=
  if parts.isEmpty then opening ++ closing
  else
    opening ++ newLine (depth + 1) ++ Text.joinWith ("," ++ newLine (depth + 1)) parts ++
      newLine depth ++ closing

mutual

/-- A value as JSON at a depth of nesting. Undefined becomes null, and a value that JSON has not
becomes the text that shows it. -/
def write (depth : Nat) : Value → Text
  | .undefined => "null"
  | .null => "null"
  | .bool b => if b then "true" else "false"
  | .number (.int n) => Text.ofInt n
  | .number (.double x) => NumberLayout.json.write x
  | .text t => JsonText.encode t
  | .list _ items => bracketed "[" "]" depth (writeItems (depth + 1) items)
  | .tuple items => bracketed "[" "]" depth (writeItems (depth + 1) items)
  | .mapping _ entries => bracketed "\x7b" "\x7d" depth (writeEntries (depth + 1) entries)
  | v => JsonText.encode v.display

def writeItems (depth : Nat) : List Value → List Text
  | [] => []
  | v :: rest => write depth v :: writeItems depth rest

def writeEntries (depth : Nat) : List (Text × Value) → List Text
  | [] => []
  | (key, v) :: rest =>
    (JsonText.encode key ++ ": " ++ write depth v) :: writeEntries depth rest

end

end SceneTemplates.JsonFile
