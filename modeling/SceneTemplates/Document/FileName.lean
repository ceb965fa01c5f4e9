import SceneTemplates.Text.Basic

/-!
# File names

The name of a file as messages show it, and the name of a template that is called after its file.
-/
namespace SceneTemplates.FileName

/-- The parts of a text between separators. -/
def splitAt (separator : CodePoint) : Text → List Text
  | [] => [[]]
  | c :: rest =>
    if c = separator then [] :: splitAt separator rest
    else
      match splitAt separator rest with
      | part :: parts => (c :: part) :: parts
      | [] => [[c]]

/-- The components of a path; empty ones and single points say nothing. -/
def components (path : Text) : List Text :=
  (splitAt '/'.toNat path).filter fun part => part ≠ [] && part ≠ "."

/-- What stands in front of the components: nothing, two slashes if there are exactly two, and one
for any other number. -/
def root (path : Text) : Text :=
  match (path.takeWhile (· = '/'.toNat)).length with
  | 0 => []
  | 2 => "//"
  | _ => "/"

/-- The path with its root and its components alone. -/
def normal (path : Text) : Text :=
  match root path ++ Text.joinWith "/" (components path) with
  | [] => "."
  | shown => shown

/-- Whether a path can name a file: its last part is a component. -/
def namesFile (path : Text) : Bool :=
  match (splitAt '/'.toNat path).getLast? with
  | some part => part ≠ [] && part ≠ "."
  | none => false

/-- The text before the last point, if there is something on both sides of it. -/
def withoutSuffix (name : Text) : Text :=
  let suffix := (name.reverse.takeWhile (· ≠ '.'.toNat)).length
  let stem := name.take (name.length - suffix - 1)
  if suffix = 0 || stem.isEmpty || suffix = name.length then name else stem

/-- The last component of a path without its suffix. -/
def stem (path : Text) : Text := withoutSuffix ((components path).getLast?.getD [])

end SceneTemplates.FileName
