import SceneTemplates.Document.FileName
import SceneTemplates.Document.Format
import SceneTemplates.Document.Json
import SceneTemplates.Scene.Basic
import SceneTemplates.Template.Reading

/-!
# Loading

A file is read, its document is checked against the format, and only then it becomes a block or a
scene template. A block without a scene around it gets the default canvas and the name of its
file.
-/
namespace SceneTemplates

/-- What is wrong with a file or its document. -/
inductive LoadIssue where
  | unreadable
  | blank
  | invalid (i : Issue)

namespace LoadIssue

def shown (path : Text) : LoadIssue → Text
  | .unreadable => "[ERROR] " ++ path ++ ": YAML parse error: the file is not a document"
  | .blank => "[ERROR] " ++ path ++ ": File is empty or contains only whitespace"
  | .invalid i => i.shown (some path)

end LoadIssue

/-- Why a document cannot be loaded. -/
inductive LoadError where
  | issues (path : Text) (found : List LoadIssue)
  /-- A fault that the format did not rule out. -/
  | fault (f : NodeFault)

namespace LoadError

/-- The number of issues that a message shows. -/
def shownIssues : Nat := 3

def message : LoadError → Text
  | .issues path found =>
    let summary := Text.joinWith "; " ((found.take shownIssues).map (·.shown path))
    let more := found.length - shownIssues
    "Invalid template document " ++ path ++ ": " ++ summary ++
      (if more = 0 then [] else " (+" ++ Text.ofNat more ++ " more)")
  | .fault (.missingKey key) => "Missing key: " ++ key
  | .fault .malformed => "Malformed node"

end LoadError

namespace Document

/-- The value in a file; a blank file has none. -/
def read (path content : Text) : Except LoadError Value :=
  match JsonFile.read? content with
  | none => .error (.issues path [.unreadable])
  | some .null => .error (.issues path [.blank])
  | some doc => .ok doc

/-- The value in a file, if it has the format of a document. -/
def load (path content : Text) : Except LoadError Value := do
  let doc ← read path content
  match DocumentFormat.issues doc with
  | [] => return doc
  | found => throw (.issues path (found.map .invalid))

/-- The notice of a loaded document. -/
def loadedNotice (path : Text) : Notice := ⟨.debug, .loading, "Loaded AST document " ++ path⟩

def field? (key : Text) (doc : Value) : Option Value :=
  match doc with
  | .mapping _ entries => Entries.get? key entries
  | _ => none

/-- The block of a document: the structure of a scene, or else the document itself. -/
def block (doc : Value) : Except NodeFault Block :=
  Block.ofValue ((field? "structure" doc).getD doc)

/-- The name of a document, or else that of its file. -/
def name (path : Text) (doc : Value) : Text :=
  match field? "name" doc with
  | some (.text t) => t
  | _ => FileName.stem path

def loadBlock (path content : Text) : Except LoadError Block := do
  let doc ← load path content
  (block doc).mapError .fault

def loadTemplate (path content : Text) : Except LoadError SceneTemplate := do
  let doc ← load path content
  let block ← (block doc).mapError .fault
  match field? "structure" doc with
  | none =>
    return .new (FileName.stem path) SceneTemplate.defaultWidth SceneTemplate.defaultHeight
      SceneTemplate.defaultFps block
  | some _ =>
    return .new (name path doc) ((field? "width" doc).getD SceneTemplate.defaultWidth)
      ((field? "height" doc).getD SceneTemplate.defaultHeight)
      ((field? "fps" doc).getD SceneTemplate.defaultFps) block

end Document

end SceneTemplates
