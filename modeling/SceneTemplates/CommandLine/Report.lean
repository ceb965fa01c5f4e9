import SceneTemplates.CommandLine.Command
import SceneTemplates.Document.Loading
import SceneTemplates.Text.Styling

/-!
# Reports

What a request answers: the exit code and the two output texts. Results go to the output; errors,
notices and traces go to the error output, in the order in which they arise. What a report echoes
of a document is unstyled; notices are kept as they are.
-/
namespace SceneTemplates

structure Report where
  exit : Nat
  output : Text
  errors : Text
  deriving DecidableEq

namespace Report

def line (t : Text) : Text := t ++ "\n"

/-- A line of output that shows text of a document. -/
def echo (t : Text) : Text := line (Text.unstyled t)

/-- The notices of a level or above, each on a line. -/
def noticeLines (level : NoticeLevel) (notices : List Notice) : Text :=
  Text.concat
    ((notices.filter fun n => level.rank ≤ n.level.rank).map fun n => line n.shown)

/-- A result behind what was noted. -/
def success (noted output : Text) : Report := ⟨0, output, noted⟩

/-- An error behind what was noted. -/
def failure (noted message : Text) : Report := ⟨1, [], noted ++ echo ("Error: " ++ message)⟩

/-- A value as lines of JSON. -/
def json (v : Value) : Text := line (JsonFile.write 0 v.exported)

/-- What a data file holds when it is no mapping. -/
def dataKind : Value → String
  | .list _ _ => "list"
  | .text _ => "str"
  | .bool _ => "bool"
  | .number (.int _) => "int"
  | .number (.double _) => "float"
  | _ => "object"

/-- The data in a file. -/
def data (path content : Text) : Except Text (Entries Value) :=
  match JsonFile.read? content with
  | none => .error ("Could not parse data file " ++ path ++ ": it is no JSON")
  | some .null => .ok []
  | some (.mapping id entries) =>
    match (Value.mapping id entries).identify 1 with
    | (.mapping _ entries, _) => .ok entries
    | _ => .ok []
  | some v =>
    .error ("Data file " ++ path ++ " must contain a mapping, got " ++
      Text.ofString (dataKind v))

/-- The data in a file that may be left out. -/
def optionalData (file : Option (Text × Text)) : Except Text (Entries Value) :=
  match file with
  | some (path, content) => data path content
  | none => .ok []

/-- The entries of the catalogue as a table. -/
def table (kind : Option EntryKind) : Text :=
  let entries := catalogue.filter fun entry => kind.all (entry.kind = ·)
  let width := (entries.map fun entry => entry.name.length).foldl max 0
  let pad (n : Nat) (t : Text) : Text := t ++ List.replicate (n - t.length) ' '.toNat
  let row (entry : CatalogueEntry) : Text :=
    line ("  " ++ pad width entry.name ++ "  " ++ pad 8 (Text.ofString entry.kind.name) ++ "  " ++
      entry.summary)
  Text.concat (entries.map row) ++ line ("\n" ++ Text.ofNat entries.length ++ " entries")

def ofExpression (expression : Text) (file : Option (Text × Text)) (strictMembers : Bool)
    (settings : Entries Text) : Report :=
  match optionalData file, SandboxOptions.ofSettings settings with
  | .error message, _ => failure [] message
  | .ok _, .error e => failure [] e.message
  | .ok data, .ok options =>
    let options :=
      if strictMembers then { options with nullSafeMember := false } else options
    match (Sandbox.ofData data options).evaluate Host.none expression () with
    | (.error e, _) =>
      failure [] ("[" ++ Text.ofString e.cause.kind.code ++ "] " ++ e.message)
    | (.ok .undefined, _) => success [] (line "undefined")
    | (.ok v, _) => success [] (json v)

def ofCompilation (path content : Text) (level : NoticeLevel) : Report :=
  match Document.loadBlock path content with
  | .error e => failure [] e.message
  | .ok block =>
    let (outcome, notices) := compileTemplate block
    let noted := noticeLines level (Document.loadedNotice path :: notices)
    match outcome with
    | .error e => failure noted e.message
    | .ok compiled => success noted (json compiled.exported)

/-- A document validated and compiled. -/
def ofValidation (path content : Text) (level : NoticeLevel) : Report :=
  match Document.read path content with
  | .error e => failure [] e.message
  | .ok doc =>
    match DocumentFormat.issues doc with
    | issue :: others =>
      let found := issue :: others
      let lines := Text.concat (found.map fun i => echo (i.shown (some path)))
      ⟨1, lines ++ line ("\n" ++ Text.ofNat found.length ++ " schema error(s) found"), []⟩
    | [] =>
      match Document.block doc with
      | .error f => failure [] (LoadError.fault f).message
      | .ok block =>
        let (outcome, notices) := compileTemplate block
        let noted := noticeLines level notices
        match outcome with
        | .error e => failure noted ("Compilation failed: " ++ e.message)
        | .ok compiled =>
          success noted
            (echo ("Compiled " ++ Text.ofNat compiled.root.children.length ++
                " top-level component(s), phases: " ++
                Text.joinWith ", " (compiled.phases.map Phase.name)) ++
              line "\nTemplate is valid.")

/-- The lines that show which expressions were evaluated. -/
def traceLines (trace : List (Text × Value)) : Text :=
  Text.concat (trace.map fun (source, v) => echo ("  " ++ source ++ " -> " ++ v.shown))

/-- A document built against data. -/
def ofRendering (path content : Text) (file : Option (Text × Text)) (trace : Bool)
    (level : NoticeLevel) (settings : Entries Text) : Report :=
  match optionalData file with
  | .error message => failure [] message
  | .ok data =>
    match Document.loadTemplate path content with
    | .error e => failure [] e.message
    | .ok template =>
      let loaded := Document.loadedNotice path
      match SandboxOptions.ofSettings settings with
      | .error e => failure (noticeLines level [loaded]) e.message
      | .ok options =>
        let build := template.build Host.none data options ()
        let noted := noticeLines level (loaded :: build.notices) ++
          (if trace then traceLines build.trace else [])
        match build.outcome with
        | .error e => failure noted e.message
        | .ok scenes => success noted (json (Value.newList (scenes.map Scene.toValue)))

/-- The answer to a command, given its files by name; nothing if one of them is missing. -/
def ofCommand? (command : Command) (level : NoticeLevel) (files : Entries Text)
    (settings : Entries Text) : Option Report :=
  let file (path : Text) : Option (Text × Text) :=
    if FileName.namesFile path then
      (files.get? (FileName.normal path)).map fun content => (FileName.normal path, content)
    else none
  let optionalFile (path : Option Text) : Option (Option (Text × Text)) :=
    match path with
    | none => some none
    | some path => (file path).map some
  match command with
  | .compile path => do
    let (path, content) ← file path
    return ofCompilation path content level
  | .validate path => do
    let (path, content) ← file path
    return ofValidation path content level
  | .render path data trace => do
    let (path, content) ← file path
    return ofRendering path content (← optionalFile data) trace level settings
  | .eval expression data strictMembers => do
    return ofExpression expression (← optionalFile data) strictMembers settings
  | .functions kind => some (success [] (table kind))

/-- The exit code for misuse. -/
def usageExit : Nat := 2

def usage : Report :=
  ⟨usageExit, [], line "Usage: scenecraft [--log-level LEVEL] COMMAND [OPTIONS] [OPERAND]"⟩

def ofWords (words : List Text) (files : Entries Text) (settings : Entries Text) : Report :=
  match Request.parse? words settings with
  | none => usage
  | some request => (ofCommand? request.command request.level files settings).getD usage

end Report

end SceneTemplates
