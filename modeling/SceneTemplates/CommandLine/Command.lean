import SceneTemplates.CommandLine.Words
import SceneTemplates.Functions.Catalogue
import SceneTemplates.Notice

/-!
# Commands

What can be asked for on the command line: a document is compiled, rendered or validated, an
expression is evaluated, or the global functions are listed.
-/
namespace SceneTemplates

inductive Command where
  | compile (document : Text)
  | render (document : Text) (data : Option Text) (trace : Bool)
  | validate (document : Text)
  | eval (expression : Text) (data : Option Text) (strictMembers : Bool)
  | functions (kind : Option EntryKind)
  deriving DecidableEq

/-- A command and the least level of the notices that are shown. -/
structure Request where
  command : Command
  level : NoticeLevel
  deriving DecidableEq

namespace Command

def files : Command → List Text
  | .compile document | .validate document => [document]
  | .render document data _ => document :: data.toList
  | .eval _ data _ => data.toList
  | .functions _ => []

/-- The kind of entries that an option names; nothing if there is no such kind. -/
def kindOption? (value : Option Text) : Option (Option EntryKind) :=
  match value with
  | none => some none
  | some t =>
    if t = "function" then some (some .function)
    else if t = "constant" then some (some .constant)
    else none

/-- The command that a name and the words behind it stand for. -/
def parse? (name : Text) (words : List Text) : Option Command :=
  if name = "compile" then
    match CommandWords.parse ⟨[], []⟩ false words with
    | some ⟨[document], _, _⟩ => some (.compile document)
    | _ => none
  else if name = "render" then
    match CommandWords.parse ⟨["--trace"], ["--data"]⟩ false words with
    | some ⟨[document], switches, values⟩ =>
      some (.render document (values.get? "--data") (switches.contains (Text.ofString "--trace")))
    | _ => none
  else if name = "validate" then
    match CommandWords.parse ⟨[], []⟩ false words with
    | some ⟨[document], _, _⟩ => some (.validate document)
    | _ => none
  else if name = "eval" then
    match CommandWords.parse ⟨["--strict-members"], ["--data"]⟩ false words with
    | some ⟨[expression], switches, values⟩ =>
      some (.eval expression (values.get? "--data")
        (switches.contains (Text.ofString "--strict-members")))
    | _ => none
  else if name = "functions" then
    match CommandWords.parse ⟨[], ["--kind"]⟩ false words with
    | some ⟨[], _, values⟩ => (kindOption? (values.get? "--kind")).map .functions
    | _ => none
  else none

end Command

namespace Request

/-- The name in the process environment for the level of notices. -/
def levelSetting : Text := "SCENECRAFT_LOG_LEVEL"

/-- The level of notices that a word names, in either case. -/
def level? (word : Text) : Option NoticeLevel :=
  NoticeLevel.all.find? fun level =>
    word.toLowerAscii = Text.toLowerAscii (Text.ofString level.name)

/-- The level that the option or else the process environment sets; warnings are shown by
default. -/
def chosenLevel? (option : Option Text) (settings : Entries Text) : Option NoticeLevel :=
  match option with
  | some word => level? word
  | none =>
    match settings.get? levelSetting with
    | none | some [] => some .warning
    | some word => level? word

/-- The request that the words of the command line stand for; nothing if they are misused. -/
def parse? (words : List Text) (settings : Entries Text) : Option Request :=
  match CommandWords.parse ⟨[], ["--log-level"]⟩ true words with
  | some ⟨name :: words, _, values⟩ => do
    let level ← chosenLevel? (values.get? "--log-level") settings
    let command ← Command.parse? name words
    return ⟨command, level⟩
  | _ => none

end Request

end SceneTemplates
