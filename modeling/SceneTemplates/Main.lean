import SceneTemplates.CommandLine.Report

/-!
# Main

The command line: reads the process environment and the files of a request, and prints its
report.
-/
namespace SceneTemplates.CommandLine

/-- The names of the process environment that are read. -/
def settingNames : List String :=
  ["SCENECRAFT_LOG_LEVEL", "SCENECRAFT_MAX_EXPRESSION_LENGTH", "SCENECRAFT_MAX_EXPRESSION_DEPTH",
   "SCENECRAFT_MAX_EXPRESSION_NODES", "SCENECRAFT_NULL_SAFE_MEMBER"]

/-- The values of those names that are set. -/
def currentSettings : List String → IO (Entries Text)
  | [] => return []
  | name :: rest => do
    let others ← currentSettings rest
    match ← IO.getEnv name with
    | some value => return (Text.ofString name, Text.ofString value) :: others
    | none => return others

/-- The contents of those files that can be read. -/
def contents : List Text → IO (Entries Text)
  | [] => return []
  | path :: rest => do
    let others ← contents rest
    try
      let content ← IO.FS.readFile (FileName.normal path).toString
      return (FileName.normal path, Text.ofString content) :: others
    catch _ => return others

/-- Answers the words of the command line; the result is the exit code. -/
def run (words : List String) : IO UInt32 := do
  let words := words.map Text.ofString
  let settings ← currentSettings settingNames
  let paths :=
    match Request.parse? words settings with
    | some request => request.command.files
    | none => []
  let files ← contents paths
  let report := Report.ofWords words files settings
  (← IO.getStderr).putStr report.errors.toString
  (← IO.getStdout).putStr report.output.toString
  return report.exit.toUInt32

end SceneTemplates.CommandLine

def main (words : List String) : IO UInt32 := SceneTemplates.CommandLine.run words
