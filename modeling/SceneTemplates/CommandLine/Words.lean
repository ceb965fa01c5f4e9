import SceneTemplates.Value.Entries

/-!
# Words of a command

The words behind a command are options and operands. An option begins with a dash; it is a switch
or takes a value, which follows it or stands behind an equals sign. A double dash ends the
options.
-/
namespace SceneTemplates

/-- The options that a command knows. -/
structure OptionSet where
  switches : List Text
  valued : List Text

/-- The words of a command, sorted. -/
structure CommandWords where
  operands : List Text
  switches : List Text
  values : Entries Text

namespace CommandWords

def empty : CommandWords := ⟨[], [], []⟩

/-- An option name with the value behind the first equals sign. -/
def splitValue : Text → Text × Option Text
  | [] => ([], none)
  | c :: rest =>
    if c = '='.toNat then ([], some rest)
    else
      let (name, value) := splitValue rest
      (c :: name, value)

/-- Whether a word is an option: a dash and more. -/
def isOption (word : Text) : Bool := word.head? = some '-'.toNat && 1 < word.length

/-- Adds a value before the words behind it, which count if they set the option too. -/
def withValue (name value : Text) (later : CommandWords) : CommandWords :=
  if later.values.has name then later else { later with values := later.values.put name value }

/-- The words sorted; nothing if an option is unknown or its value is missing. If operands end the
options, the first one takes all words behind it along. -/
def parse (known : OptionSet) (operandsEnd : Bool) : List Text → Option CommandWords
  | [] => some empty
  | word :: rest =>
    if word = "--" then some { empty with operands := rest }
    else if isOption word then
      let (name, value?) := splitValue word
      if known.valued.contains name then
        match value? with
        | some value => (parse known operandsEnd rest).map (withValue name value)
        | none =>
          match rest with
          | value :: rest => (parse known operandsEnd rest).map (withValue name value)
          | [] => none
      else if known.switches.contains name && value?.isNone then
        (parse known operandsEnd rest).map fun later =>
          { later with switches := name :: later.switches }
      else none
    else if operandsEnd then some { empty with operands := word :: rest }
    else
      (parse known operandsEnd rest).map fun later =>
        { later with operands := word :: later.operands }

end CommandWords

end SceneTemplates
