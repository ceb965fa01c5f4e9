import SceneTemplates.Document.Schema

/-!
# The format of documents

A document is a block of nodes, or a scene that holds a block under `structure`. The schema says
what each type of node requires; a node of another type has a type and a line at most.
-/
namespace SceneTemplates

namespace DocumentFormat

/-- The named parts of the schema. -/
inductive Definition where
  | line | scene | block | node | tagAttribute | tag | mixin | conditional | text
  deriving DecidableEq

/-- A text that is not empty. -/
def name : Schema Definition := .all [.kinds [.string], .nonEmpty]

def blockTypes : List Text := ["Block", "NamedBlock"]

/-- A schema for nodes of some types. -/
def ofTypes (types : List Text) (d : Definition) : Schema Definition :=
  .choose (.holdsOneOf "type" types) (.definition d) (.all [])

/-- What each name stands for. -/
def schemaOf : Definition → Schema Definition
  | .line => .all [.kinds [.integer], .atLeast 0]
  | .scene =>
    .all [
      .kinds [.object],
      .required ["structure"],
      .properties [
        ("name", name),
        ("width", .all [.kinds [.number], .above 0]),
        ("height", .all [.kinds [.number], .above 0]),
        ("fps", .all [.kinds [.integer], .atLeast 1]),
        ("structure", .definition .block)],
      .only ["name", "width", "height", "fps", "structure"]]
  | .block =>
    .all [
      .kinds [.object],
      .required ["type", "nodes"],
      .properties [
        ("type", .oneOf blockTypes),
        ("nodes", .all [.kinds [.array], .items (.definition .node)]),
        ("line", .definition .line)]]
  | .node =>
    .all [
      .kinds [.object],
      .required ["type"],
      .properties [("type", name), ("line", .definition .line)],
      ofTypes blockTypes .block,
      ofTypes ["Tag"] .tag,
      ofTypes ["Mixin"] .mixin,
      ofTypes ["Conditional"] .conditional,
      ofTypes ["Text", "Comment", "BlockComment"] .text]
  | .tagAttribute =>
    .all [
      .kinds [.object],
      .required ["name"],
      .properties [
        ("name", name),
        ("val", .kinds [.string, .number, .boolean]),
        ("line", .definition .line)]]
  | .tag =>
    .all [
      .required ["name"],
      .properties [
        ("name", name),
        ("attrs", .all [.kinds [.array], .items (.definition .tagAttribute)]),
        ("block", .definition .block)]]
  | .mixin =>
    .all [
      .required ["name"],
      .properties [
        ("name", name),
        ("call", .kinds [.boolean]),
        ("args", .kinds [.string, .null]),
        ("block", .alternatives [.kinds [.null], .definition .block])]]
  | .conditional =>
    .all [
      .required ["test", "consequent"],
      .properties [
        ("test", name),
        ("consequent", .definition .block),
        ("alternate", .alternatives [.kinds [.null], .definition .node])]]
  | .text => .properties [("val", .kinds [.string])]

def document : Schema Definition :=
  .all [
    .kinds [.object],
    .choose (.hasKey "structure") (.definition .scene) (.definition .block)]

/-- The schemas that apply inside each other before the check goes from a value to one of its
parts are fewer than this. -/
def schemasPerLevel : Nat := 12

/-- The issues of a document, in the order in which they are reported. -/
def issues (doc : Value) : List Issue :=
  Issue.sort (Schema.check schemaOf (schemasPerLevel * (doc.depth + 1)) [] document doc)

end DocumentFormat

end SceneTemplates
