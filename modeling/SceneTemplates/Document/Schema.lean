import SceneTemplates.Value.Basic

/-!
# Schemas

A schema says what a value may be. It is checked keyword by keyword, in order; a keyword speaks
only of values of its own kind. Every violation is an issue with the place where it was found.
-/
namespace SceneTemplates

inductive JsonKind where
  | object | array | string | number | integer | boolean | null
  deriving DecidableEq

namespace JsonKind

def name : JsonKind → String
  | .object => "object"
  | .array => "array"
  | .string => "string"
  | .number => "number"
  | .integer => "integer"
  | .boolean => "boolean"
  | .null => "null"

/-- Whether a value is of a kind. A double without a fraction is an integer. -/
def holds (kind : JsonKind) (v : Value) : Bool :=
  match kind, v with
  | .object, .mapping _ _ => true
  | .array, .list _ _ => true
  | .string, .text _ => true
  | .number, .number _ => true
  | .integer, .number (.int _) => true
  | .integer, .number (.double x) => x.isIntegral
  | .boolean, .bool _ => true
  | .null, .null => true
  | _, _ => false

end JsonKind

/-- A test on a mapping that decides which schema applies; other values pass it. -/
inductive SchemaTest where
  | hasKey (key : Text)
  /-- The key is there and holds one of some texts. -/
  | holdsOneOf (key : Text) (texts : List Text)

namespace SchemaTest

def holds (test : SchemaTest) (v : Value) : Bool :=
  match v with
  | .mapping _ entries =>
    match test with
    | .hasKey key => Entries.has key entries
    | .holdsOneOf key texts =>
      match Entries.get? key entries with
      | some (.text t) => texts.contains t
      | _ => false
  | _ => true

end SchemaTest

/-- A schema over named definitions. -/
inductive Schema (δ : Type) where
  | definition (d : δ)
  | kinds (kinds : List JsonKind)
  | oneOf (texts : List Text)
  | nonEmpty
  | atLeast (n : Int)
  | above (n : Int)
  | required (keys : List Text)
  | properties (entries : List (Text × Schema δ))
  /-- No keys but these. -/
  | only (keys : List Text)
  | items (each : Schema δ)
  | all (parts : List (Schema δ))
  /-- At least one of the alternatives; they exclude each other where this is used. -/
  | alternatives (options : List (Schema δ))
  | choose (test : SchemaTest) (matching other : Schema δ)

/-- A step from a value to one of its parts. -/
inductive PathStep where
  | key (key : Text)
  | index (n : Nat)
  deriving DecidableEq

namespace PathStep

/-- A step by itself, for the order of issues. -/
def plain : PathStep → Text
  | .key k => k
  | .index n => Text.ofNat n

/-- A path as messages show it. -/
def shown : List PathStep → Text
  | [] => []
  | .key k :: rest => k ++ more rest
  | .index n :: rest => "[" ++ Text.ofNat n ++ "]" ++ more rest
where
  more : List PathStep → Text
    | [] => []
    | .key k :: rest => "/" ++ k ++ more rest
    | .index n :: rest => "[" ++ Text.ofNat n ++ "]" ++ more rest

end PathStep

/-- What a schema says against a value. -/
inductive Violation where
  | kinds (v : Value) (kinds : List JsonKind)
  | oneOf (v : Value) (texts : List Text)
  | empty (v : Value)
  | atLeast (v : Value) (n : Int)
  | above (v : Value) (n : Int)
  | missing (key : Text)
  | unexpected (keys : List Text)
  | alternatives (v : Value)
  /-- The value is nested more deeply than the check goes. -/
  | tooDeep

namespace Violation

def message : Violation → Text
  | .kinds v expected =>
    v.shown ++ " is not of type " ++
      Text.joinWith ", " (expected.map fun k => Text.quoted (Text.ofString k.name))
  | .oneOf v texts =>
    v.shown ++ " is not one of [" ++ Text.joinWith ", " (texts.map Text.quoted) ++ "]"
  | .empty v => v.shown ++ " should be non-empty"
  | .atLeast v n => v.shown ++ " is less than the minimum of " ++ Text.ofInt n
  | .above v n => v.shown ++ " is less than or equal to the minimum of " ++ Text.ofInt n
  | .missing key => key.quoted ++ " is a required property"
  | .unexpected keys =>
    "Additional properties are not allowed (" ++
      Text.joinWith ", " ((Text.sort keys).map Text.quoted) ++
      Text.ofString (if keys.length = 1 then " was unexpected)" else " were unexpected)")
  | .alternatives v => v.shown ++ " is not valid under any of the given schemas"
  | .tooDeep => "The document is nested too deeply"

end Violation

/-- A violation and its place. -/
structure Issue where
  path : List PathStep
  violation : Violation

namespace Value

mutual

/-- How deeply a value is nested. -/
def depth : Value → Nat
  | .list _ items => depthOfItems items + 1
  | .mapping _ entries => depthOfEntries entries + 1
  | _ => 0

def depthOfItems : List Value → Nat
  | [] => 0
  | v :: rest => max (depth v) (depthOfItems rest)

def depthOfEntries : List (Text × Value) → Nat
  | [] => 0
  | (_, v) :: rest => max (depth v) (depthOfEntries rest)

end

end Value

namespace Schema

variable {δ : Type}

/-- A number that a schema compares. -/
def number? : Value → Option Number
  | .number n => some n
  | _ => none

/-- The issues of a value at a place. The first argument bounds the number of schemas that apply
inside each other; what lies beyond it is an issue itself. -/
def check (definitions : δ → Schema δ) :
    Nat → List PathStep → Schema δ → Value → List Issue
  | 0, path, _, _ => [⟨path, .tooDeep⟩]
  | fuel + 1, path, schema, v =>
    match schema with
    | .definition d => check definitions fuel path (definitions d) v
    | .kinds expected => if expected.any (·.holds v) then [] else [⟨path, .kinds v expected⟩]
    | .oneOf texts =>
      match v with
      | .text t => if texts.contains t then [] else [⟨path, .oneOf v texts⟩]
      | _ => [⟨path, .oneOf v texts⟩]
    | .nonEmpty =>
      match v with
      | .text [] => [⟨path, .empty v⟩]
      | _ => []
    | .atLeast n =>
      match number? v with
      | some x => if x.less (.int n) then [⟨path, .atLeast v n⟩] else []
      | none => []
    | .above n =>
      match number? v with
      | some x => if x.atMost (.int n) then [⟨path, .above v n⟩] else []
      | none => []
    | .required keys =>
      match v with
      | .mapping _ entries =>
        (keys.filter fun key => !Entries.has key entries).map fun key => ⟨path, .missing key⟩
      | _ => []
    | .properties known =>
      match v with
      | .mapping _ entries =>
        known.flatMap fun (key, s) =>
          match Entries.get? key entries with
          | some w => check definitions fuel (path ++ [.key key]) s w
          | none => []
      | _ => []
    | .only keys =>
      match v with
      | .mapping _ entries =>
        let others := (Entries.keys entries).filter fun key => !keys.contains key
        if others.isEmpty then [] else [⟨path, .unexpected others⟩]
      | _ => []
    | .items each =>
      match v with
      | .list _ members =>
        members.zipIdx.flatMap fun (w, i) => check definitions fuel (path ++ [.index i]) each w
      | _ => []
    | .all parts => parts.flatMap fun part => check definitions fuel path part v
    | .alternatives options =>
      if options.any fun option => (check definitions fuel path option v).isEmpty then []
      else [⟨path, .alternatives v⟩]
    | .choose test matching other =>
      if test.holds v then check definitions fuel path matching v
      else check definitions fuel path other v

end Schema

namespace Issue

/-- The place of an issue for the order of issues: step by step, each as a text. -/
def order (i : Issue) : List Text := i.path.map PathStep.plain

/-- Issues by their places; those of one place keep their order. -/
def sort (issues : List Issue) : List Issue :=
  issues.mergeSort fun a b => decide (¬ b.order < a.order)

/-- An issue as it is reported, with the file when it is known. -/
def shown (file : Option Text) (i : Issue) : Text :=
  let place := if i.path.isEmpty then [] else " at " ++ PathStep.shown i.path
  let name :=
    match file with
    | some file => " " ++ file
    | none => []
  "[ERROR]" ++ name ++ place ++ ": " ++ i.violation.message

end Issue

end SceneTemplates
