import SceneTemplates.Number.Reading
import SceneTemplates.Text.Quoted
import SceneTemplates.Value.Entries
import SceneTemplates.Value.Function

/-!
# Values

The values of expressions: those of JSON, the undefined value, and what a host may place in its
data. What comes with the data has an identity of its own; what an expression makes is new.
-/
namespace SceneTemplates

/-- What a host object is apart from its attributes: which object, and the texts that its host
gives it. -/
structure HostObject where
  identity : Identity
  text : Text
  /-- The form that messages show. -/
  shown : Text

namespace HostObject

/-- A new object with a plain text. -/
def fresh : HostObject := ⟨.fresh, "<obj>", "<obj>"⟩

end HostObject

inductive Value where
  | undefined
  | null
  | bool (b : Bool)
  | number (n : Number)
  | text (t : Text)
  | list (identity : Identity) (items : List Value)
  /-- A fixed sequence, such as the pair that a function returns. -/
  | tuple {i : Identity} (items : List Value)
  | mapping (identity : Identity) (entries : List (Text × Value))
  | function (f : Function)
  /-- A host object with attributes that can be read. -/
  | object (handle : HostObject) (attributes : List (Text × Value))
  | bytes (identity : Identity) (content : List UInt8)
  /-- An expression that stands in the data as an object and is not evaluated. -/
  | dynamic (identity : Identity) (source : Text)
  /-- A wrapped value that stands in the data as an object. -/
  | literal (identity : Identity) (value : Value)

namespace Value

instance : Inhabited Value := ⟨.undefined⟩

def int (n : Int) : Value := .number (.int n)

def double (x : Double) : Value := .number (.double x)

/-- A list made by an expression. -/
def newList (items : List Value) : Value := .list .fresh items

/-- A tuple that a function makes. -/
def newTuple (items : List Value) : Value := .tuple (i := .fresh) items

/-- A mapping made by an expression. -/
def newMapping (entries : Entries Value) : Value := .mapping .fresh entries

/-- Null or undefined. -/
def isNullish : Value → Bool
  | .undefined => true
  | .null => true
  | _ => false

/-- Whether a value counts as true in a test: false are the nullish values, `false`, zero, not a
number and the empty text. -/
def isTruthy : Value → Bool
  | .undefined => false
  | .null => false
  | .bool b => b
  | .number n => !n.isZero && !n.isNaN
  | .text t => !t.isEmpty
  | _ => true

/-- Whether a value counts as given where it may be left out: not null, undefined, false, zero or
empty. -/
def isGiven : Value → Bool
  | .undefined => false
  | .null => false
  | .bool b => b
  | .number n => !n.isZero
  | .text t => !t.isEmpty
  | .list _ items => !items.isEmpty
  | .tuple items => !items.isEmpty
  | .mapping _ entries => !entries.isEmpty
  | .bytes _ content => !content.isEmpty
  | _ => true

/-- A value that is there: not null. -/
def nonNull? : Value → Option Value
  | .null => none
  | v => some v

/-- The text that a value is. -/
def text? : Value → Option Text
  | .text t => some t
  | _ => none

def isCallable : Value → Bool
  | .function _ => true
  | _ => false

/-- The number a value is where numbers are required exactly: a number, or a truth value as zero
or one. -/
def asNumber? : Value → Option Number
  | .bool b => some (.int (if b then 1 else 0))
  | .number n => some n
  | _ => none

/-- The kind of a value that decides how it is compared and what messages call it. -/
inductive Kind where
  | null | undefined | boolean | number | string | function | object
  deriving DecidableEq

namespace Kind

def name : Kind → String
  | .null => "null"
  | .undefined => "undefined"
  | .boolean => "boolean"
  | .number => "number"
  | .string => "string"
  | .function => "function"
  | .object => "object"

end Kind

def kind : Value → Kind
  | .null => .null
  | .undefined => .undefined
  | .bool _ => .boolean
  | .number _ => .number
  | .text _ => .string
  | .function _ => .function
  | _ => .object

/-- An integer beyond the finite doubles counts as an infinity; every other value stays. -/
def collapse : Value → Value
  | .number n => .number n.collapse
  | v => v

/-! ## The form shown in messages -/

/-- A byte inside quotes. -/
def shownByte (quote : CodePoint) (b : UInt8) : Text :=
  let c := b.toNat
  if c = '\\'.toNat || c = quote then ['\\'.toNat, c]
  else if c = '\n'.toNat then "\\n"
  else if c = '\r'.toNat then "\\r"
  else if c = '\t'.toNat then "\\t"
  else if 0x20 ≤ c && c < 0x7F then [c]
  else "\\x" ++ Text.hexadecimal 2 c

/-- Bytes between quotes after a `b`. -/
def shownBytes (content : List UInt8) : Text :=
  let quote := Text.quoteFor (content.map UInt8.toNat)
  'b'.toNat :: quote :: content.flatMap (shownByte quote) ++ [quote]

mutual

/-- A value as messages show it: texts quoted, containers with their members. -/
def shown : Value → Text
  | .undefined => "undefined"
  | .null => "None"
  | .bool b => if b then "True" else "False"
  | .number n => n.shown
  | .text t => t.quoted
  | .list _ items => "[" ++ Text.joinWith ", " (shownItems items) ++ "]"
  | .tuple items =>
    match shownItems items with
    | [item] => "(" ++ item ++ ",)"
    | parts => "(" ++ Text.joinWith ", " parts ++ ")"
  | .mapping _ entries => "\x7b" ++ Text.joinWith ", " (shownEntries entries) ++ "\x7d"
  | .function f => f.shown
  | .object handle _ => handle.shown
  | .bytes _ content => shownBytes content
  | .dynamic _ source => "Dynamic(source=" ++ source.quoted ++ ")"
  | .literal _ value => "Literal(value=" ++ shown value ++ ")"

def shownItems : List Value → List Text
  | [] => []
  | v :: rest => shown v :: shownItems rest

def shownEntries : List (Text × Value) → List Text
  | [] => []
  | (key, v) :: rest => (key.quoted ++ ": " ++ shown v) :: shownEntries rest

end

/-- A value in running text: texts and host objects by their text, all else as messages show
it. -/
def display : Value → Text
  | .text t => t
  | .object handle _ => handle.text
  | v => v.shown

/-! ## Conversion to text -/

/-- A number as text: exact digits while the magnitude of an integral value is below `10 ^ 21`,
else the shortest decimals. -/
def numberText (n : Number) : Text :=
  match n.collapse with
  | .int i =>
    if i.natAbs < Nat.pow 10 21 then Text.ofInt i
    else
      match Double.ofInt? i with
      | some x => NumberLayout.plain.write x
      | none => if i < 0 then "-Infinity" else "Infinity"
  | .double (.nan _ _) => "NaN"
  | .double (.infinity negative) => if negative then "-Infinity" else "Infinity"
  | .double x =>
    match x.toRat? with
    | some q =>
      if q.den = 1 ∧ q.num.natAbs < Nat.pow 10 21 then Text.ofInt q.num
      else NumberLayout.plain.write x
    | none => []

mutual

/-- A value as text where an expression joins texts. -/
def toText : Value → Text
  | .null => "null"
  | .undefined => "undefined"
  | .bool b => if b then "true" else "false"
  | .number n => numberText n
  | .text t => t
  | .list _ items => Text.joinWith "," (itemTexts items)
  | .tuple items => Text.joinWith "," (itemTexts items)
  | .mapping _ _ => "[object Object]"
  | .function f => f.shown
  | .object handle _ => handle.text
  | .bytes _ content => shownBytes content
  | .dynamic _ source => "Dynamic(source=" ++ source.quoted ++ ")"
  | .literal _ value => "Literal(value=" ++ shown value ++ ")"

/-- The members of a sequence as text; a nullish one is empty. -/
def itemTexts : List Value → List Text
  | [] => []
  | v :: rest => (if v.isNullish then [] else toText v) :: itemTexts rest

end

/-! ## Identities in the data -/

mutual

/-- Gives each container, and each datum that is no number, an identity of its own, counting from
a number; returns the next one. Bytes are shared if there is at most one. -/
def identify (next : Nat) : Value → Value × Nat
  | .number (.double (.nan negative _)) =>
    (.double (.nan negative (.datum next)), next + 1)
  | .list _ items =>
    let (items, after) := identifyItems (next + 1) items
    (.list (.datum next) items, after)
  | .tuple items =>
    let (items, after) := identifyItems (next + 1) items
    (.tuple (i := .datum next) items, after)
  | .mapping _ entries =>
    let (entries, after) := identifyEntries (next + 1) entries
    (.mapping (.datum next) entries, after)
  | .object handle attributes =>
    let (attributes, after) := identifyEntries (next + 1) attributes
    (.object { handle with identity := .datum next } attributes, after)
  | .function (.host _ name) => (.function (.host next name), next + 1)
  | .bytes _ content =>
    (.bytes (if content.length ≤ 1 then .shared else .datum next) content, next + 1)
  | .dynamic _ source => (.dynamic (.datum next) source, next + 1)
  | .literal _ value =>
    let (value, after) := identify (next + 1) value
    (.literal (.datum next) value, after)
  | v => (v, next)

def identifyItems (next : Nat) : List Value → List Value × Nat
  | [] => ([], next)
  | v :: rest =>
    let (v, after) := identify next v
    let (rest, after) := identifyItems after rest
    (v :: rest, after)

def identifyEntries (next : Nat) : List (Text × Value) → List (Text × Value) × Nat
  | [] => ([], next)
  | (key, v) :: rest =>
    let (v, after) := identify next v
    let (rest, after) := identifyEntries after rest
    ((key, v) :: rest, after)

end

end Value

end SceneTemplates
