import SceneTemplates.Value.Basic

/-!
# Comparison of values

Three relations are kept apart. Two values are the same object when they are one container of
the data or one function; there is only one empty tuple. They are equal when their contents agree.
They are ordered when both are numbers, texts, byte sequences, lists or tuples; other pairs have
no order.
-/
namespace SceneTemplates.Value

/-- Whether two values are one object. -/
def sameObject : Value → Value → Bool
  | .list a _, .list b _ => a.same b
  | .mapping a _, .mapping b _ => a.same b
  | .object a _, .object b _ => a.identity.same b.identity
  | @Value.tuple a x, @Value.tuple b y => a.same b || (x.isEmpty && y.isEmpty)
  | .bytes a x, .bytes b y => a.same b && decide (x = y)
  | .dynamic a _, .dynamic b _ => a.same b
  | .literal a _, .literal b _ => a.same b
  | .function f, .function g => decide (f = g)
  | _, _ => false

/-- Whether two members of sequences count as one without a look at their contents: one object,
or one datum that is no number. -/
def sameMember : Value → Value → Bool
  | .number (.double (.nan _ a)), .number (.double (.nan _ b)) => a.same b
  | a, b => a.sameObject b

mutual

/-- Equality of contents. Truth values count as zero and one, numbers by exact value, mappings
without regard to order; functions and host objects equal only themselves. -/
def equalContents : Value → Value → Bool
  | .undefined, .undefined => true
  | .null, .null => true
  | .text a, .text b => decide (a = b)
  | .list _ a, .list _ b => equalItems a b
  | .tuple a, .tuple b => equalItems a b
  | .mapping _ a, .mapping _ b => a.length == b.length && entriesWithin a b
  | .bytes _ a, .bytes _ b => decide (a = b)
  | .dynamic _ a, .dynamic _ b => decide (a = b)
  | .literal _ a, .literal _ b => sameMember a b || equalContents a b
  | a, b =>
    match a.asNumber?, b.asNumber? with
    | some x, some y => x.equals y
    | _, _ => sameObject a b

/-- Equality of sequences, member by member. -/
def equalItems : List Value → List Value → Bool
  | [], [] => true
  | a :: as, b :: bs => (sameMember a b || equalContents a b) && equalItems as bs
  | _, _ => false

/-- Whether each entry of the first mapping is in the second. -/
def entriesWithin : List (Text × Value) → List (Text × Value) → Bool
  | [], _ => true
  | (key, a) :: rest, entries =>
    match Entries.get? key entries with
    | some b => (sameMember a b || equalContents a b) && entriesWithin rest entries
    | none => false

end

mutual

/-- Whether the first value is less than the second; nothing if the two have no order. -/
def less? : Value → Value → Option Bool
  | .text a, .text b => some (Text.precedes a b)
  | .list _ a, .list _ b => lessItems? a b
  | .tuple a, .tuple b => lessItems? a b
  | .bytes _ a, .bytes _ b => some (Text.precedes (a.map UInt8.toNat) (b.map UInt8.toNat))
  | a, b =>
    match a.asNumber?, b.asNumber? with
    | some x, some y => some (x.less y)
    | _, _ => none

/-- Order of sequences: that of the first members that differ, else the shorter comes first. -/
def lessItems? : List Value → List Value → Option Bool
  | [], [] => some false
  | [], _ :: _ => some true
  | _ :: _, [] => some false
  | a :: as, b :: bs =>
    if sameMember a b || equalContents a b then lessItems? as bs else less? a b

end

end SceneTemplates.Value
