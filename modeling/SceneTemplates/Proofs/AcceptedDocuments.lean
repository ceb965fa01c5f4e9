import Mathlib.Tactic.Common
import SceneTemplates.Document.Format

/-!
# Accepted documents

What a schema says of a value, without a bound on the number of schemas that apply inside each
other. A check that finds no issue means that the schema accepts the value, and the bound that
documents are checked with is enough: every document that the format accepts is without issues.
-/
namespace SceneTemplates

/-! ## Parts of values -/

namespace Value

variable {v : Value} {identity : Identity}

theorem depth_le_of_mem {items : List Value} (h : v ∈ items) : v.depth ≤ depthOfItems items := by
  induction items with
  | nil => cases h
  | cons first rest ih =>
    rw [depthOfItems]
    obtain rfl | h := List.mem_cons.1 h
    · exact Nat.le_max_left _ _
    · exact Nat.le_trans (ih h) (Nat.le_max_right _ _)

theorem depth_le_of_get? {key : Text} {entries : Entries Value} (h : entries.get? key = some v) :
    v.depth ≤ depthOfEntries entries := by
  induction entries with
  | nil => cases h
  | cons entry rest ih =>
    rw [Entries.get?] at h
    rw [depthOfEntries]
    split at h
    · cases h
      exact Nat.le_max_left _ _
    · exact Nat.le_trans (ih h) (Nat.le_max_right _ _)

/-- A member is nested less deeply than its list. -/
theorem depth_lt_of_mem {items : List Value} (h : v ∈ items) :
    v.depth < (list identity items).depth := Nat.lt_succ_of_le (depth_le_of_mem h)

/-- A value is nested less deeply than the mapping that holds it. -/
theorem depth_lt_of_get? {key : Text} {entries : Entries Value} (h : entries.get? key = some v) :
    v.depth < (mapping identity entries).depth := Nat.lt_succ_of_le (depth_le_of_get? h)

end Value

namespace Schema

variable {δ : Type} {definitions : δ → Schema δ} {v : Value} {path : List PathStep}

/-! ## Acceptance -/

/-- A schema accepts a value. A keyword for values of one kind accepts all others. -/
inductive Accepts (definitions : δ → Schema δ) : Schema δ → Value → Prop
  | definition {d : δ} {v : Value} (h : Accepts definitions (definitions d) v) :
      Accepts definitions (.definition d) v
  | kinds {expected : List JsonKind} {v : Value} (h : ∃ kind ∈ expected, kind.holds v = true) :
      Accepts definitions (.kinds expected) v
  | oneOf {texts : List Text} {t : Text} (h : t ∈ texts) :
      Accepts definitions (.oneOf texts) (.text t)
  | nonEmpty {v : Value} (h : v ≠ .text []) : Accepts definitions .nonEmpty v
  | atLeast {n : Int} {v : Value} (h : ∀ x, v = .number x → x.less (.int n) = false) :
      Accepts definitions (.atLeast n) v
  | above {n : Int} {v : Value} (h : ∀ x, v = .number x → x.atMost (.int n) = false) :
      Accepts definitions (.above n) v
  | required {keys : List Text} {v : Value}
      (h : ∀ id entries, v = .mapping id entries → ∀ key ∈ keys, Entries.has key entries = true) :
      Accepts definitions (.required keys) v
  | properties {known : List (Text × Schema δ)} {v : Value}
      (h : ∀ id entries, v = .mapping id entries → ∀ key s, (key, s) ∈ known →
        ∀ w, Entries.get? key entries = some w → Accepts definitions s w) :
      Accepts definitions (.properties known) v
  | only {keys : List Text} {v : Value}
      (h : ∀ id entries, v = .mapping id entries → ∀ key ∈ Entries.keys entries, key ∈ keys) :
      Accepts definitions (.only keys) v
  | items {each : Schema δ} {v : Value}
      (h : ∀ id members, v = .list id members → ∀ w ∈ members, Accepts definitions each w) :
      Accepts definitions (.items each) v
  | all {parts : List (Schema δ)} {v : Value} (h : ∀ part ∈ parts, Accepts definitions part v) :
      Accepts definitions (.all parts) v
  | alternatives {options : List (Schema δ)} {option : Schema δ} {v : Value}
      (hmem : option ∈ options) (h : Accepts definitions option v) :
      Accepts definitions (.alternatives options) v
  | choose {test : SchemaTest} {matching other : Schema δ} {v : Value}
      (hmatching : test.holds v = true → Accepts definitions matching v)
      (hother : test.holds v = false → Accepts definitions other v) :
      Accepts definitions (.choose test matching other) v

/-! ## One step of a check -/

/-- What one step of a check asks of a value. With `go`, the check goes on with another schema, at
the value itself or at a part of it. -/
def Passes (definitions : δ → Schema δ) (go : List PathStep → Schema δ → Value → Prop)
    (path : List PathStep) (v : Value) : Schema δ → Prop
  | .definition d => go path (definitions d) v
  | .kinds expected => ∃ kind ∈ expected, kind.holds v = true
  | .oneOf texts => ∃ t ∈ texts, v = .text t
  | .nonEmpty => v ≠ .text []
  | .atLeast n => ∀ x, v = .number x → x.less (.int n) = false
  | .above n => ∀ x, v = .number x → x.atMost (.int n) = false
  | .required keys =>
    ∀ id entries, v = .mapping id entries → ∀ key ∈ keys, Entries.has key entries = true
  | .properties known =>
    ∀ id entries, v = .mapping id entries → ∀ key s, (key, s) ∈ known →
      ∀ w, Entries.get? key entries = some w → go (path ++ [.key key]) s w
  | .only keys =>
    ∀ id entries, v = .mapping id entries → ∀ key ∈ Entries.keys entries, key ∈ keys
  | .items each =>
    ∀ id members, v = .list id members → ∀ w i, members[i]? = some w →
      go (path ++ [.index i]) each w
  | .all parts => ∀ part ∈ parts, go path part v
  | .alternatives options => ∃ option ∈ options, go path option v
  | .choose test matching other =>
    (test.holds v = true → go path matching v) ∧ (test.holds v = false → go path other v)

/-- A check without issues is a step without issues that goes on with checks without issues. -/
theorem check_succ {fuel : Nat} {s : Schema δ} :
    check definitions (fuel + 1) path s v = [] ↔
      Passes definitions (fun path s v => check definitions fuel path s v = []) path v s := by
  cases s with
  | oneOf texts => cases v <;> simp [check, Passes]
  | nonEmpty => rcases v with _ | _ | _ | _ | ⟨_ | _⟩ <;> simp [check, Passes]
  | atLeast n | above n => cases v <;> simp [check, Passes, number?]
  | required keys | only keys => cases v <;> simp [check, Passes]
  | properties known =>
    cases v with
    | mapping id entries =>
      simp only [check, Passes, List.flatMap_eq_nil_iff, Prod.forall, Value.mapping.injEq]
      constructor
      · rintro h _ _ ⟨rfl, rfl⟩ key s hmem w hw
        have hcheck := h key s hmem
        rwa [hw] at hcheck
      · intro h key s hmem
        cases hw : Entries.get? key entries with
        | none => rfl
        | some w => exact h id entries ⟨rfl, rfl⟩ key s hmem w hw
    | _ => simp [check, Passes]
  | items each =>
    cases v with
    | list id members =>
      simp only [check, Passes, List.flatMap_eq_nil_iff, Prod.forall,
        List.mk_mem_zipIdx_iff_getElem?, Value.list.injEq]
      constructor
      · rintro h _ _ ⟨rfl, rfl⟩
        exact h
      · exact fun h => h id members ⟨rfl, rfl⟩
    | _ => simp [check, Passes]
  | choose test matching other =>
    cases htest : test.holds v <;> simp [check, Passes, htest]
  | _ => simp [check, Passes]

/-- A value in which a check finds no issue is accepted. -/
theorem accepts_of_check {fuel : Nat} {s : Schema δ}
    (h : check definitions fuel path s v = []) : Accepts definitions s v := by
  induction fuel generalizing path s v with
  | zero => cases h
  | succ fuel ih =>
    have hstep := check_succ.1 h
    cases s with
    | definition d => exact .definition (ih hstep)
    | kinds expected => exact .kinds hstep
    | oneOf texts =>
      obtain ⟨t, ht, rfl⟩ := hstep
      exact .oneOf ht
    | nonEmpty => exact .nonEmpty hstep
    | atLeast n => exact .atLeast hstep
    | above n => exact .above hstep
    | required keys => exact .required hstep
    | properties known =>
      exact .properties fun id entries hv key s hmem w hw =>
        ih (hstep id entries hv key s hmem w hw)
    | only keys => exact .only hstep
    | items each =>
      refine .items fun id members hv w hw => ?_
      obtain ⟨i, hi⟩ := List.getElem?_of_mem hw
      exact ih (hstep id members hv w i hi)
    | all parts => exact .all fun part hpart => ih (hstep part hpart)
    | alternatives options =>
      obtain ⟨option, hmem, hcheck⟩ := hstep
      exact .alternatives hmem (ih hcheck)
    | choose test matching other =>
      obtain ⟨hmatching, hother⟩ := hstep
      exact .choose (fun htest => ih (hmatching htest)) (fun htest => ih (hother htest))

/-! ## The bound of a check -/

section

variable (bound : δ → Nat) (limit : Nat)

mutual

/-- How many schemas apply inside each other to one value at most, from a bound for the named
ones. -/
def rank : Schema δ → Nat
  | .definition d => bound d + 1
  | .all parts | .alternatives parts => rankOfAll parts + 1
  | .choose _ matching other => max (rank matching) (rank other) + 1
  | _ => 1

/-- The greatest rank of some schemas. -/
def rankOfAll : List (Schema δ) → Nat
  | [] => 0
  | s :: rest => max (rank s) (rankOfAll rest)

end

mutual

/-- Whether the schemas that a schema applies to the parts of a value have a rank within a
limit. -/
def isWithin : Schema δ → Bool
  | .properties known => arePropertiesWithin known
  | .items each => decide (rank bound each ≤ limit) && isWithin each
  | .all parts | .alternatives parts => areWithin parts
  | .choose _ matching other => isWithin matching && isWithin other
  | _ => true

def areWithin : List (Schema δ) → Bool
  | [] => true
  | s :: rest => isWithin s && areWithin rest

def arePropertiesWithin : List (Text × Schema δ) → Bool
  | [] => true
  | (_, s) :: rest => decide (rank bound s ≤ limit) && isWithin s && arePropertiesWithin rest

end

end

variable {bound : δ → Nat} {limit : Nat}

theorem rank_pos (s : Schema δ) : 0 < rank bound s := by
  cases s <;> simp [rank]

theorem rank_le_rankOfAll {s : Schema δ} {parts : List (Schema δ)} (h : s ∈ parts) :
    rank bound s ≤ rankOfAll bound parts := by
  induction parts with
  | nil => cases h
  | cons part rest ih =>
    rw [rankOfAll]
    obtain rfl | h := List.mem_cons.1 h
    · exact Nat.le_max_left _ _
    · exact Nat.le_trans (ih h) (Nat.le_max_right _ _)

theorem isWithin_of_mem {s : Schema δ} {parts : List (Schema δ)}
    (hparts : areWithin bound limit parts = true) (h : s ∈ parts) :
    isWithin bound limit s = true := by
  induction parts with
  | nil => cases h
  | cons part rest ih =>
    rw [areWithin, Bool.and_eq_true] at hparts
    obtain rfl | h := List.mem_cons.1 h
    · exact hparts.1
    · exact ih hparts.2 h

theorem isWithin_of_property {key : Text} {s : Schema δ} {known : List (Text × Schema δ)}
    (hknown : arePropertiesWithin bound limit known = true) (h : (key, s) ∈ known) :
    rank bound s ≤ limit ∧ isWithin bound limit s = true := by
  induction known with
  | nil => cases h
  | cons property rest ih =>
    obtain ⟨k, first⟩ := property
    rw [arePropertiesWithin, Bool.and_eq_true, Bool.and_eq_true, decide_eq_true_iff] at hknown
    obtain hhead | h := List.mem_cons.1 h
    · cases hhead
      exact hknown.1
    · exact ih hknown.2 h

theorem exists_fuel {s : Schema δ} {fuel depth : Nat} (h : rank bound s + depth ≤ fuel) :
    ∃ n, fuel = n + 1 :=
  Nat.exists_eq_add_of_le' (Nat.le_trans (rank_pos s) (Nat.le_of_add_right_le h))

/-- What is enough for a value is enough to go on with one of its parts. -/
theorem fuel_for_part {fuel rankOfPart depth depthOfPart : Nat} (hrank : rankOfPart ≤ limit)
    (hdepth : depthOfPart < depth) (hfuel : 1 + limit * depth ≤ fuel + 1) :
    rankOfPart + limit * depthOfPart ≤ fuel := by
  have hmul : limit * (depthOfPart + 1) ≤ limit * depth := Nat.mul_le_mul_left _ hdepth
  rw [Nat.mul_succ] at hmul
  omega

/-- A check with enough fuel finds no issue in a value that is accepted. -/
theorem check_of_accepts (hbound : ∀ d, rank bound (definitions d) ≤ bound d)
    (hlimit : ∀ d, isWithin bound limit (definitions d) = true) {s : Schema δ}
    (h : Accepts definitions s v) {fuel : Nat} (hs : isWithin bound limit s = true)
    (hfuel : rank bound s + limit * v.depth ≤ fuel) : check definitions fuel path s v = [] := by
  -- A schema that goes on at the value itself has a smaller rank; one that goes on at a part starts
  -- with any rank within the limit, which the lesser depth of the part pays for.
  obtain ⟨fuel, rfl⟩ := exists_fuel hfuel
  induction h generalizing fuel path with
  | @definition d v _ ih =>
    have hd := hbound d
    rw [rank] at hfuel
    have hfuel' : rank bound (definitions d) + limit * v.depth ≤ fuel := by omega
    obtain ⟨fuel, rfl⟩ := exists_fuel hfuel'
    exact check_succ.2 (ih (hlimit d) fuel hfuel')
  | kinds h => exact check_succ.2 h
  | oneOf h => exact check_succ.2 ⟨_, h, rfl⟩
  | nonEmpty h => exact check_succ.2 h
  | atLeast h => exact check_succ.2 h
  | above h => exact check_succ.2 h
  | required h => exact check_succ.2 h
  | properties _ ih =>
    refine check_succ.2 ?_
    rintro id entries rfl key s hmem w hw
    obtain ⟨hrank, hwithin⟩ := isWithin_of_property hs hmem
    have hfuel' := fuel_for_part hrank (Value.depth_lt_of_get? hw) hfuel
    obtain ⟨fuel, rfl⟩ := exists_fuel hfuel'
    exact ih id entries rfl key s hmem w hw hwithin fuel hfuel'
  | only h => exact check_succ.2 h
  | items _ ih =>
    refine check_succ.2 ?_
    rintro id members rfl w i hw
    rw [isWithin, Bool.and_eq_true, decide_eq_true_iff] at hs
    have hmem := List.mem_of_getElem? hw
    have hfuel' := fuel_for_part hs.1 (Value.depth_lt_of_mem hmem) hfuel
    obtain ⟨fuel, rfl⟩ := exists_fuel hfuel'
    exact ih id members rfl w hmem hs.2 fuel hfuel'
  | @all parts v _ ih =>
    refine check_succ.2 fun part hpart => ?_
    have hrank : rank bound part ≤ rankOfAll bound parts := rank_le_rankOfAll hpart
    rw [rank] at hfuel
    have hfuel' : rank bound part + limit * v.depth ≤ fuel := by omega
    obtain ⟨fuel, rfl⟩ := exists_fuel hfuel'
    exact ih part hpart (isWithin_of_mem hs hpart) fuel hfuel'
  | @alternatives options option v hmem _ ih =>
    refine check_succ.2 ⟨option, hmem, ?_⟩
    have hrank : rank bound option ≤ rankOfAll bound options := rank_le_rankOfAll hmem
    rw [rank] at hfuel
    have hfuel' : rank bound option + limit * v.depth ≤ fuel := by omega
    obtain ⟨fuel, rfl⟩ := exists_fuel hfuel'
    exact ih (isWithin_of_mem hs hmem) fuel hfuel'
  | @choose test matching other v _ _ hmatching hother =>
    rw [isWithin, Bool.and_eq_true] at hs
    rw [rank] at hfuel
    refine check_succ.2 ⟨fun htest => ?_, fun htest => ?_⟩
    · have hfuel' : rank bound matching + limit * v.depth ≤ fuel := by omega
      obtain ⟨fuel, rfl⟩ := exists_fuel hfuel'
      exact hmatching htest hs.1 fuel hfuel'
    · have hfuel' : rank bound other + limit * v.depth ≤ fuel := by omega
      obtain ⟨fuel, rfl⟩ := exists_fuel hfuel'
      exact hother htest hs.2 fuel hfuel'

end Schema

namespace DocumentFormat

open Schema (Accepts)

/-- How many schemas a named part of the format applies to one value at most: a node is checked
as a node and as one of its type. -/
def bound : Definition → Nat
  | .node => 5
  | _ => 2

theorem rank_le_bound (d : Definition) : (schemaOf d).rank bound ≤ bound d := by
  cases d <;> decide

theorem isWithin_schemaOf (d : Definition) :
    (schemaOf d).isWithin bound schemasPerLevel = true := by
  cases d <;> decide

/-- The format accepts exactly the documents without issues. -/
theorem issues_eq_nil_iff (doc : Value) : issues doc = [] ↔ Accepts schemaOf document doc := by
  have hsort : ∀ found : List Issue, Issue.sort found = [] ↔ found = [] := by
    intro found
    rw [← List.length_eq_zero_iff, Issue.sort, List.length_mergeSort, List.length_eq_zero_iff]
  rw [issues, hsort]
  constructor
  · exact Schema.accepts_of_check
  · intro h
    refine Schema.check_of_accepts rank_le_bound isWithin_schemaOf h (by decide) ?_
    have hrank : document.rank bound ≤ schemasPerLevel := by decide
    rw [Nat.mul_succ]
    omega

end DocumentFormat

end SceneTemplates
