import SceneTemplates.Proofs.StandingNodes

/-!
# What is asked while a tree is resolved

A resolver hands sources to its sandbox, one after the other. Each of them stands in the tree: it is
an expression, or the source of a test. If the tree is resolved, the questions are those of a walk:
the test of a mapping or a component first, what stands below it only if the test holds, and the
expressions in the order in which they stand. What is observed are the answers about expressions
that are no tests.
-/
namespace SceneTemplates

/-- What a source is evaluated for. -/
inductive Purpose where
  /-- To decide whether a mapping or a component is present. -/
  | test
  /-- To stand in the data as a value. -/
  | value

/-- A source that was handed to a sandbox, and what came back. -/
structure Question where
  purpose : Purpose
  source : Text
  answer : Except ExpressionError Value

/-- The part of a trace that a question leaves: that of an expression with a value. -/
def Question.observed? (q : Question) : Option (Text × Value) :=
  match q.purpose, q.answer with
  | .value, .ok v => some (q.source, v)
  | _, _ => none

namespace Resolver

variable {σ : Type} {host : Host σ} {r middle last : Resolver σ} {qs others : List Question}

/-- A question to the sandbox, with the resolver after it. -/
def ask (host : Host σ) (purpose : Purpose) (source : Text) (r : Resolver σ) :
    Question × Resolver σ :=
  let (answer, sandbox, state) := r.sandbox.evaluate host source r.state
  let q : Question := ⟨purpose, source, answer⟩
  (q, ⟨sandbox, state, r.trace ++ q.observed?.toList⟩)

/-- The sandbox of a resolver was asked questions, one after the other, and nothing else happened
to the resolver. -/
inductive Asked (host : Host σ) : Resolver σ → List Question → Resolver σ → Prop
  | done (r : Resolver σ) : Asked host r [] r
  | next {r last : Resolver σ} {qs : List Question} (purpose : Purpose) (source : Text)
      (h : Asked host (r.ask host purpose source).2 qs last) :
      Asked host r ((r.ask host purpose source).1 :: qs) last

theorem Asked.single (purpose : Purpose) (source : Text) :
    Asked host r [(r.ask host purpose source).1] (r.ask host purpose source).2 :=
  .next purpose source (.done _)

theorem Asked.append (h : Asked host r qs middle) (h' : Asked host middle others last) :
    Asked host r (qs ++ others) last := by
  induction h with
  | done => exact h'
  | next purpose source _ ih => exact .next purpose source (ih h')

/-- What was observed are the values of the expressions that were asked about. -/
theorem Asked.trace_eq (h : Asked host r qs last) :
    last.trace = r.trace ++ qs.filterMap Question.observed? := by
  induction h with
  | done => exact (List.append_nil _).symm
  | @next r last qs purpose source _ ih =>
    have hafter : (r.ask host purpose source).2.trace =
        r.trace ++ (r.ask host purpose source).1.observed?.toList := rfl
    rw [ih, hafter, List.append_assoc]
    congr 1
    cases h : (r.ask host purpose source).1.observed? <;> simp [h]

end Resolver

namespace Tree

/-- Whether a test holds that has no source. -/
def isTrue : Tree → Bool
  | .scalar (.literal _ v) => v.isTruthy
  | .scalar v => v.isTruthy
  | .literal content => content.toValue.isTruthy
  | _ => true

/-- The question of a test, if it has a source, and whether the test holds. -/
inductive Tested : Option Tree → List Question → Bool → Prop
  | missing : Tested none [] true
  | known {test : Tree} (h : test.source? = none) : Tested (some test) [] test.isTrue
  | asked {test : Tree} {source : Text} (v : Value) (h : test.source? = some source) :
      Tested (some test) [⟨.test, source, .ok v⟩] v.isTruthy

mutual

/-- The questions of a walk through a tree. An expression is asked about. For any other node the
test comes first; if it does not hold, nothing below the node is asked about. -/
inductive Walked : Tree → List Question → Prop
  | dynamic (source : Text) (v : Value) :
      Walked (.dynamic source) [⟨.value, source, .ok v⟩]
  | pruned {t : Tree} {tests : List Question} (h : Tested t.test? tests false) : Walked t tests
  | present {t : Tree} {tests below : List Question} (hnode : ∀ source, t ≠ .dynamic source)
      (h : Tested t.test? tests true) (hbelow : WalkedAll t.members below) :
      Walked t (tests ++ below)

inductive WalkedAll : List Tree → List Question → Prop
  | nil : WalkedAll [] []
  | cons {t : Tree} {rest : List Tree} {qs others : List Question} (h : Walked t qs)
      (hrest : WalkedAll rest others) : WalkedAll (t :: rest) (qs ++ others)

end

theorem WalkedAll.append {first second : List Tree} {qs others : List Question}
    (h : WalkedAll first qs) (h' : WalkedAll second others) :
    WalkedAll (first ++ second) (qs ++ others) := by
  induction first generalizing qs with
  | nil =>
    cases h
    exact h'
  | cons t rest ih =>
    obtain _ | @⟨_, _, head, tail, hhead, htail⟩ := h
    rw [List.append_assoc]
    exact .cons hhead (ih htail)

/-- A walk through a node without a test. -/
theorem Walked.ofMembers {t : Tree} {qs : List Question} (hnode : ∀ source, t ≠ .dynamic source)
    (htest : t.test? = none) (h : WalkedAll t.members qs) : Walked t qs := by
  have htested : Tested t.test? [] true := by
    rw [htest]
    exact .missing
  exact .present hnode htested h

/-- A question is about what stands in a tree: about an expression, or about the source of a
test. -/
def Poses (t : Tree) (q : Question) : Prop :=
  ∃ node : Tree, node.StandsIn t ∧
    match q.purpose with
    | .value => node = .dynamic q.source
    | .test => ∃ test, node.test? = some test ∧ test.source? = some q.source

theorem Poses.under {t member : Tree} {q : Question} (hmember : member ∈ t.members)
    (h : member.Poses q) : t.Poses q := by
  obtain ⟨node, hnode, hsource⟩ := h
  exact ⟨node, .under hmember hnode, hsource⟩

end Tree

/-! ## Steps by their questions -/

namespace Resolution

open SceneTemplates.Tree (Tested Walked WalkedAll)
open Resolver (Asked)

variable {σ α β : Type} {host : Host σ} {P Q : Question → Prop}

/-- A step does nothing to a resolver but ask questions with a property, and with its result they
are in a relation. -/
def Asks (host : Host σ) (P : Question → Prop) (W : α → List Question → Prop)
    (m : Resolution σ α) : Prop :=
  ∀ r : Resolver σ, ∃ qs, Asked host r qs (m.run.run r).2 ∧ (∀ q ∈ qs, P q) ∧
    ∀ a, (m.run.run r).1 = .ok a → W a qs

namespace Asks

variable {W : α → List Question → Prop} {W' : β → List Question → Prop} {m : Resolution σ α}
  {f : α → Resolution σ β}

theorem mono (h : Asks host P W m) (hPQ : ∀ q, P q → Q q) : Asks host Q W m := by
  intro r
  obtain ⟨qs, hasked, hall, hresult⟩ := h r
  exact ⟨qs, hasked, fun q hq => hPQ q (hall q hq), hresult⟩

theorem weaken {W' : α → List Question → Prop} (h : Asks host P W m)
    (hW : ∀ a qs, W a qs → W' a qs) : Asks host P W' m := by
  intro r
  obtain ⟨qs, hasked, hall, hresult⟩ := h r
  exact ⟨qs, hasked, hall, fun a ha => hW a qs (hresult a ha)⟩

theorem ofPure {a : α} (h : W a []) : Asks host P W (pure a) := by
  intro r
  refine ⟨[], .done r, List.forall_mem_nil _, ?_⟩
  rintro _ ⟨⟩
  exact h

theorem andThen (hm : Asks host P W m)
    (hf : ∀ a qs, W a qs → Asks host P (fun b others => W' b (qs ++ others)) (f a)) :
    Asks host P W' (m >>= f) := by
  intro r
  obtain ⟨qs, hasked, hall, hresult⟩ := hm r
  rw [Step.run_bind]
  cases hrun : m.run.run r with
  | mk outcome after =>
    rw [hrun] at hasked hresult
    cases outcome with
    | error e => exact ⟨qs, hasked, hall, fun _ h => nomatch h⟩
    | ok a =>
      obtain ⟨others, hasked', hall', hresult'⟩ := hf a qs (hresult a rfl) after
      exact ⟨qs ++ others, hasked.append hasked', List.forall_mem_append.2 ⟨hall, hall'⟩, hresult'⟩

theorem map {g : α → β} (hm : Asks host P W m) (hg : ∀ a qs, W a qs → W' (g a) qs) :
    Asks host P W' (do return g (← m)) := by
  refine hm.andThen fun a qs hqs => ofPure ?_
  rw [List.append_nil]
  exact hg a qs hqs

theorem withLine {line : Option Int} (hm : Asks host P W m) :
    Asks host P W (Resolution.withLine line m) := by
  intro r
  obtain ⟨qs, hasked, hall, hresult⟩ := hm r
  rw [run_withLine]
  exact ⟨qs, hasked, hall, fun a ha => hresult a (Except.mapError_eq_ok.1 ha)⟩

/-- A step that is one question. -/
theorem ofQuestion {purpose : Purpose} {source : Text} {g : Value → α}
    (hrun : ∀ r, m.run.run r =
      ((r.ask host purpose source).1.answer.map g, (r.ask host purpose source).2))
    (hP : ∀ q, q.purpose = purpose → q.source = source → P q)
    (hW : ∀ v, W (g v) [⟨purpose, source, .ok v⟩]) : Asks host P W m := by
  intro r
  rw [hrun r]
  refine ⟨_, .single purpose source, List.forall_mem_singleton.2 (hP _ rfl rfl), ?_⟩
  intro a ha
  obtain ⟨v, hv, rfl⟩ := Except.map_eq_ok.1 ha
  have hq : (r.ask host purpose source).1 = ⟨purpose, source, .ok v⟩ := by
    rw [← hv]
    rfl
  rw [hq]
  exact hW v

end Asks

theorem run_dynamic (host : Host σ) (source : Text) (r : Resolver σ) :
    (dynamic host source).run.run r =
      ((r.ask host .value source).1.answer.map Value.plain, (r.ask host .value source).2) := by
  unfold dynamic Resolver.ask
  rw [Step.run_bind, run_evaluate]
  rcases r.sandbox.evaluate host source r.state with ⟨e | v, sandbox, state⟩
  · simp [Question.observed?, Except.map]
  · rfl

theorem run_sourceHolds (host : Host σ) (source : Text) (r : Resolver σ) :
    (sourceHolds host source).run.run r =
      ((r.ask host .test source).1.answer.map Value.isTruthy, (r.ask host .test source).2) := by
  unfold sourceHolds Resolver.ask
  rw [Step.run_bind, run_evaluate]
  rcases r.sandbox.evaluate host source r.state with ⟨e | v, sandbox, state⟩
  · simp [Question.observed?, Except.map]
  · simp [Question.observed?, Except.map]
    rfl

/-- The question of a test is about its source. -/
theorem holds_asks {test : Tree}
    (hP : ∀ q, q.purpose = .test → test.source? = some q.source → P q) :
    Asks host P (fun present qs => Tested (some test) qs present) (holds host test) := by
  have hsource : ∀ source, test.source? = some source →
      Asks host P (fun present qs => Tested (some test) qs present) (sourceHolds host source) := by
    intro source h
    refine .ofQuestion (run_sourceHolds host source) ?_ fun v => .asked v h
    rintro q hq rfl
    exact hP q hq h
  have hknown : test.source? = none →
      Asks host P (fun present qs => Tested (some test) qs present)
        (pure test.isTrue : Resolution σ Bool) := fun h => .ofPure (.known h)
  cases test with
  | scalar v =>
    cases v with
    | text source => exact hsource source rfl
    | dynamic id source => exact hsource source rfl
    | _ => exact hknown rfl
  | dynamic source => exact hsource source rfl
  | _ => exact hknown rfl

theorem entriesHold_asks {t : Tree} {entries : Entries Tree}
    (ht : t.test? = Entries.get? testKey entries) :
    Asks host t.Poses (fun present qs => Tested t.test? qs present) (entriesHold host entries) := by
  unfold entriesHold
  rw [ht]
  cases h : Entries.get? testKey entries with
  | none => exact .ofPure .missing
  | some test =>
    refine holds_asks ?_
    intro q hq hsource
    refine ⟨t, .self, ?_⟩
    rw [hq]
    exact ⟨test, ht.trans h, hsource⟩

theorem treeItems_asks {items : List Tree}
    (h : ∀ t ∈ items, Asks host P (fun _ => t.Walked) (tree host t)) :
    Asks host P (fun _ => WalkedAll items) (treeItems host items) := by
  induction items with
  | nil =>
    rw [treeItems]
    exact .ofPure .nil
  | cons t rest ih =>
    obtain ⟨ht, hrest⟩ := List.forall_mem_cons.1 h
    rw [treeItems]
    refine ht.andThen fun v qs hqs => ?_
    exact (ih hrest).map fun others qs' hqs' => .cons hqs hqs'

theorem treeEntries_asks {entries : Entries Tree}
    (h : ∀ t ∈ Tree.ofEntries entries, Asks host P (fun _ => t.Walked) (tree host t)) :
    Asks host P (fun _ => WalkedAll (Tree.ofEntries entries)) (treeEntries host entries) := by
  induction entries with
  | nil =>
    rw [treeEntries]
    exact .ofPure .nil
  | cons entry rest ih =>
    obtain ⟨key, t⟩ := entry
    rw [Tree.ofEntries_cons] at h ⊢
    rw [treeEntries]
    by_cases htest : key = testKey
    · rw [if_pos htest] at h
      rw [if_pos htest, if_pos htest]
      exact ih h
    · rw [if_neg htest] at h
      rw [if_neg htest, if_neg htest]
      obtain ⟨ht, hrest⟩ := List.forall_mem_cons.1 h
      refine ht.andThen fun v qs hqs => ?_
      exact (ih hrest).map fun others qs' hqs' => .cons hqs hqs'

theorem childValues_asks {below : Entries Slot} {children : List Tree}
    (hbelow : Slot.OfChildren below children)
    (h : ∀ t ∈ children, Asks host P (fun _ => t.Walked) (tree host t)) :
    Asks host P (fun _ => WalkedAll children)
      (slotValues host (do return Value.newList (← treeItems host children)) below) := by
  cases hbelow with
  | leaf =>
    rw [slotValues]
    exact .ofPure .nil
  | container =>
    have hchildren : Asks host P (fun _ => WalkedAll children)
        (do return Value.newList (← treeItems host children)) :=
      (treeItems_asks h).map fun _ _ hqs => hqs
    rw [slotValues_children]
    exact hchildren.map fun _ _ hqs => hqs

/-- A node that holds no expression itself is asked about by its test and, if that holds, by its
members. -/
theorem present_asks {t : Tree} {test : Resolution σ Bool} {below : Resolution σ Value}
    (hnode : ∀ source, t ≠ .dynamic source)
    (htest : Asks host t.Poses (fun present qs => Tested t.test? qs present) test)
    (hbelow : Asks host t.Poses (fun _ => WalkedAll t.members) below) :
    Asks host t.Poses (fun _ => t.Walked) (do if ← test then below else return .null) := by
  refine htest.andThen fun present tests htests => ?_
  cases present with
  | true =>
    rw [if_pos rfl]
    exact hbelow.weaken fun _ qs hqs => .present hnode htests hqs
  | false =>
    rw [if_neg Bool.false_ne_true]
    refine .ofPure ?_
    rw [List.append_nil]
    exact .pruned htests

/-- Resolving a tree asks about what stands in it, and its questions are those of a walk. -/
theorem tree_asks {t : Tree} (ht : t.Everywhere Tree.IsProper) :
    Asks host t.Poses (fun _ => t.Walked) (tree host t) := by
  induction ht with
  | @intro t here _ ih =>
    have hmember : ∀ member ∈ t.members,
        Asks host t.Poses (fun _ => member.Walked) (tree host member) :=
      fun member hmem => (ih member hmem).mono fun q hq => hq.under hmem
    match t, here, hmember with
    | .scalar v, _, _ =>
      rw [tree]
      exact .ofPure (.ofMembers (fun _ h => nomatch h) rfl .nil)
    | .literal content, _, _ =>
      rw [tree]
      exact .ofPure (.ofMembers (fun _ h => nomatch h) rfl .nil)
    | .dynamic source, _, _ =>
      rw [tree]
      refine .ofQuestion (run_dynamic host source) ?_ fun v => .dynamic source v
      rintro q hq rfl
      refine ⟨_, .self, ?_⟩
      rw [hq]
    | .sequence items, _, hmember =>
      rw [tree]
      exact (treeItems_asks hmember).map fun _ qs hqs =>
        .ofMembers (fun _ h => nomatch h) rfl hqs
    | .mapping entries, _, hmember =>
      rw [tree_mapping]
      refine present_asks (fun _ h => nomatch h) (entriesHold_asks rfl) ?_
      exact (treeEntries_asks hmember).map fun _ _ hqs => hqs
    | .component slots children line, here, hmember =>
      obtain ⟨entries, below, rfl, hkeys, hbelow⟩ := Tree.OfComponent.split here
      rw [tree_component, slotsHold_append hbelow, slotValues_append hkeys]
      refine (present_asks (by rintro _ ⟨⟩)
        (entriesHold_asks (Tree.test?_component hbelow)) ?_).withLine
      rw [Tree.members_component hbelow] at hmember ⊢
      obtain ⟨hentries, hchildren⟩ := List.forall_mem_append.1 hmember
      refine Asks.map ?_ fun _ _ hqs => hqs
      refine (treeEntries_asks hentries).andThen fun values qs hqs => ?_
      exact (childValues_asks hbelow hchildren).map fun others qs' hqs' => hqs.append hqs'

end Resolution

end SceneTemplates
