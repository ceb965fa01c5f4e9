import SceneTemplates.Proofs.ParserLocality
import SceneTemplates.Proofs.ParserNesting
import SceneTemplates.Proofs.TokenSeams
import SceneTemplates.Template.Compilation

/-!
# Parsing of guards

A guard joins tests as texts and puts parentheses around each. As long as no test closes a
parenthesis that it did not open, the tree of the guard is built from the trees of its tests.
-/
namespace SceneTemplates.Parser

open TokenKind (openAfter openAfter_append openAfter_add openAfter_open openAfter_close
  openAfter_plain)

variable {expression group inner operand : Parser Expr} {tokens rest : List Token}
  {row more : List TokenKind} {e : Expr} {n : Nat}

@[simp] theorem kinds_append (first second : List Token) :
    kinds (first ++ second) = kinds first ++ kinds second := List.map_append

theorem exists_head {k : TokenKind} (h : kinds tokens = k :: row) :
    ∃ position rest, tokens = ⟨k, position⟩ :: rest ∧ kinds rest = row := by
  obtain ⟨⟨kind, position⟩, rest, rfl, hkind, hrest⟩ := List.map_eq_cons_iff.1 h
  dsimp only at hkind
  subst hkind
  exact ⟨position, rest, rfl, hrest⟩

theorem front_of_kinds {k : TokenKind} (h : kinds tokens = k :: row)
    (hk : k ≠ .symbol .closeParen) : front tokens = k := by
  obtain ⟨position, rest, rfl, -⟩ := exists_head h
  rw [front_cons, if_neg hk]

/-! ## Forward steps -/

theorem sequence_single (h : expression tokens = .ok (e, rest))
    (hfront : front rest ≠ .symbol .comma) : sequence expression tokens = .ok (e, rest) := by
  unfold sequence
  rw [h]
  dsimp only [bind, Except.bind]
  rw [moreItems_done expression _ (startsWith_of_front hfront (by decide))]
  rfl

/-- Operators alone are an expression if neither a choice nor an assignment follows. -/
theorem assignment_of_operators (h : operators operand tokens = .ok (e, rest))
    (hquestion : front rest ≠ .symbol .question)
    (hassign : ∀ op, front rest ≠ .symbol (.assign op)) :
    assignment expression operand tokens = .ok (e, rest) := by
  have hconditional : conditional expression operand tokens = .ok (e, rest) := by
    unfold conditional
    rw [h]
    dsimp only [bind, Except.bind]
    rw [startsWith_of_front hquestion (by decide)]
    rfl
  rw [assignment_eq]
  exact Except.bind_eq_ok.2 ⟨_, hconditional, assigned_done e hassign⟩

theorem moreOperands_single {op : BinaryOperator} {fuel position : Nat}
    (h : operand tokens = .ok (e, rest)) (hrest : (front rest).binary? = none) :
    moreOperands operand (fuel + 1) (⟨.symbol (.binary op), position⟩ :: tokens) =
      .ok ([(op, e)], rest) :=
  Except.bind_eq_ok.2 ⟨_, h, Except.bind_eq_ok.2 ⟨_, moreOperands_done operand fuel hrest, rfl⟩⟩

/-- Operators up to the end of a source are all of it. -/
theorem sequence_of_operators (expression : Parser Expr)
    (h : operators operand tokens = .ok (e, rest)) (hrest : front rest = .finish) :
    sequence (assignment expression operand) tokens = .ok (e, rest) := by
  refine sequence_single (assignment_of_operators h ?_ ?_) ?_
  · rw [hrest]
    decide
  · intro op
    rw [hrest]
    exact fun he => by cases he
  · rw [hrest]
    decide

theorem exists_operators (h : assignment expression operand tokens = .ok (e, rest)) :
    ∃ e' rest', operators operand tokens = .ok (e', rest') := by
  rw [assignment_eq] at h
  obtain ⟨⟨target, rest'⟩, hconditional, -⟩ := Except.bind_eq_ok.1 h
  obtain ⟨⟨test, rest''⟩, hoperators, -⟩ := Except.bind_eq_ok.1 hconditional
  exact ⟨test, rest'', hoperators⟩

theorem exists_operand (h : operators operand tokens = .ok (e, rest)) :
    ∃ first rest' row, operand tokens = .ok (first, rest') ∧
      moreOperands operand rest'.length rest' = .ok (row, rest) ∧
      e = (OperatorTree.ofRow first row).toExpr := by
  obtain ⟨⟨first, rest'⟩, hfirst, h⟩ := Except.bind_eq_ok.1 h
  obtain ⟨⟨row, rest''⟩, hrow, h⟩ := Except.bind_eq_ok.1 h
  cases h
  exact ⟨first, rest', row, hfirst, hrow, rfl⟩

/-! ## What stands in parentheses -/

/-- Nothing but the fronts that end an operand. -/
def endsOperand (k : TokenKind) : Prop :=
  k ≠ .symbol .dot ∧ k ≠ .symbol .openBracket ∧ k ≠ .symbol .openParen ∧
    ∀ op, k ≠ .symbol (.update op)

/-- An operand in parentheses is what stands between them. If this closes no parenthesis that it did
not open, it is parsed to the same tree as a source of its own. -/
theorem operand_group (hgroup : IsLocal group) {position : Nat}
    (h : Parser.operand expression group inner (⟨.symbol .openParen, position⟩ :: tokens) =
      .ok (e, rest))
    (hkinds : kinds tokens = row ++ .symbol .closeParen :: more) (hrow : openAfter 0 row = some 0)
    (hmore : ∀ behind, kinds behind = more → endsOperand (front behind)) :
    kinds rest = more ∧
      ∀ tokens' last, kinds tokens' = row → front [last] = .finish →
        group (tokens' ++ [last]) = .ok (e, [last]) := by
  rw [operand_plain (by rfl), suffixed_eq] at h
  obtain ⟨⟨e', rest'⟩, hsuffixed, hupdated⟩ := Except.bind_eq_ok.1 h
  obtain ⟨⟨e'', behind⟩, hconstructed, hsuffixes⟩ := Except.bind_eq_ok.1 hsuffixed
  obtain ⟨⟨inside, closed⟩, hinside, hclosed⟩ := Except.bind_eq_ok.1 hconstructed
  obtain ⟨behind', hexpect, hpure⟩ := Except.bind_eq_ok.1 hclosed
  cases hpure
  -- The tokens up to the closing parenthesis are those of the row.
  obtain ⟨used, rfl, hopen, hsame⟩ := hgroup.exists_used hinside
  obtain ⟨position', rfl⟩ := exists_of_expect hexpect
  have hboth : kinds used ++ .symbol .closeParen :: kinds behind =
      row ++ .symbol .closeParen :: more := by
    rw [← hkinds, kinds_append]
    rfl
  have hused := TokenKind.split_unique hopen hrow hboth
  rw [hused] at hboth
  have hbehind : kinds behind = more := (List.cons.inj (List.append_cancel_left hboth)).2
  obtain ⟨hdot, hbracket, hparen, hupdate⟩ := hmore behind hbehind
  dsimp only at hsuffixes hupdated
  rw [suffixes_done _ _ _ (startsWith_of_front hdot (by decide))
    (startsWith_of_front hbracket (by decide))
    (startsWith_of_front hparen (by decide))] at hsuffixes
  cases hsuffixes
  rw [updated_done _ hupdate] at hupdated
  cases hupdated
  refine ⟨hbehind, fun tokens' last' hkinds' hfront => ?_⟩
  refine hsame tokens' [last'] (hkinds'.trans hused.symm) ?_
  rw [hfront, front_cons, if_pos rfl]

/-! ## Whole sources -/

theorem level_operand (m : Nat) :
    (Level.ofNat (m + 1)).operand = Parser.operand (Level.ofNat m).around.expression
      (sequence (Level.ofNat m).expression) (Level.ofNat m).operand := rfl

theorem level_expression (m : Nat) :
    (Level.ofNat (m + 1)).expression =
      assignment (Level.ofNat m).expression (Level.ofNat m).operand := rfl

theorem operators_front (h : operators (Level.ofNat n).operand tokens = .ok (e, rest)) :
    front tokens ≠ .finish := by
  obtain ⟨first, rest', row, hoperand, -, -⟩ := exists_operand h
  intro hfront
  cases n with
  | zero => cases hoperand
  | succ n =>
    have hplain : isPrefixed (front tokens) = false := by
      rw [hfront]
      rfl
    rw [level_operand, operand_plain hplain, suffixed_eq] at hoperand
    obtain ⟨⟨e', r⟩, hsuffixed, -⟩ := Except.bind_eq_ok.1 hoperand
    obtain ⟨⟨e'', r'⟩, hconstructed, -⟩ := Except.bind_eq_ok.1 hsuffixed
    cases tokens with
    | nil => cases hconstructed
    | cons token tokens =>
      obtain ⟨kind, position⟩ := token
      rw [front_cons] at hfront
      split at hfront
      · next hclose =>
        dsimp only at hclose
        subst hclose
        cases hconstructed
      · dsimp only at hfront
        subst hfront
        cases hconstructed

/-- An expression is not empty. -/
theorem expression_front (h : (Level.ofNat n).expression tokens = .ok (e, rest)) :
    front tokens ≠ .finish := by
  cases n with
  | zero => cases h
  | succ n =>
    obtain ⟨e', rest', hoperators⟩ := exists_operators h
    exact operators_front hoperators

/-- A row of tokens has no end inside. -/
theorem finish_not_mem {d d' : Nat} (h : openAfter d row = some d') : TokenKind.finish ∉ row := by
  intro hmem
  obtain ⟨first, second, rfl⟩ := List.append_of_mem hmem
  rw [openAfter_append] at h
  obtain ⟨middle, -, h⟩ := Option.bind_eq_some_iff.1 h
  cases middle <;> cases h

/-- A source that is parsed is taken up to its end, and closes what it opens. -/
theorem whole_taken {limit : Int} (h : whole limit tokens = .ok e)
    (hkinds : kinds tokens = row ++ [.finish]) (hrow : TokenKind.finish ∉ row) :
    openAfter 0 row = some 0 ∧
      ∃ used last, tokens = used ++ [last] ∧ kinds used = row ∧ last.kind = .finish ∧
        sequence (Level.ofNat (limit.toNat + 1)).expression tokens = .ok (e, [last]) := by
  have hparsed : ∃ rest, sequence (Level.ofNat (limit.toNat + 1)).expression tokens =
      .ok (e, rest) ∧ (rest = [] ∨ ∃ position more, rest = ⟨.finish, position⟩ :: more) := by
    unfold whole at h
    split at h
    · cases h
    · cases h
    · obtain ⟨⟨e', rest⟩, hsequence, h⟩ := Except.bind_eq_ok.1 h
      dsimp only at h
      split at h
      · cases h
        exact ⟨[], hsequence, .inl rfl⟩
      · cases h
        exact ⟨_, hsequence, .inr ⟨_, _, rfl⟩⟩
      · cases h
  obtain ⟨rest, hsequence, hrest⟩ := hparsed
  obtain ⟨used, rfl, hopen, -⟩ :=
    (sequence_local (Level.ofNat_local (limit.toNat + 1)).1).exists_used hsequence
  have hused := finish_not_mem hopen
  rw [kinds_append] at hkinds
  obtain rfl | ⟨position, more, rfl⟩ := hrest
  · rw [show kinds [] = [] from rfl, List.append_nil] at hkinds
    rw [hkinds] at hused
    exact absurd (List.mem_append_right _ List.mem_cons_self) hused
  · have hsplit : kinds used = row ∧ kinds more = [] := by
      obtain ⟨between, hb, hb'⟩ | ⟨between, hb, hb'⟩ := List.append_eq_append_iff.1 hkinds
      · cases between with
        | nil =>
          rw [List.append_nil] at hb
          exact ⟨hb.symm, (List.cons.inj hb').2⟩
        | cons k between =>
          have hk : k = .finish := (List.cons.inj hb').1.symm
          rw [hb, hk] at hrow
          exact absurd (List.mem_append_right _ List.mem_cons_self) hrow
      · cases between with
        | nil =>
          rw [List.append_nil] at hb
          exact ⟨hb, (List.cons.inj hb').2.symm⟩
        | cons k between =>
          have hk : k = .finish := (List.cons.inj hb').1.symm
          rw [hb, hk] at hused
          exact absurd (List.mem_append_right _ List.mem_cons_self) hused
    have hmore : more = [] := List.map_eq_nil_iff.1 hsplit.2
    subst hmore
    rw [hsplit.1] at hopen
    exact ⟨hopen, used, _, rfl, hsplit.1, rfl, hsequence⟩

/-- What is parsed to an expression with some nestings is, alone and with at least as many, a whole
source. -/
theorem whole_of_sequence {n : Nat} {limit : Int} {last : Token}
    (hn : n ≤ limit.toNat + 1) (hlast : last.kind = .finish)
    (h : sequence (Level.ofNat n).expression tokens = .ok (e, [last])) :
    whole limit tokens = .ok e := by
  obtain ⟨⟨first, rest⟩, hfirst, -⟩ := Except.bind_eq_ok.1 h
  have hfront := expression_front hfirst
  have hmore := (sequence_extends (Level.ofNat_extends hn) tokens).ok h
  obtain ⟨kind, position⟩ := last
  dsimp only at hlast
  subst hlast
  unfold whole
  split
  · exact absurd rfl hfront
  · exact absurd rfl hfront
  · exact Except.bind_eq_ok.2 ⟨_, hmore, rfl⟩

end SceneTemplates.Parser

namespace SceneTemplates

open TokenKind (openAfter openAfter_append openAfter_add openAfter_open openAfter_close
  openAfter_plain)
open Lexer (Reads)

/-- A source is parsed exactly if it has tokens and these are an expression. -/
theorem parse_eq_ok {source : Text} {limit : Int} {e : Expr} :
    parse source limit = .ok e ↔
      ∃ tokens, tokenize source = .ok tokens ∧ Parser.whole limit tokens = .ok e := by
  unfold parse
  cases tokenize source with
  | error cause =>
    constructor
    · intro h
      cases h
    · rintro ⟨tokens, h, -⟩
      cases h
  | ok tokens =>
    dsimp only
    constructor
    · intro h
      cases hw : Parser.whole limit tokens with
      | error cause =>
        rw [hw] at h
        cases h
      | ok e' =>
        rw [hw] at h
        cases h
        exact ⟨tokens, rfl, hw⟩
    · rintro ⟨tokens', h, hw⟩
      cases h
      rw [hw]

@[simp] theorem next?_openParen (t : Text) :
    Lexer.next? ('('.toNat :: t) = some (.symbol .openParen, t) := rfl

@[simp] theorem next?_closeParen (t : Text) :
    Lexer.next? (')'.toNat :: t) = some (.symbol .closeParen, t) := rfl

@[simp] theorem next?_and (t : Text) :
    Lexer.next? ('&'.toNat :: '&'.toNat :: ' '.toNat :: t) =
      some (.symbol (.binary .and), ' '.toNat :: t) := rfl

@[simp] theorem next?_not (t : Text) :
    Lexer.next? ('!'.toNat :: '('.toNat :: t) = some (.symbol .not, '('.toNat :: t) := rfl

/-- The tokens of a source that are known from what is read. -/
theorem kinds_of_reads {source : Text} {row : List TokenKind} {tokens : List Token}
    (hr : Reads source row) (h : tokenize source = .ok tokens) :
    kinds tokens = row ++ [.finish] := by
  obtain ⟨tokens', h', hkinds⟩ := exists_tokens hr
  rw [h] at h'
  cases h'
  exact hkinds

/-- A source is parsed to what its row of tokens is with no more nestings, in front of the end. -/
theorem parse_of_sequence {source : Text} {row : List TokenKind} {limit : Int} {e : Expr} {n : Nat}
    (hr : Reads source row) (hn : n ≤ limit.toNat + 1)
    (h : ∀ used last, kinds used = row → Parser.front [last] = .finish →
      Parser.sequence (Parser.Level.ofNat n).expression (used ++ [last]) = .ok (e, [last])) :
    parse source limit = .ok e := by
  obtain ⟨tokens, htokens, hkinds⟩ := exists_tokens hr
  obtain ⟨used, ends, rfl, hused, hends⟩ := List.map_eq_append_iff.1 hkinds
  obtain ⟨last, nothing, rfl, hlast, hnothing⟩ := List.map_eq_cons_iff.1 hends
  cases List.map_eq_nil_iff.1 hnothing
  have hsequence := h used last hused (Parser.front_last hlast)
  exact parse_eq_ok.2 ⟨_, htokens, Parser.whole_of_sequence hn hlast hsequence⟩

/-- An operand in parentheses at some level, and its text as a source of its own. -/
theorem level_group {m position : Nat} {tokens rest : List Token} {e : Expr}
    {row more : List TokenKind}
    (h : (Parser.Level.ofNat m).operand (⟨.symbol .openParen, position⟩ :: tokens) = .ok (e, rest))
    (hkinds : kinds tokens = row ++ .symbol .closeParen :: more) (hrow : openAfter 0 row = some 0)
    (hmore : ∀ behind, kinds behind = more → Parser.endsOperand (Parser.front behind)) :
    kinds rest = more ∧
      ∀ source limit, Reads source row → m ≤ limit.toNat + 2 → parse source limit = .ok e := by
  cases m with
  | zero => cases h
  | succ m =>
    have hgroup := Parser.sequence_local (Parser.Level.ofNat_local m).1
    rw [Parser.level_operand] at h
    obtain ⟨hrest, halone⟩ := Parser.operand_group hgroup h hkinds hrow hmore
    exact ⟨hrest, fun source limit hr hm => parse_of_sequence hr (by omega) halone⟩

namespace Guard

variable {test cond : Text} {row row' : List TokenKind} {limit : Int} {tree : Expr}

/-- The source of the test that holds if two do. -/
def conjoined (test cond : Text) : Text := "(" ++ test ++ ") && (" ++ cond ++ ")"

/-- The source of the test that holds if one does not. -/
def negated (test : Text) : Text := "!(" ++ test ++ ")"

@[simp] theorem conjunction_text (test cond : Text) :
    Component.conjunction (.text test) (.text cond) = .text (conjoined test cond) := rfl

@[simp] theorem negation_text (test : Text) :
    Component.negation (.text test) = .text (negated test) := rfl

theorem conjoined_eq (test cond : Text) :
    conjoined test cond =
      '('.toNat :: (test ++ ')'.toNat :: ' '.toNat :: '&'.toNat :: '&'.toNat :: ' '.toNat ::
        '('.toNat :: (cond ++ [')'.toNat])) := by
  have hflat : conjoined test cond = '('.toNat :: (((test ++
      [')'.toNat, ' '.toNat, '&'.toNat, '&'.toNat, ' '.toNat, '('.toNat]) ++ cond) ++
        [')'.toNat]) := rfl
  rw [hflat, List.append_assoc, List.append_assoc]
  rfl

theorem negated_eq (test : Text) :
    negated test = '!'.toNat :: '('.toNat :: (test ++ [')'.toNat]) := rfl

theorem reads_closed (h : Reads test row) :
    Reads (test ++ [')'.toNat]) (row ++ [.symbol .closeParen]) :=
  h.append Lexer.isSeam_closeParen (.token (by decide) (next?_closeParen []) .nil)

theorem reads_conjoined (ht : Reads test row) (hc : Reads cond row') :
    Reads (conjoined test cond)
      (.symbol .openParen :: (row ++ .symbol .closeParen :: .symbol (.binary .and) ::
        .symbol .openParen :: (row' ++ [.symbol .closeParen]))) := by
  rw [conjoined_eq]
  have hcond : Reads ('('.toNat :: (cond ++ [')'.toNat])) _ :=
    .token (by decide) (next?_openParen _) (reads_closed hc)
  have hand : Reads ('&'.toNat :: '&'.toNat :: ' '.toNat :: '('.toNat :: (cond ++ [')'.toNat])) _ :=
    .token (by decide) (next?_and _) (.blank (by decide) hcond)
  have hseam : Reads (')'.toNat :: ' '.toNat :: '&'.toNat :: '&'.toNat :: ' '.toNat :: '('.toNat ::
      (cond ++ [')'.toNat])) _ :=
    .token (by decide) (next?_closeParen _) (.blank (by decide) hand)
  exact .token (by decide) (next?_openParen _) (ht.append Lexer.isSeam_closeParen hseam)

theorem reads_negated (h : Reads test row) :
    Reads (negated test)
      (.symbol .not :: .symbol .openParen :: (row ++ [.symbol .closeParen])) := by
  rw [negated_eq]
  have hgroup : Reads ('('.toNat :: (test ++ [')'.toNat])) _ :=
    .token (by decide) (next?_openParen _) (reads_closed h)
  exact .token (by decide) (next?_not _) hgroup

/-- Two rows in parentheses that are closed together are closed each. -/
theorem balanced_of_conjoined {d d' : Nat} (hrow : openAfter 0 row = some d)
    (hrow' : openAfter 0 row' = some d')
    (h : openAfter 0 (.symbol .openParen :: (row ++ .symbol .closeParen ::
      .symbol (.binary .and) :: .symbol .openParen :: (row' ++ [.symbol .closeParen]))) = some 0) :
    d = 0 ∧ d' = 0 := by
  have hplain : (TokenKind.symbol (.binary .and)).isPlain := by decide
  rw [openAfter_open, openAfter_append, openAfter_add hrow 1, Option.bind_some, openAfter_close,
    openAfter_plain hplain, openAfter_open, openAfter_append] at h
  have hboth := openAfter_add hrow' (d + 1)
  rw [Nat.zero_add] at hboth
  have hsum : d' + (d + 1) = d' + d + 1 := by omega
  rw [hboth, Option.bind_some, hsum, openAfter_close] at h
  have hzero : d' + d = 0 := Option.some.inj h
  omega

theorem balanced_of_negated {d : Nat} (hrow : openAfter 0 row = some d)
    (h : openAfter 0 (.symbol .not :: .symbol .openParen :: (row ++ [.symbol .closeParen])) =
      some 0) : d = 0 := by
  have hplain : (TokenKind.symbol .not).isPlain := by decide
  rw [openAfter_plain hplain, openAfter_open, openAfter_append, openAfter_add hrow 1,
    Option.bind_some, openAfter_close] at h
  exact Option.some.inj h

/-- A guard of two tests is parsed to the conjunction of their trees, which need two nestings
less. -/
theorem parse_conjoined (ht : Reads test row) (hc : Reads cond row')
    (hrow : (openAfter 0 row).isSome) (hrow' : (openAfter 0 row').isSome)
    (h : parse (conjoined test cond) limit = .ok tree) :
    ∃ left right, tree = .binary .and left right ∧ ∀ limit', limit ≤ limit' + 2 →
      parse test limit' = .ok left ∧ parse cond limit' = .ok right := by
  obtain ⟨d, hd⟩ := Option.isSome_iff_exists.1 hrow
  obtain ⟨d', hd'⟩ := Option.isSome_iff_exists.1 hrow'
  obtain ⟨tokens, htokens, hwhole⟩ := parse_eq_ok.1 h
  have hguard := reads_conjoined ht hc
  have hkinds := kinds_of_reads hguard htokens
  obtain ⟨hopen, _, _, -, -, -, hsequence⟩ :=
    Parser.whole_taken hwhole hkinds hguard.finish_not_mem
  obtain ⟨rfl, rfl⟩ := balanced_of_conjoined hd hd' hopen
  rw [List.cons_append] at hkinds
  obtain ⟨position, inside, rfl, hinside⟩ := Parser.exists_head hkinds
  obtain ⟨⟨e, rest⟩, hexpression, -⟩ := Except.bind_eq_ok.1 hsequence
  obtain ⟨e', rest', hoperators⟩ := Parser.exists_operators hexpression
  obtain ⟨left, behind, others, hleft, hothers, -⟩ := Parser.exists_operand hoperators
  -- The first operand ends before the operator, the second one before the end.
  have hfirst : kinds inside = row ++ .symbol .closeParen :: (.symbol (.binary .and) ::
      .symbol .openParen :: (row' ++ .symbol .closeParen :: [.finish])) := by
    rw [hinside]
    simp only [List.append_assoc, List.cons_append, List.nil_append]
  obtain ⟨hbehind, hleftAlone⟩ := level_group hleft hfirst hd fun behind hk => by
    rw [Parser.front_of_kinds hk (by decide)]
    exact ⟨by decide, by decide, by decide, fun op => by cases op <;> decide⟩
  obtain ⟨position', behind, rfl, hbehind'⟩ := Parser.exists_head hbehind
  obtain ⟨position'', second, rfl, hsecond⟩ := Parser.exists_head hbehind'
  obtain ⟨⟨right, last⟩, hright, -⟩ := Except.bind_eq_ok.1 hothers
  obtain ⟨hlast, hrightAlone⟩ := level_group hright hsecond hd' fun behind hk => by
    rw [Parser.front_of_kinds hk (by decide)]
    exact ⟨by decide, by decide, by decide, fun op => by cases op <;> decide⟩
  have hfront := Parser.front_of_kinds hlast (by decide)
  have hwhole' := Parser.operators_of_row hleft
    (Parser.moreOperands_single hright (by rw [hfront]; rfl))
  have htree := Parser.sequence_of_operators (Parser.Level.ofNat limit.toNat).expression hwhole'
    hfront
  rw [Parser.level_expression, htree] at hsequence
  cases hsequence
  exact ⟨left, right, rfl, fun limit' hlimit => ⟨hleftAlone test limit' ht (by omega),
    hrightAlone cond limit' hc (by omega)⟩⟩

/-- A guard that turns a test around is parsed to its negation; the test needs three nestings
less. -/
theorem parse_negated (ht : Reads test row) (hrow : (openAfter 0 row).isSome)
    (h : parse (negated test) limit = .ok tree) :
    ∃ operand, tree = .unary .not operand ∧ ∀ limit', limit ≤ limit' + 3 →
      parse test limit' = .ok operand := by
  obtain ⟨d, hd⟩ := Option.isSome_iff_exists.1 hrow
  obtain ⟨tokens, htokens, hwhole⟩ := parse_eq_ok.1 h
  have hguard := reads_negated ht
  have hkinds := kinds_of_reads hguard htokens
  obtain ⟨hopen, _, _, -, -, -, hsequence⟩ :=
    Parser.whole_taken hwhole hkinds hguard.finish_not_mem
  obtain rfl := balanced_of_negated hd hopen
  rw [List.cons_append, List.cons_append] at hkinds
  obtain ⟨position, group, rfl, hgroup⟩ := Parser.exists_head hkinds
  obtain ⟨position', inside, rfl, hinside⟩ := Parser.exists_head hgroup
  obtain ⟨⟨e, rest⟩, hexpression, -⟩ := Except.bind_eq_ok.1 hsequence
  obtain ⟨e', rest', hoperators⟩ := Parser.exists_operators hexpression
  obtain ⟨first, behind, others, hfirst, -, -⟩ := Parser.exists_operand hoperators
  cases hm : limit.toNat with
  | zero =>
    rw [hm] at hfirst
    cases hfirst
  | succ m =>
    have hfirst' := hfirst
    rw [hm, Parser.level_operand] at hfirst
    obtain ⟨⟨operand, last⟩, hoperand, hpure⟩ := Except.bind_eq_ok.1 hfirst
    cases hpure
    rw [List.append_assoc] at hinside
    obtain ⟨hlast, halone⟩ := level_group hoperand hinside hd fun behind hk => by
      rw [Parser.front_of_kinds hk (by decide)]
      exact ⟨by decide, by decide, by decide, fun op => by cases op <;> decide⟩
    have hfront := Parser.front_of_kinds hlast (by decide)
    have hwhole' := Parser.operators_of_row hfirst'
      (Parser.moreOperands_done _ _ (by rw [hfront]; rfl))
    have htree := Parser.sequence_of_operators (Parser.Level.ofNat limit.toNat).expression hwhole'
      hfront
    rw [Parser.level_expression, htree] at hsequence
    cases hsequence
    exact ⟨operand, rfl, fun limit' hlimit => halone test limit' ht (by omega)⟩

end Guard

end SceneTemplates
