import SceneTemplates.Proofs.GuardParsing
import SceneTemplates.Proofs.Lexemes
import SceneTemplates.Proofs.OperatorGrouping

/-!
# Tokens written in a tree

The parser neither drops nor repeats nor reorders a token. Read from the left, a tree names its
constants, names, members, keys and operators in the order in which they stand in the source, and
what is left of the source is punctuation.
-/
namespace SceneTemplates

namespace TokenKind

/-- Punctuation, which shows where the parts of an expression are, and the end. -/
def isStructural : TokenKind → Bool
  | .symbol .openParen | .symbol .closeParen | .symbol .openBracket | .symbol .closeBracket => true
  | .symbol .openBrace | .symbol .closeBrace | .symbol .comma | .symbol .dot => true
  | .symbol .colon | .symbol .question | .symbol .spread => true
  | .finish => true
  | _ => false

/-- What the scanner can give: words are told apart by their text, and symbols are in the table. -/
structure IsScanned (k : TokenKind) : Prop where
  word : ∀ t, k.memberName? = some t → Lexer.word t = k
  listed : ∀ s, k = .symbol s → s ∈ Symbol.all

end TokenKind

/-! ## What a tree names -/

def Constant.token : Constant → TokenKind
  | .null => .null
  | .bool b => .bool b
  | .number n => .number n
  | .text t => .text t

/-- The token of an operator between two operands. -/
def BinaryOperator.token : BinaryOperator → TokenKind
  | .within => .keyword .within
  | .instanceOf => .keyword .instanceOf
  | op => .symbol (.binary op)

def UnaryOperator.token : UnaryOperator → TokenKind
  | .not => .symbol .not
  | .bitNot => .symbol .bitNot
  | .minus => .symbol (.binary .minus)
  | .plus => .symbol (.binary .plus)
  | .typeof => .keyword .typeof

namespace Expr

mutual

/-- The tokens that a tree names, from the left: its constants, names, members, keys and operators,
and the words `this` and `new`. -/
def written : Expr → List TokenKind
  | .constant c => [c.token]
  | .name t => [.name t]
  | .this => [.keyword .this]
  | .member base property => written base ++ [Lexer.word property]
  | .index base key => written base ++ written key
  | .binary op left right => written left ++ op.token :: written right
  | .unary op operand => op.token :: written operand
  | .conditional test consequent alternate =>
    written test ++ (written consequent ++ written alternate)
  | .call callee args => written callee ++ writtenAll args
  | .new callee args => .keyword .new :: (written callee ++ writtenAll args)
  | .assign op target value => written target ++ .symbol (.assign op) :: written value
  | .update op argument true => .symbol (.update op) :: written argument
  | .update op argument false => written argument ++ [.symbol (.update op)]
  | .sequence items => writtenAll items
  | .spread argument => written argument
  | .array elements => writtenAll elements
  | .object properties => writtenProperties properties

def writtenAll : List Expr → List TokenKind
  | [] => []
  | e :: rest => written e ++ writtenAll rest

/-- The tokens that the parts of an object literal name. A name that is key and value at once is
named once. -/
def writtenProperties : List Property → List TokenKind
  | [] => []
  | .keyed key value :: rest => writtenKey key ++ (written value ++ writtenProperties rest)
  | .shorthand t :: rest => .name t :: writtenProperties rest
  | .spread argument :: rest => written argument ++ writtenProperties rest

def writtenKey : PropertyKey → List TokenKind
  | .name t => [.name t]
  | .constant c => [c.token]
  | .computed e => written e

end

end Expr

def Property.written (p : Property) : List TokenKind := Expr.writtenProperties [p]

namespace Expr

@[simp] theorem writtenAll_eq (es : List Expr) : writtenAll es = es.flatMap written := by
  induction es with
  | nil => rfl
  | cons e rest ih => rw [writtenAll, ih, List.flatMap_cons]

@[simp] theorem writtenProperties_eq (ps : List Property) :
    writtenProperties ps = ps.flatMap Property.written := by
  induction ps with
  | nil => rfl
  | cons p rest ih =>
    rw [List.flatMap_cons, ← ih]
    cases p <;> simp [Property.written, writtenProperties]

end Expr

/-- The tokens of operators with the operand behind each. -/
def Expr.writtenRow (row : List (BinaryOperator × Expr)) : List TokenKind :=
  row.flatMap fun item => item.1.token :: item.2.written

/-- The tokens of an operator tree: those of its operands with the operators between them. -/
@[simp] theorem OperatorTree.written_toExpr (tree : OperatorTree) :
    tree.toExpr.written = tree.reading.1.written ++ Expr.writtenRow tree.reading.2 := by
  induction tree with
  | operand e => simp [OperatorTree.toExpr, OperatorTree.reading, Expr.writtenRow]
  | node op left right ihleft ihright =>
    simp [OperatorTree.toExpr, OperatorTree.reading, Expr.written, Expr.writtenRow, ihleft, ihright]

namespace TokenKind

variable {k : TokenKind}

theorem eq_of_binary? {op : BinaryOperator} (hk : k.IsScanned) (h : k.binary? = some op) :
    k = op.token := by
  cases k with
  | symbol s =>
    have hlisted := hk.listed s rfl
    cases s with
    | binary op' =>
      cases h
      cases op <;> first | rfl | exact absurd hlisted (by decide)
    | _ => cases h
  | keyword w => cases w <;> cases h <;> rfl
  | _ => cases h

theorem eq_of_unary? {op : UnaryOperator} (h : k.unary? = some op) : k = op.token := by
  unfold unary? at h
  split at h <;> cases h <;> rfl

theorem isStructural_of_memberName? {t : Text} (h : k.memberName? = some t) :
    k.isStructural = false := by
  cases k with
  | symbol s => cases h
  | finish => cases h
  | _ => rfl

@[simp] theorem isStructural_binary (op : BinaryOperator) : op.token.isStructural = false := by
  cases op <;> rfl

@[simp] theorem isStructural_unary (op : UnaryOperator) : op.token.isStructural = false := by
  cases op <;> rfl

end TokenKind

/-- What the scanner takes is scanned. -/
theorem Lexer.isScanned_of_spells {k : TokenKind} {lexeme : Text} (h : Spells k lexeme) :
    k.IsScanned := by
  cases h with
  | symbol hs => exact ⟨nofun, fun s h => TokenKind.symbol.inj h ▸ hs⟩
  | number _ => exact ⟨nofun, nofun⟩
  | text _ _ => exact ⟨nofun, nofun⟩
  | @word c t _ _ =>
    have hname := memberName?_word (c :: t)
    refine ⟨fun t' h => ?_, fun s h => ?_⟩
    · rw [hname] at h
      rw [← Option.some.inj h]
    · rw [h] at hname
      cases hname

theorem Lexer.Reads.isScanned {t : Text} {row : List TokenKind} (h : Reads t row) :
    ∀ k ∈ row, k.IsScanned := by
  induction h with
  | nil => simp
  | blank _ _ ih => exact ih
  | token _ hnext _ ih =>
    obtain ⟨lexeme, -, hspells⟩ := spells_of_next? hnext
    exact List.forall_mem_cons.2 ⟨isScanned_of_spells hspells, ih⟩

/-! ## What a parser accounts for -/

namespace Parser

variable {α β : Type} {before row : List TokenKind} {tokens rest : List Token} {k : TokenKind}

/-- The tokens that are not punctuation. -/
def content (tokens : List Token) : List TokenKind :=
  (kinds tokens).filter fun k => !k.isStructural

@[simp] theorem content_append (first second : List Token) :
    content (first ++ second) = content first ++ content second := by
  simp [content]

/-- Tokens that come from the scanner. -/
def AllScanned (tokens : List Token) : Prop := ∀ token ∈ tokens, token.kind.IsScanned

/-- From tokens to those that are left, a row is what was there before and what was taken. -/
def Accounted (before row : List TokenKind) (tokens rest : List Token) : Prop :=
  ∃ used, tokens = used ++ rest ∧ row = before ++ content used

namespace Accounted

theorem refl (row : List TokenKind) (tokens : List Token) : Accounted row row tokens tokens :=
  ⟨[], rfl, by simp [content, kinds]⟩

theorem trans {middle : List TokenKind} {between : List Token}
    (h : Accounted before middle tokens between) (h' : Accounted middle row between rest) :
    Accounted before row tokens rest := by
  obtain ⟨first, rfl, rfl⟩ := h
  obtain ⟨second, rfl, rfl⟩ := h'
  exact ⟨first ++ second, by simp, by simp⟩

theorem behind (h : Accounted before row tokens rest) (earlier : List TokenKind) :
    Accounted (earlier ++ before) (earlier ++ row) tokens rest := by
  obtain ⟨used, rfl, rfl⟩ := h
  exact ⟨used, rfl, by simp⟩

theorem structural (hk : k.isStructural = true) (position : Nat)
    (h : Accounted before row tokens rest) :
    Accounted before row (⟨k, position⟩ :: tokens) rest := by
  obtain ⟨used, rfl, rfl⟩ := h
  exact ⟨⟨k, position⟩ :: used, rfl, by simp [content, kinds, hk]⟩

theorem token (hk : k.isStructural = false) (position : Nat)
    (h : Accounted (before ++ [k]) row tokens rest) :
    Accounted before row (⟨k, position⟩ :: tokens) rest := by
  obtain ⟨used, rfl, rfl⟩ := h
  exact ⟨⟨k, position⟩ :: used, rfl, by simp [content, kinds, hk]⟩

theorem allScanned (h : Accounted before row tokens rest) (hscanned : AllScanned tokens) :
    AllScanned rest := by
  obtain ⟨used, rfl, -⟩ := h
  exact fun token htoken => hscanned token (List.mem_append_right _ htoken)

end Accounted

/-- Whatever a parser takes, what it gives has it written, behind what was written before. -/
def Accounts (before : List TokenKind) (written : α → List TokenKind) (p : Parser α) : Prop :=
  ∀ tokens x rest, AllScanned tokens → p tokens = .ok (x, rest) →
    Accounted before (written x) tokens rest

namespace Accounts

variable {written : α → List TokenKind} {written' : β → List TokenKind} {p q : Parser α}

theorem ofPure (x : α) (h : written x = before) : Accounts before written fun tokens =>
    .ok (x, tokens) := by
  intro tokens y rest _ hy
  cases hy
  rw [h]
  exact .refl before tokens

/-- What was written earlier stays in front. -/
theorem behind (hp : Accounts before written p) (earlier : List TokenKind) :
    Accounts (earlier ++ before) (fun x => earlier ++ written x) p :=
  fun tokens x rest hscanned h => (hp tokens x rest hscanned h).behind earlier

/-- A parser that goes on with what another one has written. -/
theorem goOn {f : α → Parser β} (hp : Accounts before written p)
    (hf : ∀ x, Accounts (written x) written' (f x)) :
    Accounts before written' (fun tokens => do
      let (x, rest) ← p tokens
      f x rest) := by
  intro tokens y last hscanned h
  obtain ⟨⟨x, rest⟩, hx, hy⟩ := Except.bind_eq_ok.1 h
  have hfirst := hp tokens x rest hscanned hx
  exact hfirst.trans (hf x rest y last (hfirst.allScanned hscanned) hy)

/-- One parser behind another. -/
theorem andThen {f : α → Parser β} (hp : Accounts [] written p)
    (hf : ∀ x, Accounts (before ++ written x) written' (f x)) :
    Accounts before written' (fun tokens => do
      let (x, rest) ← p tokens
      f x rest) := by
  have hbehind := hp.behind before
  rw [List.append_nil] at hbehind
  exact hbehind.goOn hf

/-- A parser behind punctuation that has to stand there. -/
theorem expecting (s : Symbol) (what : Expectation)
    (hs : (TokenKind.symbol s).isStructural = true) (hp : Accounts before written p) :
    Accounts before written (fun tokens => do
      let rest ← expect s what tokens
      p rest) := by
  intro tokens x last hscanned h
  obtain ⟨rest, hexpect, hx⟩ := Except.bind_eq_ok.1 h
  obtain ⟨position, rfl⟩ := exists_of_expect hexpect
  have hrest : AllScanned rest := fun token h => hscanned token (List.mem_cons_of_mem _ h)
  exact (hp rest x last hrest hx).structural hs position

/-- A loop whose bound is the number of the tokens. -/
theorem ofLoop {p : Nat → Parser α} (h : ∀ n, Accounts before written (p n)) :
    Accounts before written fun tokens => p tokens.length tokens :=
  fun tokens => h tokens.length tokens

theorem branch {c : List Token → Bool} (hp : Accounts before written p)
    (hq : Accounts before written q) :
    Accounts before written fun tokens => if c tokens then p tokens else q tokens := by
  intro tokens x rest hscanned h
  dsimp only at h
  split at h
  · exact hp tokens x rest hscanned h
  · exact hq tokens x rest hscanned h

/-- A choice by punctuation at the front, which is taken. -/
theorem branchTail (s : Symbol) (hs : (TokenKind.symbol s).isStructural = true)
    (hp : Accounts before written p) (hq : Accounts before written q) :
    Accounts before written fun tokens =>
      if startsWith s tokens then p tokens.tail else q tokens := by
  intro tokens x rest hscanned h
  dsimp only at h
  split at h
  · next hstart =>
    obtain ⟨position, more, rfl⟩ := exists_of_startsWith hstart
    have hmore : AllScanned more := fun token h => hscanned token (List.mem_cons_of_mem _ h)
    exact (hp more x rest hmore h).structural hs position
  · exact hq tokens x rest hscanned h

/-- A run behind a token that is written. -/
theorem behindToken (hp : Accounts (before ++ [k]) written p) (hk : k.isStructural = false)
    {position : Nat} {x : α} (hscanned : AllScanned (⟨k, position⟩ :: tokens))
    (h : p tokens = .ok (x, rest)) :
    Accounted before (written x) (⟨k, position⟩ :: tokens) rest :=
  (hp tokens x rest (fun token h => hscanned token (List.mem_cons_of_mem _ h)) h).token hk position

/-- A run behind punctuation. -/
theorem behindStructural (hp : Accounts before written p) (hk : k.isStructural = true)
    {position : Nat} {x : α} (hscanned : AllScanned (⟨k, position⟩ :: tokens))
    (h : p tokens = .ok (x, rest)) :
    Accounted before (written x) (⟨k, position⟩ :: tokens) rest :=
  (hp tokens x rest (fun token h => hscanned token (List.mem_cons_of_mem _ h)) h).structural hk
    position

end Accounts

/-! ## Lists of items -/

section Items

variable {written : α → List TokenKind} {item : Parser α}
  (hitem : Accounts [] written item)

include hitem

theorem moreItems_accounts (n : Nat) :
    Accounts [] (fun items => items.flatMap written) (moreItems item n) := by
  induction n with
  | zero => exact .ofPure [] rfl
  | succ n ih =>
    exact .branchTail .comma rfl
      (hitem.andThen fun first => ih.andThen fun others =>
        .ofPure (first :: others) (by simp))
      (.ofPure [] rfl)

theorem moreClosedItems_accounts (close : Symbol) (n : Nat) :
    Accounts [] (fun items => items.flatMap written) (moreClosedItems item close n) := by
  induction n with
  | zero => exact .ofPure [] rfl
  | succ n ih =>
    exact .branchTail .comma rfl
      (.branch (.ofPure [] rfl)
        (hitem.andThen fun first => ih.andThen fun others =>
          .ofPure (first :: others) (by simp)))
      (.ofPure [] rfl)

theorem closedItems_accounts (close : Symbol) (what : Expectation) (trailing : Bool)
    (hclose : (TokenKind.symbol close).isStructural = true) :
    Accounts [] (fun items => items.flatMap written) (closedItems item close what trailing) := by
  have hothers : Accounts [] (fun items => items.flatMap written)
      (otherItems item close trailing) := by
    cases trailing with
    | true => exact .ofLoop (moreClosedItems_accounts hitem close)
    | false => exact .ofLoop (moreItems_accounts hitem)
  have hround : Accounts [] (fun items : List α => items.flatMap written) _ :=
    hitem.andThen fun first => hothers.andThen fun others =>
      .expecting close what hclose (.ofPure (first :: others) (by simp))
  have hnone : Accounts [] (fun items => items.flatMap written) (fun tokens => .ok ([], tokens)) :=
    .ofPure [] rfl
  intro tokens x rest hscanned h
  by_cases hs : startsWith close tokens = true
  · obtain ⟨position, tokens, rfl⟩ := exists_of_startsWith hs
    rw [closedItems_closed hs] at h
    exact hnone.behindStructural hclose hscanned h
  · have hopen : startsWith close tokens = false := by simpa using hs
    exact hround tokens x rest hscanned ((closedItems_open hopen).symm.trans h)

end Items

/-! ## Expressions -/

section Expressions

variable {expression group inner operand : Parser Expr}
  (hexpression : Accounts [] Expr.written expression)

include hexpression

theorem sequence_accounts : Accounts [] Expr.written (sequence expression) :=
  hexpression.andThen fun first =>
    (Accounts.ofLoop (moreItems_accounts hexpression)).andThen fun others =>
      .ofPure (if others.isEmpty then first else .sequence (first :: others)) (by
        cases others with
        | nil => simp
        | cons second others => simp [Expr.written])

theorem element_accounts : Accounts [] Expr.written (element expression) :=
  .branchTail .spread rfl
    (hexpression.andThen fun argument => .ofPure (Expr.spread argument) (by simp [Expr.written]))
    hexpression

theorem arguments_accounts :
    Accounts [] (fun es => es.flatMap Expr.written) (arguments expression) :=
  closedItems_accounts (element_accounts hexpression) _ _ _ rfl

theorem propertyValue_accounts (key : PropertyKey) :
    Accounts (Expr.writtenKey key) Property.written (propertyValue expression key) :=
  .expecting .colon .colonAfterKey rfl (hexpression.andThen fun value =>
    .ofPure (Property.keyed key value) (by simp [Property.written, Expr.writtenProperties]))

theorem property_accounts : Accounts [] Property.written (property expression) := by
  intro tokens x rest hscanned h
  cases tokens with
  | nil => cases h
  | cons token tokens =>
    obtain ⟨kind, position⟩ := token
    cases kind with
    | text t =>
      exact (propertyValue_accounts hexpression (.constant (.text t))).behindToken rfl hscanned h
    | number n =>
      exact (propertyValue_accounts hexpression (.constant (.number n))).behindToken rfl hscanned h
    | name t =>
      have hname : Accounts [.name t] Property.written (fun rest =>
          if startsWith .colon rest then propertyValue expression (.name t) rest
          else .ok (.shorthand t, rest)) :=
        .branch (propertyValue_accounts hexpression (.name t)) (.ofPure (Property.shorthand t) rfl)
      exact hname.behindToken rfl hscanned h
    | symbol s =>
      cases s with
      | spread =>
        have hspread : Accounts [] Property.written _ :=
          hexpression.andThen fun argument =>
            .ofPure (Property.spread argument) (by simp [Property.written, Expr.writtenProperties])
        exact hspread.behindStructural rfl hscanned h
      | openBracket =>
        have hvalue : ∀ key : Expr, Accounts key.written Property.written _ := fun key =>
          .expecting .closeBracket .closeComputedKey rfl
            (propertyValue_accounts hexpression (.computed key))
        have hkey : Accounts [] Property.written _ := hexpression.goOn hvalue
        exact hkey.behindStructural rfl hscanned h
      | _ => cases h
    | _ => cases h

omit hexpression in
theorem memberName_accounts : Accounts [] (fun t => [Lexer.word t]) memberName := by
  intro tokens x rest hscanned h
  cases tokens with
  | nil => cases h
  | cons token tokens =>
    obtain ⟨kind, position⟩ := token
    cases hm : kind.memberName? with
    | none =>
      simp only [memberName, hm] at h
      cases h
    | some t =>
      have hword := (hscanned ⟨kind, position⟩ List.mem_cons_self).word t hm
      simp only [memberName, hm] at h
      cases h
      refine Accounted.token (TokenKind.isStructural_of_memberName? hm) position ?_
      show Accounted [kind] [Lexer.word x] rest rest
      rw [hword]
      exact .refl _ _

omit hexpression in
theorem members_accounts (n : Nat) (e : Expr) : Accounts e.written Expr.written (members n e) := by
  induction n generalizing e with
  | zero => exact .ofPure e rfl
  | succ n ih =>
    exact .branchTail .dot rfl (memberName_accounts.andThen fun name => ih (.member e name))
      (.ofPure e rfl)

theorem suffixes_accounts (n : Nat) (e : Expr) :
    Accounts e.written Expr.written (suffixes expression n e) := by
  induction n generalizing e with
  | zero => exact .ofPure e rfl
  | succ n ih =>
    have hcall : ∀ args, Accounts (e.written ++ args.flatMap Expr.written) Expr.written
        (suffixes expression n (.call e args)) := by
      intro args
      rw [← Expr.writtenAll_eq]
      exact ih (.call e args)
    exact .branchTail .dot rfl (memberName_accounts.andThen fun name => ih (.member e name))
      (.branchTail .openBracket rfl
        ((sequence_accounts hexpression).andThen fun key =>
          .expecting .closeBracket .closeIndex rfl (ih (.index e key)))
        (.branchTail .openParen rfl ((arguments_accounts hexpression).andThen hcall)
          (.ofPure e rfl)))

variable (hgroup : Accounts [] Expr.written group)

include hgroup

theorem primary_accounts : Accounts [] Expr.written (primary expression group) := by
  intro tokens x rest hscanned h
  cases tokens with
  | nil => cases h
  | cons token tokens =>
    obtain ⟨kind, position⟩ := token
    have hpure : ∀ e : Expr, e.written = [kind] →
        Accounts [kind] Expr.written fun tokens => .ok (e, tokens) := .ofPure
    cases kind with
    | number n => exact (hpure _ rfl).behindToken rfl hscanned h
    | text t => exact (hpure _ rfl).behindToken rfl hscanned h
    | bool b => exact (hpure _ rfl).behindToken rfl hscanned h
    | null => exact (hpure _ rfl).behindToken rfl hscanned h
    | name t => exact (hpure _ rfl).behindToken rfl hscanned h
    | keyword k =>
      cases k with
      | this => exact (hpure _ rfl).behindToken rfl hscanned h
      | _ => cases h
    | symbol s =>
      cases s with
      | openParen =>
        have hinside : Accounts [] Expr.written _ :=
          hgroup.andThen fun e => .expecting .closeParen .closeGroup rfl (.ofPure e (by simp))
        exact hinside.behindStructural rfl hscanned h
      | openBracket =>
        have helements : Accounts [] Expr.written _ :=
          (closedItems_accounts (element_accounts hexpression) .closeBracket .closeArray
              true rfl).andThen fun elements =>
            .ofPure (Expr.array elements) (by simp [Expr.written])
        exact helements.behindStructural rfl hscanned h
      | openBrace =>
        have hproperties : Accounts [] Expr.written _ :=
          (closedItems_accounts (property_accounts hexpression) .closeBrace .closeObject
              true rfl).andThen fun properties =>
            .ofPure (Expr.object properties) (by simp [Expr.written])
        exact hproperties.behindStructural rfl hscanned h
      | _ => cases h
    | finish => cases h

theorem construction_accounts :
    Accounts [.keyword .new] Expr.written (construction expression group) :=
  (primary_accounts hexpression hgroup).andThen fun callee =>
    ((Accounts.ofLoop fun n => members_accounts n callee).behind [.keyword .new]).goOn fun callee =>
      .branchTail .openParen rfl
        ((arguments_accounts hexpression).andThen fun args =>
          .ofPure (Expr.new callee args) (by simp [Expr.written]))
        (.ofPure (Expr.new callee []) (by simp [Expr.written, Expr.writtenAll]))

theorem constructed_accounts : Accounts [] Expr.written (constructed expression group) := by
  intro tokens x rest hscanned h
  unfold constructed at h
  split at h
  · exact (construction_accounts hexpression hgroup).behindToken rfl hscanned h
  · exact primary_accounts hexpression hgroup _ x rest hscanned h

theorem suffixed_accounts : Accounts [] Expr.written (suffixed expression group) := by
  rw [suffixed_eq]
  have hsuffixes : ∀ e, Accounts e.written Expr.written fun tokens =>
      suffixes expression tokens.length e tokens :=
    fun e => .ofLoop fun n => suffixes_accounts hexpression n e
  exact (constructed_accounts hexpression hgroup).goOn hsuffixes

omit hexpression hgroup in
theorem updated_accounts (e : Expr) : Accounts e.written Expr.written (updated e) := by
  intro tokens x rest hscanned h
  unfold updated at h
  split at h
  · next op position rest' =>
    have hpure : Accounts (e.written ++ [.symbol (.update op)]) Expr.written fun tokens =>
        .ok (Expr.update op e false, tokens) := .ofPure _ rfl
    exact hpure.behindToken rfl hscanned h
  · cases h
    exact .refl _ _

theorem operand_accounts (hinner : Accounts [] Expr.written inner) :
    Accounts [] Expr.written (Parser.operand expression group inner) := by
  intro tokens x rest hscanned h
  by_cases hplain : isPrefixed (front tokens) = false
  · rw [operand_plain hplain] at h
    exact (suffixed_accounts hexpression hgroup).goOn updated_accounts tokens x rest hscanned h
  · obtain ⟨kind, position, tokens, rfl, ⟨op, hop⟩ | ⟨op, rfl⟩⟩ := exists_of_isPrefixed hplain
    · obtain rfl := TokenKind.eq_of_unary? hop
      have hunary : Accounts [op.token] Expr.written _ :=
        hinner.andThen fun e => .ofPure (Expr.unary op e) (by simp [Expr.written])
      simp only [Parser.operand, hop] at h
      exact hunary.behindToken (TokenKind.isStructural_unary op) hscanned h
    · have hupdate : Accounts [.symbol (.update op)] Expr.written _ :=
        hinner.andThen fun e => .ofPure (Expr.update op e true) (by simp [Expr.written])
      exact hupdate.behindToken rfl hscanned h

end Expressions

section Levels

variable {expression operand : Parser Expr}

theorem moreOperands_accounts (hoperand : Accounts [] Expr.written operand) (n : Nat) :
    Accounts [] Expr.writtenRow (moreOperands operand n) := by
  induction n with
  | zero => exact .ofPure [] rfl
  | succ n ih =>
    intro tokens x rest hscanned h
    cases tokens with
    | nil =>
      cases h
      exact .refl _ _
    | cons token tokens =>
      obtain ⟨kind, position⟩ := token
      cases hk : kind.binary? with
      | none =>
        simp only [moreOperands, hk] at h
        cases h
        exact .refl _ _
      | some op =>
        obtain rfl := TokenKind.eq_of_binary? (hscanned _ List.mem_cons_self) hk
        have hround : Accounts [op.token] Expr.writtenRow _ :=
          hoperand.andThen fun e => ih.andThen fun others =>
            .ofPure ((op, e) :: others) (by simp [Expr.writtenRow])
        rw [moreOperands_cons operand hk] at h
        exact hround.behindToken (TokenKind.isStructural_binary op) hscanned h

theorem operators_accounts (hoperand : Accounts [] Expr.written operand) :
    Accounts [] Expr.written (operators operand) :=
  hoperand.andThen fun first =>
    (Accounts.ofLoop (moreOperands_accounts hoperand)).andThen fun row =>
      .ofPure (OperatorTree.ofRow first row).toExpr
        (by simp)

variable (hexpression : Accounts [] Expr.written expression)

include hexpression

theorem conditional_accounts (hoperand : Accounts [] Expr.written operand) :
    Accounts [] Expr.written (conditional expression operand) :=
  (operators_accounts hoperand).andThen fun test =>
    .branchTail .question rfl
      (hexpression.andThen fun consequent => .expecting .colon .colonInConditional rfl
        (hexpression.andThen fun alternate =>
          .ofPure (Expr.conditional test consequent alternate) (by simp [Expr.written])))
      (.ofPure test rfl)

theorem assigned_accounts (target : Expr) :
    Accounts target.written Expr.written (assigned expression target) := by
  intro tokens x rest hscanned h
  unfold assigned at h
  split at h
  · next op position rest' =>
    have hvalue : Accounts (target.written ++ [.symbol (.assign op)]) Expr.written _ :=
      hexpression.andThen fun value =>
        .ofPure (Expr.assign op target value) (by simp [Expr.written])
    exact hvalue.behindToken rfl hscanned h
  · cases h
    exact .refl _ _

theorem assignment_accounts (hoperand : Accounts [] Expr.written operand) :
    Accounts [] Expr.written (assignment expression operand) := by
  rw [assignment_eq]
  exact (conditional_accounts hexpression hoperand).goOn (assigned_accounts hexpression)

end Levels

theorem Level.ofNat_accounts (n : Nat) :
    Accounts [] Expr.written (Level.ofNat n).expression ∧
      Accounts [] Expr.written (Level.ofNat n).operand := by
  induction n with
  | zero => constructor <;> (intro tokens x rest _ h; cases h)
  | succ n ih =>
    obtain ⟨hexpression, hoperand⟩ := ih
    have hlevel := assignment_accounts hexpression hoperand
    exact ⟨hlevel, operand_accounts hlevel (sequence_accounts hexpression) hoperand⟩

end Parser

/-- What the parser accepts is written in the tree, each token once and in its place: read from the
left, the tree names exactly the tokens of the source that are not punctuation. -/
theorem written_of_parse {source : Text} {limit : Int} {e : Expr} (h : parse source limit = .ok e) :
    ∃ tokens, tokenize source = .ok tokens ∧
      e.written = (kinds tokens).filter fun k => !k.isStructural := by
  obtain ⟨tokens, htokens, hwhole⟩ := parse_eq_ok.1 h
  obtain ⟨row, hrow, hkinds⟩ := exists_reads htokens
  obtain ⟨-, used, last, rfl, hused, hlast, hsequence⟩ :=
    Parser.whole_taken hwhole hkinds hrow.finish_not_mem
  refine ⟨_, htokens, ?_⟩
  have hscanned : Parser.AllScanned (used ++ [last]) := by
    intro token htoken
    rcases List.mem_append.1 htoken with hused' | hlast'
    · exact hrow.isScanned _ (hused ▸ List.mem_map_of_mem hused')
    · obtain rfl := List.mem_singleton.1 hlast'
      rw [hlast]
      exact ⟨nofun, nofun⟩
  obtain ⟨used', heq, hwritten⟩ :=
    Parser.sequence_accounts (Parser.Level.ofNat_accounts _).1 _ e _ hscanned hsequence
  obtain rfl : used = used' := List.append_cancel_right heq
  rw [hwritten, Parser.kinds_append, List.filter_append]
  simp [Parser.content, kinds, hlast, TokenKind.isStructural]

/-- A construction with a keyword for a member, a spread, updates on either side, an assignment, a
choice, two operators that are words, and an object with a computed key, a name that is key and
value at once, and a comma too many. -/
theorem written_of_parse_construction :
    let source : Text :=
      "new a.in(b++, ...c)[d = typeof x ? y : -z] in \x7bk: true, e, [f]: g,\x7d, --i"
    let key : Expr := .assign ⟨none⟩ (.name "d")
      (.conditional (.unary .typeof (.name "x")) (.name "y") (.unary .minus (.name "z")))
    let made : Expr := .new (.member (.name "a") "in")
      [.update .increment (.name "b") false, .spread (.name "c")]
    let literal : Expr := .object [.keyed (.name "k") (.constant (.bool true)), .shorthand "e",
      .keyed (.computed (.name "f")) (.name "g")]
    let e : Expr := .sequence
      [.binary .within (.index made key) literal, .update .decrement (.name "i") true]
    parse source 9 = .ok e ∧ ∃ tokens, tokenize source = .ok tokens ∧
      e.written = ((kinds tokens).filter fun k => !k.isStructural) ∧
      e.written =
        [.keyword .new, .name "a", .keyword .within, .name "b", .symbol (.update .increment),
          .name "c", .name "d", .symbol (.assign ⟨none⟩), .keyword .typeof, .name "x", .name "y",
          .symbol (.binary .minus), .name "z", .keyword .within, .name "k", .bool true, .name "e",
          .name "f", .name "g", .symbol (.update .decrement), .name "i"] := by
  intro source key made literal e
  have h : parse source 9 = .ok e := rfl
  obtain ⟨tokens, htokens, hwritten⟩ := written_of_parse h
  exact ⟨h, tokens, htokens, hwritten, rfl⟩

end SceneTemplates
