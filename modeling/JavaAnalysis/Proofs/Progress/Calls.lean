import JavaAnalysis.Proofs.Progress.Unit
import Mathlib.Logic.Relation

/-!
# Every turn and every call goes on in the text

What a production does is told by what it gives with different grammars: it has asked the grammar for
a part at a place if its result changes with what the grammar gives there. Such a place is never an
earlier one; and where it is the place at which the production began, the part is one of lower rank.
So a chain of calls that comes back to a production has gone on in the text. The same holds of each
turn of a loop that is not its last, even where an operator is cut in two or a parser comes back from
what it has tried.
Main statements: `calls_advance`, `loops_advance`, `parse_terminates`.
-/

set_option autoImplicit false
set_option linter.dupNamespace false

namespace JavaAnalysis.Parser

open Ast Lexeme TwoRuns

/-! ## Parts and calls -/

/-- The productions that refer to each other. -/
inductive Production where
  | type | marker | elementValue | typeDecl | classBody | block | stmt | expr | conditional | binary
  | unary | varInit | switchCases
deriving DecidableEq

/-- How far a production stands from those that take a lexeme before they ask for anything. -/
def Production.rank : Production → Nat
  | .type | .marker | .typeDecl | .classBody | .block | .unary | .switchCases => 0
  | .binary => 1
  | .conditional => 2
  | .elementValue | .expr => 3
  | .stmt | .varInit => 4

/-- A part that a grammar can be asked for, with what it is told. -/
inductive Query : Type → Type where
  | type : Query TypeRef
  | marker : Query AnnotationUse
  | elementValue : Query Expr
  | typeDecl (start : Nat) (modifiers : List Modifier) : Query TypeDecl
  | classBody (kind : TypeDeclKind) : Query ClassBody
  | block : Query Block
  | stmt : Query Stmt
  | expr : Query Expr
  | conditional : Query Expr
  | binary (min : Nat) : Query Expr
  | unary : Query Expr
  | varInit : Query Expr
  | switchCases : Query (TextRange × List SwitchCase)

def Query.production {α : Type} : Query α → Production
  | .type => .type
  | .marker => .marker
  | .elementValue => .elementValue
  | .typeDecl _ _ => .typeDecl
  | .classBody _ => .classBody
  | .block => .block
  | .stmt => .stmt
  | .expr => .expr
  | .conditional => .conditional
  | .binary _ => .binary
  | .unary => .unary
  | .varInit => .varInit
  | .switchCases => .switchCases

/-- The parser that a grammar has for a part. -/
def Grammar.part (g : Grammar) {α : Type} : Query α → Parser α
  | .type => g.type
  | .marker => g.marker
  | .elementValue => g.elementValue
  | .typeDecl start modifiers => g.typeDecl start modifiers
  | .classBody kind => g.classBody kind
  | .block => g.block
  | .stmt => g.stmt
  | .expr => g.expr
  | .conditional => g.conditional
  | .binary min => g.binary min
  | .unary => g.unary
  | .varInit => g.varInit
  | .switchCases => g.switchCases

/-- A part that a grammar is asked for at a place. -/
structure Call where
  {Result : Type}
  part : Query Result
  place : State

def Call.production (x : Call) : Production := x.part.production

/-- What a grammar gives. -/
def Call.run (x : Call) (g : Grammar) : Except SyntaxError (x.Result × State) :=
  g.part x.part x.place

/-- The parser has gone on in the text. -/
structure Later (raw : List Lexeme) (s t : State) : Prop where
  at_ : At raw t
  budget_eq : t.budget = s.budget
  start_lt : s.start < t.start

/-- Whatever a grammar reads, it goes on; and it never fails because it has used up a bound. -/
structure Sound (raw : List Lexeme) (g : Grammar) : Prop where
  later : ∀ x : Call, Place raw x.place → ∀ r t, x.run g = .ok (r, t) → Later raw x.place t
  error : ∀ x : Call, Place raw x.place → ∀ e, x.run g = .error e → ¬ e.IsTooDeep

/--
With some grammar, what the production of `x` gives changes with what the grammar gives for `y`, and
for nothing else: the production has asked for it.
-/
def Asks (raw : List Lexeme) (x y : Call) : Prop :=
  ∃ g g', Sound raw g ∧ (∀ z, z ≠ y → z.run g = z.run g') ∧ x.run (deeper g) ≠ x.run (deeper g')

/-- One call is for a later place than another, or for the same place and a lower rank. -/
def Below (y x : Call) : Prop :=
  x.place.start < y.place.start ∨
    x.place.start = y.place.start ∧ y.production.rank < x.production.rank

variable {raw : List Lexeme} {g g' : Grammar} {s s' t : State} {c : TwoRuns} {m : Nat}

theorem Production.rank_lt (p : Production) : p.rank < 5 := by cases p <;> decide

theorem Place.later (hs : Significant raw) (h : Place raw s) (hlater : Later raw s t) :
    Place raw t := by
  have hlt := (h.at_.start_lt_iff hs hlater.at_).1 hlater.start_lt
  exact ⟨hlater.at_, hlater.budget_eq ▸ Nat.lt_trans hlt h.left_lt⟩

/-! ## Calls as parts of two runs -/

/-- Two runs that differ in nothing. -/
def TwoRuns.single (hs : Significant raw) (budget : Nat) : TwoRuns where
  raw := raw
  significant := hs
  budget := budget
  budget' := budget

theorem Place.twin (hs : Significant raw) (h : Place raw s) : (single hs s.budget).Twin s s :=
  ⟨h.at_, rfl, rfl, h.left_lt, h.left_lt⟩

theorem Ready.of_calls (h : ∀ {α : Type} (x : Query α), c.Within m x.production.rank (g.part x)
    (g'.part x)) : Ready c m g g' where
  type := h .type
  marker := h .marker
  elementValue := h .elementValue
  typeDecl start ms := h (.typeDecl start ms)
  classBody kind := h (.classBody kind)
  block := h .block
  stmt := h .stmt
  expr := h .expr
  conditional := h .conditional
  binary min := h (.binary min)
  unary := h .unary
  varInit := h .varInit
  switchCases := h .switchCases

theorem Ready.part (hg : Ready c m g g') {α : Type} (x : Query α) :
    c.Within m x.production.rank (g.part x) (g'.part x) := by
  cases x with
  | type => exact hg.type
  | marker => exact hg.marker
  | elementValue => exact hg.elementValue
  | typeDecl start ms => exact hg.typeDecl start ms
  | classBody kind => exact hg.classBody kind
  | block => exact hg.block
  | stmt => exact hg.stmt
  | expr => exact hg.expr
  | conditional => exact hg.conditional
  | binary min => exact hg.binary min
  | unary => exact hg.unary
  | varInit => exact hg.varInit
  | switchCases => exact hg.switchCases

theorem TwoRuns.Twin.single {hs : Significant raw} {budget : Nat} (h : (single hs budget).Twin s s') :
    s' = s ∧ Place raw s ∧ s.budget = budget := by
  obtain ⟨hat, hbudget, rfl, hlt, -⟩ := h
  have hlt : s.left < budget := hlt
  have hbudget : s.budget = budget := hbudget
  refine ⟨?_, ⟨hat, hbudget ▸ hlt⟩, hbudget⟩
  show { s with budget := budget } = s
  rw [← hbudget]

/-- A sound grammar, and one that gives the same below a weight, settle what is below it. -/
theorem Sound.ready_of_eq (hs : Significant raw) {budget : Nat} (hg : Sound raw g)
    (heq : ∀ y : Call, Place raw y.place → 8 * y.place.left + y.production.rank < m →
      y.run g = y.run g') : Ready (single hs budget) m g g' := by
  refine .of_calls fun {α} x s s' h hlt => ?_
  obtain ⟨rfl, hplace, hbudget⟩ := h.single
  have hrun : g.part x s' = g'.part x s' := heq ⟨x, s'⟩ hplace hlt
  unfold TwoRuns.Settles TwoRuns.Agree
  rw [← hrun]
  cases hg' : g.part x s' with
  | error e => exact ⟨rfl, hg.error ⟨x, s'⟩ hplace e hg'⟩
  | ok r =>
    obtain ⟨hat, hbudget', hstart⟩ := hg.later ⟨x, s'⟩ hplace r.1 r.2 hg'
    have hleft := (hplace.at_.start_lt_iff hs hat).1 hstart
    have hlt' : r.2.left < budget := Nat.lt_trans hleft h.left_lt
    have hb : r.2.budget = budget := hbudget'.trans hbudget
    have htwin : r.2 = { r.2 with budget := budget } := by rw [← hb]
    exact ⟨r.2, rfl, ⟨hat, hb, htwin, hlt', hlt'⟩, hleft⟩

theorem Sound.ready (hg : Sound raw g) (hs : Significant raw) (budget m : Nat) :
    Ready (single hs budget) m g g :=
  hg.ready_of_eq hs fun _ _ _ => rfl

/-- A grammar that settles with itself is sound. -/
theorem Sound.of_settles (hs : Significant raw)
    (h : ∀ x : Call, Place raw x.place → (single hs x.place.budget).Settles (g.part x.part)
      (g.part x.part) x.place x.place fun _ t => t.left < x.place.left) : Sound raw g := by
  constructor
  · intro x hx r t hrun
    have hsettles := h x hx
    unfold TwoRuns.Settles TwoRuns.Agree at hsettles
    rw [show g.part x.part x.place = .ok (r, t) from hrun] at hsettles
    obtain ⟨t', -, htwin, hleft⟩ := hsettles
    exact ⟨htwin.at_, htwin.budget_eq, (hx.at_.start_lt_iff hs htwin.at_).2 hleft⟩
  · intro x hx e hrun
    have hsettles := h x hx
    unfold TwoRuns.Settles TwoRuns.Agree at hsettles
    rw [show g.part x.part x.place = .error e from hrun] at hsettles
    exact hsettles.2

/-- Two runs of parsers that settle with each other give the same. -/
theorem eq_of_settles {hs : Significant raw} {budget : Nat} {α : Type} {p p' : Parser α}
    {post : α → State → Prop} (h : (single hs budget).Settles p p' s s post) : p s = p' s := by
  unfold TwoRuns.Settles TwoRuns.Agree at h
  split at h
  · rename_i hrun
    obtain ⟨t', hrun', htwin, -⟩ := h
    rw [hrun, hrun', htwin.single.1]
  · rename_i hrun
    rw [hrun, h.1]

/-! ## Chains of calls -/

/-- A production is told by what the grammar gives for the calls that are below it. -/
theorem deeper_congr (hs : Significant raw) {x : Call} (h : Place raw x.place) (hg : Sound raw g)
    (heq : ∀ y : Call, Place raw y.place → Below y x → y.run g = y.run g') :
    x.run (deeper g) = x.run (deeper g') := by
  have hready : Ready (single hs x.place.budget) (8 * x.place.left + x.production.rank) g g' := by
    refine hg.ready_of_eq hs fun y hy hlt => heq y hy ?_
    have hrank := x.production.rank_lt
    rcases h.at_.compare hs hy.at_ with hlater | ⟨hstart, hleft⟩ | hearlier
    · exact .inl hlater.1
    · exact .inr ⟨hstart, by omega⟩
    · omega
  exact eq_of_settles (hready.deeper.part x.part (h.twin hs) (Nat.lt_succ_self _))

theorem Asks.below (hs : Significant raw) {x y : Call} (h : Place raw x.place) (hxy : Asks raw x y) :
    Place raw y.place ∧ Below y x := by
  obtain ⟨g, g', hg, heq, hne⟩ := hxy
  by_contra hnot
  refine hne (deeper_congr hs h hg fun z hz hbelow => heq z ?_)
  rintro rfl
  exact hnot ⟨hz, hbelow⟩

/-- Along a chain of calls the parser goes on, or it stays and comes to lower ranks. -/
theorem below_of_chain (hs : Significant raw) {x y : Call} (h : Place raw x.place)
    (hxy : Relation.TransGen (Asks raw) x y) : Place raw y.place ∧ Below y x := by
  induction hxy with
  | single hxy => exact hxy.below hs h
  | tail _ hyz ih =>
    obtain ⟨hy, hbelow⟩ := ih
    obtain ⟨hz, hbelow'⟩ := hyz.below hs hy
    refine ⟨hz, ?_⟩
    unfold Below at hbelow hbelow' ⊢
    omega

/-- A chain of calls that comes back to a production has gone on in the text. -/
theorem calls_advance (hs : Significant raw) {x y : Call} (h : Place raw x.place)
    (hxy : Relation.TransGen (Asks raw) x y) (hproduction : x.production = y.production) :
    x.place.start < y.place.start := by
  obtain ⟨-, hlater | ⟨-, hrank⟩⟩ := below_of_chain hs h hxy
  · exact hlater
  · rw [hproduction] at hrank
    exact absurd hrank (Nat.lt_irrefl _)

/-! ## The grammar without bounds -/

/-- The grammar that is of a given depth at each place. -/
def grammarBy (depth : State → Nat) : Grammar where
  type s := (grammar (depth s)).type s
  marker s := (grammar (depth s)).marker s
  elementValue s := (grammar (depth s)).elementValue s
  typeDecl start modifiers s := (grammar (depth s)).typeDecl start modifiers s
  classBody kind s := (grammar (depth s)).classBody kind s
  block s := (grammar (depth s)).block s
  stmt s := (grammar (depth s)).stmt s
  expr s := (grammar (depth s)).expr s
  conditional s := (grammar (depth s)).conditional s
  binary min s := (grammar (depth s)).binary min s
  unary s := (grammar (depth s)).unary s
  varInit s := (grammar (depth s)).varInit s
  switchCases s := (grammar (depth s)).switchCases s

theorem run_grammarBy (depth : State → Nat) (x : Call) :
    x.run (grammarBy depth) = x.run (grammar (depth x.place)) := by
  obtain ⟨part, place⟩ := x
  cases part <;> rfl

/-- The grammar that is, at each place, as deep as what is left to read may need. -/
def unboundedGrammar : Grammar := grammarBy fun s => levelsPerCharacter * (s.left + 1)

/-- Wherever a grammar is deep enough, it gives what the one without bounds gives. -/
theorem run_unboundedGrammar_eq (hs : Significant raw) {x : Call} (h : Place raw x.place) {n : Nat}
    (hn : 8 * x.place.left + x.production.rank < n) : x.run unboundedGrammar = x.run (grammar n) := by
  have hrank := x.production.rank_lt
  rw [unboundedGrammar, run_grammarBy, grammar_eq, grammar_eq]
  have hready : Ready (single hs x.place.budget) (8 * x.place.left + x.production.rank + 1)
      (grammarOver .none (levelsPerCharacter * (x.place.left + 1))) (grammarOver .none n) := by
    refine ready_grammarOver _ _ _ ?_ hn
    unfold levelsPerCharacter
    omega
  exact eq_of_settles (hready.part x.part (h.twin hs) (Nat.lt_succ_self _))

theorem sound_unboundedGrammar (hs : Significant raw) : Sound raw unboundedGrammar := by
  refine .of_settles hs fun x h => ?_
  have hready := ready_grammarOver (single hs x.place.budget) .none .none
    (Nat.le_refl (8 * x.place.left + x.production.rank + 1)) (Nat.le_refl _)
  have hsettles := hready.part x.part (h.twin hs) (Nat.lt_succ_self _)
  rw [← grammar_eq] at hsettles
  have hrun : unboundedGrammar.part x.part x.place = (grammar _).part x.part x.place :=
    run_unboundedGrammar_eq hs h (Nat.lt_succ_self _)
  unfold Settles at hsettles ⊢
  rwa [hrun]

/-- The grammar without bounds is what its own productions make of it. -/
theorem deeper_unboundedGrammar (hs : Significant raw) {x : Call} (h : Place raw x.place) :
    x.run (deeper unboundedGrammar) = x.run unboundedGrammar := by
  have hrank := x.production.rank_lt
  rw [run_unboundedGrammar_eq hs h (n := 8 * x.place.left + 5 + 1) (by omega), grammar_eq]
  refine deeper_congr hs h (sound_unboundedGrammar hs) fun y hy hbelow => ?_
  rw [← grammar_eq]
  refine run_unboundedGrammar_eq hs hy ?_
  have hle : x.place.start ≤ y.place.start := by
    unfold Below at hbelow
    omega
  have hleft := (h.at_.start_le_iff hs hy.at_).1 hle
  have hrank' := y.production.rank_lt
  omega

/-- A file is parsed with the grammar without bounds. -/
theorem parse_unboundedGrammar (level : LanguageLevel) {lexemes : List Lexeme}
    (hs : Significant (lexemes.filter fun x => !x.kind.isTrivia)) :
    parse level lexemes = (compilationUnit unboundedGrammar (State.ofLexemes level lexemes).final.stop
      (State.ofLexemes level lexemes)).map (·.1) := by
  have hplace := place_ofLexemes level hs
  have hready : Ready (single hs (State.ofLexemes level lexemes).budget)
      (8 * (State.ofLexemes level lexemes).left + 1) unboundedGrammar
      (grammar (levelsPerCharacter * (State.ofLexemes level lexemes).budget)) := by
    refine (sound_unboundedGrammar hs).ready_of_eq hs fun y hy hlt =>
      run_unboundedGrammar_eq hs hy ?_
    have hrank := y.production.rank_lt
    have hleft := hplace.left_lt
    unfold levelsPerCharacter
    omega
  rw [eq_of_settles (compilationUnit_settles hready (hplace.twin hs) (Nat.lt_succ_self _) _)]
  rfl

/-- Behind a prefix operator the production of such expressions asks for another one of them. -/
theorem unary_asks_unary (hs : Significant raw) (h : Place raw s) {op : UnaryOp}
    (hop : UnaryOp.ofToken? (s.kind 0) = some op) :
    ∃ t, Later raw s t ∧ Asks raw ⟨.unary, s⟩ ⟨.unary, t⟩ := by
  classical
  have hkind : s.kind 0 ≠ .endOfFile := by
    intro heq
    rw [heq] at hop
    cases hop
  obtain ⟨xs, hrest, -⟩ := h.at_.step_over hs hkind
  have hx : (s.lexeme 0).kind ≠ .endOfFile := hkind
  have hrun := advance_eq hrest
  have hadvance := advance_settles (h.twin hs) hkind
  unfold TwoRuns.Settles TwoRuns.Agree at hadvance
  rw [hrun] at hadvance
  generalize (if (s.lexeme 0).kind = .endOfFile then s else _) = t at hrun hadvance
  obtain ⟨t', -, htwin, hleft, -⟩ := hadvance
  have hunary (g : Grammar) : unary g s = (g.unary t >>= fun r =>
      .ok (.unary (r.2.rangeFrom s.start) op r.1, r.2)) := by
    unfold unary
    simp only [get_bind_run, hop]
    show (advance s >>= fun _ => _) = _
    rw [hrun]
    rfl
  -- The other grammar gives an error there that this one does not give.
  obtain ⟨e', he'⟩ : ∃ e', unboundedGrammar.unary t ≠ .error e' := by
    by_contra hall
    have hone (message : String) : unboundedGrammar.unary t = .error ⟨message, .empty 0⟩ :=
      not_not.1 fun hne => hall ⟨_, hne⟩
    have := (hone "a").symm.trans (hone "b")
    simp at this
  let other : Grammar :=
    { unboundedGrammar with unary := fun u => if u = t then .error e' else unboundedGrammar.unary u }
  refine ⟨t, ⟨htwin.at_, htwin.budget_eq, (h.at_.start_lt_iff hs htwin.at_).2 hleft⟩,
    unboundedGrammar, other, sound_unboundedGrammar hs, ?_, ?_⟩
  · rintro ⟨part, place⟩ hne
    cases part with
    | unary =>
      have hplace : place ≠ t := fun heq => hne (by rw [heq])
      exact (if_neg hplace).symm
    | _ => rfl
  · show unary unboundedGrammar s ≠ unary other s
    have hother : other.unary t = .error e' := if_pos rfl
    rw [hunary, hunary, hother]
    intro heq
    cases hg : unboundedGrammar.unary t with
    | error e =>
      rw [hg] at heq he'
      exact he' heq
    | ok r =>
      rw [hg] at heq
      cases heq

/-! ## Turns -/

/--
Each turn of a loop is its last, which ends with a result that does not depend on how many more there
may be and is not that of a loop that has used them up, or what the loop gives is made of what it gives
where the parser has gone on.
-/
def AdvancesFrom (raw : List Lexeme) {α β : Type} (loop : Nat → β → Parser α) : Prop :=
  ∀ b s, Place raw s →
    (∃ r, (∀ e, r = .error e → ¬ e.IsTooDeep) ∧ ∀ n, loop (n + 1) b s = r) ∨
    ∃ (b' : β) (f : α → α) (t : State), Later raw s t ∧
      ∀ n, loop (n + 1) b s = (loop n b' t).map fun r => (f r.1, r.2)

/-- The same of a loop that carries nothing along. -/
def Advances (raw : List Lexeme) {α : Type} (loop : Nat → Parser α) : Prop :=
  AdvancesFrom raw fun n (_ : Unit) => loop n

/-- Every loop of the productions goes on with each turn that is not its last. -/
structure LoopsAdvance (raw : List Lexeme) (g : Grammar) : Prop where
  members : ∀ more owner, Advances raw (repeatWhile more (member? g owner))
  stmts : ∀ more, Advances raw (repeatWhile more g.stmt)
  switchCases : ∀ more, Advances raw (repeatWhile more (switchCase g))
  caseLabels : Advances raw (caseLabelsUpTo g)
  caseValues : Advances raw (separatedUpTo .comma g.conditional)
  enumConstants : ∀ stop, Advances raw (terminatedUpTo .comma stop (enumConstant g))
  modifiers : ∀ more, Advances raw (repeatWhile more (modifier g))
  markers : ∀ more, Advances raw (repeatWhile more g.marker)
  elementPairs : Advances raw (separatedUpTo .comma (elementPair g))
  elementValues : ∀ stop, Advances raw (terminatedUpTo .comma stop g.elementValue)
  typeArgs : Advances raw (separatedUpTo .comma (typeArg g))
  typeParams : Advances raw (separatedUpTo .comma (typeParam g))
  types : ∀ separator, separator ≠ .endOfFile → Advances raw (separatedUpTo separator g.type)
  typeSegments : ∀ start, AdvancesFrom raw (classTypeFrom g start)
  nameSegments : Advances raw segmentsUpTo
  brackets : Advances raw bracketsUpTo
  resources : ∀ stop, Advances raw (terminatedUpTo .semicolon stop (resource g))
  catches : ∀ more, Advances raw (repeatWhile more (catchClause g))
  arrayItems : ∀ stop, Advances raw (terminatedUpTo .comma stop g.varInit)
  dimensions : ∀ more, Advances raw (repeatWhile more (dimExpr g))
  operators : ∀ start min, AdvancesFrom raw (binaryFrom g start min)
  postfixes : ∀ start, AdvancesFrom raw (postfixFrom g start)
  arguments : Advances raw (separatedUpTo .comma g.expr)
  params : Advances raw (separatedUpTo .comma (formalParam g))
  names : Advances raw (separatedUpTo .comma (implicitParam <$> ident))
  fragments : Advances raw (separatedUpTo .comma (ident >>= varFragment g))
  imports : ∀ more, Advances raw (repeatWhile more importDecl?)
  topLevel : ∀ more, Advances raw (repeatWhile more (topLevel? g))

section

variable {α β : Type} {p : Parser α} {more stop : State → Bool} {kind : TokenKind}

theorem AdvancesFrom.of_turns (hs : Significant raw) {loop : Nat → β → Parser α} {slack : Nat}
    (h : ∀ budget limit, Turns (single hs budget) loop loop slack limit) :
    AdvancesFrom raw loop := by
  intro b s hplace
  rcases h s.budget (s.left + 1) b s s (hplace.twin hs) (Nat.lt_succ_self _) with
    ⟨r, r', hp, -, hagree⟩ | ⟨b', f, t, t', ht, hlt, hp, -⟩
  · refine .inl ⟨r, ?_, hp⟩
    rintro e rfl
    exact hagree.2
  · exact .inr ⟨b', f, t, ⟨ht.at_, ht.budget_eq, (hplace.at_.start_lt_iff hs ht.at_).2 hlt⟩, hp⟩

/-- What the items of a loop take is what its turns take. -/
def TakesOn (hs : Significant raw) (p : Parser α) : Prop :=
  ∀ budget limit, (single hs budget).Onward limit p p

theorem TakesOn.repeatWhile {hs : Significant raw} (hp : TakesOn hs p) (more : State → Bool) :
    Advances raw (repeatWhile more p) :=
  .of_turns hs fun budget limit => repeatWhile_turns
    (fun s s' h => by rw [h.single.1]) (hp budget limit)

theorem TakesOn.separatedUpTo {hs : Significant raw} (hp : TakesOn hs p)
    (hkind : kind ≠ .endOfFile) : Advances raw (separatedUpTo kind p) :=
  .of_turns hs fun budget limit => separatedUpTo_turns hkind (hp budget limit)

theorem TakesOn.terminatedUpTo {hs : Significant raw} (hp : TakesOn hs p)
    (hkind : kind ≠ .endOfFile) (stop : State → Bool) : Advances raw (terminatedUpTo kind stop p) :=
  .of_turns hs fun budget limit => terminatedUpTo_turns hkind
    (fun s s' h => by rw [h.single.1]) (hp budget limit)

/-- A parser that takes something with any grammar that is ready does so with a sound one. -/
theorem Sound.takesOn (hg : Sound raw g) (hs : Significant raw)
    (hp : ∀ {budget m : Nat} {s s' : State}, Ready (single hs budget) m g g →
      (single hs budget).Twin s s' → 8 * s.left + 4 < m →
      (single hs budget).Settles p p s s' fun _ t => t.left < s.left) : TakesOn hs p :=
  fun budget _ s _ h _ => hp (hg.ready hs budget (8 * s.left + 5)) h (Nat.lt_succ_self _)

end

theorem loops_advance (hs : Significant raw) (hg : Sound raw g) : LoopsAdvance raw g where
  members more owner :=
    (hg.takesOn hs fun hg h hm => member?_settles hg owner h (by omega)).repeatWhile more
  stmts more := (hg.takesOn hs fun hg h hm => hg.stmt h hm).repeatWhile more
  switchCases more :=
    (hg.takesOn hs fun hg h hm => switchCase_settles hg h (by omega)).repeatWhile more
  caseLabels := .of_turns hs fun budget limit =>
    caseLabelsUpTo_turns (hg.ready hs budget (8 * limit)) (Nat.le_add_right _ _)
  caseValues :=
    (hg.takesOn hs fun hg h hm => hg.conditional h (by omega)).separatedUpTo (by decide)
  enumConstants stop := (hg.takesOn hs fun hg h hm =>
    enumConstant_settles hg h (by omega)).terminatedUpTo (by decide) stop
  modifiers more :=
    (hg.takesOn hs fun hg h hm => modifier_settles hg h (by omega)).repeatWhile more
  markers more := (hg.takesOn hs fun hg h hm => hg.marker h (by omega)).repeatWhile more
  elementPairs := (hg.takesOn hs fun hg h hm =>
    elementPair_settles hg h (by omega)).separatedUpTo (by decide)
  elementValues stop := (hg.takesOn hs fun hg h hm =>
    hg.elementValue h (by omega)).terminatedUpTo (by decide) stop
  typeArgs :=
    (hg.takesOn hs fun hg h hm => typeArg_settles hg h (by omega)).separatedUpTo (by decide)
  typeParams :=
    (hg.takesOn hs fun hg h hm => typeParam_settles hg h (by omega)).separatedUpTo (by decide)
  types _ hne := (hg.takesOn hs fun hg h hm => hg.type h (by omega)).separatedUpTo hne
  typeSegments _ := .of_turns hs fun budget limit =>
    classTypeFrom_turns (hg.ready hs budget (8 * limit)) (Nat.le_add_right _ _)
  nameSegments := .of_turns hs fun _ _ => segmentsUpTo_turns
  brackets := .of_turns hs fun _ _ => bracketsUpTo_turns
  resources stop := (hg.takesOn hs fun hg h hm =>
    resource_settles hg h (by omega)).terminatedUpTo (by decide) stop
  catches more :=
    (hg.takesOn hs fun hg h hm => catchClause_settles hg h (by omega)).repeatWhile more
  arrayItems stop :=
    (hg.takesOn hs fun hg h hm => hg.varInit h hm).terminatedUpTo (by decide) stop
  dimensions more :=
    (hg.takesOn hs fun hg h hm => dimExpr_settles hg h (by omega)).repeatWhile more
  operators _ _ := .of_turns hs fun budget limit =>
    binaryFrom_turns (hg.ready hs budget (8 * limit)) (Nat.le_add_right _ _)
  postfixes _ := .of_turns hs fun budget limit =>
    postfixFrom_turns (hg.ready hs budget (8 * limit)) (Nat.le_add_right _ _)
  arguments := (hg.takesOn hs fun hg h hm => hg.expr h (by omega)).separatedUpTo (by decide)
  params := (hg.takesOn hs fun hg h hm =>
    formalParam_settles hg h (by omega)).separatedUpTo (by decide)
  names := (hg.takesOn hs fun _ h _ =>
    (ident_settles h).map fun _ _ hlt => hlt).separatedUpTo (by decide)
  fragments := (hg.takesOn hs fun hg h hm =>
    namedFragment_settles hg h (by omega)).separatedUpTo (by decide)
  imports more := (hg.takesOn hs fun _ h _ => importDecl?_settles h).repeatWhile more
  topLevel more :=
    (hg.takesOn hs fun hg h hm => topLevel?_settles hg h (by omega)).repeatWhile more

/-! ## Whole files -/

/-- Calls are told by what is below them, so a chain that comes back has gone on. -/
structure CallsAdvance (raw : List Lexeme) : Prop where
  told : ∀ g g' x, Place raw x.place → Sound raw g →
    (∀ y, Place raw y.place → Below y x → y.run g = y.run g') →
    x.run (deeper g) = x.run (deeper g')
  chain : ∀ x y, Place raw x.place → Relation.TransGen (Asks raw) x y →
    x.production = y.production → x.place.start < y.place.start

/-- The grammar without bounds is that of its own productions, and a file is parsed with it. -/
structure Solved (level : LanguageLevel) (raw lexemes : List Lexeme) : Prop where
  place : Place raw (State.ofLexemes level lexemes)
  sound : Sound raw unboundedGrammar
  fixed : ∀ x : Call, Place raw x.place →
    x.run (deeper unboundedGrammar) = x.run unboundedGrammar
  parsed : parse level lexemes = (compilationUnit unboundedGrammar
    (State.ofLexemes level lexemes).final.stop (State.ofLexemes level lexemes)).map (·.1)

/--
Parsing comes to an end for every text that can be cut into lexemes: no bound is ever used up, so the
result is that of the productions without bounds; each turn of a loop that is not its last goes on in
the text, and so does each chain of calls that comes back to a production.
-/
theorem parse_terminates {level : LanguageLevel} {text : String} {lexemes : List Lexeme}
    (hscan : scan level text = .ok lexemes) :
    Unbounded level lexemes ∧
      Solved level (lexemes.filter fun x => !x.kind.isTrivia) lexemes ∧
      (∀ g, Sound (lexemes.filter fun x => !x.kind.isTrivia) g →
        LoopsAdvance (lexemes.filter fun x => !x.kind.isTrivia) g) ∧
      CallsAdvance (lexemes.filter fun x => !x.kind.isTrivia) := by
  have hs := significant_of_scan hscan
  refine ⟨parse_unbounded level hs, ?_, fun g hg => loops_advance hs hg, ?_⟩
  · exact ⟨place_ofLexemes level hs, sound_unboundedGrammar hs,
      fun x h => deeper_unboundedGrammar hs h, parse_unboundedGrammar level hs⟩
  · exact ⟨fun g g' x h hg heq => deeper_congr hs h hg heq,
      fun x y h hxy hproduction => calls_advance hs h hxy hproduction⟩

/-- A file that breaks off inside of two lists in angle brackets and a parenthesis. -/
theorem parse_terminates_broken : ∃ lexemes e,
    scan .standard "class A\x7bL<L<S>>x=(a" = .ok lexemes ∧ parse .standard lexemes = .error e ∧
      ¬ e.IsTooDeep ∧ Solved .standard (lexemes.filter fun x => !x.kind.isTrivia) lexemes ∧
      (∀ g, Sound (lexemes.filter fun x => !x.kind.isTrivia) g →
        LoopsAdvance (lexemes.filter fun x => !x.kind.isTrivia) g) ∧
      CallsAdvance (lexemes.filter fun x => !x.kind.isTrivia) := by
  have hparse : ((scan .standard "class A\x7bL<L<S>>x=(a").toOption.bind fun lexemes =>
      match parse .standard lexemes with
      | .error e => some e
      | .ok _ => none).isSome := by
    decide +kernel
  obtain ⟨e, he⟩ := Option.isSome_iff_exists.1 hparse
  obtain ⟨lexemes, hscan, he⟩ := Option.bind_eq_some_iff.1 he
  have hscan := toOption_eq_some.1 hscan
  split at he
  · rename_i e hparse
    obtain ⟨hunbounded, hsolved, hloops, hcalls⟩ := parse_terminates hscan
    exact ⟨lexemes, e, hscan, hparse, hunbounded.error e hparse, hsolved, hloops, hcalls⟩
  · cases he

end JavaAnalysis.Parser
