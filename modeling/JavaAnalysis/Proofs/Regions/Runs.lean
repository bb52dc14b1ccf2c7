import JavaAnalysis.Proofs.Parser.Angles
import JavaAnalysis.Proofs.Parser.Lists
import JavaAnalysis.Proofs.Regions.Cover

/-!
# Parsers that leave regions over what they take

`Filled` says that lexemes were taken between two places and that regions lie over them, `Whole` that
one region lies over all of them. `Runs` is what is shown for every production: if it does not fail,
what is told of its result holds, and if it fails, it does so where a lexeme of the file or the rest
of an operator starts.
-/

set_option autoImplicit false
set_option linter.dupNamespace false

namespace JavaAnalysis.Parser

open Ast Lexeme

/-! ## Between two places -/

/-- The lexemes are those that were taken between two places, and there is one at least. -/
structure Taken (s t : State) (xs : List Lexeme) : Prop where
  consumed_eq : t.consumed = xs.reverse ++ s.consumed
  first : ∃ x, xs.head? = some x ∧ x.start = s.start

/-- Lexemes were taken between two places, and the regions lie over them. -/
def Filled (s t : State) (rs : List Region) : Prop := ∃ xs, Taken s t xs ∧ Over xs rs

/-- The regions lie over what was taken between two places, which may be nothing. -/
inductive Crossed : State → State → List Region → Prop where
  | stay {s : State} : Crossed s s []
  | go {s t : State} {rs : List Region} : Filled s t rs → Crossed s t rs

/-- The region lies over all that was taken between two places. -/
def Whole (s t : State) (r : Region) : Prop := ∃ xs, Taken s t xs ∧ r.Spans xs

/-- What was taken between two places, which may be nothing, is written as the pieces. -/
def Spells (s t : State) (ps : List Piece) : Prop :=
  ∃ xs, t.consumed = xs.reverse ++ s.consumed ∧ Composed ps xs

/-- A lexeme of the kind was taken. -/
def Steps (s t : State) (kind : TokenKind) : Prop := ∃ x, Taken s t [x] ∧ x.kind = kind

/-- The name was taken. -/
def Names (s t : State) (name : Ident) : Prop :=
  ∃ xs, Taken s t xs ∧ (Piece.name name).Written xs

/-- The pair of brackets was taken. -/
def Pairs (s t : State) (pair : TextRange) : Prop :=
  ∃ xs, Taken s t xs ∧ (Piece.pair pair).Written xs

/-- A result that is there lies over all that was taken; without one, nothing was taken. -/
def WholeIfAny {α : Type} (s : State) (region : α → Region) : Option α → State → Prop :=
  Perhaps s fun t v => Whole s t (region v)

section

variable {s t u : State} {xs ys : List Lexeme} {r r' : Region} {as bs rs : List Region}
  {ps qs : List Piece}

theorem Taken.append (h : Taken s t xs) (h' : Taken t u ys) : Taken s u (xs ++ ys) := by
  obtain ⟨x, hx, hstart⟩ := h.first
  refine ⟨?_, x, ?_, hstart⟩
  · rw [h'.consumed_eq, h.consumed_eq, List.reverse_append, List.append_assoc]
  · rw [List.head?_append, hx, Option.some_or]

theorem Taken.stop_eq (h : Taken s t xs) {y : Lexeme} (hy : xs.getLast? = some y) :
    t.previousStop = y.stop := by
  obtain ⟨init, rfl⟩ := List.getLast?_eq_some_iff.1 hy
  rw [State.previousStop, h.consumed_eq, List.reverse_append]
  rfl

theorem Taken.filled (h : Taken s t xs) : Filled s t [] := ⟨xs, h, .bare xs⟩

/-- There is only one row of lexemes that was taken. -/
theorem Taken.unique (h : Taken s t xs) (h' : Taken s t ys) : ys = xs := by
  have hconsumed := h.consumed_eq
  rw [h'.consumed_eq] at hconsumed
  exact List.reverse_injective (List.append_cancel_right hconsumed)

namespace Filled

/-- More is taken. -/
theorem append (h : Filled s t as) (h' : Filled t u bs) : Filled s u (as ++ bs) := by
  obtain ⟨xs, hxs, has⟩ := h
  obtain ⟨ys, hys, hbs⟩ := h'
  exact ⟨xs ++ ys, hxs.append hys, has.append hbs⟩

/-- More is taken, or nothing. -/
theorem then_ (h : Filled s t as) (h' : Crossed t u bs) : Filled s u (as ++ bs) := by
  cases h' with
  | stay => rwa [List.append_nil]
  | go h' => exact h.append h'

/-- Some of the regions are forgotten. -/
theorem bare (h : Filled s t as) : Filled s t [] := by
  obtain ⟨xs, hxs, -⟩ := h
  exact ⟨xs, hxs, .bare xs⟩

end Filled

namespace Crossed

theorem append (h : Crossed s t as) (h' : Crossed t u bs) : Crossed s u (as ++ bs) := by
  cases h with
  | stay => exact h'
  | go h => exact .go (h.then_ h')

theorem then_ (h : Crossed s t as) (h' : Filled t u bs) : Filled s u (as ++ bs) := by
  cases h with
  | stay => exact h'
  | go h => exact h.append h'

end Crossed

namespace Whole

theorem filled (h : Whole s t r) : Filled s t [r] := by
  obtain ⟨xs, hxs, hr⟩ := h
  exact ⟨xs, hxs, .single hr⟩

theorem range_eq (h : Whole s t r) : r.range = ⟨s.start, t.previousStop⟩ := by
  obtain ⟨xs, hxs, hspans⟩ := h
  obtain ⟨x, y, hx, hy, hrange⟩ := hspans.ends
  obtain ⟨z, hz, hstart⟩ := hxs.first
  cases hx.symm.trans hz
  rw [hrange, hstart, hxs.stop_eq hy]

/-- Another region lies over the same lexemes. -/
theorem mono (h : Whole s t r) (hr : ∀ xs, r.Spans xs → r'.Spans xs) : Whole s t r' := by
  obtain ⟨xs, hxs, hspans⟩ := h
  exact ⟨xs, hxs, hr xs hspans⟩

/-- A region around the one that lies there. -/
theorem wrap (h : Whole s t r) [r'.Plain] (hrange : r'.range = r.range)
    (hinside : r'.inside = [r]) : Whole s t r' :=
  h.mono fun xs hspans =>
    ⟨hrange ▸ hspans.ends, Region.Plain.spelled xs, by rw [hinside]; exact .single hspans⟩

theorem spells (h : Whole s t r) : Spells s t [.span r.range] := by
  obtain ⟨xs, hxs, hspans⟩ := h
  exact ⟨xs, hxs.consumed_eq, .single hspans.ends⟩

end Whole

/-- A region from the first to the last lexeme that was taken, with the given ones inside. -/
theorem Filled.over (h : Filled s t rs) (hrange : r.range = ⟨s.start, t.previousStop⟩)
    (hinside : r.inside = rs) (hspelled : ∀ xs, Taken s t xs → r.Spelled xs) : Whole s t r := by
  obtain ⟨xs, hxs, hover⟩ := h
  obtain ⟨x, hx, hstart⟩ := hxs.first
  have hne : xs ≠ [] := by
    intro hnil
    rw [hnil] at hx
    cases hx
  have hlast := List.getLast?_eq_some_getLast hne
  refine ⟨xs, hxs, ⟨x, xs.getLast hne, hx, hlast, ?_⟩, hspelled xs hxs, hinside ▸ hover⟩
  rw [hrange, hxs.stop_eq hlast, hstart]

theorem Filled.whole (h : Filled s t rs) [r.Plain] (hrange : r.range = ⟨s.start, t.previousStop⟩)
    (hinside : r.inside = rs) : Whole s t r :=
  h.over hrange hinside fun xs _ => Region.Plain.spelled xs

namespace Spells

theorem stay (s : State) : Spells s s [] := ⟨[], rfl, .nil⟩

theorem append (h : Spells s t ps) (h' : Spells t u qs) : Spells s u (ps ++ qs) := by
  obtain ⟨xs, hxs, hps⟩ := h
  obtain ⟨ys, hys, hqs⟩ := h'
  exact ⟨xs ++ ys, by rw [hys, hxs, List.reverse_append, List.append_assoc], hps.append hqs⟩

/-- There is only one row of lexemes that was taken. -/
theorem composed (h : Spells s t ps) (hxs : t.consumed = xs.reverse ++ s.consumed) :
    Composed ps xs := by
  obtain ⟨ys, hys, hps⟩ := h
  rw [hys] at hxs
  rwa [← List.reverse_injective (List.append_cancel_right hxs)]

end Spells

theorem Steps.filled {kind : TokenKind} (h : Steps s t kind) : Filled s t [] := by
  obtain ⟨x, hx, -⟩ := h
  exact hx.filled

theorem Steps.spells {kind : TokenKind} (h : Steps s t kind) : Spells s t [.word kind] := by
  obtain ⟨x, hx, hkind⟩ := h
  exact ⟨[x], hx.consumed_eq, .single ⟨x, rfl, hkind⟩⟩

theorem Names.whole {name : Ident} (h : Names s t name) : Whole s t name.region := by
  obtain ⟨_, hx, x, rfl, -, rfl⟩ := h
  exact ⟨[x], hx, ⟨x, x, rfl, rfl, rfl⟩, trivial, .bare _⟩

theorem Names.spells {name : Ident} (h : Names s t name) : Spells s t [.name name] := by
  obtain ⟨xs, hxs, hwritten⟩ := h
  exact ⟨xs, hxs.consumed_eq, .single hwritten⟩

theorem Pairs.whole {pair : TextRange} (h : Pairs s t pair) : Whole s t (.leaf pair) := by
  obtain ⟨_, hxs, x, y, rfl, -, -, rfl⟩ := h
  exact ⟨[x, y], hxs, ⟨x, y, rfl, rfl, rfl⟩, trivial, .bare _⟩

theorem Pairs.spells {pair : TextRange} (h : Pairs s t pair) : Spells s t [.pair pair] := by
  obtain ⟨xs, hxs, hwritten⟩ := h
  exact ⟨xs, hxs.consumed_eq, .single hwritten⟩

end

/-! ## Runs -/

/-- Where a lexeme of the file starts, or what is left of an operator of the file. -/
def Begins (raw : List Lexeme) (o : Nat) : Prop :=
  ∃ x ∈ raw, ∃ y, (y = x ∨ Rest x y) ∧ o = y.start

/-- The parser stands in a file, and what it has taken follows each other. -/
structure Settled (raw : List Lexeme) (s : State) : Prop where
  significant : Significant raw
  at_ : At raw s
  follow : Follow s.consumed.reverse

/-- What is told of the run holds if it does not fail; it fails only where a lexeme begins. -/
def Runs {α : Type} (raw : List Lexeme) (p : Parser α) (s : State) (post : α → State → Prop) :
    Prop :=
  Settled raw s →
    match p s with
    | .ok (a, t) => Settled raw t ∧ post a t
    | .error e => Begins raw e.range.start

section

variable {raw : List Lexeme} {s s₀ t u : State} {α β : Type} {p : Parser α} {k : α → Parser β}
  {kind : TokenKind}

namespace Settled

theorem begins (h : Settled raw s) : Begins raw s.start := by
  obtain ⟨before, x, after, y, hraw, hrest, -, -, hxy⟩ := h.at_.place
  refine ⟨x, by simp [hraw], y, hxy, ?_⟩
  simp [State.start, State.lexeme, hrest]

theorem stop_le (h : Settled raw s) : ∀ z ∈ s.consumed, z.stop ≤ s.previousStop := by
  intro z hz
  cases hconsumed : s.consumed with
  | nil => simp [hconsumed] at hz
  | cons y ys =>
    have hlast : s.consumed.reverse.getLast? = some y := by simp [hconsumed]
    have hle := h.follow.le_last hlast (List.mem_reverse.2 hz)
    simpa [State.previousStop, hconsumed] using hle

/-- One more lexeme is taken. -/
theorem push (h : Settled raw s) (hat : At raw t) {x : Lexeme} (hconsumed : t.consumed = x ::
      s.consumed) (hstart : s.previousStop ≤ x.start) : Settled raw t := by
  refine ⟨h.significant, hat, ?_⟩
  rw [hconsumed, List.reverse_cons]
  refine List.pairwise_append.2 ⟨h.follow, List.pairwise_singleton _ _, fun z hz y hy => ?_⟩
  rw [List.mem_singleton.1 hy]
  exact Nat.le_trans (h.stop_le z (List.mem_reverse.1 hz)) hstart

/-- What was taken ends behind where it starts. -/
theorem start_le (h : Settled raw t) {rs : List Region} (hfilled : Filled s t rs) :
    s.start ≤ t.previousStop := by
  obtain ⟨xs, hxs, -⟩ := hfilled
  obtain ⟨x, hx, hstart⟩ := hxs.first
  have hmem : x ∈ t.consumed := by
    rw [hxs.consumed_eq]
    exact List.mem_append_left _ (List.mem_reverse.2 (List.mem_of_head? hx))
  have hle := h.stop_le x hmem
  have hwidth : x.start ≤ x.stop := Nat.le_add_right _ _
  omega

/-- The range from where something was taken on has no need of a bound. -/
theorem rangeFrom_eq (h : Settled raw t) {rs : List Region} (hfilled : Filled s t rs) :
    t.rangeFrom s.start = ⟨s.start, t.previousStop⟩ := by
  rw [State.rangeFrom, Nat.max_eq_left (h.start_le hfilled)]

end Settled

namespace Runs

variable {mid : α → State → Prop} {post : β → State → Prop}

theorem pure {post : α → State → Prop} {a : α} (h : post a s) :
    Runs raw (Pure.pure a) s post :=
  fun hs => ⟨hs, h⟩

theorem bind (hp : Runs raw p s mid) (hk : ∀ a t, mid a t → Runs raw (k a) t post) :
    Runs raw (p >>= k) s post := by
  intro hs
  have hrun := hp hs
  have hbind : (p >>= k) s = (p s >>= fun r => k r.1 r.2) := rfl
  cases hps : p s with
  | error e =>
    rw [hps] at hrun
    rw [hbind, hps]
    exact hrun
  | ok r =>
    rw [hps] at hrun
    rw [hbind, hps]
    exact hk r.1 r.2 hrun.2 hrun.1

theorem pure_bind {a : α} (h : Runs raw (k a) s post) : Runs raw (Pure.pure a >>= k) s post := h

theorem mono {post' : α → State → Prop} (hp : Runs raw p s mid)
    (h : ∀ a t, mid a t → post' a t) : Runs raw p s post' := by
  intro hs
  have hrun := hp hs
  cases hps : p s with
  | error e =>
    rw [hps] at hrun
    exact hrun
  | ok r =>
    rw [hps] at hrun
    exact ⟨hrun.1, h r.1 r.2 hrun.2⟩

theorem and {also : α → State → Prop} (hp : Runs raw p s mid) (hp' : Runs raw p s also) :
    Runs raw p s fun a t => mid a t ∧ also a t := by
  intro hs
  have hrun := hp hs
  have hrun' := hp' hs
  cases hps : p s with
  | error e =>
    rw [hps] at hrun
    exact hrun
  | ok r =>
    rw [hps] at hrun hrun'
    exact ⟨hrun.1, hrun.2, hrun'.2⟩

theorem ensured {also : α → State → Prop} (hp : Runs raw p s mid) (he : Ensures p s also) :
    Runs raw p s fun a t => mid a t ∧ also a t := by
  intro hs
  have hrun := hp hs
  cases hps : p s with
  | error e =>
    rw [hps] at hrun
    exact hrun
  | ok r =>
    rw [hps] at hrun
    exact ⟨hrun.1, hrun.2, he r.1 r.2 hps⟩

theorem map {g : α → β} (hp : Runs raw p s mid) (h : ∀ a t, mid a t → post (g a) t) :
    Runs raw (g <$> p) s post := by
  intro hs
  have hrun := hp hs
  cases hps : p s with
  | error e =>
    have hmap : (g <$> p) s = .error e := congrArg (Except.map _) hps
    rw [hps] at hrun
    rw [hmap]
    exact hrun
  | ok r =>
    have hmap : (g <$> p) s = .ok (g r.1, r.2) := congrArg (Except.map _) hps
    rw [hps] at hrun
    rw [hmap]
    exact ⟨hrun.1, h r.1 r.2 hrun.2⟩

theorem get {f : State → Parser β} (h : Runs raw (f s) s post) :
    Runs raw (MonadState.get >>= f) s post := h

theorem ite {c : Prop} [Decidable c] {p q : Parser β} (hp : c → Runs raw p s post)
    (hq : ¬ c → Runs raw q s post) : Runs raw (if c then p else q) s post := by
  split
  · rename_i h
    exact hp h
  · rename_i h
    exact hq h

/-- A step whose branches meet again in `k`, the first of them somewhere inside it. -/
theorem meet {c : Prop} [Decidable c] {p : Parser β} {q : Parser α} (mid : α → State → Prop)
    (hk : ∀ a t, mid a t → Runs raw (k a) t post) (hq : ¬ c → Runs raw q s mid)
    (hp : c → (∀ a t, mid a t → Runs raw (k a) t post) → Runs raw p s post) :
    Runs raw (if c then p else q >>= k) s post :=
  ite (fun hc => hp hc hk) fun hc => (hq hc).bind hk

theorem iteJoin {c : Prop} [Decidable c] {p q : Parser α} (mid : α → State → Prop)
    (hp : c → Runs raw p s mid) (hq : ¬ c → Runs raw q s mid)
    (hk : ∀ a t, mid a t → Runs raw (k a) t post) :
    Runs raw (if c then p >>= k else q >>= k) s post :=
  ite (fun hc => (hp hc).bind hk) fun hc => (hq hc).bind hk

/-- A parser that is tried leaves the place as it is where it fails. -/
theorem attempt {taken : State → α → Prop} (h : Runs raw p s fun v t => taken t v) :
    Runs raw (attempt p) s (Perhaps s taken) := by
  intro hs
  have hrun := h hs
  unfold Parser.attempt
  cases hps : p s with
  | error e => exact ⟨hs, rfl⟩
  | ok r =>
    rw [hps] at hrun
    exact hrun

theorem fail {message : String} : Runs raw (Parser.fail message : Parser β) s post :=
  fun hs => hs.begins

theorem expected {what : String} : Runs raw (Parser.expected what : Parser β) s post := by
  unfold Parser.expected
  exact get (ite (fun _ => fail) fun _ => fail)

theorem exhausted : Runs raw (Parser.exhausted : Parser β) s post := fail

/-! Looking ahead -/

theorem startHere {f : Nat → Parser β} (h : Runs raw (f s.start) s post) :
    Runs raw (Parser.startHere >>= f) s post := h

theorem isAt {f : Bool → Parser β} (h : Runs raw (f (s.kind 0 == kind)) s post) :
    Runs raw (Parser.isAt kind >>= f) s post := h

theorem kindAt {f : TokenKind → Parser β} {n : Nat} (h : Runs raw (f (s.kind n)) s post) :
    Runs raw (Parser.kindAt n >>= f) s post := h

theorem supports {f : Bool → Parser β} {feature : Feature}
    (h : Runs raw (f (s.level.supports feature)) s post) :
    Runs raw (Parser.supports feature >>= f) s post := h

theorem ifAt {p q : Parser β} (hp : s.kind 0 = kind → Runs raw p s post)
    (hq : s.kind 0 ≠ kind → Runs raw q s post) :
    Runs raw (Parser.isAt kind >>= fun b => if b = true then p else q) s post := by
  refine isAt (ite (fun h => hp ?_) fun h => hq ?_)
  · exact beq_iff_eq.1 h
  · exact fun heq => h (beq_iff_eq.2 heq)

theorem ifAtJoin {p q : Parser α} (mid : α → State → Prop)
    (hp : s.kind 0 = kind → Runs raw p s mid) (hq : s.kind 0 ≠ kind → Runs raw q s mid)
    (hk : ∀ a t, mid a t → Runs raw (k a) t post) :
    Runs raw (Parser.isAt kind >>= fun b => if b = true then p >>= k else q >>= k) s post :=
  ifAt (fun hkind => (hp hkind).bind hk) fun hkind => (hq hkind).bind hk

/-! Ranges -/

/-- The range of all that was taken, with a region over it. -/
theorem rangeFrom {f : TextRange → Parser β} {rs : List Region} (h : Filled s₀ s rs)
    (hf : (∀ (r : Region) [r.Plain], r.range = s.rangeFrom s₀.start → r.inside = rs →
        Whole s₀ s r) → Runs raw (f (s.rangeFrom s₀.start)) s post) :
    Runs raw (Parser.rangeFrom s₀.start >>= f) s post := by
  intro hs
  refine hf (fun r _ hrange hinside => ?_) hs
  rw [hs.rangeFrom_eq h] at hrange
  exact h.whole hrange hinside

/-- The range of all that was taken ends where the last lexeme ends. -/
theorem rangeOf {f : TextRange → Parser β} {rs : List Region} (h : Filled s₀ s rs)
    (hf : Runs raw (f ⟨s₀.start, s.previousStop⟩) s post) :
    Runs raw (Parser.rangeFrom s₀.start >>= f) s post := by
  intro hs
  show match f (s.rangeFrom s₀.start) s with
    | .ok (a, t) => Settled raw t ∧ post a t
    | .error e => Begins raw e.range.start
  rw [hs.rangeFrom_eq h]
  exact hf hs

/-- The last step of a production: what was taken becomes one region. -/
theorem close {make : TextRange → α} {region : α → Region} {rs : List Region} (h : Filled s₀ s rs)
    [∀ r, (region (make r)).Plain] (hrange : ∀ r, (region (make r)).range = r)
    (hinside : ∀ r, (region (make r)).inside = rs) :
    Runs raw (Parser.rangeFrom s₀.start >>= fun r => Pure.pure (make r)) s
      fun v t => Whole s₀ t (region v) :=
  rangeFrom h fun hwhole => pure (hwhole _ (hrange _) (hinside _))

end Runs

/-! ## Stepping over lexemes -/

theorem At.rest_eq (h : At raw s) : ∃ y ys, s.rest = y :: ys ∧ s.lexeme 0 = y := by
  obtain ⟨_, _, ys, y, -, hrest, -⟩ := h.place
  exact ⟨y, ys, hrest, by simp [State.lexeme, hrest]⟩

theorem advance_consumes (hkind : s.kind 0 ≠ .endOfFile) :
    Runs raw advance s fun range t => range = (s.lexeme 0).range ∧
      t.consumed = s.lexeme 0 :: s.consumed ∧ ∀ n, t.kind n = s.kind (n + 1) := by
  intro hs
  obtain ⟨y, ys, hrest, -⟩ := hs.at_.rest_eq
  have hrun := advance_eq hrest
  obtain ⟨hrange, ht⟩ := advance_ensures hs.significant hs.at_ hkind _ _ hrun
  rw [hrun]
  refine ⟨hs.push ht.step.at_ ht.consumed_eq hs.at_.previousStop_le, hrange, ht.consumed_eq,
    fun n => ?_⟩
  rw [State.kind, State.kind, ht.lexeme_eq]

theorem advance_makes (hkind : s.kind 0 ≠ .endOfFile) :
    Runs raw advance s fun range t => Whole s t (.leaf range) ∧ ∀ n, t.kind n = s.kind (n + 1) :=
  (advance_consumes hkind).mono fun _ _ ⟨hrange, hconsumed, hnext⟩ =>
    ⟨⟨[s.lexeme 0], ⟨hconsumed, _, rfl, rfl⟩, ⟨_, _, rfl, rfl, hrange⟩, trivial, .bare _⟩, hnext⟩

theorem advance_takes (hkind : s.kind 0 ≠ .endOfFile) :
    Runs raw advance s fun _ t => Taken s t [s.lexeme 0] ∧ ∀ n, t.kind n = s.kind (n + 1) :=
  (advance_consumes hkind).mono fun _ _ ⟨_, hconsumed, hnext⟩ => ⟨⟨hconsumed, _, rfl, rfl⟩, hnext⟩

/-- Stepping over the next lexeme, unless the file ends. -/
theorem advance_crosses : Runs raw advance s fun _ t => Crossed s t [] := by
  by_cases hkind : s.kind 0 = .endOfFile
  · intro hs
    obtain ⟨y, ys, hrest, hy⟩ := hs.at_.rest_eq
    rw [State.kind, hy] at hkind
    rw [advance_eq hrest, if_pos hkind]
    exact ⟨hs, .stay⟩
  · exact (advance_makes hkind).mono fun _ _ ht => .go ht.1.filled.bare

theorem advance_fills (hkind : s.kind 0 = kind) (hne : kind ≠ .endOfFile) :
    Runs raw advance s fun _ t => Filled s t [] :=
  (advance_makes (hkind ▸ hne)).mono fun _ _ ht => ht.1.filled.bare

theorem advanceBy_crosses (n : Nat) : Runs raw (advanceBy n) s fun _ t => Crossed s t [] := by
  induction n generalizing s with
  | zero => exact .pure .stay
  | succ n ih =>
    unfold advanceBy
    exact advance_crosses.bind fun _ t ht => ih.mono fun _ u hu => ht.append hu

theorem advanceBy_fills (n : Nat) (hne : s.kind 0 ≠ .endOfFile) :
    Runs raw (advanceBy (n + 1)) s fun _ t => Filled s t [] := by
  unfold advanceBy
  refine (advance_fills rfl hne).bind fun _ t ht => ?_
  exact (advanceBy_crosses n).mono fun _ u hu => ht.then_ hu

theorem expect_fills (hne : kind ≠ .endOfFile) :
    Runs raw (expect kind) s fun _ t => Filled s t [] := by
  unfold expect
  exact .ifAt (fun hkind => advance_fills hkind hne) fun _ => .expected

theorem advance_steps (hkind : s.kind 0 = kind) (hne : kind ≠ .endOfFile) :
    Runs raw advance s fun _ t => Steps s t kind :=
  (advance_takes (hkind ▸ hne)).mono fun _ _ ht => ⟨s.lexeme 0, ht.1, hkind⟩

theorem expect_steps (hne : kind ≠ .endOfFile) :
    Runs raw (expect kind) s fun _ t => Steps s t kind := by
  unfold expect
  exact .ifAt (fun hkind => advance_steps hkind hne) fun _ => .expected

theorem expect_crosses : Runs raw (expect kind) s fun _ t => Crossed s t [] := by
  unfold expect
  exact .ifAt (fun _ => advance_crosses) fun _ => .expected

/-- Going on in one way if a lexeme of the kind is taken, and in another way if none stands here. -/
theorem Runs.ifStep {p q : Parser β} {post : β → State → Prop} (hne : kind ≠ .endOfFile)
    (hp : ∀ t, Steps s t kind → Runs raw p t post) (hq : s.kind 0 ≠ kind → Runs raw q s post) :
    Runs raw (eat kind >>= fun b => if b = true then p else q) s post := by
  have heat : Runs raw (eat kind) s fun b t =>
      b = true ∧ Steps s t kind ∨ b = false ∧ s.kind 0 ≠ kind ∧ t = s := by
    unfold eat
    refine .ifAt (fun hkind => ?_) fun hkind => .pure (.inr ⟨rfl, hkind, rfl⟩)
    exact (advance_steps hkind hne).bind fun _ t ht => .pure (.inl ⟨rfl, ht⟩)
  refine heat.bind fun b t hb => ?_
  rcases hb with ⟨rfl, ht⟩ | ⟨rfl, hkind, rfl⟩
  · exact hp t ht
  · exact hq hkind

theorem Runs.ifEat {p q : Parser β} {post : β → State → Prop} (hne : kind ≠ .endOfFile)
    (hp : ∀ t, Filled s t [] → Runs raw p t post) (hq : s.kind 0 ≠ kind → Runs raw q s post) :
    Runs raw (eat kind >>= fun b => if b = true then p else q) s post :=
  .ifStep hne (fun t ht => hp t ht.filled) hq

/-- The same where both ways meet again. -/
theorem Runs.ifStepJoin {p q : Parser α} {post : β → State → Prop} (mid : α → State → Prop)
    (hne : kind ≠ .endOfFile) (hp : ∀ t, Steps s t kind → Runs raw p t mid)
    (hq : s.kind 0 ≠ kind → Runs raw q s mid) (hk : ∀ a t, mid a t → Runs raw (k a) t post) :
    Runs raw (eat kind >>= fun b => if b = true then p >>= k else q >>= k) s post :=
  .ifStep hne (fun t ht => (hp t ht).bind hk) fun hkind => (hq hkind).bind hk

theorem Runs.ifEatJoin {p q : Parser α} {post : β → State → Prop} (mid : α → State → Prop)
    (hne : kind ≠ .endOfFile) (hp : ∀ t, Filled s t [] → Runs raw p t mid)
    (hq : s.kind 0 ≠ kind → Runs raw q s mid) (hk : ∀ a t, mid a t → Runs raw (k a) t post) :
    Runs raw (eat kind >>= fun b => if b = true then p >>= k else q >>= k) s post :=
  .ifStepJoin mid hne (fun t ht => hp t ht.filled) hq hk

/-- The same where the way behind the lexeme meets the other one somewhere inside it. -/
theorem Runs.ifEatMeet {p : Parser β} {q : Parser α} {post : β → State → Prop}
    (mid : α → State → Prop) (hne : kind ≠ .endOfFile)
    (hk : ∀ a t, mid a t → Runs raw (k a) t post) (hq : s.kind 0 ≠ kind → Runs raw q s mid)
    (hp : ∀ t, Filled s t [] → (∀ a t, mid a t → Runs raw (k a) t post) → Runs raw p t post) :
    Runs raw (eat kind >>= fun b => if b = true then p else q >>= k) s post :=
  .ifEat hne (fun t ht => hp t ht hk) fun hkind => (hq hkind).bind hk

theorem eat_crosses (hne : kind ≠ .endOfFile) :
    Runs raw (eat kind) s fun _ t => Crossed s t [] := by
  unfold eat
  refine .ifAt (fun hkind => ?_) fun _ => .pure .stay
  exact (advance_fills hkind hne).bind fun _ t ht => .pure (.go ht)

/-- A closing angle bracket is taken, perhaps off the front of an operator. -/
theorem closeAngle_fills : Runs raw closeAngle s fun _ t => Filled s t [] := by
  unfold closeAngle
  refine .get (.ite (fun hgt => ?_) fun hgt => ?_)
  · exact (advance_fills hgt (by decide)).bind fun _ t ht => .pure ht
  · split
    · rename_i y hy
      intro hs
      have hrun : closeAngle s = .ok ((), { s with
          rest := y :: s.rest.drop 1, consumed := (s.lexeme 0).headGt :: s.consumed }) := by
        unfold closeAngle
        simp only [get_bind_run, if_neg hgt, hy]
        rfl
      have hat := (closeAngle_closes hs.significant hs.at_ _ _ hrun).moved.at_
      exact ⟨hs.push hat rfl hs.at_.previousStop_le, [(s.lexeme 0).headGt], ⟨rfl, _, rfl, rfl⟩,
        .bare _⟩
    · exact .expected

/-! ## Names -/

theorem word_makes (hkind : s.kind 0 = kind) (hne : kind ≠ .endOfFile) :
    Runs raw word s fun n t => Whole s t n.region := by
  unfold word
  refine .get ((advance_makes (hkind ▸ hne)).bind fun range t ht => .pure ?_)
  exact ht.1

theorem ident_names : Runs raw ident s fun n t => Names s t n := by
  unfold ident
  refine .ifAt (fun hkind => ?_) fun _ => .expected
  unfold word
  refine .get ((advance_consumes (by simp [hkind])).bind fun range t ht => .pure ?_)
  obtain ⟨rfl, hconsumed, -⟩ := ht
  exact ⟨[s.lexeme 0], ⟨hconsumed, _, rfl, rfl⟩, _, rfl, hkind, rfl⟩

theorem ident_makes : Runs raw ident s fun n t => Whole s t n.region :=
  ident_names.mono fun _ _ h => h.whole

/-! ## One step behind another -/

section

variable {post : β → State → Prop} {as : List Region} {region : α → Region}
  {regions : α → List Region}

/-- Something was taken before, and the next step may take more. -/
theorem Filled.read (h : Filled s₀ s as) (hp : Runs raw p s fun a t => Crossed s t (regions a))
    (hk : ∀ a t, Filled s₀ t (as ++ regions a) → Runs raw (k a) t post) :
    Runs raw (p >>= k) s post :=
  hp.bind fun a t ht => hk a t (h.then_ ht)

theorem Filled.make (h : Filled s₀ s as) (hp : Runs raw p s fun a t => Whole s t (region a))
    (hk : ∀ a t, Filled s₀ t (as ++ [region a]) → Runs raw (k a) t post) :
    Runs raw (p >>= k) s post :=
  hp.bind fun a t ht => hk a t (h.append ht.filled)

/-- The next step leaves no regions. -/
theorem Filled.skip (h : Filled s₀ s as) (hp : Runs raw p s fun _ t => Crossed s t [])
    (hk : ∀ a t, Filled s₀ t as → Runs raw (k a) t post) : Runs raw (p >>= k) s post :=
  hp.bind fun a t ht => hk a t (List.append_nil as ▸ h.then_ ht)

/-- Perhaps nothing was taken before, and the next step may take something. -/
theorem Crossed.read (h : Crossed s₀ s as) (hp : Runs raw p s fun a t => Crossed s t (regions a))
    (hk : ∀ a t, Crossed s₀ t (as ++ regions a) → Runs raw (k a) t post) :
    Runs raw (p >>= k) s post :=
  hp.bind fun a t ht => hk a t (h.append ht)

theorem Crossed.fill (h : Crossed s₀ s as) (hp : Runs raw p s fun a t => Filled s t (regions a))
    (hk : ∀ a t, Filled s₀ t (as ++ regions a) → Runs raw (k a) t post) :
    Runs raw (p >>= k) s post :=
  hp.bind fun a t ht => hk a t (h.then_ ht)

theorem Crossed.make (h : Crossed s₀ s as) (hp : Runs raw p s fun a t => Whole s t (region a))
    (hk : ∀ a t, Filled s₀ t (as ++ [region a]) → Runs raw (k a) t post) :
    Runs raw (p >>= k) s post :=
  hp.bind fun a t ht => hk a t (h.then_ ht.filled)

end

/-! ## Lists -/

/-- Wherever it starts, the parser leaves one region over all that it takes. -/
def Makes (raw : List Lexeme) (region : α → Region) (p : Parser α) : Prop :=
  ∀ s, Runs raw p s fun a t => Whole s t (region a)

/-- Wherever it starts, the parser takes something and leaves regions over it. -/
def Fills (raw : List Lexeme) (regions : α → List Region) (p : Parser α) : Prop :=
  ∀ s, Runs raw p s fun a t => Filled s t (regions a)

section

variable {item : Parser α} {region : α → Region} {regions : α → List Region}
  {more stop : State → Bool} {sep : TokenKind}

theorem Makes.fills (h : Makes raw region p) : Fills raw (fun a => [region a]) p :=
  fun s => (h s).mono fun _ _ ht => ht.filled

/-- What each item does between two places, all of them do, if it can be told of one more. -/
theorem repeatWhile_runs (does : State → State → List α → Prop) (hnil : ∀ s, does s s [])
    (hcons : ∀ {s t u a as}, does s t [a] → does t u as → does s u (a :: as))
    (hitem : ∀ s, more s = true → Runs raw item s fun a t => does s t [a]) (n : Nat) :
    Runs raw (repeatWhile more item n) s fun as t => does s t as := by
  induction n generalizing s with
  | zero => exact .exhausted
  | succ n ih =>
    unfold repeatWhile
    refine .get (.ite (fun hmore => ?_) fun _ => .pure (hnil s))
    exact (hitem s hmore).bind fun a t ht => ih.bind fun as u hu => .pure (hcons ht hu)

theorem many_runs (does : State → State → List α → Prop) (hnil : ∀ s, does s s [])
    (hcons : ∀ {s t u a as}, does s t [a] → does t u as → does s u (a :: as))
    (hitem : ∀ s, more s = true → Runs raw item s fun a t => does s t [a]) :
    Runs raw (many more item) s fun as t => does s t as :=
  .get (repeatWhile_runs does hnil hcons hitem s.budget)

theorem many_regions {does : State → State → List Region → Prop} (hnil : ∀ s, does s s [])
    (happend : ∀ {s t u as bs}, does s t as → does t u bs → does s u (as ++ bs))
    (hitem : ∀ s, more s = true → Runs raw item s fun a t => does s t (regions a)) :
    Runs raw (many more item) s fun as t => does s t (as.flatMap regions) := by
  refine many_runs (fun s t as => does s t (as.flatMap regions)) hnil
    (fun {s t u a as} ht hu => ?_) fun s hmore => ?_
  · rw [List.flatMap_cons, List.flatMap_nil, List.append_nil] at ht
    exact happend ht hu
  · refine (hitem s hmore).mono fun a t ht => ?_
    rwa [List.flatMap_cons, List.flatMap_nil, List.append_nil]

theorem many_crosses
    (hitem : ∀ s, more s = true → Runs raw item s fun a t => Filled s t (regions a)) :
    Runs raw (many more item) s fun as t => Crossed s t (as.flatMap regions) :=
  many_regions (fun _ => .stay) .append fun s hmore => (hitem s hmore).mono fun _ _ => .go

/-- Items are taken until there are no more. -/
theorem repeatWhile_stops (hitem : ∀ s, Runs raw item s fun _ _ => True) (n : Nat) :
    Runs raw (repeatWhile more item n) s fun _ t => more t = false := by
  induction n generalizing s with
  | zero => exact .exhausted
  | succ n ih =>
    unfold repeatWhile
    refine .get (.ite (fun _ => ?_) fun hmore => .pure (Bool.eq_false_of_not_eq_true hmore))
    exact (hitem s).bind fun a t _ => ih.bind fun as u hu => .pure hu

theorem many_stops (hitem : ∀ s, Runs raw item s fun _ _ => True) :
    Runs raw (many more item) s fun _ t => more t = false :=
  .get (repeatWhile_stops hitem s.budget)

/-- Items were taken one behind the other, with a separator between each two. -/
inductive Separates (does : State → α → State → Prop) (sep : TokenKind) :
    State → List α → State → Prop where
  | last {s t : State} {a : α} : does s a t → Separates does sep s [a] t
  | more {s t u v : State} {a : α} {as : List α} : does s a t → Steps t u sep →
    Separates does sep u as v → Separates does sep s (a :: as) v

theorem separatedUpTo_runs {does : State → α → State → Prop} (hsep : sep ≠ .endOfFile)
    (hitem : ∀ s, Runs raw item s fun a t => does s a t) (n : Nat) :
    Runs raw (separatedUpTo sep item n) s fun as t => Separates does sep s as t := by
  induction n generalizing s with
  | zero => exact .exhausted
  | succ n ih =>
    unfold separatedUpTo
    refine (hitem s).bind fun a t ht => .ifStep hsep (fun u hu => ?_) fun _ => .pure (.last ht)
    exact ih.bind fun as v hv => .pure (.more ht hu hv)

theorem separated_runs {does : State → α → State → Prop} (hsep : sep ≠ .endOfFile)
    (hitem : ∀ s, Runs raw item s fun a t => does s a t) :
    Runs raw (separated sep item) s fun as t => Separates does sep s as t :=
  .get (separatedUpTo_runs hsep hitem s.budget)

theorem Separates.mono {does does' : State → α → State → Prop} {as : List α}
    (h : Separates does sep s as t) (hdoes : ∀ s a t, does s a t → does' s a t) :
    Separates does' sep s as t := by
  induction h with
  | last ha => exact .last (hdoes _ _ _ ha)
  | more ha hsep _ ih => exact .more (hdoes _ _ _ ha) hsep ih

theorem Separates.filled {as : List α}
    (h : Separates (fun s a t => Filled s t (regions a)) sep s as t) :
    Filled s t (as.flatMap regions) := by
  induction h with
  | last ha => rwa [List.flatMap_cons, List.flatMap_nil, List.append_nil]
  | more ha hsep _ ih =>
    rw [List.flatMap_cons]
    exact ha.append (hsep.filled.append ih)

theorem separated_fills (hsep : sep ≠ .endOfFile) (hitem : Fills raw regions item) :
    Runs raw (separated sep item) s fun as t => Filled s t (as.flatMap regions) :=
  (separated_runs hsep hitem).mono fun _ _ h => h.filled

/-- If there is no more than one item, it lies over all that was taken. -/
theorem separated_single (hsep : sep ≠ .endOfFile) (hitem : Makes raw region item) :
    Runs raw (separated sep item) s fun as t => ∀ a, as = [a] → Whole s t (region a) := by
  refine (separated_runs hsep hitem).mono fun as t h a heq => ?_
  subst heq
  cases h with
  | last ha => exact ha
  | more _ _ hrest => cases hrest

theorem terminatedUpTo_crosses (hsep : sep ≠ .endOfFile) (hitem : Fills raw regions item)
    (n : Nat) :
    Runs raw (terminatedUpTo sep stop item n) s fun as t => Crossed s t (as.flatMap regions) := by
  induction n generalizing s with
  | zero => exact .exhausted
  | succ n ih =>
    unfold terminatedUpTo
    refine .get (.ite (fun _ => .pure .stay) fun _ => ?_)
    refine (hitem s).bind fun a t ht => .ifEat hsep (fun u hu => ?_) fun _ => .pure ?_
    · refine ih.bind fun as v hv => .pure ?_
      rw [List.flatMap_cons]
      exact .go (ht.append (hu.then_ hv))
    · rw [List.flatMap_cons, List.flatMap_nil, List.append_nil]
      exact .go ht

theorem terminated_crosses (hsep : sep ≠ .endOfFile) (hitem : Fills raw regions item) :
    Runs raw (terminated sep stop item) s fun as t => Crossed s t (as.flatMap regions) :=
  .get (terminatedUpTo_crosses hsep hitem s.budget)

/-- Items between parentheses, with a region over the whole. -/
theorem parenthesized_makes (hitem : Fills raw regions item) :
    Makes raw (fun p => .detail p.1 (p.2.flatMap regions)) (parenthesized item) := by
  intro s
  unfold parenthesized
  refine .startHere ((expect_fills (by decide)).bind fun _ t h => ?_)
  refine .ifAtJoin (fun as u => Filled s u (as.flatMap regions)) (fun _ => .pure h) (fun _ => ?_)
    fun as u h => ?_
  · exact (separated_fills (by decide) hitem).mono fun as u hu => h.append hu
  · exact h.skip expect_crosses fun _ v h => .close h (fun _ => rfl) fun _ => rfl

/-- Pairs of brackets were taken, each of which has a region of its own. -/
inductive Bracketing : State → List TextRange → State → Prop where
  | nil {s : State} : Bracketing s [] s
  | cons {s t u : State} {pair : TextRange} {pairs : List TextRange} : Pairs s t pair →
    Bracketing t pairs u → Bracketing s (pair :: pairs) u

theorem Bracketing.crossed {pairs : List TextRange} (h : Bracketing s pairs t) :
    Crossed s t (pairs.map .leaf) := by
  induction h with
  | nil => exact .stay
  | cons hpair _ ih => exact .go (hpair.whole.filled.then_ ih)

theorem Bracketing.spells {pairs : List TextRange} (h : Bracketing s pairs t) :
    Spells s t (pairs.map .pair) := by
  induction h with
  | nil => exact .stay _
  | cons hpair _ ih => exact hpair.spells.append ih

theorem bracketsUpTo_runs (n : Nat) :
    Runs raw (bracketsUpTo n) s fun pairs t => Bracketing s pairs t := by
  induction n generalizing s with
  | zero => exact .pure .nil
  | succ n ih =>
    unfold bracketsUpTo
    refine .get (.ite (fun hkinds => ?_) fun _ => .pure .nil)
    rw [Bool.and_eq_true, beq_iff_eq, beq_iff_eq] at hkinds
    refine (advance_consumes (by simp [hkinds.1])).bind ?_
    rintro first t ⟨hfirst, ht, hnext⟩
    have hclose : t.kind 0 = .rBracket := (hnext 0).trans hkinds.2
    intro hst
    refine (advance_consumes (by simp [hclose])).bind ?_ hst
    rintro last u ⟨hlast, hu, _⟩
    refine ih.bind fun pairs v hv => .pure (.cons (t := u) ?_ hv)
    have hconsumed : u.consumed = [s.lexeme 0, t.lexeme 0].reverse ++ s.consumed := by
      rw [hu, ht]
      rfl
    have hbetween : (s.lexeme 0).stop ≤ (t.lexeme 0).start := by
      have hle := hst.at_.previousStop_le
      rwa [State.previousStop, ht] at hle
    have hopening : (s.lexeme 0).start ≤ (s.lexeme 0).stop := Nat.le_add_right _ _
    have hclosing : (t.lexeme 0).start ≤ (t.lexeme 0).stop := Nat.le_add_right _ _
    refine ⟨_, ⟨hconsumed, _, rfl, rfl⟩, _, _, rfl, hkinds.1, hclose, ?_⟩
    rw [hfirst, hlast, TextRange.cover]
    congr 1
    · exact Nat.min_eq_left (Nat.le_trans hopening hbetween)
    · exact Nat.max_eq_right (Nat.le_trans hbetween hclosing)

theorem brackets_runs : Runs raw brackets s fun pairs t => Bracketing s pairs t :=
  .get (bracketsUpTo_runs s.budget)

end

end

end JavaAnalysis.Parser
