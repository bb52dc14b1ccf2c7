import JavaAnalysis.Proofs.Parser.Angles

/-!
# How much is left to read

The number of lexemes ahead does not tell how far a parser has come: where an operator is cut, there
are more of them than before. The number of their bytes does. Of two places in the same file, the one
with fewer bytes ahead is the one that starts later, so steps that are bounded by what is left to read
are the steps that go on in the text.
Main statement: `At.compare`.
-/

set_option autoImplicit false
set_option linter.dupNamespace false

namespace JavaAnalysis.Parser

open Lexeme

/-- How many bytes of lexemes lie ahead. -/
def State.left (s : State) : Nat := (s.rest.map fun x => x.text.utf8ByteSize).sum

variable {raw : List Lexeme} {s t : State}

theorem left_of_rest {x : Lexeme} {xs : List Lexeme} (h : s.rest = x :: xs) :
    s.left = x.text.utf8ByteSize + (xs.map fun x => x.text.utf8ByteSize).sum := by
  rw [State.left, h, List.map_cons, List.sum_cons]

theorem start_of_rest {x : Lexeme} {xs : List Lexeme} (h : s.rest = x :: xs) :
    s.start = x.start := by
  simp [State.start, State.lexeme, h]

/-- Where more lexemes follow, something is left of the one that the parser stands at. -/
theorem nonempty_of_append (hs : Significant raw) {before after : List Lexeme}
    {x : Lexeme} (hraw : raw = before ++ x :: after) (hafter : after ≠ []) : x.start < x.stop := by
  refine hs.nonempty x (by simp [hraw]) ?_
  obtain ⟨init, last, hinit, -, hkinds⟩ := hs.final
  obtain ⟨others, z, rfl⟩ := List.eq_nil_or_concat' after |>.resolve_left hafter
  rw [hraw, ← List.cons_append, ← List.append_assoc] at hinit
  obtain ⟨rfl, -⟩ := List.append_inj' hinit rfl
  exact hkinds x (by simp)

/-- A place behind which fewer lexemes stand is a later one. -/
theorem At.later_of_length_lt (hs : Significant raw) {before after before' after' : List Lexeme}
    {x y x' y' : Lexeme} (hraw : raw = before ++ x :: after) (hxy : y = x ∨ Rest x y)
    (hraw' : raw = before' ++ x' :: after') (hxy' : y' = x' ∨ Rest x' y')
    (hlt : after'.length < after.length) : y.start < y'.start ∧
      y'.text.utf8ByteSize + (after'.map fun x => x.text.utf8ByteSize).sum <
        y.text.utf8ByteSize + (after.map fun x => x.text.utf8ByteSize).sum := by
  obtain ⟨skipped, hskipped⟩ : ∃ skipped, after = skipped ++ x' :: after' := by
    have hsuffix : x' :: after' <:+ raw := ⟨before', hraw'.symm⟩
    have hsuffix' : after <:+ raw := ⟨before ++ [x], by simp [hraw]⟩
    obtain ⟨skipped, h⟩ := List.suffix_of_suffix_length_le hsuffix hsuffix' hlt
    exact ⟨skipped, h.symm⟩
  have hne : after ≠ [] := List.length_pos_iff.1 (by omega)
  have hpos := nonempty_of_append hs hraw hne
  have hfollow := hs.follow
  rw [hraw] at hfollow
  have hle := (List.pairwise_cons.1 (List.pairwise_append.1 hfollow).2.1).1 x' (by simp [hskipped])
  have hbytes : x'.text.utf8ByteSize + (after'.map fun x => x.text.utf8ByteSize).sum ≤
      (after.map fun x => x.text.utf8ByteSize).sum := by
    rw [hskipped, List.map_append, List.sum_append, List.map_cons, List.sum_cons]
    exact Nat.le_add_left _ _
  have hy : y.start < x.stop ∧ 0 < y.text.utf8ByteSize := by
    rcases hxy with rfl | hxy
    · exact ⟨hpos, by simp only [Lexeme.stop] at hpos; omega⟩
    · have hstop := hxy.stop_eq
      have hwidth : y.text ≠ "" := by
        intro htext
        have hgt := hxy.gtText
        rw [htext] at hgt
        cases hgt
      have hbyte : 0 < y.text.utf8ByteSize :=
        Nat.pos_of_ne_zero fun h => hwidth (String.utf8ByteSize_eq_zero_iff.1 h)
      simp only [Lexeme.stop] at hstop ⊢
      omega
  have hy' : x'.start ≤ y'.start ∧ y'.text.utf8ByteSize ≤ x'.text.utf8ByteSize := by
    rcases hxy' with rfl | hxy'
    · exact ⟨Nat.le_refl _, Nat.le_refl _⟩
    · have hstart := hxy'.start_lt
      have hstop := hxy'.stop_eq
      simp only [Lexeme.stop] at hstop
      omega
  omega

/-- Of two places, the one that starts later is the one with less left to read. -/
theorem At.compare (hs : Significant raw) (h : At raw s) (h' : At raw t) :
    s.start < t.start ∧ t.left < s.left ∨ s.start = t.start ∧ s.left = t.left ∨
      t.start < s.start ∧ s.left < t.left := by
  obtain ⟨before, x, after, y, hraw, hrest, -, -, hxy⟩ := h.place
  obtain ⟨before', x', after', y', hraw', hrest', -, -, hxy'⟩ := h'.place
  rw [start_of_rest hrest, start_of_rest hrest', left_of_rest hrest, left_of_rest hrest']
  rcases Nat.lt_trichotomy after.length after'.length with hlt | heq | hlt
  · exact .inr (.inr (At.later_of_length_lt hs hraw' hxy' hraw hxy hlt))
  · have hlists := List.append_inj' (hraw.symm.trans hraw') (by simp [heq])
    obtain ⟨rfl, rfl⟩ := List.cons.inj hlists.2
    have hstop : y.start + y.text.utf8ByteSize = y'.start + y'.text.utf8ByteSize := by
      have hy : y.stop = x.stop := hxy.elim (congrArg _) Rest.stop_eq
      have hy' : y'.stop = x.stop := hxy'.elim (congrArg _) Rest.stop_eq
      exact hy.trans hy'.symm
    omega
  · exact .inl (At.later_of_length_lt hs hraw hxy hraw' hxy' hlt)

theorem At.start_lt_iff (hs : Significant raw) (h : At raw s) (h' : At raw t) :
    s.start < t.start ↔ t.left < s.left := by
  have := h.compare hs h'
  omega

theorem At.start_le_iff (hs : Significant raw) (h : At raw s) (h' : At raw t) :
    s.start ≤ t.start ↔ t.left ≤ s.left := by
  have := h.compare hs h'
  omega

/-! ## Stepping on -/

/-- A lexeme that is stepped over is no longer ahead. -/
theorem At.step_over (hs : Significant raw) (h : At raw s) (hkind : s.kind 0 ≠ .endOfFile) :
    ∃ xs, s.rest = s.lexeme 0 :: xs ∧
      At raw { s with rest := xs, consumed := s.lexeme 0 :: s.consumed } ∧
      State.left { s with rest := xs, consumed := s.lexeme 0 :: s.consumed } < s.left := by
  obtain ⟨before, x, next, later, y, hraw, hrest, -, -, -, -, hxy⟩ := h.split hs hkind
  have hlexeme : s.lexeme 0 = y := by simp [State.lexeme, hrest]
  rw [hlexeme]
  have hy : y.kind ≠ .endOfFile := by rwa [State.kind, hlexeme] at hkind
  have hrun := advance_eq hrest
  rw [if_neg hy] at hrun
  refine ⟨next :: later, hrest, (advance_ensures hs h hkind _ _ hrun).2.step.at_, ?_⟩
  have hraw' : raw = (before ++ [x]) ++ next :: later := by simp [hraw]
  rw [left_of_rest hrest]
  exact (At.later_of_length_lt hs hraw hxy hraw' (.inl rfl) (by simp)).2

/-- What is left of an operator behind a closing bracket is less than the operator. -/
theorem afterGt?_left (hs : Significant raw) (h : At raw s) {y : Lexeme}
    (hkind : s.kind 0 ≠ .gt) (hy : (s.lexeme 0).afterGt? = some y) :
    At raw { s with rest := y :: s.rest.drop 1, consumed := (s.lexeme 0).headGt :: s.consumed } ∧
      State.left { s with rest := y :: s.rest.drop 1, consumed := (s.lexeme 0).headGt :: s.consumed }
        < s.left := by
  have hrun : closeAngle s = .ok ((),
      { s with rest := y :: s.rest.drop 1, consumed := (s.lexeme 0).headGt :: s.consumed }) := by
    unfold closeAngle
    show (if s.kind 0 = .gt then _ else _ : Parser Unit) s = _
    rw [if_neg hkind, hy]
    rfl
  have hat := (closeAngle_closes hs h _ _ hrun).moved.at_
  have hgt : (s.kind 0).startsWithGt = true := by
    rw [State.kind]
    unfold afterGt? at hy
    split at hy
    · assumption
    · cases hy
  obtain ⟨-, hstart, -, -⟩ := rest_of_afterGt? (h.gtText hs hgt) hy
  refine ⟨hat, (h.start_lt_iff hs hat).1 ?_⟩
  show (s.lexeme 0).start < y.start
  omega

end JavaAnalysis.Parser

/-!
## Two runs with different bounds

A parser is bounded in how often it repeats something and in how deep it goes. To see that the bounds
do not matter as long as they exceed what is left to read, two runs over the same lexemes are put side
by side that differ in their bounds: `Settles` says that the one does what the other does, and how far
they come. A loop is unrolled by one turn, which ends it or goes on where less is left; that is what
`Turns` says, and it is all that is needed to settle the loop.
Main statements: `Turns.settles`, `many_settles`, `closeAngle_settles`.
-/

namespace JavaAnalysis

open Lexeme

/-- The error of a parser that has used up its bounds. -/
def SyntaxError.IsTooDeep (e : SyntaxError) : Prop :=
  e.message = "Syntax error, the file is nested too deeply"

namespace Parser

/-- What two runs over the same lexemes have in common, and what bounds each of them. -/
structure TwoRuns where
  raw : List Lexeme
  significant : Significant raw
  budget : Nat
  budget' : Nat

namespace TwoRuns

/-- The runs stand at the same place, and their bounds exceed what is left to read there. -/
structure Twin (c : TwoRuns) (s s' : State) : Prop where
  at_ : At c.raw s
  budget_eq : s.budget = c.budget
  twin_eq : s' = { s with budget := c.budget' }
  left_lt : s.left < c.budget
  left_lt' : s.left < c.budget'

variable {α : Type}

/-- Both runs have come to the same result at the same place, or both have failed in the same way,
which is not by using up a bound. -/
def Agree (c : TwoRuns) (post : α → State → Prop) (r r' : Except SyntaxError (α × State)) : Prop :=
  match r with
  | .ok (x, t) => ∃ t', r' = .ok (x, t') ∧ c.Twin t t' ∧ post x t
  | .error e => r' = .error e ∧ ¬ e.IsTooDeep

/-- From two places, two parsers do the same, and come as far as told. -/
def Settles (c : TwoRuns) (p p' : Parser α) (s s' : State) (post : α → State → Prop) : Prop :=
  c.Agree post (p s) (p' s')

end TwoRuns

open TwoRuns

variable {c : TwoRuns} {s s' t t' : State} {α β γ : Type} {kind : TokenKind}

namespace TwoRuns.Twin

theorem kind_eq (h : c.Twin s s') (n : Nat) : s'.kind n = s.kind n := by rw [h.twin_eq]; rfl

theorem lexeme_eq (h : c.Twin s s') (n : Nat) : s'.lexeme n = s.lexeme n := by rw [h.twin_eq]; rfl

theorem start_eq (h : c.Twin s s') : s'.start = s.start := by rw [h.twin_eq]; rfl

theorem level_eq (h : c.Twin s s') : s'.level = s.level := by rw [h.twin_eq]

theorem rest_eq (h : c.Twin s s') : s'.rest = s.rest := by rw [h.twin_eq]

theorem budget_eq' (h : c.Twin s s') : s'.budget = c.budget' := by rw [h.twin_eq]

theorem unique (h : c.Twin s s') (ht : c.Twin t t') (heq : t = s) : t' = s' := by
  rw [ht.twin_eq, heq, h.twin_eq]

/-- The place to which the runs go on from twins. -/
theorem next (h : c.Twin s s') {rest consumed : List Lexeme}
    (hat : At c.raw { s with rest := rest, consumed := consumed })
    (hle : State.left { s with rest := rest, consumed := consumed } ≤ s.left) :
    c.Twin { s with rest := rest, consumed := consumed }
      { s' with rest := rest, consumed := consumed } := by
  obtain ⟨-, hbudget, rfl, hlt, hlt'⟩ := h
  exact ⟨hat, hbudget, rfl, Nat.lt_of_le_of_lt hle hlt, Nat.lt_of_le_of_lt hle hlt'⟩

end TwoRuns.Twin

/-! ## Runs one after the other -/

namespace TwoRuns.Settles

variable {p p' q q' : Parser α} {a a' : α → Parser β} {post mid : α → State → Prop}
  {far : β → State → Prop}

theorem pure {x : α} (h : c.Twin s s') (hpost : post x s) :
    c.Settles (Pure.pure x) (Pure.pure x) s s' post := ⟨s', rfl, h, hpost⟩

theorem bind (hp : c.Settles p p' s s' mid)
    (ha : ∀ x t t', c.Twin t t' → mid x t → c.Settles (a x) (a' x) t t' far) :
    c.Settles (p >>= a) (p' >>= a') s s' far := by
  unfold TwoRuns.Settles TwoRuns.Agree at hp
  have hbind : (p >>= a) s = (p s >>= fun r => a r.1 r.2) := rfl
  have hbind' : (p' >>= a') s' = (p' s' >>= fun r => a' r.1 r.2) := rfl
  unfold Settles
  rw [hbind, hbind']
  cases hrun : p s with
  | error e =>
    rw [hrun] at hp
    rw [hp.1]
    exact ⟨rfl, hp.2⟩
  | ok r =>
    rw [hrun] at hp
    obtain ⟨t', hrun', htwin, hmid⟩ := hp
    rw [hrun']
    exact ha r.1 r.2 t' htwin hmid

theorem pure_bind {x : α} (h : c.Settles (a x) (a' x) s s' far) :
    c.Settles (Pure.pure x >>= a) (Pure.pure x >>= a') s s' far := h

theorem mono (hp : c.Settles p p' s s' mid) (hpost : ∀ x t, mid x t → post x t) :
    c.Settles p p' s s' post := by
  unfold TwoRuns.Settles TwoRuns.Agree at hp ⊢
  split
  · rename_i hrun
    rw [hrun] at hp
    obtain ⟨t', hrun', htwin, hmid⟩ := hp
    exact ⟨t', hrun', htwin, hpost _ _ hmid⟩
  · rename_i hrun
    rwa [hrun] at hp

theorem map (hp : c.Settles p p' s s' mid) {f : α → β} (hpost : ∀ x t, mid x t → far (f x) t) :
    c.Settles (f <$> p) (f <$> p') s s' far := by
  have hrun : c.Settles (p >>= fun x => Pure.pure (f x)) (p' >>= fun x => Pure.pure (f x)) s s' far :=
    hp.bind fun x t _ h hmid => .pure h (hpost x t hmid)
  exact hrun

theorem ite {b : Prop} [Decidable b] (hp : b → c.Settles p p' s s' post)
    (hq : ¬ b → c.Settles q q' s s' post) :
    c.Settles (if b then p else q) (if b then p' else q') s s' post := by
  by_cases hb : b
  · rw [if_pos hb, if_pos hb]
    exact hp hb
  · rw [if_neg hb, if_neg hb]
    exact hq hb

/-- Branches that meet again in `a`, the first of them somewhere inside it. -/
theorem meet {b : Prop} [Decidable b] {p p' : Parser β} {q q' : Parser α}
    (mid : α → State → Prop)
    (ha : ∀ x t t', c.Twin t t' → mid x t → c.Settles (a x) (a' x) t t' far)
    (hp : b → (∀ x t t', c.Twin t t' → mid x t → c.Settles (a x) (a' x) t t' far) →
      c.Settles p p' s s' far)
    (hq : ¬ b → c.Settles q q' s s' mid) :
    c.Settles (if b then p else q >>= a) (if b then p' else q' >>= a') s s' far :=
  .ite (fun hb => hp hb ha) fun hb => (hq hb).bind ha

/-- Both runs look at the place where they stand. -/
theorem get {a a' : State → Parser α} (h : c.Settles (a s) (a' s') s s' post) :
    c.Settles (MonadState.get >>= a) (MonadState.get >>= a') s s' post := h

theorem startHere {a a' : Nat → Parser α} (h : c.Twin s s')
    (ha : c.Settles (a s.start) (a' s.start) s s' post) :
    c.Settles (startHere >>= a) (Parser.startHere >>= a') s s' post := by
  have hrun : c.Settles (a s.start) (a' s'.start) s s' post := by rwa [h.start_eq]
  exact hrun

theorem isAt {a a' : Bool → Parser α} (h : c.Twin s s')
    (ha : c.Settles (a (s.kind 0 == kind)) (a' (s.kind 0 == kind)) s s' post) :
    c.Settles (isAt kind >>= a) (Parser.isAt kind >>= a') s s' post := by
  have hrun : c.Settles (a (s.kind 0 == kind)) (a' (s'.kind 0 == kind)) s s' post := by
    rwa [h.kind_eq]
  exact hrun

theorem kindAt {a a' : TokenKind → Parser α} {n : Nat} (h : c.Twin s s')
    (ha : c.Settles (a (s.kind n)) (a' (s.kind n)) s s' post) :
    c.Settles (kindAt n >>= a) (Parser.kindAt n >>= a') s s' post := by
  have hrun : c.Settles (a (s.kind n)) (a' (s'.kind n)) s s' post := by rwa [h.kind_eq]
  exact hrun

theorem supports {a a' : Bool → Parser α} {feature : Feature} (h : c.Twin s s')
    (ha : c.Settles (a (s.level.supports feature)) (a' (s.level.supports feature)) s s' post) :
    c.Settles (supports feature >>= a) (Parser.supports feature >>= a') s s' post := by
  have hrun : c.Settles (a (s.level.supports feature)) (a' (s'.level.supports feature)) s s' post := by
    rwa [h.level_eq]
  exact hrun

theorem rangeFrom {a a' : TextRange → Parser α} {start : Nat} (h : c.Twin s s')
    (ha : c.Settles (a (s.rangeFrom start)) (a' (s.rangeFrom start)) s s' post) :
    c.Settles (rangeFrom start >>= a) (Parser.rangeFrom start >>= a') s s' post := by
  have hrange : s'.rangeFrom start = s.rangeFrom start := by
    rw [h.twin_eq]
    rfl
  have hrun : c.Settles (a (s.rangeFrom start)) (a' (s'.rangeFrom start)) s s' post := by
    rwa [hrange]
  exact hrun

/-- Both runs look whether the next lexeme is of a kind. -/
theorem ifAt (h : c.Twin s s') (hp : s.kind 0 = kind → c.Settles p p' s s' post)
    (hq : s.kind 0 ≠ kind → c.Settles q q' s s' post) :
    c.Settles (Parser.isAt kind >>= fun b => if b = true then p else q)
      (Parser.isAt kind >>= fun b => if b = true then p' else q') s s' post :=
  .isAt h (.ite (fun hkind => hp (beq_iff_eq.1 hkind)) fun hkind => hq fun heq =>
    hkind (beq_iff_eq.2 heq))

end TwoRuns.Settles

/-! ## Failing -/

variable {post : α → State → Prop}

theorem fail_settles (h : c.Twin s s') {message : String}
    (hmessage : message ≠ "Syntax error, the file is nested too deeply") :
    c.Settles (fail message) (fail message) s s' post := by
  have hrun : fail (α := α) message s' = .error ⟨message, (s.lexeme 0).range⟩ := by
    rw [h.twin_eq]
    rfl
  exact ⟨hrun, hmessage⟩

/-- A text that starts in another way. -/
theorem append_ne {a b rest : String} (n : Nat) (hn : n < a.toList.length)
    (hne : a.toList[n]? ≠ b.toList[n]?) : a ++ rest ≠ b := by
  intro h
  refine hne ?_
  rw [← h, String.toList_append, List.getElem?_append_left hn]

theorem expected_settles (h : c.Twin s s') (what : String) :
    c.Settles (expected what) (expected what) s s' post := by
  unfold expected
  refine .get ?_
  dsimp only
  rw [h.lexeme_eq]
  refine .ite (fun _ => fail_settles h ?_) fun _ => fail_settles h ?_
  · show "Syntax error, insert " ++ what ++ " to complete the file" ≠ _
    rw [String.append_assoc]
    exact append_ne 14 (by decide) (by decide)
  · show "Syntax error on token \"" ++ (s.lexeme 0).text ++ "\", " ++ what ++ " expected" ≠ _
    simp only [String.append_assoc]
    exact append_ne 12 (by decide) (by decide)

/-- What is tried and fails leaves the runs where they stand. -/
theorem attempt_settles {p p' : Parser α} (h : c.Twin s s') (hp : c.Settles p p' s s' post) :
    c.Settles (attempt p) (attempt p') s s' fun o t => o.elim (t = s) fun x => post x t := by
  unfold TwoRuns.Settles TwoRuns.Agree at hp ⊢
  unfold attempt
  cases hrun : p s with
  | error e =>
    rw [hrun] at hp
    simp only [hp.1]
    exact ⟨s', rfl, h, trivial⟩
  | ok r =>
    rw [hrun] at hp
    obtain ⟨t', hrun', htwin, hpost⟩ := hp
    simp only [hrun']
    exact ⟨t', rfl, htwin, hpost⟩

/-! ## Stepping over lexemes -/

theorem advance_settles (h : c.Twin s s') (hkind : s.kind 0 ≠ .endOfFile) :
    c.Settles advance advance s s' fun _ t => t.left < s.left ∧ ∀ n, t.kind n = s.kind (n + 1) := by
  obtain ⟨xs, hrest, hat, hlt⟩ := h.at_.step_over c.significant hkind
  have hrest' : s'.rest = s.lexeme 0 :: xs := h.rest_eq.trans hrest
  have hconsumed : s'.consumed = s.consumed := by rw [h.twin_eq]
  have hx : (s.lexeme 0).kind ≠ .endOfFile := hkind
  unfold Settles
  rw [advance_eq hrest, advance_eq hrest', if_neg hx, if_neg hx, hconsumed]
  refine ⟨_, rfl, h.next hat (Nat.le_of_lt hlt), hlt, fun n => ?_⟩
  show State.kind { s with rest := xs, consumed := s.lexeme 0 :: s.consumed } n = s.kind (n + 1)
  unfold State.kind State.lexeme
  rw [hrest, List.getElem?_cons_succ]

/-- At the end of the file there is nothing to step over. -/
theorem advance_settles_le (h : c.Twin s s') :
    c.Settles advance advance s s' fun _ t => t.left ≤ s.left := by
  by_cases hkind : s.kind 0 = .endOfFile
  · obtain ⟨before, x, after, y, -, hrest, -⟩ := h.at_.place
    have hlexeme : s.lexeme 0 = y := by simp [State.lexeme, hrest]
    have hy : y.kind = .endOfFile := by rwa [State.kind, hlexeme] at hkind
    unfold Settles
    rw [advance_eq hrest, advance_eq (h.rest_eq.trans hrest), if_pos hy, if_pos hy]
    exact ⟨s', rfl, h, Nat.le_refl _⟩
  · exact (advance_settles h hkind).mono fun _ _ ht => Nat.le_of_lt ht.1

theorem eat_settles (h : c.Twin s s') (hkind : kind ≠ .endOfFile) :
    c.Settles (eat kind) (eat kind) s s' fun b t =>
      if b = true then t.left < s.left else t = s := by
  unfold eat
  refine .ifAt h (fun hat => ?_) fun _ => .pure h (by simp)
  exact (advance_settles h (hat ▸ hkind)).bind fun _ t t' ht hlt => .pure ht (by simpa using hlt.1)

theorem eat_settles_le (h : c.Twin s s') (hkind : kind ≠ .endOfFile) :
    c.Settles (eat kind) (eat kind) s s' fun _ t => t.left ≤ s.left := by
  refine (eat_settles h hkind).mono fun b t ht => ?_
  split at ht
  · exact Nat.le_of_lt ht
  · rw [ht]

/-- A lexeme is taken if it is of the kind; if not, the runs stay where they are. -/
theorem ifEat_settles {p p' q q' : Parser α} (h : c.Twin s s') (hkind : kind ≠ .endOfFile)
    (hp : ∀ t t', c.Twin t t' → t.left < s.left → c.Settles p p' t t' post)
    (hq : c.Settles q q' s s' post) :
    c.Settles (eat kind >>= fun b => if b = true then p else q)
      (eat kind >>= fun b => if b = true then p' else q') s s' post := by
  refine (eat_settles h hkind).bind fun found t t' ht hfound => ?_
  cases found with
  | true => exact hp t t' ht hfound
  | false =>
    have hts : t = s := hfound
    rw [hts, h.unique ht hts]
    exact hq

theorem expect_settles (h : c.Twin s s') (hkind : kind ≠ .endOfFile) :
    c.Settles (expect kind) (expect kind) s s' fun _ t => t.left < s.left := by
  unfold expect
  refine .ifAt h (fun hat => ?_) fun _ => expected_settles h _
  exact (advance_settles h (hat ▸ hkind)).mono fun _ _ ht => ht.1

theorem word_settles (h : c.Twin s s') (hkind : s.kind 0 ≠ .endOfFile) :
    c.Settles word word s s' fun _ t => t.left < s.left := by
  unfold word
  refine .get ?_
  dsimp only
  rw [h.lexeme_eq]
  exact (advance_settles h hkind).bind fun _ t t' ht hlt => .pure ht hlt.1

theorem ident_settles (h : c.Twin s s') : c.Settles ident ident s s' fun _ t => t.left < s.left := by
  unfold ident
  refine .ifAt h (fun hat => word_settles h ?_) fun _ => expected_settles h _
  rw [hat]
  decide

theorem closeAngle_settles (h : c.Twin s s') :
    c.Settles closeAngle closeAngle s s' fun _ t => t.left < s.left := by
  unfold closeAngle
  refine .get ?_
  dsimp only
  rw [h.lexeme_eq]
  refine .ite (fun hgt => ?_) fun hgt => ?_
  · have hkind : s.kind 0 ≠ .endOfFile := by
      rw [State.kind, hgt]
      decide
    exact (advance_settles h hkind).bind fun _ t t' ht hlt => .pure ht hlt.1
  · cases hy : (s.lexeme 0).afterGt? with
    | none => exact expected_settles h _
    | some y =>
      obtain ⟨hat, hlt⟩ := afterGt?_left c.significant h.at_ hgt hy
      have hrest := h.rest_eq
      have hconsumed : s'.consumed = s.consumed := by rw [h.twin_eq]
      refine ⟨_, rfl, ?_, hlt⟩
      rw [hrest, hconsumed]
      exact h.next hat (Nat.le_of_lt hlt)

/-! ## Loops -/

/-- One turn of two loops: it ends them, or it goes on with them where less is left to read. -/
def Turn (c : TwoRuns) (loop loop' : Nat → β → Parser α) (slack : Nat) (p p' : Nat → Parser α)
    (s s' : State) (near : Nat) : Prop :=
  (∃ r r', (∀ n, p n s = r) ∧ (∀ n, p' n s' = r') ∧
    c.Agree (fun _ t => t.left < near + slack) r r') ∨
  ∃ (b : β) (f : α → α) (t t' : State), c.Twin t t' ∧ t.left < near ∧
    (∀ n, p n s = (loop n b t).map fun r => (f r.1, r.2)) ∧
    ∀ n, p' n s' = (loop' n b t').map fun r => (f r.1, r.2)

/-- Wherever less than `limit` is left, each turn of the loops ends them or goes on further ahead. -/
def Turns (c : TwoRuns) (loop loop' : Nat → β → Parser α) (slack limit : Nat) : Prop :=
  ∀ b s s', c.Twin s s' → s.left < limit →
    Turn c loop loop' slack (fun n => loop (n + 1) b) (fun n => loop' (n + 1) b) s s' s.left

namespace Turn

variable {loop loop' : Nat → β → Parser α} {slack near : Nat} {p p' q q' : Nat → Parser α}

theorem stop {p p' : Parser α} (h : c.Settles p p' s s' fun _ t => t.left < near + slack) :
    Turn c loop loop' slack (fun _ => p) (fun _ => p') s s' near :=
  .inl ⟨p s, p' s', fun _ => rfl, fun _ => rfl, h⟩

theorem again (h : c.Twin s s') (hlt : s.left < near) (b : β) :
    Turn c loop loop' slack (fun n => loop n b) (fun n => loop' n b) s s' near := by
  have hmap (r : Except SyntaxError (α × State)) : r = r.map fun r => (r.1, r.2) := by
    cases r <;> rfl
  exact .inr ⟨b, fun x => x, s, s', h, hlt, fun n => hmap _, fun n => hmap _⟩

/-- What the rest of the loop gives is made into the result of the turn. -/
theorem againMap (h : c.Twin s s') (hlt : s.left < near) (b : β) (f : α → α) :
    Turn c loop loop' slack (fun n => loop n b >>= fun x => pure (f x))
      (fun n => loop' n b >>= fun x => pure (f x)) s s' near :=
  .inr ⟨b, f, s, s', h, hlt, fun _ => rfl, fun _ => rfl⟩

theorem bind {γ : Type} {mid : γ → State → Prop} {q q' : Parser γ} {a a' : Nat → γ → Parser α}
    (hq : c.Settles q q' s s' mid)
    (ha : ∀ x t t', c.Twin t t' → mid x t →
      Turn c loop loop' slack (fun n => a n x) (fun n => a' n x) t t' near) :
    Turn c loop loop' slack (fun n => q >>= a n) (fun n => q' >>= a' n) s s' near := by
  unfold TwoRuns.Settles TwoRuns.Agree at hq
  have hbind (n : Nat) : (q >>= a n) s = (q s >>= fun r => a n r.1 r.2) := rfl
  have hbind' (n : Nat) : (q' >>= a' n) s' = (q' s' >>= fun r => a' n r.1 r.2) := rfl
  unfold Turn
  simp only [hbind, hbind']
  cases hrun : q s with
  | error e =>
    rw [hrun] at hq
    rw [hq.1]
    exact .inl ⟨_, _, fun _ => rfl, fun _ => rfl, rfl, hq.2⟩
  | ok r =>
    rw [hrun] at hq
    obtain ⟨t', hrun', htwin, hmid⟩ := hq
    rw [hrun']
    exact ha r.1 r.2 t' htwin hmid

theorem ite {b : Prop} [Decidable b] (hp : b → Turn c loop loop' slack p p' s s' near)
    (hq : ¬ b → Turn c loop loop' slack q q' s s' near) :
    Turn c loop loop' slack (fun n => if b then p n else q n) (fun n => if b then p' n else q' n) s s'
      near := by
  by_cases hb : b
  · simp only [if_pos hb]
    exact hp hb
  · simp only [if_neg hb]
    exact hq hb

/-- Branches that meet again in `a`, the first of them somewhere inside it. -/
theorem meet {γ : Type} {b : Prop} [Decidable b] {q q' : Parser γ} {a a' : Nat → γ → Parser α}
    (mid : γ → State → Prop)
    (ha : ∀ x t t', c.Twin t t' → mid x t →
      Turn c loop loop' slack (fun n => a n x) (fun n => a' n x) t t' near)
    (hp : b → (∀ x t t', c.Twin t t' → mid x t →
      Turn c loop loop' slack (fun n => a n x) (fun n => a' n x) t t' near) →
      Turn c loop loop' slack p p' s s' near)
    (hq : ¬ b → c.Settles q q' s s' mid) :
    Turn c loop loop' slack (fun n => if b then p n else q >>= a n)
      (fun n => if b then p' n else q' >>= a' n) s s' near :=
  .ite (fun hb => hp hb ha) fun hb => .bind (hq hb) ha

theorem get {a a' : Nat → State → Parser α}
    (h : Turn c loop loop' slack (fun n => a n s) (fun n => a' n s') s s' near) :
    Turn c loop loop' slack (fun n => MonadState.get >>= a n) (fun n => MonadState.get >>= a' n) s s'
      near := h

theorem isAt {a a' : Nat → Bool → Parser α} (h : c.Twin s s')
    (ha : Turn c loop loop' slack (fun n => a n (s.kind 0 == kind))
      (fun n => a' n (s.kind 0 == kind)) s s' near) :
    Turn c loop loop' slack (fun n => isAt kind >>= a n) (fun n => Parser.isAt kind >>= a' n) s s'
      near := by
  have hrun : Turn c loop loop' slack (fun n => a n (s.kind 0 == kind))
      (fun n => a' n (s'.kind 0 == kind)) s s' near := by rwa [h.kind_eq]
  exact hrun

theorem kindAt {a a' : Nat → TokenKind → Parser α} {n : Nat} (h : c.Twin s s')
    (ha : Turn c loop loop' slack (fun m => a m (s.kind n)) (fun m => a' m (s.kind n)) s s' near) :
    Turn c loop loop' slack (fun m => kindAt n >>= a m) (fun m => Parser.kindAt n >>= a' m) s s'
      near := by
  have hrun : Turn c loop loop' slack (fun m => a m (s.kind n)) (fun m => a' m (s'.kind n)) s s'
      near := by rwa [h.kind_eq]
  exact hrun

theorem rangeFrom {a a' : Nat → TextRange → Parser α} {start : Nat} (h : c.Twin s s')
    (ha : Turn c loop loop' slack (fun n => a n (s.rangeFrom start))
      (fun n => a' n (s.rangeFrom start)) s s' near) :
    Turn c loop loop' slack (fun n => rangeFrom start >>= a n)
      (fun n => Parser.rangeFrom start >>= a' n) s s' near := by
  have hrange : s'.rangeFrom start = s.rangeFrom start := by
    rw [h.twin_eq]
    rfl
  have hrun : Turn c loop loop' slack (fun n => a n (s.rangeFrom start))
      (fun n => a' n (s'.rangeFrom start)) s s' near := by rwa [hrange]
  exact hrun

/-- Both loops look whether the next lexeme is of a kind. -/
theorem ifAt (h : c.Twin s s')
    (hp : s.kind 0 = kind → Turn c loop loop' slack p p' s s' near)
    (hq : s.kind 0 ≠ kind → Turn c loop loop' slack q q' s s' near) :
    Turn c loop loop' slack (fun n => Parser.isAt kind >>= fun b => if b = true then p n else q n)
      (fun n => Parser.isAt kind >>= fun b => if b = true then p' n else q' n) s s' near :=
  .isAt h (.ite (fun hkind => hp (beq_iff_eq.1 hkind)) fun hkind => hq fun heq =>
    hkind (beq_iff_eq.2 heq))

end Turn

theorem TwoRuns.Agree.map {post : α → State → Prop} {far : β → State → Prop}
    {r r' : Except SyntaxError (α × State)} (h : c.Agree post r r') {f : α → β}
    (hpost : ∀ x t, post x t → far (f x) t) :
    c.Agree far (r.map fun r => (f r.1, r.2)) (r'.map fun r => (f r.1, r.2)) := by
  unfold TwoRuns.Agree at h
  cases r with
  | error e =>
    rw [h.1]
    exact ⟨rfl, h.2⟩
  | ok r =>
    obtain ⟨t', rfl, htwin, h⟩ := h
    exact ⟨t', rfl, htwin, hpost _ _ h⟩

/--
Loops that go on only further ahead come to an end before they have used up what bounds them: each
turn leaves less to read, and the bounds exceed what is left.
-/
theorem Turns.settles {loop loop' : Nat → β → Parser α} {slack limit : Nat}
    (hturns : Turns c loop loop' slack limit) {n n' : Nat} (b : β) (h : c.Twin s s')
    (hlimit : s.left < limit) (hn : s.left < n) (hn' : s.left < n') :
    c.Settles (loop n b) (loop' n' b) s s' fun _ t => t.left < s.left + slack := by
  induction n generalizing n' b s s' with
  | zero => omega
  | succ n ih =>
    obtain ⟨n', rfl⟩ : ∃ m, n' = m + 1 := ⟨n' - 1, by omega⟩
    unfold Settles
    rcases hturns b s s' h hlimit with ⟨r, r', hp, hp', hagree⟩ | ⟨b, f, t, t', ht, hlt, hp, hp'⟩
    · dsimp only at hp hp'
      rwa [hp n, hp' n']
    · dsimp only at hp hp'
      rw [hp n, hp' n']
      have hrest := ih b ht (by omega) (by omega) (show t.left < n' by omega)
      exact TwoRuns.Agree.map hrest fun _ u hu => by omega

/-! ## Repetitions -/

/-- Wherever less than `limit` is left, two parsers do the same and take something. -/
def TwoRuns.Onward (c : TwoRuns) (limit : Nat) (p p' : Parser α) : Prop :=
  ∀ ⦃s s'⦄, c.Twin s s' → s.left < limit → c.Settles p p' s s' fun _ t => t.left < s.left

variable {p p' : Parser α} {more : State → Bool} {limit : Nat}

theorem repeatWhile_turns (hmore : ∀ s s', c.Twin s s' → more s' = more s)
    (hp : c.Onward limit p p') :
    Turns c (fun n (_ : Unit) => repeatWhile more p n) (fun n _ => repeatWhile more p' n) 1 limit := by
  intro _ s s' h hlt
  refine .get ?_
  rw [hmore s s' h]
  refine .ite (fun _ => ?_) fun _ => .stop (.pure h (by omega))
  refine .bind (hp h hlt) fun x t t' ht hlt => ?_
  exact .againMap ht hlt () fun xs => x :: xs

theorem separatedUpTo_turns (hkind : kind ≠ .endOfFile) (hp : c.Onward limit p p') :
    Turns c (fun n (_ : Unit) => separatedUpTo kind p n) (fun n _ => separatedUpTo kind p' n) 0
      limit := by
  intro _ s s' h hlt
  refine .bind (hp h hlt) fun x t t' ht hlt => ?_
  refine .bind (eat_settles_le ht hkind) fun found u u' hu hle => ?_
  refine .ite (fun _ => ?_) fun _ => .stop (.pure hu (by omega))
  exact .againMap hu (by omega) () fun xs => x :: xs

theorem terminatedUpTo_turns (hkind : kind ≠ .endOfFile)
    (hmore : ∀ s s', c.Twin s s' → more s' = more s) (hp : c.Onward limit p p') :
    Turns c (fun n (_ : Unit) => terminatedUpTo kind more p n)
      (fun n _ => terminatedUpTo kind more p' n) 1 limit := by
  intro _ s s' h hlt
  refine .get ?_
  rw [hmore s s' h]
  refine .ite (fun _ => .stop (.pure h (by omega))) fun _ => ?_
  refine .bind (hp h hlt) fun x t t' ht hlt => ?_
  refine .bind (eat_settles_le ht hkind) fun found u u' hu hle => ?_
  refine .ite (fun _ => ?_) fun _ => .stop (.pure hu (by omega))
  exact .againMap hu (by omega) () fun xs => x :: xs

/-- The bounds of the runs are enough for a loop. -/
theorem Turns.settles_budget {loop loop' : Nat → β → Parser α} {slack : Nat}
    (hturns : Turns c loop loop' slack limit) (b : β) (h : c.Twin s s') (hlimit : s.left < limit) :
    c.Settles (loop s.budget b) (loop' s'.budget b) s s' fun _ t => t.left < s.left + slack :=
  hturns.settles b h hlimit (h.budget_eq ▸ h.left_lt) (h.budget_eq' ▸ h.left_lt')

/-- What does not look at the bounds is the same for twins. -/
theorem more_twin (hmore : ∀ s budget, more { s with budget := budget } = more s) :
    ∀ s s', c.Twin s s' → more s' = more s := by
  intro s s' h
  rw [h.twin_eq]
  exact hmore s c.budget'

theorem many_settles (hmore : ∀ s budget, more { s with budget := budget } = more s)
    (hp : c.Onward limit p p') (h : c.Twin s s') (hlimit : s.left < limit) :
    c.Settles (many more p) (many more p') s s' fun _ t => t.left ≤ s.left :=
  .get (((repeatWhile_turns (more_twin hmore) hp).settles_budget () h hlimit).mono fun _ _ => Nat.le_of_lt_succ)

theorem separated_settles (hkind : kind ≠ .endOfFile) (hp : c.Onward limit p p') (h : c.Twin s s')
    (hlimit : s.left < limit) :
    c.Settles (separated kind p) (separated kind p') s s' fun _ t => t.left < s.left :=
  .get ((separatedUpTo_turns hkind hp).settles_budget () h hlimit)

theorem terminated_settles (hkind : kind ≠ .endOfFile)
    (hmore : ∀ s budget, more { s with budget := budget } = more s) (hp : c.Onward limit p p')
    (h : c.Twin s s') (hlimit : s.left < limit) :
    c.Settles (terminated kind more p) (terminated kind more p') s s' fun _ t => t.left ≤ s.left :=
  .get (((terminatedUpTo_turns hkind (more_twin hmore) hp).settles_budget () h hlimit).mono
    fun _ _ => Nat.le_of_lt_succ)

/-! ## Brackets -/

theorem bracketsUpTo_turns :
    Turns c (fun n (_ : Unit) => bracketsUpTo n) (fun n _ => bracketsUpTo n) 1 limit := by
  intro _ s s' h _
  refine .get ?_
  rw [h.kind_eq, h.kind_eq]
  refine .ite (fun hkinds => ?_) fun _ => .stop (.pure h (by omega))
  rw [Bool.and_eq_true, beq_iff_eq, beq_iff_eq] at hkinds
  refine .bind (advance_settles h (by rw [hkinds.1]; decide)) fun first t t' ht hlt => ?_
  refine .bind (advance_settles_le ht) fun last u u' hu hle => ?_
  exact .againMap hu (Nat.lt_of_le_of_lt hle hlt.1) () fun pairs => first.cover last :: pairs

theorem brackets_settles (h : c.Twin s s') :
    c.Settles brackets brackets s s' fun _ t => t.left ≤ s.left :=
  .get ((bracketsUpTo_turns.settles_budget () h (Nat.lt_succ_self _)).mono
    fun _ _ => Nat.le_of_lt_succ)

end Parser

end JavaAnalysis
