import JavaAnalysis.Proofs.Parser.Angles
import JavaAnalysis.Proofs.Spacing.Lexemes

/-!
# Two runs of a parser

A parser that reads the lexemes of a tight row and a parser that reads the same lexemes elsewhere take
the same steps: what the one gives is what the other gives, moved along with the lexemes. `Mirrors`
says so of two parsers at two places, and how far they have come. Each range that a parser makes ends
with a lexeme that was stepped over after the range was begun, which is why ends can be told from
starts. This module shows it for the primitives of the parser.
-/

set_option autoImplicit false
set_option linter.dupNamespace false

namespace JavaAnalysis

open Lexeme

/-- Where an error is reported: at a lexeme, or at the end of the file, where there is nothing. -/
def Shift.spot (f : Shift) (r : TextRange) : TextRange :=
  if r.start < r.stop then f.range r else .empty (f.start r.start)

def SyntaxError.shift (f : Shift) (e : SyntaxError) : SyntaxError := ⟨e.message, f.spot e.range⟩

namespace Parser

/-- A parser stands at the same lexeme in a tight row and in the row it was spread to. -/
structure State.Moved (f : Shift) (s t : State) : Prop where
  ascending : StrictMono f.start
  level_eq : t.level = s.level
  budget_eq : t.budget = s.budget
  rest : List.Forall₂ (Lexeme.Moved f) s.rest t.rest
  final : Lexeme.Moved f s.final t.final
  previousStop_eq : t.previousStop = f.stop s.previousStop
  tight : Tight s.previousStop s.rest
  operators : ∀ x ∈ s.rest, x.kind.startsWithGt = true →
    TokenKind.ofGtText? x.text = some x.kind

/--
From two places, two parsers do the same: both fail with the same message, or both go on, the first
one at least as far as `reach` tells of its result, with results of which the second is the first
one as `g` moves it.
-/
def Mirrors (f : Shift) {α : Type} (reach : α → Nat) (g : α → α) (p q : Parser α)
    (s t : State) : Prop :=
  match p s with
  | .ok (x, s') => ∃ t', q t = .ok (g x, t') ∧ State.Moved f s' t' ∧ reach x ≤ s'.start
  | .error e => q t = .error (e.shift f)

variable {f : Shift} {s t u v : State} {α β : Type} {kind : TokenKind} {n : Nat}

namespace State.Moved

theorem lexeme (h : State.Moved f s t) (n : Nat) : Lexeme.Moved f (s.lexeme n) (t.lexeme n) := by
  unfold State.lexeme
  by_cases hn : n < s.rest.length
  · have hn' : n < t.rest.length := h.rest.length_eq ▸ hn
    rw [List.getElem?_eq_getElem hn, List.getElem?_eq_getElem hn']
    exact h.rest.get hn hn'
  · have hn' : ¬ n < t.rest.length := h.rest.length_eq ▸ hn
    rw [List.getElem?_eq_none (Nat.le_of_not_lt hn), List.getElem?_eq_none (Nat.le_of_not_lt hn')]
    exact h.final

@[simp] theorem kind_eq (h : State.Moved f s t) (n : Nat) : t.kind n = s.kind n :=
  (h.lexeme n).kind_eq

theorem text_eq (h : State.Moved f s t) (n : Nat) : (t.lexeme n).text = (s.lexeme n).text :=
  (h.lexeme n).text_eq

theorem start_eq (h : State.Moved f s t) : t.start = f.start s.start := (h.lexeme 0).start_eq

theorem isWord_eq (h : State.Moved f s t) (n : Nat) (word : String) :
    t.isWord n word = s.isWord n word := by
  unfold State.isWord
  rw [h.kind_eq, h.text_eq]

/-- Two places at which a row goes on from a lexeme. -/
theorem cases (h : State.Moved f s t) : ∃ x xs y ys, s.rest = x :: xs ∧ t.rest = y :: ys ∧
    s.lexeme 0 = x ∧ t.lexeme 0 = y ∧ x.start = s.previousStop ∧ Lexeme.Moved f x y ∧
    List.Forall₂ (Lexeme.Moved f) xs ys ∧
    (x.kind ≠ .endOfFile → 0 < x.text.utf8ByteSize ∧ Tight x.stop xs) := by
  have htight := h.tight
  have hrest := h.rest
  cases hs : s.rest with
  | nil =>
    rw [hs] at htight
    cases htight
  | cons x xs =>
    rw [hs] at htight hrest
    obtain ⟨y, ys, hxy, hxys, ht⟩ := List.forall₂_cons_left_iff.1 hrest
    refine ⟨x, xs, y, ys, rfl, ht, by simp [State.lexeme, hs], by simp [State.lexeme, ht], ?_, hxy,
      hxys, fun hkind => ?_⟩
    · cases htight <;> assumption
    · cases htight with
      | last _ hend => exact absurd hend.kind hkind
      | cons _ _ hne htight => exact ⟨hne, htight⟩

/-- In a tight row nothing lies between the last lexeme and the next. -/
theorem previousStop_eq_start (h : State.Moved f s t) : s.previousStop = s.start := by
  obtain ⟨x, xs, y, ys, -, -, hx, -, hstart, -⟩ := h.cases
  rw [State.start, hx, hstart]

/-- What was begun before the last lexeme ends with it. -/
theorem rangeFrom_eq (h : State.Moved f s t) {start : Nat} (hlt : start < s.start) :
    t.rangeFrom (f.start start) = f.range (s.rangeFrom start) := by
  have hprevious := h.previousStop_eq_start
  have hstop : f.start start < f.stop s.previousStop :=
    (Shift.start_lt_stop_iff h.ascending).2 (by omega)
  simp only [State.rangeFrom, Shift.range, h.previousStop_eq]
  rw [Nat.max_eq_left (Nat.le_of_lt hstop), Nat.max_eq_left (by omega)]

theorem spot_eq (h : State.Moved f s t) : (t.lexeme 0).range = f.spot (s.lexeme 0).range := by
  obtain ⟨x, xs, y, ys, -, -, hx, hy, -, hxy, -, hne⟩ := h.cases
  have hwidth : x.range.start < x.range.stop ↔ 0 < x.text.utf8ByteSize := by
    simp only [Lexeme.range, Lexeme.stop]
    omega
  rw [hx, hy, Shift.spot]
  by_cases hpos : 0 < x.text.utf8ByteSize
  · rw [if_pos (hwidth.2 hpos), hxy.range_eq hpos]
  · rw [if_neg fun hlt => hpos (hwidth.1 hlt)]
    have hzero : y.text.utf8ByteSize = 0 := by
      rw [hxy.text_eq]
      omega
    simp only [Lexeme.range, Lexeme.stop, hzero, hxy.start_eq, TextRange.empty, Nat.add_zero]

end State.Moved

/-! ## Runs one after the other -/

namespace Mirrors

variable {g : α → α} {k : β → β} {p q : Parser α} {a b : α → Parser β} {reach mid : α → Nat}
  {far : β → Nat}

theorem pure {x y : α} (h : State.Moved f s t) (hreach : reach x ≤ s.start) (hy : y = g x) :
    Mirrors f reach g (Pure.pure x : Parser α) (Pure.pure y) s t :=
  ⟨t, by rw [hy]; rfl, h, hreach⟩

theorem bind (hp : Mirrors f mid g p q s t)
    (hab : ∀ x u v, State.Moved f u v → mid x ≤ u.start → Mirrors f far k (a x) (b (g x)) u v) :
    Mirrors f far k (p >>= a) (q >>= b) s t := by
  unfold Mirrors at hp ⊢
  have hbind : (p >>= a) s = (p s >>= fun r => a r.1 r.2) := rfl
  have hbind' : (q >>= b) t = (q t >>= fun r => b r.1 r.2) := rfl
  rw [hbind, hbind']
  cases hrun : p s with
  | error e =>
    rw [hrun] at hp
    show (q t >>= fun r => b r.1 r.2) = _
    rw [hp]
    rfl
  | ok r =>
    rw [hrun] at hp
    obtain ⟨v, hq, hmoved, hmid⟩ := hp
    rw [hq]
    exact hab r.1 r.2 v hmoved hmid

theorem pure_bind {x y : α} (h : Mirrors f far k (a x) (b y) s t) :
    Mirrors f far k (Pure.pure x >>= a) (Pure.pure y >>= b) s t := h

theorem map {n : Nat} (hp : Mirrors f (fun _ => n) g p q s t) {j l : α → β}
    (hjl : ∀ x, l (g x) = k (j x)) : Mirrors f (fun _ => n) k (j <$> p) (l <$> q) s t :=
  hp.bind (a := fun x => Pure.pure (j x)) (b := fun x => Pure.pure (l x))
    fun x _ _ h hle => .pure h hle (hjl x)

theorem weaken {near : α → Nat} (hp : Mirrors f reach g p q s t) (hle : ∀ x, near x ≤ reach x) :
    Mirrors f near g p q s t := by
  unfold Mirrors at hp ⊢
  split
  · rename_i hrun
    rw [hrun] at hp
    obtain ⟨v, hq, hmoved, hreach⟩ := hp
    exact ⟨v, hq, hmoved, Nat.le_trans (hle _) hreach⟩
  · rename_i hrun
    rwa [hrun] at hp

theorem mono {m n : Nat} (hp : Mirrors f (fun _ => n) g p q s t) (hle : m ≤ n) :
    Mirrors f (fun _ => m) g p q s t :=
  hp.weaken fun _ => hle

theorem ite {c d : Prop} [Decidable c] [Decidable d] {p' q' : Parser α} (hcd : d ↔ c)
    (hp : c → Mirrors f reach g p q s t) (hq : ¬ c → Mirrors f reach g p' q' s t) :
    Mirrors f reach g (if c then p else p') (if d then q else q') s t := by
  by_cases hc : c
  · rw [if_pos hc, if_pos (hcd.2 hc)]
    exact hp hc
  · rw [if_neg hc, if_neg fun hd => hc (hcd.1 hd)]
    exact hq hc

/-- Branches that meet again in `a` and `b`, the first of them somewhere inside it. -/
theorem meet {c d : Prop} [Decidable c] [Decidable d] {p q : Parser β} {p' q' : Parser α}
    (mid : α → Nat) (g : α → α) (hcd : d ↔ c)
    (hab : ∀ x u v, State.Moved f u v → mid x ≤ u.start → Mirrors f far k (a x) (b (g x)) u v)
    (hp : c → (∀ x u v, State.Moved f u v → mid x ≤ u.start →
      Mirrors f far k (a x) (b (g x)) u v) → Mirrors f far k p q s t)
    (hq : ¬ c → Mirrors f mid g p' q' s t) :
    Mirrors f far k (if c then p else p' >>= a) (if d then q else q' >>= b) s t :=
  .ite hcd (fun hc => hp hc hab) fun hc => (hq hc).bind hab

theorem get {a b : State → Parser α} (h : Mirrors f reach g (a s) (b t) s t) :
    Mirrors f reach g (MonadState.get >>= a) (MonadState.get >>= b) s t := h

theorem startHere {a b : Nat → Parser α} (h : State.Moved f s t)
    (hab : Mirrors f reach g (a s.start) (b (f.start s.start)) s t) :
    Mirrors f reach g (startHere >>= a) (Parser.startHere >>= b) s t := by
  have hrun : Mirrors f reach g (a s.start) (b t.start) s t := by rwa [h.start_eq]
  exact hrun

theorem isAt {a b : Bool → Parser α} (h : State.Moved f s t)
    (hab : Mirrors f reach g (a (s.kind 0 == kind)) (b (s.kind 0 == kind)) s t) :
    Mirrors f reach g (isAt kind >>= a) (Parser.isAt kind >>= b) s t := by
  have hrun : Mirrors f reach g (a (s.kind 0 == kind)) (b (t.kind 0 == kind)) s t := by
    rwa [h.kind_eq]
  exact hrun

theorem kindAt {a b : TokenKind → Parser α} (h : State.Moved f s t)
    (hab : Mirrors f reach g (a (s.kind n)) (b (s.kind n)) s t) :
    Mirrors f reach g (kindAt n >>= a) (Parser.kindAt n >>= b) s t := by
  have hrun : Mirrors f reach g (a (s.kind n)) (b (t.kind n)) s t := by rwa [h.kind_eq]
  exact hrun

theorem supports {a b : Bool → Parser α} {feature : Feature} (h : State.Moved f s t)
    (hab : Mirrors f reach g (a (s.level.supports feature)) (b (s.level.supports feature)) s t) :
    Mirrors f reach g (supports feature >>= a) (Parser.supports feature >>= b) s t := by
  have hrun : Mirrors f reach g (a (s.level.supports feature)) (b (t.level.supports feature)) s t := by
    rwa [h.level_eq]
  exact hrun

theorem rangeFrom {a b : TextRange → Parser α} {start : Nat} (h : State.Moved f s t)
    (hlt : start < s.start)
    (hab : Mirrors f reach g (a (s.rangeFrom start)) (b (f.range (s.rangeFrom start))) s t) :
    Mirrors f reach g (rangeFrom start >>= a) (Parser.rangeFrom (f.start start) >>= b) s t := by
  have hrun : Mirrors f reach g (a (s.rangeFrom start)) (b (t.rangeFrom (f.start start))) s t := by
    rwa [h.rangeFrom_eq hlt]
  exact hrun

/-- Both parsers look whether the next lexeme is of a kind. -/
theorem ifAt {p' q' : Parser α} (h : State.Moved f s t)
    (hp : s.kind 0 = kind → Mirrors f reach g p q s t)
    (hq : s.kind 0 ≠ kind → Mirrors f reach g p' q' s t) :
    Mirrors f reach g (Parser.isAt kind >>= fun b => if b = true then p else p')
      (Parser.isAt kind >>= fun b => if b = true then q else q') s t :=
  .isAt h (.ite Iff.rfl (fun hkind => hp (beq_iff_eq.1 hkind))
    fun hkind => hq fun heq => hkind (beq_iff_eq.2 heq))

end Mirrors

/-! ## Failing -/

variable {g : α → α} {reach : α → Nat}

theorem fail_mirrors (h : State.Moved f s t) (message : String) :
    Mirrors f reach g (fail message) (fail message) s t := by
  show (Except.error _ : Except SyntaxError _) = _
  rw [h.spot_eq]
  rfl

theorem expected_mirrors (h : State.Moved f s t) (what : String) :
    Mirrors f reach g (expected what) (expected what) s t := by
  unfold expected
  refine .get ?_
  dsimp only
  rw [h.text_eq, (h.lexeme 0).kind_eq]
  exact .ite Iff.rfl (fun _ => fail_mirrors h _) fun _ => fail_mirrors h _

theorem exhausted_mirrors (h : State.Moved f s t) :
    Mirrors f reach g exhausted exhausted s t :=
  fail_mirrors h _

/-- What is tried and fails leaves the parsers where they stand. -/
theorem attempt_mirrors {p q : Parser α} (h : State.Moved f s t)
    (hp : Mirrors f reach g p q s t) :
    Mirrors f (fun o => o.elim s.start reach) (Option.map g) (attempt p) (attempt q) s t := by
  unfold Mirrors at hp ⊢
  unfold attempt
  cases hrun : p s with
  | error e =>
    rw [hrun] at hp
    simp only [hp]
    exact ⟨t, rfl, h, Nat.le_refl _⟩
  | ok r =>
    rw [hrun] at hp
    obtain ⟨v, hq, hmoved, hreach⟩ := hp
    simp only [hq]
    exact ⟨v, rfl, hmoved, hreach⟩

/-- How far a parser has come that steps over something if it gives anything. -/
def taking (n : Nat) (o : Option α) : Nat := o.elim n fun _ => n + 1

/-- What two parsers do that give something only where they step over something. -/
def Maybe (f : Shift) (g : α → α) (p q : Parser (Option α)) : Prop :=
  ∀ s t, State.Moved f s t → Mirrors f (taking s.start) (Option.map g) p q s t

theorem Mirrors.some {p q : Parser α} (hp : Mirrors f (fun _ => n + 1) g p q s t) :
    Mirrors f (taking n) (Option.map g) (some <$> p) (some <$> q) s t :=
  hp.bind (a := fun x => Pure.pure (Option.some x)) (b := fun x => Pure.pure (Option.some x))
    fun _ _ _ h hle => .pure h hle rfl

/-! ## Stepping over lexemes -/

/-- What the places look like behind the next lexeme. -/
theorem State.Moved.next {x y : Lexeme} {xs ys : List Lexeme} (h : State.Moved f s t)
    (hs : s.rest = x :: xs) (ht : t.rest = y :: ys) (hkind : x.kind ≠ .endOfFile) :
    State.Moved f { s with rest := xs, consumed := x :: s.consumed }
      { t with rest := ys, consumed := y :: t.consumed } ∧
      s.start + 1 ≤ State.start { s with rest := xs, consumed := x :: s.consumed } := by
  obtain ⟨x', xs', y', ys', hs', ht', hx, -, -, hxy, hxys, hnext⟩ := h.cases
  cases hs'.symm.trans hs
  cases ht'.symm.trans ht
  obtain ⟨hne, htight⟩ := hnext hkind
  refine ⟨⟨h.ascending, h.level_eq, h.budget_eq, hxys, h.final, hxy.stop_eq hne, htight,
    fun z hz => h.operators z (hs ▸ List.mem_cons_of_mem _ hz)⟩, ?_⟩
  have hnew : State.start { s with rest := xs, consumed := x :: s.consumed } = x.stop := by
    cases htight <;> simpa [State.start, State.lexeme]
  rw [hnew, State.start, hx, Lexeme.stop]
  omega

theorem advance_mirrors (h : State.Moved f s t) (hkind : s.kind 0 ≠ .endOfFile) :
    Mirrors f (fun _ => s.start + 1) f.range advance advance s t := by
  obtain ⟨x, xs, y, ys, hs, ht, hx, hy, -, hxy, -, hnext⟩ := h.cases
  have hxkind : x.kind ≠ .endOfFile := by rwa [State.kind, hx] at hkind
  have hykind : y.kind ≠ .endOfFile := by rwa [hxy.kind_eq]
  obtain ⟨hmoved, hreach⟩ := h.next hs ht hxkind
  unfold Mirrors
  rw [advance_eq hs, advance_eq ht, if_neg hxkind, if_neg hykind]
  exact ⟨_, by rw [hxy.range_eq (hnext hxkind).1], hmoved, hreach⟩

/-- At the end of the file there is nothing to step over. -/
theorem advance_mirrors_spot (h : State.Moved f s t) :
    Mirrors f (fun _ => s.start) f.spot advance advance s t := by
  obtain ⟨x, xs, y, ys, hs, ht, hx, hy, -, hxy, -, -⟩ := h.cases
  have hspot := h.spot_eq
  rw [hx, hy] at hspot
  unfold Mirrors
  rw [advance_eq hs, advance_eq ht, hspot]
  by_cases hkind : x.kind = .endOfFile
  · rw [if_pos hkind, if_pos (hxy.kind_eq.trans hkind)]
    exact ⟨t, rfl, h, Nat.le_refl _⟩
  · obtain ⟨hmoved, hreach⟩ := h.next hs ht hkind
    rw [if_neg hkind, if_neg fun heq => hkind (hxy.kind_eq.symm.trans heq)]
    exact ⟨_, rfl, hmoved, Nat.le_of_succ_le hreach⟩

theorem eat_mirrors (h : State.Moved f s t) :
    Mirrors f (fun _ => s.start) (fun x => x) (eat kind) (eat kind) s t := by
  unfold eat
  refine .ifAt h (fun _ => ?_) fun _ => .pure h (Nat.le_refl _) rfl
  exact (advance_mirrors_spot h).bind fun _ u v h' hle => .pure h' hle rfl

/-- Where a lexeme was found, it has been stepped over. -/
theorem eat_mirrors_found (h : State.Moved f s t) (hkind : kind ≠ .endOfFile) :
    Mirrors f (fun found => if found then s.start + 1 else s.start) (fun x => x) (eat kind)
      (eat kind) s t := by
  unfold eat
  refine .ifAt h (fun hat => ?_) fun _ => .pure h (Nat.le_refl _) rfl
  exact (advance_mirrors h (hat ▸ hkind)).bind fun _ u v h' hle => .pure h' hle rfl

theorem expect_mirrors (h : State.Moved f s t) (hkind : kind ≠ .endOfFile) :
    Mirrors f (fun _ => s.start + 1) f.range (expect kind) (expect kind) s t := by
  unfold expect
  exact .ifAt h (fun hat => advance_mirrors h (hat ▸ hkind)) fun _ => expected_mirrors h _

theorem word_mirrors (h : State.Moved f s t) (hkind : s.kind 0 ≠ .endOfFile) :
    Mirrors f (fun _ => s.start + 1) (Ast.Ident.shift f) word word s t := by
  unfold word
  refine .get ?_
  dsimp only
  refine (advance_mirrors h hkind).bind fun r u v h' hle => .pure h' hle ?_
  rw [h.text_eq]
  rfl

theorem ident_mirrors (h : State.Moved f s t) :
    Mirrors f (fun _ => s.start + 1) (Ast.Ident.shift f) ident ident s t := by
  unfold ident
  refine .ifAt h (fun hat => word_mirrors h ?_) fun _ => expected_mirrors h _
  rw [hat]
  decide

/-! ## Closing angle brackets -/

theorem ne_endOfFile_of_ofGtText? {text : String} (h : TokenKind.ofGtText? text = some kind) :
    kind ≠ .endOfFile := by
  unfold TokenKind.ofGtText? at h
  repeat' split at h
  all_goals cases h <;> decide

theorem nonempty_of_ofGtText? {text : String} (h : TokenKind.ofGtText? text = some kind) :
    0 < text.utf8ByteSize := by
  rcases Nat.eq_zero_or_pos text.utf8ByteSize with hzero | hpos
  · rw [String.utf8ByteSize_eq_zero_iff.1 hzero] at h
    cases h
  · exact hpos

/-- What is left of an operator is the same wherever it stands. -/
theorem afterGt?_eq {x y : Lexeme} (h : Same x y) : y.afterGt? = x.afterGt?.map fun z =>
    { z with start := y.start + 1, position := y.position.nextColumn } := by
  unfold Lexeme.afterGt?
  rw [h.kind_eq, h.text_eq]
  split
  · simp only [Option.map_map]
    rfl
  · rfl

/-- What is left of an operator moves with it. -/
theorem moved_rest {x y z : Lexeme} (h : Lexeme.Moved f x y)
    (hx : TokenKind.ofGtText? x.text = some x.kind) (hz : x.afterGt? = some z) :
    Lexeme.Moved f z { z with start := y.start + 1, position := y.position.nextColumn } := by
  obtain ⟨-, hstart, hstop, -⟩ := rest_of_afterGt? hx hz
  have hinside : ∀ d, d + 1 < x.text.utf8ByteSize → f.start (z.start + d) = y.start + 1 + d := by
    intro d hd
    have hd' := h.inside (1 + d) (by omega)
    rwa [← Nat.add_assoc, ← Nat.add_assoc, ← hstart] at hd'
  have hwidth : x.text.utf8ByteSize = z.text.utf8ByteSize + 1 := by
    unfold Lexeme.stop at hstop
    omega
  have hne := nonempty_of_ofGtText? (rest_of_afterGt? hx hz).1
  exact ⟨⟨rfl, rfl⟩, (hinside 0 (by omega)).symm, fun d hd => hinside d (by omega)⟩

theorem closeAngle_mirrors (h : State.Moved f s t) :
    Mirrors f (fun _ => s.start + 1) (fun x => x) closeAngle closeAngle s t := by
  obtain ⟨x, xs, y, ys, hs, ht, hx, hy, hstart, hxy, hxys, hnext⟩ := h.cases
  unfold closeAngle
  refine .get ?_
  dsimp only
  rw [hx, hy, afterGt?_eq hxy.toSame]
  refine .ite (by rw [hxy.kind_eq]) (fun hgt => ?_) fun _ => ?_
  · have hkind : s.kind 0 ≠ .endOfFile := by
      rw [State.kind, hx, hgt]
      decide
    exact (advance_mirrors h hkind).bind fun _ u v h' hle => .pure h' hle rfl
  · cases hz : x.afterGt? with
    | none => exact expected_mirrors h _
    | some z =>
      have hoperator : TokenKind.ofGtText? x.text = some x.kind := by
        refine h.operators x (hs ▸ List.mem_cons_self) ?_
        unfold Lexeme.afterGt? at hz
        split at hz
        · assumption
        · cases hz
      obtain ⟨hkind, hstart', hstop, -⟩ := rest_of_afterGt? hoperator hz
      obtain ⟨-, htight⟩ := hnext (ne_endOfFile_of_ofGtText? hoperator)
      refine ⟨_, rfl, ⟨h.ascending, h.level_eq, h.budget_eq, ?_, h.final, ?_, ?_, ?_⟩, ?_⟩
      · rw [hs, ht]
        exact .cons (moved_rest hxy hoperator hz) hxys
      · show y.start + 1 = f.start x.start + 1
        rw [hxy.start_eq]
      · rw [hs]
        exact .cons hstart' (ne_endOfFile_of_ofGtText? hkind) (nonempty_of_ofGtText? hkind)
          (hstop ▸ htight)
      · intro w hw hgt
        rcases List.mem_cons.1 hw with rfl | hw
        · exact hkind
        · refine h.operators w ?_ hgt
          rw [hs] at hw ⊢
          exact List.mem_cons_of_mem _ hw
      · show s.start + 1 ≤ z.start
        rw [State.start, hx]
        omega

/-! ## Repetitions -/

variable {more : State → Bool} {p q : Parser α}

/-- What two parsers do wherever they stand at the same lexeme. -/
def Alike (f : Shift) (g : α → α) (p q : Parser α) : Prop :=
  ∀ s t, State.Moved f s t → Mirrors f (fun _ => s.start) g p q s t

/-- What two parsers do that step over something wherever they stand at the same lexeme. -/
def Onward (f : Shift) (g : α → α) (p q : Parser α) : Prop :=
  ∀ s t, State.Moved f s t → Mirrors f (fun _ => s.start + 1) g p q s t

theorem Onward.alike (hp : Onward f g p q) : Alike f g p q :=
  fun s t h => (hp s t h).mono (Nat.le_succ _)

theorem repeatWhile_alike (hmore : ∀ s t, State.Moved f s t → more t = more s)
    (hp : Alike f g p q) (n : Nat) :
    Alike f (List.map g) (repeatWhile more p n) (repeatWhile more q n) := by
  induction n with
  | zero => exact fun s t h => exhausted_mirrors h
  | succ n ih =>
    intro s t h
    refine .get (.ite (by rw [hmore s t h]) (fun _ => ?_) fun _ => .pure h (Nat.le_refl _) rfl)
    refine (hp s t h).bind fun x u v h₁ hle₁ => ?_
    exact (ih u v h₁).bind fun xs u' v' h₂ hle₂ => .pure h₂ (by omega) rfl

theorem many_alike (hmore : ∀ s t, State.Moved f s t → more t = more s) (hp : Alike f g p q) :
    Alike f (List.map g) (many more p) (many more q) := by
  intro s t h
  refine .get ?_
  rw [h.budget_eq]
  exact repeatWhile_alike hmore hp s.budget s t h

theorem separatedUpTo_onward (hp : Onward f g p q) (n : Nat) :
    Onward f (List.map g) (separatedUpTo kind p n) (separatedUpTo kind q n) := by
  induction n with
  | zero => exact fun s t h => exhausted_mirrors h
  | succ n ih =>
    intro s t h
    refine (hp s t h).bind fun x u v h₁ hle₁ => ?_
    refine (eat_mirrors h₁).bind fun found u' v' h₂ hle₂ => ?_
    refine .ite Iff.rfl (fun _ => ?_) fun _ => .pure h₂ (by omega) rfl
    exact (ih u' v' h₂).bind fun xs u₃ v₃ h₃ hle₃ => .pure h₃ (by omega) rfl

theorem separated_onward (hp : Onward f g p q) :
    Onward f (List.map g) (separated kind p) (separated kind q) := by
  intro s t h
  refine .get ?_
  rw [h.budget_eq]
  exact separatedUpTo_onward hp s.budget s t h

theorem terminatedUpTo_alike (hmore : ∀ s t, State.Moved f s t → more t = more s)
    (hp : Alike f g p q) (n : Nat) :
    Alike f (List.map g) (terminatedUpTo kind more p n) (terminatedUpTo kind more q n) := by
  induction n with
  | zero => exact fun s t h => exhausted_mirrors h
  | succ n ih =>
    intro s t h
    refine .get (.ite (by rw [hmore s t h]) (fun _ => .pure h (Nat.le_refl _) rfl) fun _ => ?_)
    refine (hp s t h).bind fun x u v h₁ hle₁ => ?_
    refine (eat_mirrors h₁).bind fun found u' v' h₂ hle₂ => ?_
    refine .ite Iff.rfl (fun _ => ?_) fun _ => .pure h₂ (by omega) rfl
    exact (ih u' v' h₂).bind fun xs u₃ v₃ h₃ hle₃ => .pure h₃ (by omega) rfl

theorem terminated_alike (hmore : ∀ s t, State.Moved f s t → more t = more s)
    (hp : Alike f g p q) :
    Alike f (List.map g) (terminated kind more p) (terminated kind more q) := by
  intro s t h
  refine .get ?_
  rw [h.budget_eq]
  exact terminatedUpTo_alike hmore hp s.budget s t h

/-! ## Brackets -/

/-- Behind a lexeme that is stepped over stand those that stood behind it before. -/
theorem Mirrors.advance {a b : TextRange → Parser α} (h : State.Moved f s t)
    (hkind : s.kind 0 ≠ .endOfFile)
    (hab : ∀ u v, State.Moved f u v → s.start + 1 ≤ u.start →
      (∀ n, u.kind n = s.kind (n + 1)) →
      Mirrors f reach g (a (s.lexeme 0).range) (b (f.range (s.lexeme 0).range)) u v) :
    Mirrors f reach g (advance >>= a) (Parser.advance >>= b) s t := by
  obtain ⟨x, xs, y, ys, hs, ht, hx, hy, -, hxy, -, hnext⟩ := h.cases
  have hxkind : x.kind ≠ .endOfFile := by rwa [State.kind, hx] at hkind
  obtain ⟨hmoved, hreach⟩ := h.next hs ht hxkind
  have hrun := hab _ _ hmoved hreach fun n => by simp [State.kind, State.lexeme, hs]
  rw [hx, ← hxy.range_eq (hnext hxkind).1] at hrun
  have hbind : (Parser.advance >>= a) s = (Parser.advance s >>= fun r => a r.1 r.2) := rfl
  have hbind' : (Parser.advance >>= b) t = (Parser.advance t >>= fun r => b r.1 r.2) := rfl
  unfold Mirrors at hrun ⊢
  rw [hbind, hbind', advance_eq hs, advance_eq ht, if_neg hxkind,
    if_neg fun heq => hxkind (hxy.kind_eq.symm.trans heq)]
  exact hrun

theorem range_cover (hf : StrictMono f.start) (a b : TextRange) :
    (f.range a).cover (f.range b) = f.range (a.cover b) := by
  have hstop : Monotone f.stop := fun _ _ hle => (Shift.stop_le_stop_iff hf).2 hle
  simp only [TextRange.cover, Shift.range, hf.monotone.map_min, hstop.map_max]

theorem bracketsUpTo_alike (n : Nat) :
    Alike f (List.map f.range) (bracketsUpTo n) (bracketsUpTo n) := by
  induction n with
  | zero => exact fun s t h => .pure h (Nat.le_refl _) rfl
  | succ n ih =>
    intro s t h
    refine .get ?_
    rw [h.kind_eq, h.kind_eq]
    refine .ite Iff.rfl (fun hkinds => ?_) fun _ => .pure h (Nat.le_refl _) rfl
    rw [Bool.and_eq_true, beq_iff_eq, beq_iff_eq] at hkinds
    refine .advance h (by rw [hkinds.1]; decide) fun u v h₁ hle₁ hkind => ?_
    refine (advance_mirrors h₁ (by rw [hkind, hkinds.2]; decide)).bind fun last u' v' h₂ hle₂ => ?_
    refine (ih u' v' h₂).bind fun pairs u₃ v₃ h₃ hle₃ => .pure h₃ (by omega) ?_
    rw [range_cover h.ascending]
    rfl

theorem brackets_alike : Alike f (List.map f.range) brackets brackets := by
  intro s t h
  refine .get ?_
  rw [h.budget_eq]
  exact bracketsUpTo_alike s.budget s t h

end Parser

end JavaAnalysis
