import JavaAnalysis.Parser.Modifiers
import JavaAnalysis.Proofs.Parser.Primitives

/-!
# Parsing lists

Lists of items, with or without separators between them, give the shapes of their items one behind
the other when each item gives its own; and they start where their first item starts and stop where
their last one stops.
-/

set_option autoImplicit false
set_option linter.dupNamespace false

namespace JavaAnalysis.Parser

open Lexeme

variable {raw : List Lexeme} {s t u : State} {α β : Type} {shapes : α → List Shape}
  {ends : α → Nat → Nat → Prop} {item : Parser α} {more stop : State → Bool} {sep : TokenKind}

/--
A parser takes something that gives shapes, and of which it is known how it lies between the offsets
where the parser started and stopped.
-/
def Parses (raw : List Lexeme) (shapes : α → List Shape) (ends : α → Nat → Nat → Prop)
    (p : Parser α) : Prop :=
  ∀ s, At raw s → Ensures p s fun v t => Takes raw s t (shapes v) ∧ ends v s.start t.previousStop

/-- The first item lies behind the offset `lo`, and the last one in front of the offset `hi`. -/
def ListEnds (ends : α → Nat → Nat → Prop) (vs : List α) (lo hi : Nat) : Prop :=
  ∃ first last, vs.head? = some first ∧ vs.getLast? = some last ∧ (∃ hi', ends first lo hi') ∧
    ∃ lo', ends last lo' hi

theorem ListEnds.single {v : α} {lo hi : Nat} (h : ends v lo hi) : ListEnds ends [v] lo hi :=
  ⟨v, v, rfl, rfl, ⟨hi, h⟩, ⟨lo, h⟩⟩

theorem ListEnds.cons {v : α} {vs : List α} {lo lo' hi hi' : Nat} (h : ends v lo hi')
    (hvs : ListEnds ends vs lo' hi) : ListEnds ends (v :: vs) lo hi := by
  obtain ⟨first, last, hhead, hlast, -, hstop⟩ := hvs
  refine ⟨v, last, rfl, ?_, ⟨hi', h⟩, hstop⟩
  cases vs with
  | nil => cases hhead
  | cons w ws => rwa [List.getLast?_cons_cons]

/-! ## Items as long as there are more -/

theorem repeatWhile_ensures
    (hitem : ∀ s, At raw s → more s = true → Ensures item s fun v t =>
      Takes raw s t (shapes v) ∧ ends v s.start t.previousStop) (n : Nat) (h : At raw s) :
    Ensures (repeatWhile more item n) s fun vs t =>
      vs = [] ∧ t = s ∨ Takes raw s t (vs.flatMap shapes) ∧
        ListEnds ends vs s.start t.previousStop := by
  induction n generalizing s with
  | zero => exact exhausted_ensures
  | succ n ih =>
    unfold repeatWhile
    apply Ensures.get
    refine Ensures.ite (fun hmore => ?_) fun _ => .pure (.inl ⟨rfl, rfl⟩)
    refine (hitem s h hmore).bind ?_
    rintro v t ⟨hv, hends⟩
    refine (ih hv.at_).bind ?_
    intro vs u hvs
    refine .pure (.inr ?_)
    rcases hvs with ⟨rfl, rfl⟩ | ⟨hvs, hmoreEnds⟩
    · rw [List.flatMap_cons, List.flatMap_nil, List.append_nil]
      exact ⟨hv, .single hends⟩
    · exact ⟨hv.append hvs.reads, .cons hends hmoreEnds⟩

theorem many_ensures
    (hitem : ∀ s, At raw s → more s = true → Ensures item s fun v t =>
      Takes raw s t (shapes v) ∧ ends v s.start t.previousStop) (h : At raw s) :
    Ensures (many more item) s fun vs t =>
      vs = [] ∧ t = s ∨ Takes raw s t (vs.flatMap shapes) ∧
        ListEnds ends vs s.start t.previousStop :=
  Ensures.get (repeatWhile_ensures hitem s.budget h)

theorem many_parses (hitem : Parses raw shapes ends item) (h : At raw s) :
    Ensures (many more item) s fun vs t =>
      vs = [] ∧ t = s ∨ Takes raw s t (vs.flatMap shapes) ∧
        ListEnds ends vs s.start t.previousStop :=
  many_ensures (fun s hs _ => hitem s hs) h

/-- The shapes of items that are read as long as there are more. -/
theorem many_reads (hitem : ∀ s, At raw s → more s = true → Ensures item s fun v t =>
      Takes raw s t (shapes v)) (h : At raw s) :
    Ensures (many more item) s fun vs t => Reads raw s t (vs.flatMap shapes) := by
  have hends : ∀ s, At raw s → more s = true → Ensures item s fun v t =>
      Takes raw s t (shapes v) ∧ True :=
    fun s hs hmore => (hitem s hs hmore).mono fun _ _ hv => ⟨hv, trivial⟩
  refine (@many_ensures raw s α shapes (fun _ _ _ => True) item more hends h).mono ?_
  rintro vs t (⟨rfl, rfl⟩ | ⟨hvs, -⟩)
  · exact .nil h
  · exact hvs.reads

/-! ## Items between separators -/

theorem separatedUpTo_ensures (hs : Significant raw) (hsep : sep.isFirm = true)
    (hitem : Parses raw shapes ends item) (n : Nat) (h : At raw s) :
    Ensures (separatedUpTo sep item n) s fun vs t =>
      Takes raw s t (vs.flatMap shapes) ∧ ListEnds ends vs s.start t.previousStop := by
  induction n generalizing s with
  | zero => exact exhausted_ensures
  | succ n ih =>
    unfold separatedUpTo
    refine (hitem s h).bind ?_
    rintro v t ⟨hv, hends⟩
    refine ifEat hs hv.at_ hsep (fun u hu => ?_) fun _ => .pure ?_
    · refine (ih hu.step.at_).bind ?_
      rintro vs w ⟨hvs, hmoreEnds⟩
      apply Ensures.pure
      exact ⟨(hv.skip hu.step).append hvs.reads, .cons hends hmoreEnds⟩
    · rw [List.flatMap_cons, List.flatMap_nil, List.append_nil]
      exact ⟨hv, .single hends⟩

theorem separated_ensures (hs : Significant raw) (hsep : sep.isFirm = true)
    (hitem : Parses raw shapes ends item) (h : At raw s) :
    Ensures (separated sep item) s fun vs t =>
      Takes raw s t (vs.flatMap shapes) ∧ ListEnds ends vs s.start t.previousStop :=
  Ensures.get (separatedUpTo_ensures hs hsep hitem s.budget h)

theorem terminatedUpTo_reads (hs : Significant raw) (hsep : sep.isFirm = true)
    (hitem : ∀ s, At raw s → Ensures item s fun v t => Takes raw s t (shapes v)) (n : Nat)
    (h : At raw s) :
    Ensures (terminatedUpTo sep stop item n) s fun vs t => Reads raw s t (vs.flatMap shapes) := by
  induction n generalizing s with
  | zero => exact exhausted_ensures
  | succ n ih =>
    unfold terminatedUpTo
    apply Ensures.get
    refine Ensures.ite (fun _ => .pure (.nil h)) fun _ => ?_
    refine (hitem s h).bind ?_
    intro v t hv
    refine ifEat hs hv.at_ hsep (fun u hu => ?_) fun _ => .pure ?_
    · refine (ih hu.step.at_).bind ?_
      intro vs w hvs
      apply Ensures.pure
      exact ((hv.skip hu.step).append hvs).reads
    · rw [List.flatMap_cons, List.flatMap_nil, List.append_nil]
      exact hv.reads

theorem terminated_reads (hs : Significant raw) (hsep : sep.isFirm = true)
    (hitem : ∀ s, At raw s → Ensures item s fun v t => Takes raw s t (shapes v)) (h : At raw s) :
    Ensures (terminated sep stop item) s fun vs t => Reads raw s t (vs.flatMap shapes) :=
  Ensures.get (terminatedUpTo_reads hs hsep hitem s.budget h)

/-- Items between parentheses, with the range of the whole. -/
theorem parenthesized_ensures (hs : Significant raw) (hitem : Parses raw shapes ends item)
    (h : At raw s) :
    Ensures (parenthesized item) s fun p t =>
      Takes raw s t (p.2.flatMap shapes) ∧ p.1 = ⟨s.start, t.previousStop⟩ := by
  unfold parenthesized
  apply startHere_bind
  refine (expect_took hs h rfl).bind ?_
  rintro _ t₁ ⟨h₁, -⟩
  refine ifAtJoin (fun vs t => Reads raw t₁ t (vs.flatMap shapes))
    (fun _ => .pure ?_) (fun _ => ?_) ?_
  · exact .nil h₁.step.at_
  · exact (separated_ensures hs rfl hitem h₁.step.at_).mono fun vs t ⟨hvs, _⟩ => hvs.reads
  · intro vs t₂ h₂
    refine (expect_took hs h₂.step.at_ rfl).bind ?_
    rintro _ t₃ ⟨h₃, -⟩
    apply rangeFrom_bind
    apply Ensures.pure
    have htakes := (h₁.takes.append h₂).skip h₃.step
    exact ⟨htakes, htakes.rangeFrom_eq⟩

/-! ## Pairs of brackets -/

/-- The parser has taken pairs of brackets, each with nothing inside it. -/
inductive Bracketed (raw : List Lexeme) : State → List TextRange → State → Prop where
  | nil {s : State} : At raw s → Bracketed raw s [] s
  | cons {s t u : State} {pairs : List TextRange} : Takes raw s t [] → Bracketed raw t pairs u →
    Bracketed raw s (⟨s.start, t.previousStop⟩ :: pairs) u

theorem Bracketed.reads {pairs : List TextRange} (h : Bracketed raw s pairs t) :
    Reads raw s t (pairs.map (Shape.leaf .arrayDimension)) := by
  induction h with
  | nil h => exact .nil h
  | cons hpair _ ih => exact ((hpair.plain .arrayDimension rfl).append ih).reads

theorem bracketsUpTo_ensures (hs : Significant raw) (n : Nat) (h : At raw s) :
    Ensures (bracketsUpTo n) s fun pairs t => Bracketed raw s pairs t := by
  induction n generalizing s with
  | zero => exact .pure (.nil h)
  | succ n ih =>
    unfold bracketsUpTo
    apply Ensures.get
    refine Ensures.ite (fun hkinds => ?_) fun _ => .pure (.nil h)
    rw [Bool.and_eq_true, beq_iff_eq, beq_iff_eq] at hkinds
    refine (advance_took hs h hkinds.1 rfl).bind ?_
    rintro first t₁ ⟨h₁, hfirst, hnext⟩
    have hclose : t₁.kind 0 = .rBracket := (hnext 0).trans hkinds.2
    refine (advance_took hs h₁.step.at_ hclose rfl).bind ?_
    rintro last t₂ ⟨h₂, hlast, -⟩
    refine (ih h₂.step.at_).bind ?_
    intro pairs t₃ h₃
    apply Ensures.pure
    have hcover : first.cover last = ⟨s.start, t₂.previousStop⟩ := by
      have hstart := h₁.step.start_le
      have hstop := h₂.step.previousStop_le
      simp only [hfirst, hlast, TextRange.cover, Nat.min_eq_left hstart, Nat.max_eq_right hstop]
    rw [hcover]
    exact .cons (h₁.takes.skip h₂.step) h₃

theorem brackets_ensures (hs : Significant raw) (h : At raw s) :
    Ensures brackets s fun pairs t => Bracketed raw s pairs t :=
  Ensures.get (bracketsUpTo_ensures hs s.budget h)

end JavaAnalysis.Parser
