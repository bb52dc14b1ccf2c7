import JavaAnalysis.Proofs.Parser.Modifiers
import JavaAnalysis.Proofs.Progress.Runs

/-!
# Progress over types and modifiers

The parts that the grammar gives are asked for at places where less is left to read than where the
production began, or at the same place in a fixed order: an expression asks for a conditional
expression where it starts, that one for an operand, and so on, and never the other way round. The
rank of a part in this order and eight times what is left to read make up a weight that falls with
each part that is asked for. `Ready` says that two grammars settle all parts below a weight. This
module shows what follows from it for types, modifiers, annotations and parameters.
-/

set_option autoImplicit false
set_option linter.dupNamespace false

namespace JavaAnalysis.Parser

open Ast TwoRuns

/-- Wherever the weight of a part of the given rank is below `m`, two parsers do the same and take
something. -/
def TwoRuns.Within (c : TwoRuns) {α : Type} (m rank : Nat) (p p' : Parser α) : Prop :=
  ∀ ⦃s s'⦄, c.Twin s s' → 8 * s.left + rank < m → c.Settles p p' s s' fun _ t => t.left < s.left

/-- Two grammars settle every part whose weight is below `m`. -/
structure Ready (c : TwoRuns) (m : Nat) (g g' : Grammar) : Prop where
  type : c.Within m 0 g.type g'.type
  marker : c.Within m 0 g.marker g'.marker
  elementValue : c.Within m 3 g.elementValue g'.elementValue
  typeDecl : ∀ start ms, c.Within m 0 (g.typeDecl start ms) (g'.typeDecl start ms)
  classBody : ∀ kind, c.Within m 0 (g.classBody kind) (g'.classBody kind)
  block : c.Within m 0 g.block g'.block
  stmt : c.Within m 4 g.stmt g'.stmt
  expr : c.Within m 3 g.expr g'.expr
  conditional : c.Within m 2 g.conditional g'.conditional
  binary : ∀ min, c.Within m 1 (g.binary min) (g'.binary min)
  unary : c.Within m 0 g.unary g'.unary
  varInit : c.Within m 4 g.varInit g'.varInit
  switchCases : c.Within m 0 g.switchCases g'.switchCases

variable {c : TwoRuns} {m : Nat} {g g' : Grammar} {s s' : State}

/-! ## Types -/

theorem arrayOf_settles (h : c.Twin s s') (start : Nat) (type : TypeRef) :
    c.Settles (arrayOf start type) (arrayOf start type) s s' fun _ t => t.left ≤ s.left :=
  (brackets_settles h).bind fun _ _ _ h₁ hle₁ => .pure h₁ hle₁

theorem typeArg_settles (hg : Ready c m g g') (h : c.Twin s s') (hm : 8 * s.left < m) :
    c.Settles (typeArg g) (typeArg g') s s' fun _ t => t.left < s.left := by
  unfold typeArg
  refine .ifAt h (fun hat => .startHere h ?_) fun _ => hg.type h hm
  refine (advance_settles h (by rw [hat]; decide)).bind fun _ u u' h₁ hlt₁ => .kindAt h₁ ?_
  split
  · refine (advance_settles_le h₁).bind fun _ u₂ u₂' h₂ hle₂ => ?_
    refine (hg.type h₂ (by omega)).bind fun bound u₃ u₃' h₃ hlt₃ => ?_
    exact .rangeFrom h₃ (.pure h₃ (by omega))
  · refine (advance_settles_le h₁).bind fun _ u₂ u₂' h₂ hle₂ => ?_
    refine (hg.type h₂ (by omega)).bind fun bound u₃ u₃' h₃ hlt₃ => ?_
    exact .rangeFrom h₃ (.pure h₃ (by omega))
  · exact .rangeFrom h₁ (.pure h₁ hlt₁.1)

theorem typeArgs_settles (hg : Ready c m g g') (h : c.Twin s s') (hm : 8 * s.left ≤ m) :
    c.Settles (typeArgs g) (typeArgs g') s s' fun _ t => t.left < s.left := by
  unfold typeArgs
  refine .startHere h ((expect_settles h (by decide)).bind fun _ u u' h₁ hlt₁ => .kindAt h₁ ?_)
  refine .meet (fun _ t => t.left < s.left) (fun args u₂ u₂' h₂ hlt₂ => ?_)
    (fun _ hrest => .pure_bind (hrest [] u u' h₁ hlt₁)) fun _ => ?_
  · refine (closeAngle_settles h₂).bind fun _ u₃ u₃' h₃ hlt₃ => ?_
    exact .rangeFrom h₃ (.pure h₃ (by omega))
  · have hargs : c.Onward s.left (typeArg g) (typeArg g') :=
      fun t t' ht hlt => typeArg_settles hg ht (by omega)
    exact (separated_settles (by decide) hargs h₁ hlt₁).mono fun _ t ht => by omega

theorem classTypeFrom_turns (hg : Ready c m g g') {start limit : Nat} (hm : 8 * limit ≤ m + 8) :
    Turns c (classTypeFrom g start) (classTypeFrom g' start) 0 limit := by
  intro outer s s' h hlt
  refine .bind (ident_settles h) fun name u u' h₁ hlt₁ => .isAt h₁ ?_
  refine .meet (fun _ t => t.left < s.left) (fun p u₂ u₂' h₂ hlt₂ => ?_) (fun _ hrest => ?_)
    fun _ => .pure h₁ hlt₁
  · refine .rangeFrom h₂ (.isAt h₂ (.kindAt h₂ (.ite (fun _ => ?_) fun _ => .stop (.pure h₂ hlt₂))))
    refine .bind (advance_settles_le h₂) fun _ u₃ u₃' h₃ hle₃ => ?_
    exact .again h₃ (by omega) _
  · refine .bind (typeArgs_settles hg h₁ (by omega)) fun p u₂ u₂' h₂ hlt₂ => ?_
    exact hrest (some p.1, p.2) u₂ u₂' h₂ (by omega)

theorem nonArrayType_settles (hg : Ready c m g g') (h : c.Twin s s') (hm : 8 * s.left ≤ m) :
    c.Settles (nonArrayType g) (nonArrayType g') s s' fun _ t => t.left < s.left := by
  refine .get ?_
  rw [h.kind_eq, h.start_eq]
  cases hkind : PrimitiveKind.ofToken? (s.kind 0) with
  | some kind =>
    have hne : s.kind 0 ≠ .endOfFile := by
      intro heq
      rw [heq] at hkind
      cases hkind
    exact (advance_settles h hne).bind fun _ u u' h₁ hlt₁ => .pure h₁ hlt₁.1
  | none =>
    have hturns : Turns c (classTypeFrom g s.start) (classTypeFrom g' s.start) 0 (s.left + 1) :=
      classTypeFrom_turns hg (by omega)
    exact hturns.settles_budget none h (Nat.lt_succ_self _)

theorem type_settles (hg : Ready c m g g') (h : c.Twin s s') (hm : 8 * s.left ≤ m) :
    c.Settles (type g) (type g') s s' fun _ t => t.left < s.left :=
  .startHere h ((nonArrayType_settles hg h hm).bind fun type _ _ h₁ hlt₁ =>
    (arrayOf_settles h₁ s.start type).mono fun _ _ hle => Nat.lt_of_le_of_lt hle hlt₁)

/-- Types between separators. -/
theorem separatedTypes_settles (hg : Ready c m g g') (h : c.Twin s s') (hm : 8 * s.left < m)
    {kind : TokenKind} (hkind : kind ≠ .endOfFile) :
    c.Settles (separated kind g.type) (separated kind g'.type) s s' fun _ t => t.left < s.left := by
  have htype : c.Onward (s.left + 1) g.type g'.type := fun t t' ht hlt => hg.type ht (by omega)
  exact separated_settles hkind htype h (Nat.lt_succ_self _)

theorem typeList_settles (hg : Ready c m g g') (h : c.Twin s s') (hm : 8 * s.left < m) :
    c.Settles (typeList g) (typeList g') s s' fun _ t => t.left < s.left :=
  separatedTypes_settles hg h hm (by decide)

theorem typeParam_settles (hg : Ready c m g g') (h : c.Twin s s') (hm : 8 * s.left < m) :
    c.Settles (typeParam g) (typeParam g') s s' fun _ t => t.left < s.left := by
  have hmarker : c.Onward (s.left + 1) g.marker g'.marker :=
    fun t t' ht hlt => hg.marker ht (by omega)
  refine .startHere h ?_
  refine (many_settles (fun _ _ => rfl) hmarker h (by omega)).bind fun marks u u' h₁ hle₁ => ?_
  refine (ident_settles h₁).bind fun name u₂ u₂' h₂ hlt₂ => ?_
  refine (eat_settles_le h₂ (by decide)).bind fun found u₃ u₃' h₃ hle₃ => ?_
  refine .meet (fun _ t => t.left < s.left) (fun bounds u₄ u₄' h₄ hlt₄ => ?_)
    (fun _ hrest => ?_) fun _ => .pure h₃ (by omega)
  · exact .rangeFrom h₄ (.pure h₄ hlt₄)
  · refine (separatedTypes_settles hg h₃ (by omega) (by decide)).bind fun bounds u₄ u₄' h₄ hlt₄ => ?_
    exact hrest bounds u₄ u₄' h₄ (by omega)

theorem typeParams_settles (hg : Ready c m g g') (h : c.Twin s s') (hm : 8 * s.left ≤ m) :
    c.Settles (typeParams g) (typeParams g') s s' fun _ t => t.left ≤ s.left := by
  refine .ifAt h (fun hat => .startHere h ?_) fun _ => .pure h (Nat.le_refl _)
  refine (advance_settles h (by rw [hat]; decide)).bind fun _ u u' h₁ hlt₁ => ?_
  have hparam : c.Onward s.left (typeParam g) (typeParam g') :=
    fun t t' ht hlt => typeParam_settles hg ht (by omega)
  refine (separated_settles (by decide) hparam h₁ hlt₁.1).bind fun items u₂ u₂' h₂ hlt₂ => ?_
  refine (closeAngle_settles h₂).bind fun _ u₃ u₃' h₃ hlt₃ => ?_
  exact .rangeFrom h₃ (.pure h₃ (by omega))

theorem catchType_settles (hg : Ready c m g g') (h : c.Twin s s') (hm : 8 * s.left < m) :
    c.Settles (catchType g) (catchType g') s s' fun _ t => t.left < s.left := by
  refine .startHere h ?_
  refine (separatedTypes_settles hg h hm (by decide)).bind fun types u u' h₁ hlt₁ => ?_
  match types with
  | [] => exact .rangeFrom h₁ (.pure h₁ hlt₁)
  | [type] => exact .pure h₁ hlt₁
  | first :: second :: others => exact .rangeFrom h₁ (.pure h₁ hlt₁)

theorem inferredIfVar_settles (h : c.Twin s s') (type : TypeRef) :
    c.Settles (inferredIfVar type) (inferredIfVar type) s s' fun _ t => t.left ≤ s.left := by
  unfold inferredIfVar
  split
  · refine .supports h (.ite (fun _ => ?_) fun _ => ?_)
    · exact .pure h (Nat.le_refl _)
    · exact .pure h (Nat.le_refl _)
  · exact .pure h (Nat.le_refl _)

/-! ## Modifiers -/

theorem advanceBy_settles_le (h : c.Twin s s') (n : Nat) :
    c.Settles (advanceBy n) (advanceBy n) s s' fun _ t => t.left ≤ s.left := by
  induction n generalizing s s' with
  | zero => exact .pure h (Nat.le_refl _)
  | succ n ih =>
    refine (advance_settles_le h).bind fun _ u u' h₁ hle₁ => ?_
    exact (ih h₁).mono fun _ _ hle => Nat.le_trans hle hle₁

theorem advanceBy_settles (h : c.Twin s s') {n : Nat} (hn : 0 < n) (hkind : s.kind 0 ≠ .endOfFile) :
    c.Settles (advanceBy n) (advanceBy n) s s' fun _ t => t.left < s.left := by
  obtain ⟨n, rfl⟩ : ∃ m, n = m + 1 := ⟨n - 1, by omega⟩
  refine (advance_settles h hkind).bind fun _ u u' h₁ hlt₁ => ?_
  exact (advanceBy_settles_le h₁ n).mono fun _ _ hle => Nat.lt_of_le_of_lt hle hlt₁.1

theorem segmentsUpTo_turns {limit : Nat} :
    Turns c (fun n (_ : Unit) => segmentsUpTo n) (fun n _ => segmentsUpTo n) 0 limit := by
  intro _ s s' h _
  refine .bind (ident_settles h) fun first u u' h₁ hlt₁ => .isAt h₁ (.kindAt h₁ ?_)
  refine .ite (fun _ => ?_) fun _ => .stop (.pure h₁ hlt₁)
  refine .bind (advance_settles_le h₁) fun _ u₂ u₂' h₂ hle₂ => ?_
  exact .againMap h₂ (by omega) () fun rest => first :: rest

theorem qualifiedName_settles (h : c.Twin s s') :
    c.Settles qualifiedName qualifiedName s s' fun _ t => t.left < s.left := by
  refine .get ?_
  rw [h.start_eq]
  have hlt := Nat.lt_succ_self s.left
  refine (segmentsUpTo_turns.settles_budget () h hlt).bind fun segments u u' h₁ hlt₁ => ?_
  exact .rangeFrom h₁ (.pure h₁ hlt₁)

theorem elementPair_settles (hg : Ready c m g g') (h : c.Twin s s') (hm : 8 * s.left ≤ m) :
    c.Settles (elementPair g) (elementPair g') s s' fun _ t => t.left < s.left := by
  refine .startHere h ((ident_settles h).bind fun name u u' h₁ hlt₁ => ?_)
  refine (expect_settles h₁ (by decide)).bind fun _ u₂ u₂' h₂ hlt₂ => ?_
  refine (hg.elementValue h₂ (by omega)).bind fun value u₃ u₃' h₃ hlt₃ => ?_
  exact .rangeFrom h₃ (.pure h₃ (by omega))

theorem elementValues_settles (hg : Ready c m g g') (h : c.Twin s s') (hm : 8 * s.left + 3 < m) :
    c.Settles (elementValues g) (elementValues g') s s' fun _ t => t.left ≤ s.left := by
  refine .ifAt h (fun _ => .pure h (Nat.le_refl _)) fun _ => .isAt h (.kindAt h ?_)
  refine .ite (fun _ => ?_) fun _ => ?_
  · have hpair : c.Onward (s.left + 1) (elementPair g) (elementPair g') :=
      fun t t' ht hlt => elementPair_settles hg ht (by omega)
    exact (separated_settles (by decide) hpair h (by omega)).mono fun _ _ => Nat.le_of_lt
  · refine .startHere h ((hg.elementValue h hm).bind fun value u u' h₁ hlt₁ => ?_)
    exact .rangeFrom h₁ (.pure h₁ (Nat.le_of_lt hlt₁))

theorem marker_settles (hg : Ready c m g g') (h : c.Twin s s') (hm : 8 * s.left ≤ m) :
    c.Settles (marker g) (marker g') s s' fun _ t => t.left < s.left := by
  refine .startHere h ((expect_settles h (by decide)).bind fun _ u u' h₁ hlt₁ => ?_)
  refine (qualifiedName_settles h₁).bind fun name u₂ u₂' h₂ hlt₂ => ?_
  refine .ifAt h₂ (fun hat => .startHere h₂ ?_) fun _ => .rangeFrom h₂ (.pure h₂ (by omega))
  refine (advance_settles_le h₂).bind fun _ u₃ u₃' h₃ hle₃ => ?_
  refine (elementValues_settles hg h₃ (by omega)).bind fun args u₄ u₄' h₄ hle₄ => ?_
  refine (expect_settles h₄ (by decide)).bind fun _ u₅ u₅' h₅ hlt₅ => ?_
  exact .rangeFrom h₅ (.rangeFrom h₅ (.pure h₅ (by omega)))

theorem elementValue_settles (hg : Ready c m g g') (h : c.Twin s s') (hm : 8 * s.left + 3 ≤ m) :
    c.Settles (elementValue g) (elementValue g') s s' fun _ t => t.left < s.left := by
  refine .kindAt h ?_
  split
  · exact (hg.marker h (by omega)).bind fun use u u' h₁ hlt₁ => .pure h₁ hlt₁
  · rename_i hkind
    refine .startHere h ((advance_settles h (by rw [hkind]; decide)).bind fun _ u u' h₁ hlt₁ => ?_)
    have hvalue : c.Onward s.left g.elementValue g'.elementValue :=
      fun t t' ht hlt => hg.elementValue ht (by omega)
    refine (terminated_settles (by decide) (fun _ _ => rfl) hvalue h₁ hlt₁.1).bind
      fun items u₂ u₂' h₂ hle₂ => ?_
    refine (expect_settles h₂ (by decide)).bind fun _ u₃ u₃' h₃ hlt₃ => ?_
    exact .rangeFrom h₃ (.pure h₃ (by omega))
  · exact hg.conditional h (by omega)

theorem isAtMarker_twin (h : c.Twin s s') : s'.isAtMarker = s.isAtMarker := by
  rw [h.twin_eq]
  rfl

theorem modifierAhead?_twin (h : c.Twin s s') : s'.modifierAhead? = s.modifierAhead? := by
  rw [h.twin_eq]
  rfl

theorem modifier_settles (hg : Ready c m g g') (h : c.Twin s s') (hm : 8 * s.left < m) :
    c.Settles (modifier g) (modifier g') s s' fun _ t => t.left < s.left := by
  refine .get ?_
  rw [isAtMarker_twin h, modifierAhead?_twin h, h.start_eq]
  refine .ite (fun _ => ?_) fun _ => ?_
  · exact (hg.marker h (by omega)).bind fun use u u' h₁ hlt₁ => .pure h₁ hlt₁
  · cases hahead : s.modifierAhead? with
    | none => exact expected_settles h _
    | some found =>
      obtain ⟨⟨n, hn⟩, hfirm⟩ := modifierAhead?_spec hahead
      refine (advanceBy_settles h (by omega) (ne_endOfFile_of_isFirm hfirm)).bind
        fun _ u u' h₁ hlt₁ => ?_
      exact .rangeFrom h₁ (.pure h₁ hlt₁)

theorem modifiers_settles (hg : Ready c m g g') (h : c.Twin s s') (hm : 8 * s.left < m) :
    c.Settles (modifiers g) (modifiers g') s s' fun _ t => t.left ≤ s.left := by
  have hmodifier : c.Onward (s.left + 1) (modifier g) (modifier g') :=
    fun t t' ht hlt => modifier_settles hg ht (by omega)
  exact many_settles (fun _ _ => rfl) hmodifier h (Nat.lt_succ_self _)

/-! ## Parameters -/

theorem formalParam_settles (hg : Ready c m g g') (h : c.Twin s s') (hm : 8 * s.left < m) :
    c.Settles (formalParam g) (formalParam g') s s' fun _ t => t.left < s.left := by
  refine .startHere h ((modifiers_settles hg h hm).bind fun ms u u' h₁ hle₁ => .startHere h₁ ?_)
  refine (nonArrayType_settles hg h₁ (by omega)).bind fun element u₂ u₂' h₂ hlt₂ => ?_
  refine (arrayOf_settles h₂ _ element).bind fun type u₃ u₃' h₃ hle₃ => .isAt h₃ ?_
  refine .meet (fun _ t => t.left < s.left) (fun ellipsis u₄ u₄' h₄ hlt₄ => ?_)
    (fun _ hrest => ?_) fun _ => .pure h₃ (by omega)
  · refine (ident_settles h₄).bind fun name u₅ u₅' h₅ hlt₅ => ?_
    refine (brackets_settles h₅).bind fun pairs u₆ u₆' h₆ hle₆ => ?_
    exact .rangeFrom h₆ (.pure h₆ (by omega))
  · have hellipsis : c.Settles (some <$> advance) (some <$> advance) u₃ u₃'
        fun _ t => t.left < s.left :=
      (advance_settles_le h₃).map fun _ t hle => by omega
    exact hellipsis.bind hrest

theorem parenthesized_settles {α : Type} {p p' : Parser α} (hp : c.Onward s.left p p')
    (h : c.Twin s s') :
    c.Settles (parenthesized p) (parenthesized p') s s' fun _ t => t.left < s.left := by
  refine .startHere h ((expect_settles h (by decide)).bind fun _ u u' h₁ hlt₁ => .isAt h₁ ?_)
  refine .meet (fun _ t => t.left < s.left) (fun items u₂ u₂' h₂ hlt₂ => ?_)
    (fun _ hrest => .pure_bind (hrest [] u u' h₁ hlt₁)) fun _ => ?_
  · refine (expect_settles h₂ (by decide)).bind fun _ u₃ u₃' h₃ hlt₃ => ?_
    exact .rangeFrom h₃ (.pure h₃ (by omega))
  · exact (separated_settles (by decide) hp h₁ hlt₁).mono fun _ t ht => by omega

theorem formalParams_settles (hg : Ready c m g g') (h : c.Twin s s') (hm : 8 * s.left ≤ m) :
    c.Settles (formalParams g) (formalParams g') s s' fun _ t => t.left < s.left :=
  parenthesized_settles (fun _ _ ht hlt => formalParam_settles hg ht (by omega)) h

end JavaAnalysis.Parser
