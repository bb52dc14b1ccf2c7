import JavaAnalysis.Proofs.Parser.Modifiers
import JavaAnalysis.Proofs.Spacing.Parser.Primitives

/-!
# Two runs over types and modifiers

What is read of a type, of modifiers and of parameters is the same in a tight row and elsewhere, if
that is so of the parts that the grammar gives.
-/

set_option autoImplicit false
set_option linter.dupNamespace false

namespace JavaAnalysis.Parser

open Ast

/-- What a grammar reads moves along with the lexemes. -/
structure Grammar.Alike (f : Shift) (g : Grammar) : Prop where
  type : Onward f (TypeRef.shift f) g.type g.type
  marker : Onward f (AnnotationUse.shift f) g.marker g.marker
  elementValue : Onward f (Expr.shift f) g.elementValue g.elementValue
  typeDecl : ∀ s t start ms, State.Moved f s t → start ≤ s.start →
    Mirrors f (fun _ => s.start + 1) (TypeDecl.shift f) (g.typeDecl start ms)
      (g.typeDecl (f.start start) (ms.map (Modifier.shift f))) s t
  classBody : ∀ kind, Onward f (ClassBody.shift f) (g.classBody kind) (g.classBody kind)
  block : Onward f (Block.shift f) g.block g.block
  stmt : Onward f (Stmt.shift f) g.stmt g.stmt
  expr : Onward f (Expr.shift f) g.expr g.expr
  conditional : Onward f (Expr.shift f) g.conditional g.conditional
  binary : ∀ min, Onward f (Expr.shift f) (g.binary min) (g.binary min)
  unary : Onward f (Expr.shift f) g.unary g.unary
  varInit : Onward f (Expr.shift f) g.varInit g.varInit
  switchCases : Onward f (Prod.map f.range (List.map (SwitchCase.shift f))) g.switchCases
    g.switchCases

variable {f : Shift} {g : Grammar} {s t : State}

theorem foldl_array (f : Shift) (start : Nat) (pairs : List TextRange) (type : TypeRef) :
    (pairs.map f.range).foldl (fun t pair => .array ⟨f.start start, pair.stop⟩ t pair)
        (type.shift f) =
      (pairs.foldl (fun t pair => .array ⟨start, pair.stop⟩ t pair) type).shift f := by
  induction pairs generalizing type with
  | nil => rfl
  | cons pair pairs ih => exact ih (.array ⟨start, pair.stop⟩ type pair)

/-- How far a parser has come that has read a type. -/
def past (n : Nat) (type : TypeRef) : Nat := max (n + 1) (type.range.start + 1)

theorem lt_of_past_le {n m : Nat} {type : TypeRef} (h : past n type ≤ m) :
    n < m ∧ type.range.start < m := by
  unfold past at h
  omega

theorem past_foldl_array_le {n m start : Nat} {type : TypeRef} (pairs : List TextRange)
    (hstart : start < m) (h : past n type ≤ m) :
    past n (pairs.foldl (fun t pair => .array ⟨start, pair.stop⟩ t pair) type) ≤ m := by
  induction pairs generalizing type with
  | nil => exact h
  | cons pair pairs ih =>
    refine ih ?_
    unfold past at h ⊢
    show max (n + 1) (start + 1) ≤ m
    omega

theorem arrayOf_mirrors (h : State.Moved f s t) {n start : Nat} {type : TypeRef}
    (hstart : start < s.start) (hpast : past n type ≤ s.start) :
    Mirrors f (past n) (TypeRef.shift f) (arrayOf start type)
      (arrayOf (f.start start) (type.shift f)) s t := by
  refine (brackets_alike s t h).bind fun pairs u v h₁ hle => ?_
  exact .pure h₁ (past_foldl_array_le pairs (by omega) (by omega)) (foldl_array f start pairs type)

theorem typeArg_onward (hg : g.Alike f) :
    Onward f (TypeRef.shift f) (typeArg g) (typeArg g) := by
  intro s t h
  unfold typeArg
  refine .ifAt h (fun hat => .startHere h ?_) fun _ => hg.type s t h
  refine (advance_mirrors h (by rw [hat]; decide)).bind fun _ u v h₁ hle₁ => .kindAt h₁ ?_
  split
  · refine (advance_mirrors_spot h₁).bind fun _ u₂ v₂ h₂ hle₂ => ?_
    refine (hg.type u₂ v₂ h₂).bind fun bound u₃ v₃ h₃ hle₃ => ?_
    exact .rangeFrom h₃ (by omega) (.pure h₃ (by omega) rfl)
  · refine (advance_mirrors_spot h₁).bind fun _ u₂ v₂ h₂ hle₂ => ?_
    refine (hg.type u₂ v₂ h₂).bind fun bound u₃ v₃ h₃ hle₃ => ?_
    exact .rangeFrom h₃ (by omega) (.pure h₃ (by omega) rfl)
  · exact .rangeFrom h₁ (by omega) (.pure h₁ hle₁ rfl)

/-- How a list in brackets moves, with the range of the whole. -/
def ranged {α : Type} (f : Shift) (g : α → α) (p : TextRange × List α) : TextRange × List α :=
  (f.range p.1, p.2.map g)

theorem typeArgs_onward (hg : g.Alike f) :
    Onward f (ranged f (TypeRef.shift f)) (typeArgs g) (typeArgs g) := by
  intro s t h
  unfold typeArgs
  refine .startHere h ((expect_mirrors h (by decide)).bind fun _ u v h₁ hle₁ => .kindAt h₁ ?_)
  refine .meet (fun _ => u.start) (List.map (TypeRef.shift f)) Iff.rfl (fun args u₂ v₂ h₂ hle₂ => ?_)
    (fun _ hrest => .pure_bind (hrest [] u v h₁ (Nat.le_refl _)))
    fun _ => (separated_onward (typeArg_onward hg)).alike u v h₁
  refine (closeAngle_mirrors h₂).bind fun _ u₃ v₃ h₃ hle₃ => ?_
  exact .rangeFrom h₃ (by omega) (.pure h₃ (by omega) rfl)

theorem classTypeFrom_mirrors (hg : g.Alike f) {start : Nat} (n : Nat) (outer : Option TypeRef)
    (h : State.Moved f s t) (hle : start ≤ s.start) :
    Mirrors f (past s.start) (TypeRef.shift f) (classTypeFrom g start n outer)
      (classTypeFrom g (f.start start) n (outer.map (TypeRef.shift f))) s t := by
  induction n generalizing s t outer with
  | zero => exact exhausted_mirrors h
  | succ n ih =>
    refine (ident_mirrors h).bind fun name u v h₁ hle₁ => .isAt h₁ ?_
    refine .meet (fun _ => u.start) (fun p => (p.1.map f.range, p.2.map (TypeRef.shift f))) Iff.rfl
      (fun p u₂ v₂ h₂ hle₂ => ?_) (fun _ hrest => ?_) fun _ => .pure h₁ (Nat.le_refl _) rfl
    · refine .rangeFrom h₂ (by omega) (.isAt h₂ (.kindAt h₂ ?_))
      refine .ite Iff.rfl (fun _ => ?_) fun _ => ?_
      · refine (advance_mirrors_spot h₂).bind fun _ u₃ v₃ h₃ hle₃ => ?_
        have hnext := ih (some (.named (u₂.rangeFrom start) outer name p.1 p.2)) h₃ (by omega)
        simp only [Option.map_some, TypeRef.shift, TypeRef.shiftOption_eq, TypeRef.shiftAll_eq]
          at hnext
        exact hnext.weaken fun _ => by unfold past; omega
      · refine .pure h₂ ?_ (by simp [TypeRef.shift])
        show max (s.start + 1) (start + 1) ≤ u₂.start
        omega
    · refine (typeArgs_onward hg u v h₁).bind fun p u₂ v₂ h₂ hle₂ => ?_
      exact .pure_bind (hrest (some p.1, p.2) u₂ v₂ h₂ (by omega))

theorem ne_endOfFile_of_primitive {kind : TokenKind} {p : PrimitiveKind}
    (h : PrimitiveKind.ofToken? kind = some p) : kind ≠ .endOfFile := by
  rintro rfl
  cases h

theorem nonArrayType_mirrors (hg : g.Alike f) (h : State.Moved f s t) :
    Mirrors f (past s.start) (TypeRef.shift f) (nonArrayType g) (nonArrayType g) s t := by
  refine .get ?_
  rw [h.kind_eq, h.start_eq, h.budget_eq]
  cases hkind : PrimitiveKind.ofToken? (s.kind 0) with
  | some kind =>
    refine .advance h (ne_endOfFile_of_primitive hkind) fun u v h₁ hle₁ _ => .pure h₁ ?_ rfl
    show max (s.start + 1) (s.start + 1) ≤ u.start
    omega
  | none => exact classTypeFrom_mirrors hg s.budget none h (Nat.le_refl _)

theorem nonArrayType_onward (hg : g.Alike f) :
    Onward f (TypeRef.shift f) (nonArrayType g) (nonArrayType g) :=
  fun _ _ h => (nonArrayType_mirrors hg h).weaken fun _ => Nat.le_max_left _ _

theorem type_mirrors (hg : g.Alike f) (h : State.Moved f s t) :
    Mirrors f (past s.start) (TypeRef.shift f) (type g) (type g) s t :=
  .startHere h ((nonArrayType_mirrors hg h).bind fun _ _ _ h₁ hle₁ =>
    arrayOf_mirrors h₁ (lt_of_past_le hle₁).1 hle₁)

theorem type_onward (hg : g.Alike f) : Onward f (TypeRef.shift f) (type g) (type g) :=
  fun _ _ h => (type_mirrors hg h).weaken fun _ => Nat.le_max_left _ _

theorem isAtKind_eq (kind : TokenKind) :
    ∀ s t, State.Moved f s t → (t.kind 0 == kind) = (s.kind 0 == kind) :=
  fun s t h => by rw [h.kind_eq]

theorem typeParam_onward (hg : g.Alike f) :
    Onward f (TypeParam.shift f) (typeParam g) (typeParam g) := by
  intro s t h
  refine .startHere h ?_
  refine (many_alike (isAtKind_eq _) hg.marker.alike s t h).bind fun marks u v h₁ hle₁ => ?_
  refine (ident_mirrors h₁).bind fun name u₂ v₂ h₂ hle₂ => ?_
  refine (eat_mirrors h₂).bind fun found u₃ v₃ h₃ hle₃ => ?_
  refine .meet (fun _ => u₃.start) (List.map (TypeRef.shift f)) Iff.rfl (fun bounds u₄ v₄ h₄ hle₄ => ?_)
    (fun _ hrest => ?_) fun _ => .pure h₃ (Nat.le_refl _) rfl
  · exact .rangeFrom h₄ (by omega) (.pure h₄ (by omega) (by simp!))
  · exact ((separated_onward hg.type).alike u₃ v₃ h₃).bind hrest

theorem typeParams_alike (hg : g.Alike f) :
    Alike f (fun p => (p.1.map f.range, p.2.map (TypeParam.shift f)))
      (typeParams g) (typeParams g) := by
  intro s t h
  refine .ifAt h (fun _ => .startHere h ?_) fun _ => .pure h (Nat.le_refl _) rfl
  refine (advance_mirrors_spot h).bind fun _ u v h₁ hle₁ => ?_
  refine (separated_onward (typeParam_onward hg) u v h₁).bind fun items u₂ v₂ h₂ hle₂ => ?_
  refine (closeAngle_mirrors h₂).bind fun _ u₃ v₃ h₃ hle₃ => ?_
  exact .rangeFrom h₃ (by omega) (.pure h₃ (by omega) rfl)

theorem typeList_onward (hg : g.Alike f) :
    Onward f (List.map (TypeRef.shift f)) (typeList g) (typeList g) :=
  separated_onward hg.type

theorem catchType_onward (hg : g.Alike f) :
    Onward f (TypeRef.shift f) (catchType g) (catchType g) := by
  intro s t h
  refine .startHere h ((separated_onward hg.type s t h).bind fun types u v h₁ hle₁ => ?_)
  match types with
  | [] => exact .rangeFrom h₁ (by omega) (.pure h₁ hle₁ (by simp [TypeRef.shift]))
  | [type] => exact .pure h₁ hle₁ rfl
  | first :: second :: others =>
    exact .rangeFrom h₁ (by omega) (.pure h₁ hle₁ (by simp [TypeRef.shift]))

theorem inferredIfVar_mirrors (h : State.Moved f s t) (type : TypeRef) :
    Mirrors f (fun _ => s.start) (TypeRef.shift f) (inferredIfVar type) (inferredIfVar (type.shift f)) s t := by
  match type with
  | .named r none name none [] =>
    refine .supports h (.ite Iff.rfl (fun _ => ?_) fun _ => ?_)
    · exact .pure h (Nat.le_refl _) rfl
    · exact .pure h (Nat.le_refl _) rfl
  | .named _ (some _) _ _ _ | .named _ none _ (some _) _ | .named _ none _ none (_ :: _)
  | .primitive _ _ | .inferred _ | .array _ _ _ | .wildcard _ | .bounded _ _ _ | .union _ _
  | .intersection _ _ => exact .pure h (Nat.le_refl _) rfl

/-! ## Modifiers -/

theorem advanceBy_alike (n : Nat) : Alike f (fun x => x) (advanceBy n) (advanceBy n) := by
  induction n with
  | zero => exact fun s t h => .pure h (Nat.le_refl _) rfl
  | succ n ih =>
    intro s t h
    exact (advance_mirrors_spot h).bind fun _ u v h₁ hle₁ => (ih u v h₁).mono hle₁

theorem advanceBy_mirrors (h : State.Moved f s t) {n : Nat} (hn : 0 < n)
    (hkind : s.kind 0 ≠ .endOfFile) :
    Mirrors f (fun _ => s.start + 1) (fun x => x) (advanceBy n) (advanceBy n) s t := by
  obtain ⟨n, rfl⟩ : ∃ m, n = m + 1 := ⟨n - 1, by omega⟩
  exact (advance_mirrors h hkind).bind fun _ u v h₁ hle₁ => (advanceBy_alike n u v h₁).mono hle₁

theorem segmentsUpTo_onward (n : Nat) :
    Onward f (List.map (Ident.shift f)) (segmentsUpTo n) (segmentsUpTo n) := by
  induction n with
  | zero => exact fun s t h => exhausted_mirrors h
  | succ n ih =>
    intro s t h
    refine (ident_mirrors h).bind fun first u v h₁ hle₁ => .isAt h₁ (.kindAt h₁ ?_)
    refine .ite Iff.rfl (fun _ => ?_) fun _ => .pure h₁ (by omega) rfl
    refine (advance_mirrors_spot h₁).bind fun _ u₂ v₂ h₂ hle₂ => ?_
    exact (ih u₂ v₂ h₂).bind fun rest u₃ v₃ h₃ hle₃ => .pure h₃ (by omega) rfl

theorem qualifiedName_onward :
    Onward f (QualifiedName.shift f) qualifiedName qualifiedName := by
  intro s t h
  refine .get ?_
  rw [h.start_eq, h.budget_eq]
  refine (segmentsUpTo_onward s.budget s t h).bind fun segments u v h₁ hle₁ => ?_
  exact .rangeFrom h₁ (by omega) (.pure h₁ hle₁ rfl)

theorem isAtMarker_eq : ∀ s t, State.Moved f s t → t.isAtMarker = s.isAtMarker := by
  intro s t h
  unfold State.isAtMarker
  rw [h.kind_eq, h.kind_eq]

theorem elementPair_onward (hg : g.Alike f) :
    Onward f (ElementValue.shift f) (elementPair g) (elementPair g) := by
  intro s t h
  refine .startHere h ((ident_mirrors h).bind fun name u v h₁ hle₁ => ?_)
  refine (expect_mirrors h₁ (by decide)).bind fun _ u₂ v₂ h₂ hle₂ => ?_
  refine (hg.elementValue u₂ v₂ h₂).bind fun value u₃ v₃ h₃ hle₃ => ?_
  exact .rangeFrom h₃ (by omega) (.pure h₃ (by omega) rfl)

theorem elementValues_alike (hg : g.Alike f) :
    Alike f (List.map (ElementValue.shift f)) (elementValues g) (elementValues g) := by
  intro s t h
  refine .ifAt h (fun _ => .pure h (Nat.le_refl _) rfl) fun _ => .isAt h (.kindAt h ?_)
  refine .ite Iff.rfl (fun _ => (separated_onward (elementPair_onward hg)).alike s t h) fun _ => ?_
  refine .startHere h ((hg.elementValue s t h).bind fun value u v h₁ hle₁ => ?_)
  exact .rangeFrom h₁ (by omega) (.pure h₁ (by omega) rfl)

theorem marker_onward (hg : g.Alike f) :
    Onward f (AnnotationUse.shift f) (marker g) (marker g) := by
  intro s t h
  refine .startHere h ((expect_mirrors h (by decide)).bind fun _ u v h₁ hle₁ => ?_)
  refine (qualifiedName_onward u v h₁).bind fun name u₂ v₂ h₂ hle₂ => ?_
  refine .ifAt h₂ (fun _ => .startHere h₂ ?_)
    fun _ => .rangeFrom h₂ (by omega) (.pure h₂ (by omega) rfl)
  refine (advance_mirrors_spot h₂).bind fun _ u₃ v₃ h₃ hle₃ => ?_
  refine (elementValues_alike hg u₃ v₃ h₃).bind fun args u₄ v₄ h₄ hle₄ => ?_
  refine (expect_mirrors h₄ (by decide)).bind fun _ u₅ v₅ h₅ hle₅ => ?_
  refine .rangeFrom h₅ (by omega) (.rangeFrom h₅ (by omega) ?_)
  exact .pure h₅ (by omega) (by simp!)

theorem elementValue_onward (hg : g.Alike f) :
    Onward f (Expr.shift f) (elementValue g) (elementValue g) := by
  intro s t h
  refine .kindAt h ?_
  split
  · exact (hg.marker s t h).bind fun use u v h₁ hle₁ => .pure h₁ hle₁ rfl
  · refine .startHere h ((advance_mirrors_spot h).bind fun _ u v h₁ hle₁ => ?_)
    refine (terminated_alike (isAtKind_eq _) hg.elementValue.alike u v h₁).bind
      fun items u₂ v₂ h₂ hle₂ => ?_
    refine (expect_mirrors h₂ (by decide)).bind fun _ u₃ v₃ h₃ hle₃ => ?_
    exact .rangeFrom h₃ (by omega) (.pure h₃ (by omega) (by simp!))
  · exact hg.conditional s t h

theorem sealedAhead?_eq (h : State.Moved f s t) : t.sealedAhead? = s.sealedAhead? := by
  unfold State.sealedAhead?
  simp only [h.isWord_eq, h.kind_eq]

theorem modifierAhead?_eq (h : State.Moved f s t) : t.modifierAhead? = s.modifierAhead? := by
  unfold State.modifierAhead?
  simp only [sealedAhead?_eq h, h.kind_eq]

theorem modifier_onward (hg : g.Alike f) :
    Onward f (Modifier.shift f) (modifier g) (modifier g) := by
  intro s t h
  refine .get ?_
  rw [isAtMarker_eq s t h, modifierAhead?_eq h, h.start_eq]
  refine .ite Iff.rfl (fun _ => ?_) fun _ => ?_
  · exact (hg.marker s t h).bind fun use u v h₁ hle₁ => .pure h₁ hle₁ rfl
  · cases hahead : s.modifierAhead? with
    | none => exact expected_mirrors h _
    | some found =>
      obtain ⟨⟨n, hn⟩, hfirm⟩ := modifierAhead?_spec hahead
      refine (advanceBy_mirrors h (by omega) (ne_endOfFile_of_isFirm hfirm)).bind fun _ u v h₁ hle₁ => ?_
      exact .rangeFrom h₁ (by omega) (.pure h₁ hle₁ rfl)

theorem modifiers_alike (hg : g.Alike f) :
    Alike f (List.map (Modifier.shift f)) (modifiers g) (modifiers g) :=
  many_alike (fun s t h => by rw [isAtMarker_eq s t h, modifierAhead?_eq h])
    (modifier_onward hg).alike

/-! ## Parameters -/

theorem formalParam_onward (hg : g.Alike f) :
    Onward f (Param.shift f) (formalParam g) (formalParam g) := by
  intro s t h
  refine .startHere h ((modifiers_alike hg s t h).bind fun ms u v h₁ hle₁ => .startHere h₁ ?_)
  refine (nonArrayType_mirrors hg h₁).bind fun element u₂ v₂ h₂ hle₂ => ?_
  have hlt := (lt_of_past_le hle₂).1
  refine (arrayOf_mirrors h₂ hlt hle₂).bind fun type u₃ v₃ h₃ hle₃ => .isAt h₃ ?_
  replace hle₃ := (lt_of_past_le hle₃).1
  refine .meet (fun _ => u₃.start) (Option.map f.range) Iff.rfl (fun ellipsis u₄ v₄ h₄ hle₄ => ?_)
    (fun hat hrest => ?_) fun _ => .pure h₃ (Nat.le_refl _) rfl
  · refine (ident_mirrors h₄).bind fun name u₅ v₅ h₅ hle₅ => ?_
    refine (brackets_alike u₅ v₅ h₅).bind fun pairs u₆ v₆ h₆ hle₆ => ?_
    exact .rangeFrom h₆ (by omega) (.pure h₆ (by omega) (by simp!))
  · have hkind : u₃.kind 0 ≠ .endOfFile := by
      rw [beq_iff_eq.1 hat]
      decide
    exact (Mirrors.map (k := Option.map f.range)
      ((advance_mirrors h₃ hkind).mono (Nat.le_succ _)) fun _ => rfl).bind hrest

theorem implicitParam_shift (name : Ident) :
    implicitParam (name.shift f) = (implicitParam name).shift f := by
  simp! [implicitParam, Ident.shift]

theorem parenthesized_onward {α : Type} {move : α → α} {p q : Parser α} (hp : Onward f move p q) :
    Onward f (ranged f move) (parenthesized p) (parenthesized q) := by
  intro s t h
  refine .startHere h ((expect_mirrors h (by decide)).bind fun _ u v h₁ hle₁ => .isAt h₁ ?_)
  refine .meet (fun _ => u.start) (List.map move) Iff.rfl (fun items u₂ v₂ h₂ hle₂ => ?_)
    (fun _ hrest => .pure_bind (hrest [] u v h₁ (Nat.le_refl _)))
    fun _ => (separated_onward hp).alike u v h₁
  refine (expect_mirrors h₂ (by decide)).bind fun _ u₃ v₃ h₃ hle₃ => ?_
  exact .rangeFrom h₃ (by omega) (.pure h₃ (by omega) rfl)

theorem formalParams_onward (hg : g.Alike f) :
    Onward f (ranged f (Param.shift f)) (formalParams g) (formalParams g) :=
  parenthesized_onward (formalParam_onward hg)

end JavaAnalysis.Parser
