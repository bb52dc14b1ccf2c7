import JavaAnalysis.Parser.Unit
import JavaAnalysis.Proofs.Parser.Modifiers
import JavaAnalysis.Proofs.Parser.Values
import JavaAnalysis.Proofs.Regions.Runs

/-!
# Regions over parsed types and expressions

Each production, given a grammar whose parsers leave regions over what they take, does so as well:
here for types, modifiers, parameters and expressions.
-/

set_option autoImplicit false
set_option linter.dupNamespace false

namespace JavaAnalysis.Parser

open Ast Lexeme

/-- What stands next is no operator that binds tighter than `min`. -/
def Stops (min : Nat) (next : TokenKind) : Prop :=
  (next = .instanceofKw → instanceOfPrecedence ≤ min) ∧
    ∀ op, BinaryOp.ofToken? next = some op → op.precedence ≤ min

/-- An operand lies over all that was taken between two places. -/
def Operand (s t : State) (e : Expr) : Prop := Whole s t e.region ∧ e.IsOperand

/-- The parsers of a grammar leave regions over what they take. -/
structure Grammar.Lays (raw : List Lexeme) (g : Grammar) : Prop where
  type : Makes raw TypeRef.region g.type
  marker : Makes raw AnnotationUse.region g.marker
  elementValue : Makes raw Expr.region g.elementValue
  /-- The modifiers of a type declaration were read before, from where it starts. -/
  typeDecl : ∀ ms s₀ s, Crossed s₀ s (modifierRegions ms (modifierItems ms)) →
    Runs raw (g.typeDecl s₀.start ms) s fun d t => Whole s₀ t d.region
  classBody : ∀ kind, Makes raw ClassBody.region (g.classBody kind)
  block : Makes raw Block.region g.block
  stmt : Makes raw Stmt.region g.stmt
  expr : Makes raw Expr.region g.expr
  conditional : Makes raw Expr.region g.conditional
  /-- The operators bind tighter than asked for, and none that does follows. -/
  binary : ∀ min s, Runs raw (g.binary min) s fun e t =>
    Whole s t e.region ∧ e.Tighter min ∧ Stops min (t.kind 0)
  unary : ∀ s, Runs raw g.unary s fun e t => Operand s t e
  varInit : Makes raw Expr.region g.varInit
  switchCases : Makes raw (fun p => .detail p.1 (caseRegions p.2)) g.switchCases
  valued : g.Valued

attribute [local simp] TypeRef.range AnnotationUse.range Param.range Expr.range

variable {raw : List Lexeme} {g : Grammar} {s s₀ t : State} {rs : List Region}

/-- The last step of a production of types that are no arrays. -/
theorem Runs.closeType {make : TextRange → TypeRef} (h : Filled s₀ s rs)
    (hplain : ∀ r, (make r).isArray = false) (hrange : ∀ r, (make r).range = r)
    (hregion : ∀ r, (make r).region = .part (.typeRef (make r)) rs) :
    Runs raw (Parser.rangeFrom s₀.start >>= fun r => Pure.pure (make r)) s
      fun v t => Whole s₀ t v.region := by
  have _ : ∀ r, (make r).region.Plain := fun r => TypeRef.plain_region (hplain r)
  exact .close h (fun r => by rw [hregion]; exact hrange r) fun r => by rw [hregion]; rfl

/-- The last step of a production of expressions that are no operators. -/
theorem Runs.closeAs {P : Expr → Prop} {make : TextRange → Expr} (h : Filled s₀ s rs)
    (hplain : ∀ r, (make r).isOperation = false) (hok : ∀ r, P (make r))
    (hrange : ∀ r, (make r).range = r)
    (hregion : ∀ r, (make r).region = .part (.expr (make r)) rs) :
    Runs raw (Parser.rangeFrom s₀.start >>= fun r => Pure.pure (make r)) s
      fun v t => Whole s₀ t v.region ∧ P v := by
  have _ : ∀ r, (make r).region.Plain := fun r => Expr.plain_region (hplain r)
  refine .rangeFrom h fun hwhole => .pure ⟨hwhole _ ?_ ?_, hok _⟩
  · rw [hregion]
    exact hrange _
  · rw [hregion]
    rfl

theorem Runs.closeExpr {make : TextRange → Expr} (h : Filled s₀ s rs)
    (hplain : ∀ r, (make r).isOperation = false) (hrange : ∀ r, (make r).range = r)
    (hregion : ∀ r, (make r).region = .part (.expr (make r)) rs) :
    Runs raw (Parser.rangeFrom s₀.start >>= fun r => Pure.pure (make r)) s
      fun v t => Whole s₀ t v.region :=
  (Runs.closeAs (P := fun _ => True) h hplain (fun _ => trivial) hrange hregion).mono
    fun _ _ hv => hv.1

theorem Runs.closeOperand {make : TextRange → Expr} (h : Filled s₀ s rs)
    (hplain : ∀ r, (make r).isOperation = false ∧ (make r).IsOperand)
    (hrange : ∀ r, (make r).range = r)
    (hregion : ∀ r, (make r).region = .part (.expr (make r)) rs) :
    Runs raw (Parser.rangeFrom s₀.start >>= fun r => Pure.pure (make r)) s
      fun v t => Operand s₀ t v :=
  .closeAs h (fun r => (hplain r).1) (fun r => (hplain r).2) hrange hregion

/-- What lies over the lexemes is an expression of one part. -/
theorem Whole.wrapExpr {r : Region} {e : Expr} (h : Whole s t r) (hplain : e.isOperation = false)
    (hrange : e.region.range = r.range) (hinside : e.region.inside = [r]) : Whole s t e.region := by
  have _ := Expr.plain_region hplain
  exact h.wrap hrange hinside

/-- What lies over the lexemes is an expression with the same parts. -/
theorem Whole.recastExpr {r : Region} {e : Expr} (h : Whole s t r) (hplain : e.isOperation = false)
    (hrange : e.region.range = r.range) (hinside : e.region.inside = r.inside) :
    Whole s t e.region := by
  have _ := Expr.plain_region hplain
  exact h.mono fun _ hspans => hspans.recast hrange hinside

/-! ## Types -/

theorem arrayOf_runs {ty : TypeRef} (h : Whole s₀ s ty.region) (hrange : ty.nodeRange = ty.range) :
    Runs raw (arrayOf s₀.start ty) s fun v t => Whole s₀ t v.region ∧ v.nodeRange = v.range := by
  unfold arrayOf
  refine brackets_runs.bind fun pairs t hpairs => .pure ?_
  induction hpairs generalizing ty with
  | nil => exact ⟨h, hrange⟩
  | @cons s t u pair pairs hpair _ ih =>
    refine ih ((h.filled.append hpair.whole.filled).over ?_ rfl fun xs hxs => ?_) rfl
    · have hstop : pair.stop = t.previousStop := congrArg TextRange.stop hpair.whole.range_eq
      simp [TypeRef.region, hstop]
    · obtain ⟨ys, hys, -⟩ := h
      obtain ⟨zs, hzs, hwritten⟩ := hpair
      exact ⟨ys, zs, (hys.append hzs).unique hxs, hwritten⟩

theorem typeArg_makes (hg : g.Lays raw) : Makes raw TypeRef.region (typeArg g) := by
  intro s
  unfold typeArg
  refine .ifAt (fun hkind => ?_) fun _ => hg.type s
  refine .startHere ((advance_fills hkind (by decide)).bind fun _ t h => .kindAt ?_)
  split
  · refine h.skip advance_crosses fun _ t h => h.make (hg.type t) fun bound t h => ?_
    exact .closeType h (fun _ => rfl) (fun _ => rfl) fun _ => by simp [TypeRef.region]
  · refine h.skip advance_crosses fun _ t h => h.make (hg.type t) fun bound t h => ?_
    exact .closeType h (fun _ => rfl) (fun _ => rfl) fun _ => by simp [TypeRef.region]
  · exact .closeType h (fun _ => rfl) (fun _ => rfl) fun _ => by simp [TypeRef.region]

theorem typeArgs_makes (hg : g.Lays raw) :
    Makes raw (fun p => .detail p.1 (TypeRef.regions p.2)) (typeArgs g) := by
  intro s
  unfold typeArgs
  refine .startHere ((expect_fills (by decide)).bind fun _ t h => .kindAt ?_)
  refine .iteJoin (fun ts u => Filled s u (TypeRef.regions ts)) (fun _ => .pure ?_) (fun _ => ?_)
    fun ts u h => ?_
  · simpa [TypeRef.regions] using h
  · refine (separated_fills (by decide) (typeArg_makes hg).fills).mono fun ts u hu => ?_
    rw [← TypeRef.regions_eq]
    exact h.append hu
  · refine h.skip (closeAngle_fills.mono fun _ _ => .go) fun _ u h => ?_
    exact .close h (fun _ => rfl) fun _ => rfl

/-- A class type without arguments ends with its name. -/
theorem classTypeFrom_runs (hg : g.Lays raw) (n : Nat) {outer : Option TypeRef}
    (h : Crossed s₀ s (TypeRef.regions outer.toList)) :
    Runs raw (classTypeFrom g s₀.start n outer) s fun v t =>
      Whole s₀ t v.region ∧ v.nodeRange = v.range := by
  induction n generalizing s outer with
  | zero => exact .exhausted
  | succ n ih =>
    unfold classTypeFrom
    refine ident_names.bind fun name t hname => .isAt ?_
    have hname := hname.whole
    have hstop : name.range.stop = t.previousStop := congrArg TextRange.stop hname.range_eq
    have h := h.then_ hname.filled
    refine .meet (fun (args : Option TextRange × List TypeRef) t => Filled s₀ t
      (TypeRef.regions outer.toList ++ [name.region] ++ Region.listed args.1 (TypeRef.regions args.2)) ∧
        (args.1 = none → name.range.stop = t.previousStop))
      ?_ (fun _ => .pure ⟨?_, fun _ => hstop⟩) fun _ hrest => ?_
    · rintro args t ⟨h, hstop⟩
      refine .rangeFrom h fun hwhole => .isAt (.kindAt ?_)
      have hall : Whole s₀ t (TypeRef.named (t.rangeFrom s₀.start) outer name args.1 args.2).region := by
        have _ : (TypeRef.named (t.rangeFrom s₀.start) outer name args.1 args.2).region.Plain :=
          TypeRef.plain_region rfl
        refine hwhole _ ?_ ?_ <;> cases outer <;> simp [TypeRef.region, TypeRef.regions]
      refine .ite (fun _ => ?_) fun _ => .pure ⟨hall, ?_⟩
      · refine hall.filled.skip advance_crosses fun _ u h => ih (.go ?_)
        simpa [TypeRef.regions] using h
      · obtain ⟨argsRange, args⟩ := args
        cases argsRange with
        | none =>
          have hrange := hall.range_eq
          rw [TypeRef.range_region, TypeRef.range] at hrange
          rw [TypeRef.nodeRange, TypeRef.range, hrange, hstop rfl]
        | some r => rfl
    · simpa [Region.listed, TypeRef.regions] using h
    · exact h.make (typeArgs_makes hg t) fun p t h => hrest (some p.1, p.2) t ⟨h, by simp⟩

theorem nonArrayType_runs (hg : g.Lays raw) :
    Runs raw (nonArrayType g) s fun v t => Whole s t v.region ∧ v.nodeRange = v.range := by
  unfold nonArrayType
  refine .get ?_
  split
  · rename_i kind hkind
    have hne : s.kind 0 ≠ .endOfFile := by
      intro hend
      rw [hend] at hkind
      cases hkind
    refine (advance_makes hne).bind fun range t ⟨ht, _⟩ => .pure ⟨ht.mono fun xs hspans => ?_, rfl⟩
    have _ : (TypeRef.primitive range kind).region.Plain := TypeRef.plain_region rfl
    exact hspans.recast rfl rfl
  · exact classTypeFrom_runs hg s.budget .stay

theorem nonArrayType_makes (hg : g.Lays raw) : Makes raw TypeRef.region (nonArrayType g) :=
  fun _ => (nonArrayType_runs hg).mono fun _ _ h => h.1

/-- The node of a type takes in all that is written of the type. -/
theorem type_runs (hg : g.Lays raw) :
    Runs raw (type g) s fun v t => Whole s t v.region ∧ v.nodeRange = v.range := by
  unfold type
  exact .startHere ((nonArrayType_runs hg).bind fun ty t ⟨h, hrange⟩ => arrayOf_runs h hrange)

theorem type_makes (hg : g.Lays raw) : Makes raw TypeRef.region (type g) :=
  fun _ => (type_runs hg).mono fun _ _ h => h.1

theorem typeParam_fills (hg : g.Lays raw) :
    Fills raw (fun p => typeParamRegions [p]) (typeParam g) := by
  intro s
  unfold typeParam
  refine .startHere ((many_crosses fun s _ => hg.marker.fills s).bind fun marks t h => ?_)
  rw [AnnotationUse.regions_eq] at h
  refine h.make ident_makes fun name t h => ?_
  refine .ifEatJoin (fun bounds u => Filled s u
    (AnnotationUse.regions marks ++ [name.region] ++ TypeRef.regions bounds)) (by decide)
    (fun u hu => ?_) (fun _ => .pure ?_) fun bounds u h => ?_
  · refine (separated_fills (by decide) hg.type.fills).mono fun bounds v hv => ?_
    rw [← TypeRef.regions_eq]
    exact h.append (hu.append hv)
  · simpa [TypeRef.regions] using h
  · refine .rangeFrom h fun hwhole => .pure ?_
    simp! only
    exact (hwhole (.detail _ _) rfl (by simp)).filled

theorem typeParams_crosses (hg : g.Lays raw) :
    Runs raw (typeParams g) s fun p t =>
      Crossed s t (Region.listed p.1 (typeParamRegions p.2)) ∧
        (p.1 = none → p.2 = [] ∧ t = s) := by
  unfold typeParams
  refine .ifAt (fun hkind => ?_) fun _ => .pure
    ⟨by simpa! [Region.listed] using Crossed.stay, fun _ => ⟨rfl, rfl⟩⟩
  refine .startHere ((advance_fills hkind (by decide)).bind fun _ t h => ?_)
  refine h.read ((separated_fills (by decide) (typeParam_fills hg)).mono fun _ _ => .go)
    fun params t h => ?_
  refine h.skip (closeAngle_fills.mono fun _ _ => .go) fun _ t h => .rangeFrom h fun hwhole => .pure ?_
  rw [typeParamRegions_eq] at hwhole
  exact ⟨.go (hwhole (.detail _ _) rfl rfl).filled, by simp⟩

theorem typeList_fills (hg : g.Lays raw) : Fills raw TypeRef.regions (typeList g) := by
  intro s
  simp only [← TypeRef.regions_eq]
  exact separated_fills (by decide) hg.type.fills

theorem catchType_makes (hg : g.Lays raw) : Makes raw TypeRef.region (catchType g) := by
  intro s
  unfold catchType
  have hpipe : TokenKind.pipe ≠ .endOfFile := by decide
  refine .startHere (((separated_fills hpipe hg.type.fills).and (separated_single hpipe hg.type)).bind
    fun ts t ⟨h, hsingle⟩ => ?_)
  rw [TypeRef.regions_eq] at h
  split
  · exact .pure (hsingle _ rfl)
  · exact .closeType h (fun _ => rfl) (fun _ => rfl) fun _ => by simp [TypeRef.region]

/-- The word `var` in the place of a type lies where the name lies. -/
theorem inferredIfVar_runs {ty : TypeRef} (h : Whole s₀ s ty.region)
    (hrange : ty.nodeRange = ty.range) :
    Runs raw (inferredIfVar ty) s fun v t => Whole s₀ t v.region ∧ v.nodeRange = v.range := by
  unfold inferredIfVar
  split
  · rename_i range name
    refine .supports (.ite (fun _ => .pure ⟨?_, rfl⟩) fun _ => .pure ⟨h, hrange⟩)
    have _ : (TypeRef.inferred range).region.Plain := TypeRef.plain_region rfl
    refine h.filled.bare.whole ?_ (by simp [TypeRef.region])
    simpa [TypeRef.region] using h.range_eq
  · exact .pure ⟨h, hrange⟩

/-! ## Names and annotations -/

theorem segmentsUpTo_fills (n : Nat) :
    Runs raw (segmentsUpTo n) s fun names t => Filled s t (names.map Ident.region) := by
  induction n generalizing s with
  | zero => exact .exhausted
  | succ n ih =>
    unfold segmentsUpTo
    refine ident_makes.bind fun name t h => .isAt (.kindAt (.ite (fun _ => ?_) fun _ => .pure h.filled))
    refine h.filled.skip advance_crosses fun _ u h => ih.bind fun names v hv => .pure ?_
    exact h.append hv

theorem qualifiedName_makes : Makes raw QualifiedName.region qualifiedName := by
  intro s
  unfold qualifiedName
  exact .get ((segmentsUpTo_fills s.budget).bind fun names t h =>
    .close h (fun _ => rfl) fun _ => rfl)

theorem elementPair_fills (hg : g.Lays raw) :
    Fills raw (fun a => elementRegions [a]) (elementPair g) := by
  intro s
  unfold elementPair
  refine .startHere (ident_makes.bind fun name t h => ?_)
  refine h.filled.skip expect_crosses fun _ t h => h.make (hg.elementValue t) fun value t h => ?_
  refine .rangeFrom h fun hwhole => .pure ?_
  simp! only
  exact (hwhole (.detail _ _) rfl rfl).filled

theorem elementValues_crosses (hg : g.Lays raw) :
    Runs raw (elementValues g) s fun args t => Crossed s t (elementRegions args) := by
  unfold elementValues
  refine .ifAt (fun _ => .pure ?_) fun _ => .isAt (.kindAt (.ite (fun _ => ?_) fun _ => ?_))
  · simpa! using Crossed.stay
  · refine (separated_fills (by decide) (elementPair_fills hg)).mono fun args t h => .go ?_
    rwa [elementRegions_eq] at h
  · refine .startHere ((hg.elementValue s).bind fun value t h => ?_)
    refine .rangeFrom h.filled fun hwhole => .pure (.go ?_)
    simp! only
    exact (hwhole (.detail _ _) rfl rfl).filled

theorem marker_makes (hg : g.Lays raw) : Makes raw AnnotationUse.region (marker g) := by
  intro s
  unfold marker
  refine .startHere ((expect_fills (by decide)).bind fun _ t h => ?_)
  refine h.make (qualifiedName_makes t) fun name t h => ?_
  refine .ifAt (fun hkind => .startHere ?_) fun _ => ?_
  · refine (advance_fills hkind (by decide)).bind fun _ u hu => ?_
    refine hu.read (elementValues_crosses hg) fun args u hu => ?_
    refine hu.skip expect_crosses fun _ u hu => .rangeFrom hu fun hwhole => ?_
    have hargs := h.append (hwhole (.detail (u.rangeFrom t.start) _) rfl rfl).filled
    exact .close hargs (fun _ => by simp!)
      fun _ => by simp! [Region.listed]
  · exact .close h (fun _ => by simp!)
      fun _ => by simp! [Region.listed]

theorem elementValue_makes (hg : g.Lays raw) : Makes raw Expr.region (elementValue g) := by
  intro s
  unfold elementValue
  refine .kindAt ?_
  split
  · refine (hg.marker s).bind fun use t h => .pure (h.wrapExpr rfl ?_ ?_)
    · cases use
      simp! [Expr.range, AnnotationUse.range]
    · simp!
  · rename_i hkind
    refine .startHere ((advance_fills hkind (by decide)).bind fun _ t h => ?_)
    refine h.read (terminated_crosses (by decide) hg.elementValue.fills) fun items t h => ?_
    rw [Expr.regions_eq] at h
    refine h.skip expect_crosses fun _ t h => ?_
    exact .closeExpr h (fun _ => rfl) (fun _ => rfl) fun _ => by simp!
  · exact hg.conditional s

/-! ## Modifiers -/

theorem modifier_makes (hg : g.Lays raw) :
    Runs raw (modifier g) s fun m t => Filled s t (modifierItems [m]) ∧
      m.range = ⟨s.start, t.previousStop⟩ := by
  unfold modifier
  refine .get (.ite (fun _ => ?_) fun _ => ?_)
  · refine (hg.marker s).bind fun use t h => .pure ?_
    simp! only
    refine ⟨h.filled, ?_⟩
    cases use
    simpa! [Modifier.range, AnnotationUse.range] using h.range_eq
  · split
    · rename_i m n hahead
      obtain ⟨⟨k, hk⟩, hfirm⟩ := modifierAhead?_spec hahead
      cases hk
      refine (advanceBy_fills k (ne_endOfFile_of_isFirm hfirm)).bind fun _ t h => ?_
      refine .rangeFrom h fun hwhole => .pure ?_
      have hword := hwhole (.leaf _) rfl rfl
      simp! only
      exact ⟨hword.filled, hword.range_eq⟩
    · exact .expected

theorem rangeOfAll?_cons {m : Modifier} {ms : List Modifier} {r : TextRange}
    (h : Modifier.rangeOfAll? ms = some r) :
    Modifier.rangeOfAll? (m :: ms) = some ⟨m.range.start, r.stop⟩ := by
  cases ms with
  | nil => cases h
  | cons m' ms =>
    cases h
    rfl

/-- Modifiers were taken, or nothing. -/
def Modifying (s t : State) (ms : List Modifier) : Prop :=
  ms = [] ∧ t = s ∨ Filled s t (modifierItems ms) ∧
    Modifier.rangeOfAll? ms = some ⟨s.start, t.previousStop⟩

theorem modifiers_modify (hg : g.Lays raw) :
    Runs raw (modifiers g) s fun ms t => Modifying s t ms := by
  unfold modifiers
  refine many_runs Modifying (fun _ => .inl ⟨rfl, rfl⟩) (fun {s t u m ms} ht hu => ?_) fun s _ => ?_
  · obtain ⟨ht, hrange⟩ := ht.resolve_left nofun
    obtain ⟨hstart, -⟩ := TextRange.mk.inj (Option.some.inj hrange)
    rcases hu with ⟨rfl, rfl⟩ | ⟨hu, hlast⟩
    · exact .inr ⟨ht, hrange⟩
    · refine .inr ⟨?_, ?_⟩
      · cases m <;> simpa! using ht.append hu
      · rw [rangeOfAll?_cons hlast, hstart]
  · exact (modifier_makes hg).mono fun m t ⟨hm, hrange⟩ => .inr ⟨hm, congrArg some hrange⟩

theorem Modifying.crossed {ms : List Modifier} (h : Modifying s t ms) :
    Crossed s t (modifierRegions ms (modifierItems ms)) := by
  rcases h with ⟨rfl, rfl⟩ | ⟨h, hrange⟩
  · simpa! [modifierRegions, Region.listed, Modifier.rangeOfAll?] using Crossed.stay
  · rw [modifierRegions, hrange]
    exact .go (h.whole (r := .detail _ _) rfl rfl).filled

theorem Modifying.spells {ms : List Modifier} (h : Modifying s t ms) :
    Spells s t (modifierPieces ms) := by
  rcases h with ⟨rfl, rfl⟩ | ⟨h, hrange⟩
  · exact .stay t
  · rw [modifierPieces, hrange]
    exact (h.whole (r := .detail _ _) rfl rfl).spells

theorem modifiers_crosses (hg : g.Lays raw) :
    Runs raw (modifiers g) s fun ms t => Crossed s t (modifierRegions ms (modifierItems ms)) :=
  (modifiers_modify hg).mono fun _ _ h => h.crossed

/-- The row of modifiers of a pattern is a region of its own kind. -/
theorem Modifying.row {ms : List Modifier} (h : Modifying s t ms) :
    Crossed s t (patternModifierRegions ms (modifierItems ms)) := by
  rcases h with ⟨rfl, rfl⟩ | ⟨h, hrange⟩
  · simpa [patternModifierRegions, Modifier.rangeOfAll?] using Crossed.stay
  · rw [patternModifierRegions, hrange]
    exact .go (h.whole (r := .patternModifiers _ _) rfl rfl).filled

theorem Modifying.eq_of_isEmpty {ms : List Modifier} (h : Modifying s t ms)
    (hempty : ms.isEmpty = true) : t = s := by
  rw [List.isEmpty_iff] at hempty
  subst hempty
  rcases h with ⟨-, h⟩ | ⟨-, hrange⟩
  · exact h
  · cases hrange

/-! ## Parameters -/

theorem formalParam_makes (hg : g.Lays raw) : Makes raw Param.region (formalParam g) := by
  intro s
  unfold formalParam
  refine .startHere ((modifiers_crosses hg).bind fun ms t h => .startHere ?_)
  refine (nonArrayType_runs hg).bind fun base u ⟨hbase, hrange⟩ => ?_
  refine (arrayOf_runs hbase hrange).bind fun ty u ⟨hty, _⟩ => ?_
  have h := h.then_ hty.filled
  refine .ifAtJoin (fun ellipsis v => Filled s v
    (modifierRegions ms (modifierItems ms) ++ [ty.region] ++ ellipsis.toList.map .leaf))
    (fun hkind => ?_) (fun _ => .pure ?_) fun ellipsis v h => ?_
  · exact (advance_makes (by simp [hkind])).map fun range v hv => h.append hv.1.filled
  · simpa using h
  · refine h.make ident_makes fun name v h => ?_
    refine h.read (brackets_runs.mono fun _ _ => Bracketing.crossed) fun pairs v h => ?_
    exact .close h (fun _ => by simp!)
      fun _ => by simp! [TypeRef.regions]

theorem implicitParam_whole {name : Ident} (h : Whole s t name.region) :
    Whole s t (implicitParam name).region :=
  h.wrap (by simp! [implicitParam, Ident.region])
    (by simp! [implicitParam, modifierRegions, Modifier.rangeOfAll?, Region.listed,
      TypeRef.regions])

theorem formalParams_makes (hg : g.Lays raw) :
    Makes raw (fun p => .detail p.1 (Param.regions p.2)) (formalParams g) := by
  intro s
  simp only [← Param.regions_eq]
  exact parenthesized_makes (formalParam_makes hg).fills s

/-! ## Expressions -/

theorem arguments_makes (hg : g.Lays raw) :
    Makes raw (fun p => .detail p.1 (Expr.regions p.2)) (arguments g) := by
  intro s
  simp only [← Expr.regions_eq]
  exact parenthesized_makes hg.expr.fills s

theorem arrayInit_makes (hg : g.Lays raw) :
    Makes raw (fun p => .detail p.1 (Expr.regions p.2)) (arrayInit g) := by
  intro s
  unfold arrayInit
  refine .startHere ((expect_fills (by decide)).bind fun _ t h => ?_)
  refine h.read (terminated_crosses (by decide) hg.varInit.fills) fun items t h => ?_
  refine h.skip expect_crosses fun _ t h => .close h (fun _ => rfl) fun _ => ?_
  simp [Expr.regions_eq]

theorem varInit_makes (hg : g.Lays raw) : Makes raw Expr.region (varInit g) := by
  intro s
  unfold varInit
  refine .ifAt (fun _ => ?_) fun _ => hg.expr s
  exact (arrayInit_makes hg s).bind fun p t h =>
    .pure (h.recastExpr rfl (by simp!) (by simp!))

theorem lambdaParams_makes (hg : g.Lays raw) :
    Makes raw (fun p => .detail p.1 (Param.regions p.2)) (lambdaParams g) := by
  intro s
  unfold lambdaParams
  simp only [← Param.regions_eq]
  refine .get (parenthesized_makes (fun s => .ite (fun _ => ?_) fun _ => ?_) s)
  · exact ident_makes.map fun name t h => (implicitParam_whole h).filled
  · exact (formalParam_makes hg).fills s

theorem lambdaRest_runs (hg : g.Lays raw) {range : TextRange} {params : List Param} {parens : Bool}
    (h : Filled s₀ s [.detail range (Param.regions params)]) :
    Runs raw (lambdaRest g s₀.start range params parens) s fun e t =>
      Whole s₀ t e.region ∧ e.IsCastable := by
  unfold lambdaRest
  refine h.skip expect_crosses fun _ t h => .ifAt (fun _ => ?_) fun _ => ?_
  · refine h.make (hg.block t) fun body t h => ?_
    exact .closeAs h (fun _ => rfl) (fun _ => ⟨rfl, rfl⟩) (fun _ => rfl) fun _ => by simp!
  · refine h.make (hg.expr t) fun body t h => ?_
    exact .closeAs h (fun _ => rfl) (fun _ => ⟨rfl, rfl⟩) (fun _ => rfl) fun _ => by simp!

theorem lambda?_runs (hg : g.Lays raw) :
    Runs raw (lambda? g) s (Perhaps s fun t e => Whole s t e.region ∧ e.IsCastable) := by
  unfold lambda?
  refine .get (.ite (fun _ => ?_) fun _ => .ite (fun _ => ?_) fun _ => .pure rfl)
  · refine ident_makes.bind fun name t h => (lambdaRest_runs hg ?_).map fun e u hu => hu
    refine (Whole.wrap (implicitParam_whole h) ?_ ?_).filled
    · simp! [implicitParam]
    · simp!
  · exact (lambdaParams_makes hg s).bind fun p t h =>
      (lambdaRest_runs hg h.filled).map fun e u hu => hu

theorem expr_makes (hg : g.Lays raw) : Makes raw Expr.region (expr g) := by
  intro s
  unfold expr
  refine .startHere ((lambda?_runs hg).bind fun found t h => ?_)
  cases found with
  | some e => exact .pure h.1
  | none =>
    cases h
    refine (hg.conditional s).bind fun target t h => .kindAt ?_
    split
    · exact .pure h
    · refine h.filled.skip advance_crosses fun _ t h => h.make (hg.expr t) fun value t h => ?_
      exact .closeExpr h (fun _ => rfl) (fun _ => rfl) fun _ => by simp!

/-- A lambda expression, or what else stands in its place. -/
theorem lambdaOr_runs (hg : g.Lays raw) {p : Parser Expr} {β : Type} {k : Expr → Parser β}
    {post : β → State → Prop} {ok : Expr → Prop} (hlambda : ∀ e : Expr, e.IsCastable → ok e)
    (hp : ∀ s, Runs raw p s fun e t => Whole s t e.region ∧ ok e)
    (hk : ∀ e t, Whole s t e.region → ok e → Runs raw (k e) t post) :
    Runs raw (lambda? g >>= fun found => match found with
      | some e => pure e >>= k
      | none => p >>= k) s post := by
  refine (lambda?_runs hg).bind fun found t h => ?_
  cases found with
  | some e => exact .pure_bind (hk e t h.1 (hlambda e h.2))
  | none =>
    cases h
    exact (hp s).bind fun e t he => hk e t he.1 he.2

theorem conditional_makes (hg : g.Lays raw) : Makes raw Expr.region (conditional g) := by
  intro s
  unfold conditional
  refine .startHere ((hg.binary 0 s).bind fun cond t ⟨h, _⟩ => ?_)
  refine .ifEat (by decide) (fun u hu => ?_) fun _ => .pure h
  have h := h.filled.append hu
  refine h.make (hg.expr u) fun yes u h => h.skip expect_crosses fun _ u h => ?_
  have hlambda : ∀ e : Expr, e.IsCastable → True := fun _ _ => trivial
  refine lambdaOr_runs hg hlambda (fun s => (hg.conditional s).mono fun _ _ he => ⟨he, trivial⟩)
    fun no v hv _ => ?_
  exact .closeExpr (h.append hv.filled) (fun _ => rfl) (fun _ => rfl) fun _ => by simp!

/-! ## Operators -/

theorem Whole.reads {e : Expr} (h : Whole s t e.region) :
    e.Grouped ∧ ∃ xs, Taken s t xs ∧ e.Reads xs := by
  obtain ⟨xs, hxs, hspans⟩ := h
  obtain ⟨rs, hregion⟩ := e.region_eq
  rw [hregion] at hspans
  exact ⟨hspans.reads.1, xs, hxs, hspans.reads.2⟩

theorem Whole.covers {r : Region} (h : Whole s t r) : ∃ xs, Taken s t xs ∧ r.range.Covers xs := by
  obtain ⟨xs, hxs, hspans⟩ := h
  exact ⟨xs, hxs, hspans.ends⟩

/-- An operator with its operands lies over all that was taken for them. -/
theorem operation_whole {e : Expr} {xs : List Lexeme} (h : Filled s₀ s rs)
    (hregion : e.region = .part (.expr e) rs) (hrange : e.range = ⟨s₀.start, s.previousStop⟩)
    (htaken : Taken s₀ s xs) (hgrouped : e.Grouped) (hreads : e.Reads xs) :
    Whole s₀ s e.region := by
  rw [hregion]
  refine h.over hrange rfl fun ys hys _ => ?_
  rw [htaken.unique hys]
  exact ⟨hgrouped, hreads⟩

/-- An expression was taken, and behind it an operator. -/
structure Applied (s₀ s : State) (e : Expr) (kind : TokenKind) : Prop where
  filled : Filled s₀ s [e.region]
  taken : ∃ xs x, Taken s₀ s (xs ++ [x]) ∧ e.Reads xs ∧ x.kind = kind
  grouped : e.Grouped
  start_eq : e.range.start = s₀.start

theorem Whole.start_eq {e : Expr} (h : Whole s t e.region) : e.range.start = s.start := by
  rw [← e.range_region, h.range_eq]

/-- Behind an expression, an operator is taken. -/
theorem Whole.operator {β : Type} {k : TextRange → Parser β} {post : β → State → Prop} {e : Expr}
    {kind : TokenKind} (h : Whole s₀ s e.region) (hkind : s.kind 0 = kind)
    (hne : kind ≠ .endOfFile) (hk : ∀ r t, Applied s₀ t e kind → Runs raw (k r) t post) :
    Runs raw (advance >>= k) s post := by
  refine (advance_takes (hkind ▸ hne)).bind fun r t ⟨ht, _⟩ => hk r t ?_
  obtain ⟨hgrouped, xs, hxs, hreads⟩ := h.reads
  have hfilled := h.filled.append ht.filled
  exact ⟨hfilled, ⟨xs, s.lexeme 0, hxs.append ht, hreads, hkind⟩, hgrouped, h.start_eq⟩

namespace Applied

variable {lhs rhs e : Expr}

theorem binary {op : BinaryOp} (h : Applied s₀ s lhs op.token) (hrhs : Whole s t rhs.region)
    (hprecedes : lhs.Precedes op.precedence) (htighter : rhs.Tighter op.precedence) :
    Whole s₀ t (Expr.binary ⟨s₀.start, t.previousStop⟩ op lhs rhs).region := by
  obtain ⟨xs, x, htaken, hreads, hx⟩ := h.taken
  obtain ⟨hgrouped, ys, hys, hreads'⟩ := hrhs.reads
  have hstop : rhs.range.stop = t.previousStop := by rw [← rhs.range_region, hrhs.range_eq]
  have hall := htaken.append hys
  rw [List.append_assoc] at hall
  refine operation_whole (h.filled.append hrhs.filled) (by simp!) rfl hall ?_
    (.binary hreads hx hreads')
  exact ⟨h.grouped, hgrouped, hprecedes, htighter, by rw [h.start_eq, hstop]⟩

theorem test {tested : TypeRef} (h : Applied s₀ s e .instanceofKw) (htype : Whole s t tested.region)
    (hprecedes : e.Precedes instanceOfPrecedence) :
    Whole s₀ t (Expr.instanceOf ⟨s₀.start, t.previousStop⟩ e tested).region := by
  obtain ⟨xs, x, htaken, hreads, hx⟩ := h.taken
  obtain ⟨ys, hys, hcovers⟩ := htype.covers
  rw [TypeRef.range_region] at hcovers
  have hstop : tested.range.stop = t.previousStop := by rw [← tested.range_region, htype.range_eq]
  have hall := htaken.append hys
  rw [List.append_assoc] at hall
  refine operation_whole (h.filled.append htype.filled) (by simp!) rfl hall ?_
    (.test hreads hx hcovers)
  exact ⟨h.grouped, hprecedes, by rw [h.start_eq, hstop]⟩

theorem patternTest {pattern : Pattern} (h : Applied s₀ s e .instanceofKw)
    (hpattern : Whole s t pattern.region) (hprecedes : e.Precedes instanceOfPrecedence) :
    Whole s₀ t (Expr.instanceOfPattern ⟨s₀.start, t.previousStop⟩ e pattern).region := by
  obtain ⟨xs, x, htaken, hreads, hx⟩ := h.taken
  obtain ⟨ys, hys, hcovers⟩ := hpattern.covers
  rw [Pattern.range_region] at hcovers
  have hstop : pattern.range.stop = t.previousStop := by
    rw [← pattern.range_region, hpattern.range_eq]
  have hall := htaken.append hys
  rw [List.append_assoc] at hall
  refine operation_whole (h.filled.append hpattern.filled) (by simp!) rfl hall ?_
    (.patternTest hreads hx hcovers)
  exact ⟨h.grouped, hprecedes, by rw [h.start_eq, hstop]⟩

/-- A step up or down behind an operand. -/
theorem step {op : UnaryOp} (h : Applied s₀ s e op.token) (hop : op.isPostfix = true)
    (hoperand : e.IsOperand) :
    Operand s₀ s (Expr.unary ⟨s₀.start, s.previousStop⟩ op e) := by
  obtain ⟨xs, x, htaken, hreads, hx⟩ := h.taken
  exact ⟨operation_whole h.filled (by simp!) rfl htaken hoperand
    (.opBehind hop hreads hx), rfl, rfl⟩

end Applied

/-- A type test of another expression. -/
inductive Tests (e : Expr) : Expr → Prop where
  | test (range : TextRange) (tested : TypeRef) : Tests e (.instanceOf range e tested)
  | patternTest (range : TextRange) (pattern : Pattern) :
    Tests e (.instanceOfPattern range e pattern)

theorem instanceOfRest_runs (hg : g.Lays raw) {e : Expr} (h : Applied s₀ s e .instanceofKw)
    (hprecedes : e.Precedes instanceOfPrecedence) :
    Runs raw (instanceOfRest g s₀.start e) s fun e' t => Whole s₀ t e'.region ∧ Tests e e' := by
  unfold instanceOfRest
  refine .startHere ((modifiers_modify hg).bind fun ms t hms => ?_)
  refine (type_makes hg t).bind fun ty u hty => .ifAt (fun _ => ?_) fun _ => .ite (fun hempty => ?_)
    fun _ => .expected
  · refine (hms.row.then_ hty.filled).make ident_makes fun name v hv => .rangeFrom hv fun hwhole => ?_
    have hpattern : Whole s v (Pattern.mk (v.rangeFrom s.start) ms ty name).region :=
      hwhole _ (by simp!) (by simp!)
    refine .rangeOf (h.filled.append hpattern.filled) (.pure ⟨?_, .patternTest _ _⟩)
    exact h.patternTest hpattern hprecedes
  · rw [hms.eq_of_isEmpty hempty] at hty
    refine .rangeOf (h.filled.append hty.filled) (.pure ⟨?_, .test _ _⟩)
    exact h.test hty hprecedes

/-- What stands next may follow the expression, whose last operator has taken what it could. -/
def Leaves (next : TokenKind) : Expr → Prop
  | .binary _ op _ _ => Stops op.precedence next
  | _ => True

theorem Leaves.of_isOperand {e : Expr} {next : TokenKind} (h : e.IsOperand) : Leaves next e := by
  cases e with
  | binary => cases h.1
  | _ => trivial

theorem Leaves.precedes_test {e : Expr} {next : TokenKind} (h : Leaves next e)
    (hloose : e.isLoose = false) (hnext : next = .instanceofKw) :
    e.Precedes instanceOfPrecedence := by
  cases e with
  | binary => exact h.1 hnext
  | _ => exact hloose

theorem Leaves.precedes {e : Expr} {next : TokenKind} {op : BinaryOp} (h : Leaves next e)
    (hloose : e.isLoose = false) (hop : BinaryOp.ofToken? next = some op) :
    e.Precedes op.precedence := by
  cases e with
  | binary => exact h.2 op hop
  | _ => exact hloose

/-- An expression is followed by operators that bind tighter. -/
theorem binaryFrom_runs (hg : g.Lays raw) (min n : Nat) {lhs : Expr}
    (h : Whole s₀ s lhs.region) (htighter : lhs.Tighter min) (hleaves : Leaves (s.kind 0) lhs) :
    Runs raw (binaryFrom g s₀.start min n lhs) s fun e t =>
      Whole s₀ t e.region ∧ e.Tighter min ∧ Stops min (t.kind 0) := by
  induction n generalizing s lhs with
  | zero => exact .exhausted
  | succ n ih =>
    unfold binaryFrom
    have hloose := htighter.not_isLoose
    refine .ifAt (fun hat => .ite (fun hle => .pure ⟨h, htighter, fun _ => hle, ?_⟩) fun hlt => ?_)
      fun hat => .kindAt ?_
    · rw [hat]
      simp [BinaryOp.ofToken?]
    · have hprecedes := hleaves.precedes_test hloose hat
      refine h.operator hat (by decide) fun _ t ht => ?_
      refine (instanceOfRest_runs hg ht hprecedes).bind ?_
      rintro e u ⟨hu, htests⟩
      cases htests with
      | test => exact ih hu ⟨Nat.lt_of_not_le hlt, htighter⟩ trivial
      | patternTest => exact ih hu ⟨Nat.lt_of_not_le hlt, htighter⟩ trivial
    · split
      · rename_i hnone
        exact .pure ⟨h, htighter, fun heq => absurd heq hat, fun op hop => by
          rw [hnone] at hop
          cases hop⟩
      · rename_i op hop
        refine .ite (fun hle => .pure ⟨h, htighter, fun heq => absurd heq hat, fun op' hop' => ?_⟩)
          fun hlt => ?_
        · cases hop.symm.trans hop'
          exact hle
        · have hprecedes := hleaves.precedes hloose hop
          have hne : op.token ≠ .endOfFile := by cases op <;> decide
          refine h.operator (BinaryOp.eq_token hop) hne fun _ t ht => ?_
          refine (hg.binary _ t).bind ?_
          rintro rhs u ⟨hrhs, hinner, hstops⟩
          refine .rangeOf (ht.filled.append hrhs.filled) (ih ?_ ⟨Nat.lt_of_not_le hlt, htighter⟩ hstops)
          exact ht.binary hrhs hprecedes hinner

theorem binary_runs (hg : g.Lays raw) (min : Nat) (s : State) :
    Runs raw (binary g min) s fun e t =>
      Whole s t e.region ∧ e.Tighter min ∧ Stops min (t.kind 0) := by
  unfold binary
  refine .get ((hg.unary s).bind fun e t h => ?_)
  exact binaryFrom_runs hg min s.budget h.1 h.2.tighter (.of_isOperand h.2)

theorem castType_makes (hg : g.Lays raw) (primitive : Bool) :
    Makes raw TypeRef.region (castType g primitive) := by
  intro s
  unfold castType
  refine (type_makes hg s).bind fun first t h => .isAt (.ite (fun _ => ?_) fun _ => .pure h)
  refine h.filled.skip advance_crosses fun _ u hu => ?_
  refine hu.read ((separated_fills (by decide) hg.type.fills).mono fun _ _ => .go) fun others u hu => ?_
  rw [TypeRef.regions_eq] at hu
  have hstart : first.range.start = s.start := by
    rw [← TypeRef.range_region, h.range_eq]
  rw [hstart]
  exact .closeType hu (fun _ => rfl) (fun _ => rfl) fun _ => by
    simp [TypeRef.region, TypeRef.regions]

/-- The type of a cast was taken, with the parentheses around it. -/
structure CastTo (s t : State) (target : TypeRef) : Prop where
  filled : Filled s t [target.region]
  taken : ∃ x ts y, Taken s t (x :: (ts ++ [y])) ∧ x.kind = .lParen ∧ target.range.Covers ts ∧
    y.kind = .rParen

theorem castTarget_runs (hg : g.Lays raw) (hkind : s.kind 0 = .lParen) :
    Runs raw (castTarget g) s fun target t => CastTo s t target := by
  unfold castTarget
  refine (advance_takes (by simp [hkind])).bind fun _ t ⟨ht, _⟩ => .kindAt ?_
  refine (castType_makes hg _ t).bind fun target u hu => .get (.ite (fun hclose => ?_)
    fun _ => .expected)
  simp only [Bool.and_eq_true, beq_iff_eq] at hclose
  have hparen : u.kind 0 = .rParen := hclose.1
  refine (advance_takes (by simp [hparen])).bind fun _ v ⟨hv, _⟩ => .pure ⟨?_, ?_⟩
  · simpa using (ht.filled.append hu.filled).append hv.filled
  · obtain ⟨ts, hts, hcovers⟩ := hu.covers
    rw [TypeRef.range_region] at hcovers
    exact ⟨s.lexeme 0, ts, u.lexeme 0, (ht.append hts).append hv, hkind, hcovers, hparen⟩

theorem CastTo.cast {target : TypeRef} {operand : Expr} {u : State} (h : CastTo s t target)
    (hoperand : Whole t u operand.region) (hcastable : operand.IsCastable) :
    Operand s u (Expr.cast ⟨s.start, u.previousStop⟩ target operand) := by
  obtain ⟨x, ts, y, htaken, hx, hcovers, hy⟩ := h.taken
  obtain ⟨-, xs, hxs, hreads⟩ := hoperand.reads
  have hall := htaken.append hxs
  rw [List.cons_append, List.append_assoc, List.singleton_append] at hall
  exact ⟨operation_whole (h.filled.append hoperand.filled) (by simp!) rfl hall
    hcastable (.cast hx hcovers hy hreads), rfl, rfl⟩

theorem cast?_runs (hg : g.Lays raw) (hkind : s.kind 0 = .lParen) :
    Runs raw (cast? g) s (Perhaps s fun t e => Operand s t e) := by
  unfold cast?
  refine .startHere ((Runs.attempt (castTarget_runs hg hkind)).bind fun found t h => ?_)
  cases found with
  | none => exact .pure h
  | some target =>
    have hunary : ∀ s, Runs raw g.unary s fun e t => Whole s t e.region ∧ e.IsCastable :=
      fun s => (hg.unary s).mono fun e t he => ⟨he.1, he.2.isCastable⟩
    refine lambdaOr_runs hg (fun _ he => he) hunary fun operand u hu hcastable => ?_
    have hcast : CastTo s t target := h
    exact .rangeOf (hcast.filled.append hu.filled) (.pure (hcast.cast hu hcastable))

theorem classBody?_crosses (hg : g.Lays raw) :
    Runs raw (classBody? g) s fun b t => Crossed s t (bodyRegions b) := by
  unfold classBody?
  refine .ifAt (fun _ => ?_) fun _ => .pure (by simpa! using Crossed.stay)
  refine (hg.classBody .classType s).map fun b t h => ?_
  simpa! using Crossed.go h.filled

theorem dimExpr_fills (hg : g.Lays raw) (hkind : s.kind 0 = .lBracket) :
    Runs raw (dimExpr g) s fun d t => Filled s t (dimRegions [d]) := by
  unfold dimExpr
  refine .startHere ((advance_fills hkind (by decide)).bind fun _ t h => ?_)
  refine .ifAtJoin (fun size u => Filled s u (optionalRegions size)) (fun _ => .pure ?_) (fun _ => ?_)
    fun size u h => ?_
  · simpa! using h
  · refine (hg.expr t).map fun e u hu => ?_
    simpa! using h.append hu.filled
  · refine h.skip expect_crosses fun _ v h => .rangeFrom h fun hwhole => .pure ?_
    simp! only
    exact (hwhole (.detail _ _) rfl rfl).filled

theorem creation_runs (hg : g.Lays raw) {outer : Option Expr}
    (h : Crossed s₀ s (optionalRegions outer)) :
    Runs raw (creation g s₀.start outer) s fun e t => Operand s₀ t e := by
  unfold creation
  refine h.fill (expect_fills (by decide)) fun _ t h => ?_
  refine h.make (nonArrayType_makes hg t) fun ty t h => .isAt (.ite (fun hdims => ?_) fun _ => ?_)
  · have houter : outer = none := by
      rw [Bool.and_eq_true, Option.isNone_iff_eq_none] at hdims
      exact hdims.2
    subst houter
    refine h.read (many_crosses fun s hmore => dimExpr_fills hg (beq_iff_eq.1 hmore))
      fun dims u h => ?_
    rw [dimRegions_eq] at h
    refine .ifAt (fun _ => ?_) fun _ => ?_
    · refine h.make (arrayInit_makes hg u) fun p u h => ?_
      exact .closeOperand h (fun _ => ⟨rfl, rfl, rfl⟩) (fun _ => rfl) fun _ => by
        simp! [Region.listed]
    · exact .closeOperand h (fun _ => ⟨rfl, rfl, rfl⟩) (fun _ => rfl) fun _ => by
        simp! [Region.listed]
  · refine h.make (arguments_makes hg t) fun p t h => ?_
    refine h.read (classBody?_crosses hg) fun body t h => ?_
    exact .closeOperand h (fun _ => ⟨rfl, rfl, rfl⟩) (fun _ => rfl) fun _ => by simp!

/-- A dotted name lies over the same lexemes when it is read as a type. -/
theorem spans_of_typeOfExpr? {e : Expr} {ty : TypeRef} (hty : typeOfExpr? e = some ty) :
    ∀ xs, e.region.Spans xs → ty.region.Spans xs := by
  induction e using typeOfExpr?.induct generalizing ty with
  | case1 name =>
    cases hty
    have _ : (TypeRef.named name.range none name none []).region.Plain := TypeRef.plain_region rfl
    exact fun xs h => h.recast (by simp! [TypeRef.region])
      (by simp! [TypeRef.region, Region.listed, TypeRef.regions])
  | case2 range target name ih =>
    obtain ⟨outer, houter, rfl⟩ := Option.map_eq_some_iff.1 hty
    intro xs h
    refine ⟨?_, (TypeRef.plain_region rfl).spelled xs, ?_⟩
    · simpa! [TypeRef.region] using h.ends
    · have hinside := h.inside
      simp! only [Region.inside_part] at hinside
      simpa [TypeRef.region, Region.listed, TypeRef.regions] using hinside.head (ih houter)
  | case3 e hname haccess =>
    unfold typeOfExpr? at hty
    split at hty
    · exact absurd rfl (hname _)
    · exact absurd rfl (haccess _ _ _)
    · cases hty

theorem memberOf_runs (hg : g.Lays raw) {target : Expr} (h : Filled s₀ s [target.region]) :
    Runs raw (memberOf g s₀.start target) s fun e t => Operand s₀ t e := by
  unfold memberOf
  refine .kindAt ?_
  split
  · refine h.make ident_makes fun name t h => .ifAt (fun _ => ?_) fun _ => ?_
    · refine h.make (arguments_makes hg t) fun p t h => ?_
      exact .closeOperand h (fun _ => ⟨rfl, rfl, rfl⟩) (fun _ => rfl) fun _ => by
        simp! [Region.listed, TypeRef.regions]
    · exact .closeOperand h (fun _ => ⟨rfl, rfl, rfl⟩) (fun _ => rfl) fun _ => by simp!
  · refine h.make (typeArgs_makes hg s) fun p t h => h.make ident_makes fun name t h => ?_
    refine h.make (arguments_makes hg t) fun q t h => ?_
    exact .closeOperand h (fun _ => ⟨rfl, rfl, rfl⟩) (fun _ => rfl) fun _ => by
      simp! [Region.listed]
  · rename_i hkind
    refine h.make (word_makes hkind (by decide)) fun name t h => ?_
    exact .closeOperand h (fun _ => ⟨rfl, rfl, rfl⟩) (fun _ => rfl) fun _ => by simp!
  · rename_i hkind
    refine h.make (word_makes hkind (by decide)) fun name t h => ?_
    exact .closeOperand h (fun _ => ⟨rfl, rfl, rfl⟩) (fun _ => rfl) fun _ => by simp!
  · refine creation_runs hg (.go ?_)
    simpa! using h
  · refine h.skip advance_crosses fun _ t h => ?_
    split
    · rename_i ty hty
      obtain ⟨xs, hxs, hover⟩ := h
      have h : Filled s₀ t [ty.region] := ⟨xs, hxs, hover.head (spans_of_typeOfExpr? hty)⟩
      exact .closeOperand h (fun _ => ⟨rfl, rfl, rfl⟩) (fun _ => rfl) fun _ => by simp!
    · exact .fail
  · exact .expected

/-- An operand is followed by selections, indices, steps and references. -/
theorem postfixFrom_runs (hg : g.Lays raw) (n : Nat) {e : Expr} (h : Operand s₀ s e) :
    Runs raw (postfixFrom g s₀.start n e) s fun e t => Operand s₀ t e := by
  induction n generalizing s e with
  | zero => exact .exhausted
  | succ n ih =>
    obtain ⟨hwhole, hoperand⟩ := h
    have h := hwhole.filled
    unfold postfixFrom
    refine .kindAt ?_
    split
    · refine h.skip advance_crosses fun _ t h => ?_
      exact (memberOf_runs hg h).bind fun e u h => ih h
    · refine h.skip advance_crosses fun _ t h => h.make (hg.expr t) fun index t h => ?_
      refine h.skip expect_crosses fun _ t h => .rangeFrom h fun hwhole => ih ⟨?_, rfl, rfl⟩
      exact @hwhole _ (Expr.plain_region rfl) (by simp) (by simp!)
    · rename_i hkind
      have htoken : s.kind 0 = UnaryOp.postInc.token := hkind
      refine hwhole.operator htoken (by decide) fun _ t ht => ?_
      exact .rangeOf ht.filled (ih (ht.step rfl hoperand))
    · rename_i hkind
      have htoken : s.kind 0 = UnaryOp.postDec.token := hkind
      refine hwhole.operator htoken (by decide) fun _ t ht => ?_
      exact .rangeOf ht.filled (ih (ht.step rfl hoperand))
    · refine h.skip advance_crosses fun _ t h => ?_
      refine .ifEatJoin (fun name u => Filled s₀ u ([e.region] ++ name.toList.map Ident.region))
        (by decide) (fun u hu => .pure ?_) (fun _ => ?_) fun name u h => ?_
      · simpa using h.append hu
      · exact ident_makes.map fun name u hu => h.append hu.filled
      · refine .rangeFrom h fun hwhole => ih ⟨?_, rfl, rfl⟩
        exact @hwhole _ (Expr.plain_region rfl) (by simp) (by simp!)
    · exact .pure ⟨hwhole, hoperand⟩

theorem typePrimary_runs (hg : g.Lays raw) :
    Runs raw (typePrimary g s.start) s fun e t => Operand s t e := by
  unfold typePrimary
  refine (type_makes hg s).bind fun ty t h => .ifAt (fun _ => .pure ?_) fun _ => .isAt (.kindAt
    (.ite (fun _ => ?_) fun _ => .expected))
  · exact ⟨h.wrapExpr rfl (by simp! [Expr.range]) (by simp!), rfl, rfl⟩
  · refine h.filled.skip advance_crosses fun _ t h => h.skip advance_crosses fun _ t h => ?_
    exact .closeOperand h (fun _ => ⟨rfl, rfl, rfl⟩) (fun _ => rfl) fun _ => by simp!

theorem name_whole {name : Ident} (h : Whole s t name.region) :
    Whole s t (Expr.name name).region :=
  h.wrapExpr rfl (by simp! [Ident.region]) (by simp!)

theorem nameOrCall_runs (hg : g.Lays raw) :
    Runs raw (nameOrCall g s.start) s fun e t => Operand s t e := by
  unfold nameOrCall
  refine ident_makes.bind fun name t h => .ifAt (fun _ => ?_) fun _ => .pure ⟨name_whole h, rfl, rfl⟩
  refine h.filled.make (arguments_makes hg t) fun p t h => ?_
  exact .closeOperand h (fun _ => ⟨rfl, rfl, rfl⟩) (fun _ => rfl) fun _ => by
    simp! [Region.listed, TypeRef.regions]

theorem selfOrCall_runs (hg : g.Lays raw) (hne : s.kind 0 ≠ .endOfFile) :
    Runs raw (selfOrCall g s.start) s fun e t => Operand s t e := by
  unfold selfOrCall
  refine .get ((word_makes rfl hne).bind fun name t h => .ite (fun _ => ?_) fun _ =>
    .ite (fun _ => .pure ?_) fun _ => .pure ?_)
  · refine h.filled.make (arguments_makes hg t) fun p t h => ?_
    exact .closeOperand h (fun _ => ⟨rfl, rfl, rfl⟩) (fun _ => rfl) fun _ => by
      simp! [Region.listed, TypeRef.regions]
  · exact ⟨h.recastExpr rfl (by simp! [Ident.region])
      (by simp! [Ident.region]), rfl, rfl⟩
  · exact ⟨h.recastExpr rfl (by simp! [Ident.region])
      (by simp! [Ident.region]), rfl, rfl⟩

theorem primary_runs (hg : g.Lays raw) :
    Runs raw (primary g) s fun e t => Operand s t e := by
  unfold primary
  refine .get ?_
  dsimp only
  split
  · rename_i literal hliteral
    have hne : s.kind 0 ≠ .endOfFile := by
      intro hend
      rw [hend] at hliteral
      cases hliteral
    refine (advance_makes hne).bind fun range t ⟨h, _⟩ => .pure ⟨?_, rfl, rfl⟩
    exact h.recastExpr rfl (by simp!) (by simp!)
  · split
    · rename_i hkind
      exact selfOrCall_runs hg (by simp [hkind])
    · rename_i hkind
      exact selfOrCall_runs hg (by simp [hkind])
    · refine .iteJoin (Perhaps s fun t e => Operand s t e) (fun _ => .attempt (typePrimary_runs hg))
        (fun _ => .pure rfl) fun found t h => ?_
      cases found with
      | some e => exact .pure h
      | none =>
        cases h
        exact nameOrCall_runs hg
    · rename_i hkind
      refine (advance_fills hkind (by decide)).bind fun _ t h => h.make (hg.expr t) fun e t h => ?_
      refine h.skip expect_crosses fun _ t h => ?_
      exact .closeOperand h (fun _ => ⟨rfl, rfl, rfl⟩) (fun _ => rfl) fun _ => by simp!
    · exact creation_runs hg (by simpa! using Crossed.stay)
    · rename_i hkind
      refine (advance_fills hkind (by decide)).bind fun _ t h => h.skip expect_crosses fun _ t h => ?_
      refine h.make (hg.expr t) fun selector t h => h.skip expect_crosses fun _ t h => ?_
      refine h.make (hg.switchCases t) fun p t h => ?_
      exact .closeOperand h (fun _ => ⟨rfl, rfl, rfl⟩) (fun _ => rfl) fun _ => by simp!
    · exact .ite (fun _ => typePrimary_runs hg) fun _ => .expected

theorem unary_runs (hg : g.Lays raw) (s : State) :
    Runs raw (unary g) s fun e t => Operand s t e := by
  unfold unary
  refine .get ?_
  split
  · rename_i op hop
    have hne : s.kind 0 ≠ .endOfFile := by
      intro hend
      rw [hend] at hop
      cases hop
    obtain ⟨htoken, hbefore⟩ := UnaryOp.eq_token hop
    refine (advance_takes hne).bind fun _ t ⟨ht, _⟩ => ?_
    refine (hg.unary t).bind fun operand u ⟨hu, hoperand⟩ => ?_
    obtain ⟨-, xs, hxs, hreads⟩ := hu.reads
    refine .rangeOf (ht.filled.append hu.filled) (.pure ⟨?_, rfl, rfl⟩)
    exact operation_whole (ht.filled.append hu.filled) (by simp!) rfl (ht.append hxs)
      hoperand (.opBefore hbefore htoken hreads)
  · refine .iteJoin (Perhaps s fun t e => Operand s t e)
      (fun hparen => cast?_runs hg (beq_iff_eq.1 hparen)) (fun _ => .pure rfl) fun found t h => ?_
    cases found with
    | some e => exact .pure h
    | none =>
      cases h
      exact (primary_runs hg).bind fun e t h => postfixFrom_runs hg s.budget h

end JavaAnalysis.Parser
