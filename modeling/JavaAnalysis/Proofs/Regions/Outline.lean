import JavaAnalysis.Proofs.Regions.Unit

/-!
# The outline among the regions

The parts in the outline of a file are its regions that are parts, but for those in the modifiers of
patterns: each occurs once, before the parts inside it, and in the order in which they start. If no
pattern has modifiers with a part in them, the outline leaves out nothing.
Main statement: `outline_run`.
-/

set_option autoImplicit false
set_option linter.dupNamespace false

namespace JavaAnalysis.Ast

namespace Region

/-- The part that a region is, if it is one. -/
def part? : Region → Option Part
  | part p _ => some p
  | _ => none

mutual

/-- A region and all inside it, each before those inside it; modifiers of patterns are left out. -/
def reached : Region → List Region
  | part p rs => part p rs :: reachedOf rs
  | detail r rs => detail r rs :: reachedOf rs
  | patternModifiers _ _ => []

def reachedOf : List Region → List Region
  | [] => []
  | r :: rs => r.reached ++ reachedOf rs

end

/-- The parts among a region and those inside it that are reached. -/
def parts (r : Region) : List Part := r.reached.filterMap part?

def partsOf (rs : List Region) : List Part := (reachedOf rs).filterMap part?

@[simp] theorem partsOf_nil : partsOf [] = [] := by simp [partsOf, reachedOf]

@[simp] theorem partsOf_cons (r : Region) (rs : List Region) :
    partsOf (r :: rs) = r.parts ++ partsOf rs := by
  simp [partsOf, parts, reachedOf]

@[simp] theorem partsOf_append (as bs : List Region) :
    partsOf (as ++ bs) = partsOf as ++ partsOf bs := by
  induction as with
  | nil => simp
  | cons a as ih => simp [ih]

@[simp] theorem parts_part (p : Part) (rs : List Region) :
    (part p rs).parts = p :: partsOf rs := by
  simp only [parts, reached, List.filterMap_cons, part?, partsOf]

@[simp] theorem parts_detail (range : TextRange) (rs : List Region) :
    (detail range rs).parts = partsOf rs := by
  rw [parts, reached, List.filterMap_cons_none rfl, partsOf]

@[simp] theorem parts_leaf (range : TextRange) : (leaf range).parts = [] := by simp [leaf]

@[simp] theorem partsOf_map_leaf (ranges : List TextRange) : partsOf (ranges.map leaf) = [] := by
  induction ranges with
  | nil => simp
  | cons r rs ih => simp [ih]

@[simp] theorem partsOf_listed (range? : Option TextRange) (rs : List Region) :
    partsOf (listed range? rs) = partsOf rs := by
  cases range? <;> simp [listed]

@[simp] theorem partsOf_modifierRegions (ms : List Modifier) (rs : List Region) :
    partsOf (modifierRegions ms rs) = partsOf rs := by
  simp [modifierRegions]

@[simp] theorem partsOf_patternModifierRegions (ms : List Modifier) (rs : List Region) :
    partsOf (patternModifierRegions ms rs) = [] := by
  unfold patternModifierRegions
  split <;> simp [parts, reached]

@[simp] theorem parts_ident (name : Ident) : name.region.parts = [] := by simp [Ident.region]

@[simp] theorem partsOf_idents (names : List Ident) : partsOf (names.map Ident.region) = [] := by
  induction names with
  | nil => simp
  | cons n ns ih => simp [ih]

@[simp] theorem parts_qualifiedName (name : QualifiedName) : name.region.parts = [] := by
  simp [QualifiedName.region]

end Region

namespace Outline

@[simp] theorem partsOf_nil : partsOf [] = [] := by simp [partsOf]

@[simp] theorem partsOf_cons (o : Outline) (os : List Outline) :
    partsOf (o :: os) = o.parts ++ partsOf os := by
  simp [partsOf]

@[simp] theorem partsOf_append (as bs : List Outline) :
    partsOf (as ++ bs) = partsOf as ++ partsOf bs := by
  induction as with
  | nil => simp
  | cons a as ih => simp [ih]

@[simp] theorem parts_mk (p : Part) (os : List Outline) : (mk p os).parts = p :: partsOf os := by
  simp [parts]

end Outline

/-! ## Types -/

mutual

theorem TypeRef.parts_region :
    ∀ t : TypeRef, t.region.parts = t.outline.parts
  | .primitive _ _ => by simp [TypeRef.region, TypeRef.outline]
  | .inferred _ => by simp [TypeRef.region, TypeRef.outline]
  | .named _ none _ _ args => by
    simp [TypeRef.region, TypeRef.outline, TypeRef.parts_regions args]
  | .named _ (some q) _ _ args => by
    simp [TypeRef.region, TypeRef.outline, q.parts_region, TypeRef.parts_regions args]
  | .array _ element _ => by simp [TypeRef.region, TypeRef.outline, element.parts_region]
  | .wildcard _ => by simp [TypeRef.region, TypeRef.outline]
  | .bounded _ _ bound => by simp [TypeRef.region, TypeRef.outline, bound.parts_region]
  | .union _ ts => by simp [TypeRef.region, TypeRef.outline, TypeRef.parts_regions ts]
  | .intersection _ ts => by simp [TypeRef.region, TypeRef.outline, TypeRef.parts_regions ts]

theorem TypeRef.parts_regions :
    ∀ ts : List TypeRef, Region.partsOf (TypeRef.regions ts) = Outline.partsOf (TypeRef.outlines ts)
  | [] => by simp [TypeRef.regions, TypeRef.outlines]
  | t :: ts => by
    simp [TypeRef.regions, TypeRef.outlines, t.parts_region, TypeRef.parts_regions ts]

end

/-! ## Declarations, statements and expressions -/

mutual

theorem AnnotationUse.parts_region :
    ∀ use : AnnotationUse, use.region.parts = use.outline.parts
  | .mk _ _ _ args => by simp! [parts_elementRegions args]

theorem parts_elementRegions :
    ∀ args : List ElementValue, Region.partsOf (elementRegions args) = Outline.partsOf (elementOutlines args)
  | [] => by simp!
  | .mk _ _ value :: args => by simp! [value.parts_region, parts_elementRegions args]

theorem AnnotationUse.parts_regions :
    ∀ uses : List AnnotationUse, Region.partsOf (AnnotationUse.regions uses) = Outline.partsOf (AnnotationUse.outlines uses)
  | [] => by simp!
  | use :: uses => by simp! [use.parts_region, AnnotationUse.parts_regions uses]

theorem parts_modifierItems :
    ∀ ms : List Modifier, Region.partsOf (modifierItems ms) = Outline.partsOf (modifierOutlines ms)
  | [] => by simp!
  | .word _ _ :: ms => by simp! [parts_modifierItems ms]
  | .annotated use :: ms => by simp! [use.parts_region, parts_modifierItems ms]

theorem parts_typeParamRegions :
    ∀ params : List TypeParam, Region.partsOf (typeParamRegions params) = Outline.partsOf (typeParamOutlines params)
  | [] => by simp!
  | .mk _ marks _ bounds :: params => by
    simp! [AnnotationUse.parts_regions marks, TypeRef.parts_regions, parts_typeParamRegions params]

theorem TypeDecl.parts_region :
    ∀ decl : TypeDecl, decl.region.parts = decl.outline.parts
  | .mk _ _ ms _ _ typeParams _ components _ _ _ (.mk _ constants members) => by
    simp! [parts_modifierItems ms, parts_typeParamRegions typeParams,
      Param.parts_regions components, TypeRef.parts_regions, parts_constantRegions constants,
      Member.parts_regions members]

theorem parts_constantRegions :
    ∀ constants : List EnumConstant, Region.partsOf (constantRegions constants) = Outline.partsOf (constantOutlines constants)
  | [] => by simp!
  | .mk _ ms _ _ args body :: constants => by
    simp! [parts_modifierItems ms, Expr.parts_regions args, parts_bodyRegions body,
      parts_constantRegions constants]

theorem parts_bodyRegions :
    ∀ body : Option ClassBody, Region.partsOf (bodyRegions body) = Outline.partsOf (bodyOutlines body)
  | none => by simp!
  | some (.mk _ constants members) => by
    simp! [parts_constantRegions constants, Member.parts_regions members]

theorem Member.parts_region :
    ∀ m : Member, m.region.parts = m.outline.parts
  | .field decl => by simp! [decl.parts_region]
  | .method decl => by simp! [decl.parts_region]
  | .initializer _ _ body => by simp! [body.parts_region]
  | .type decl => by simp! [decl.parts_region]

theorem Member.parts_regions :
    ∀ ms : List Member, Region.partsOf (Member.regions ms) = Outline.partsOf (Member.outlines ms)
  | [] => by simp!
  | m :: ms => by simp! [m.parts_region, Member.parts_regions ms]

theorem VarDecl.parts_region :
    ∀ decl : VarDecl, decl.region.parts = decl.outline.parts
  | .mk _ ms type fragments => by
    simp! [parts_modifierItems ms, type.parts_region, parts_fragmentRegions fragments]

theorem parts_fragmentRegions :
    ∀ fragments : List VarFragment, Region.partsOf (fragmentRegions fragments) = Outline.partsOf (initOutlines fragments)
  | [] => by simp!
  | .mk _ _ _ init :: fragments => by
    simp! [parts_optionalRegions init, parts_fragmentRegions fragments]

theorem MethodDecl.parts_region :
    ∀ decl : MethodDecl, decl.region.parts = decl.outline.parts
  | .mk _ ms _ typeParams _ _ _ params _ _ value body => by
    simp! [parts_modifierItems ms, parts_typeParamRegions typeParams, TypeRef.parts_regions,
      Param.parts_regions params, parts_optionalRegions value, parts_blockRegions body]

theorem Param.parts_region :
    ∀ p : Param, p.region.parts = p.outline.parts
  | .mk _ ms _ ellipsis _ _ => by simp! [parts_modifierItems ms, TypeRef.parts_regions]

theorem Param.parts_regions :
    ∀ ps : List Param, Region.partsOf (Param.regions ps) = Outline.partsOf (Param.outlines ps)
  | [] => by simp!
  | p :: ps => by simp! [p.parts_region, Param.parts_regions ps]

theorem Block.parts_region :
    ∀ b : Block, b.region.parts = b.outline.parts
  | .mk _ stmts => by simp! [Stmt.parts_regions stmts]

theorem parts_blockRegions :
    ∀ b : Option Block, Region.partsOf (blockRegions b) = Outline.partsOf (blockOutlines b)
  | none => by simp!
  | some b => by simp! [b.parts_region]

theorem Stmt.parts_regions :
    ∀ ss : List Stmt, Region.partsOf (Stmt.regions ss) = Outline.partsOf (Stmt.outlines ss)
  | [] => by simp!
  | s :: ss => by simp! [s.parts_region, Stmt.parts_regions ss]

theorem Stmt.parts_region :
    ∀ s : Stmt, s.region.parts = s.outline.parts
  | .block body => by simp! [body.parts_region]
  | .localVar decl => by simp! [decl.parts_region]
  | .localType decl => by simp! [decl.parts_region]
  | .expression _ e => by simp! [e.parts_region]
  | .ifThen _ cond body => by simp! [cond.parts_region, body.parts_region]
  | .ifThenElse _ cond body alternative => by
    simp! [cond.parts_region, body.parts_region, alternative.parts_region]
  | .whileLoop _ cond body => by simp! [cond.parts_region, body.parts_region]
  | .doLoop _ body cond => by simp! [body.parts_region, cond.parts_region]
  | .forLoop _ init cond update body => by
    simp! [parts_forInitRegions init, parts_optionalRegions cond, Expr.parts_regions update,
      body.parts_region]
  | .forEach _ var iterable body => by
    simp! [var.parts_region, iterable.parts_region, body.parts_region]
  | .returning _ e => by simp! [parts_optionalRegions e]
  | .breaking _ _ => by simp!
  | .continuing _ _ => by simp!
  | .yielding _ e => by simp! [e.parts_region]
  | .labeled _ _ body => by simp! [body.parts_region]
  | .throwing _ e => by simp! [e.parts_region]
  | .trying _ _ resources body catches final => by
    simp! [parts_resourceRegions resources, body.parts_region, parts_catchRegions catches,
      parts_blockRegions final]
  | .switching _ selector _ cases => by simp! [selector.parts_region, parts_caseRegions cases]
  | .synchronizing _ lock body => by simp! [lock.parts_region, body.parts_region]
  | .asserting _ cond message => by simp! [cond.parts_region, parts_optionalRegions message]
  | .empty _ => by simp!

theorem parts_forInitRegions :
    ∀ init : ForInit, Region.partsOf (forInitRegions init) = Outline.partsOf (forInitOutlines init)
  | .absent => by simp!
  | .decl decl => by simp! [decl.parts_region]
  | .exprs es => by simp! [Expr.parts_regions es]

theorem parts_resourceRegions :
    ∀ rs : List Resource, Region.partsOf (resourceRegions rs) = Outline.partsOf (resourceOutlines rs)
  | [] => by simp!
  | .decl decl :: rs => by simp! [decl.parts_region, parts_resourceRegions rs]
  | .expr e :: rs => by simp! [e.parts_region, parts_resourceRegions rs]

theorem parts_catchRegions :
    ∀ catches : List CatchClause, Region.partsOf (catchRegions catches) = Outline.partsOf (catchOutlines catches)
  | [] => by simp!
  | .mk _ param body :: catches => by
    simp! [param.parts_region, body.parts_region, parts_catchRegions catches]

theorem parts_caseRegions :
    ∀ cases : List SwitchCase, Region.partsOf (caseRegions cases) = Outline.partsOf (caseOutlines cases)
  | [] => by simp!
  | .mk _ labels _ body :: cases => by
    simp! [parts_labelRegions labels, Stmt.parts_regions body, parts_caseRegions cases]

theorem parts_labelRegions :
    ∀ labels : List CaseLabel, Region.partsOf (labelRegions labels) = Outline.partsOf (labelOutlines labels)
  | [] => by simp!
  | .default _ :: labels => by simp! [parts_labelRegions labels]
  | .values _ values :: labels => by simp! [Expr.parts_regions values, parts_labelRegions labels]
  | .pattern _ (.mk _ _ type _) guard :: labels => by
    simp! [type.parts_region, parts_optionalRegions guard, parts_labelRegions labels]

theorem parts_optionalRegions :
    ∀ e : Option Expr, Region.partsOf (optionalRegions e) = Outline.partsOf (optionalOutlines e)
  | none => by simp!
  | some e => by simp! [e.parts_region]

theorem parts_dimRegions :
    ∀ dims : List DimExpr, Region.partsOf (dimRegions dims) = Outline.partsOf (dimOutlines dims)
  | [] => by simp!
  | .mk _ size :: dims => by simp! [parts_optionalRegions size, parts_dimRegions dims]

theorem Expr.parts_regions :
    ∀ es : List Expr, Region.partsOf (Expr.regions es) = Outline.partsOf (Expr.outlines es)
  | [] => by simp!
  | e :: es => by simp! [e.parts_region, Expr.parts_regions es]

theorem Expr.parts_region :
    ∀ e : Expr, e.region.parts = e.outline.parts
  | .literal _ _ => by simp!
  | .name _ => by simp!
  | .fieldAccess _ target _ => by simp! [target.parts_region]
  | .methodCall _ target _ _ _ _ args => by
    simp! [parts_optionalRegions target, TypeRef.parts_regions, Expr.parts_regions args]
  | .newObject _ outer type _ args body => by
    simp! [parts_optionalRegions outer, type.parts_region, Expr.parts_regions args,
      parts_bodyRegions body]
  | .newArray _ element dims _ init => by
    simp! [element.parts_region, parts_dimRegions dims, Expr.parts_regions init]
  | .arrayInit _ items => by simp! [Expr.parts_regions items]
  | .arrayAccess _ array index => by simp! [array.parts_region, index.parts_region]
  | .unary _ _ operand => by simp! [operand.parts_region]
  | .binary _ _ lhs rhs => by simp! [lhs.parts_region, rhs.parts_region]
  | .assign _ _ target value => by simp! [target.parts_region, value.parts_region]
  | .conditional _ cond yes no => by simp! [cond.parts_region, yes.parts_region, no.parts_region]
  | .instanceOf _ operand type => by simp! [operand.parts_region, type.parts_region]
  | .instanceOfPattern _ operand (.mk _ _ type _) => by
    simp! [operand.parts_region, type.parts_region]
  | .cast _ type operand => by simp! [type.parts_region, operand.parts_region]
  | .paren _ inner => by simp! [inner.parts_region]
  | .this _ => by simp!
  | .super _ => by simp!
  | .classLiteral _ type => by simp! [type.parts_region]
  | .lambdaExpr _ _ params _ body => by simp! [Param.parts_regions params, body.parts_region]
  | .lambdaBlock _ _ params _ body => by simp! [Param.parts_regions params, body.parts_region]
  | .methodRef _ target _ => by simp! [target.parts_region]
  | .switching _ selector _ cases => by simp! [selector.parts_region, parts_caseRegions cases]
  | .annotated use => by simp! [use.parts_region]
  | .type type => by simp! [type.parts_region]

end

theorem CompilationUnit.parts_regions (unit : CompilationUnit) :
    Region.partsOf unit.regions = Outline.partsOf unit.outlines := by
  obtain ⟨range, package, imports, types⟩ := unit
  have himports : Region.partsOf (imports.map ImportDecl.region) = [] := by
    induction imports with
    | nil => simp
    | cons i is ih => simp [ImportDecl.region, ih]
  have htypes : Region.partsOf (types.map TypeDecl.region) =
      Outline.partsOf (types.map TypeDecl.outline) := by
    induction types with
    | nil => simp
    | cons t ts ih => simp [t.parts_region, ih]
  cases package with
  | none => simp [CompilationUnit.regions, CompilationUnit.outlines, himports, htypes]
  | some p =>
    simp [CompilationUnit.regions, CompilationUnit.outlines, PackageDecl.region, himports, htypes,
      AnnotationUse.parts_regions]

/-! ## What is left out -/

namespace Region

mutual

theorem reached_sublist : ∀ r : Region, r.reached.Sublist r.all
  | part p rs => by
    rw [reached, all]
    exact (reachedOf_sublist rs).cons_cons _
  | detail r rs => by
    rw [reached, all]
    exact (reachedOf_sublist rs).cons_cons _
  | patternModifiers _ _ => by
    rw [reached]
    exact List.nil_sublist _

theorem reachedOf_sublist : ∀ rs : List Region, (reachedOf rs).Sublist (allOf rs)
  | [] => by simp [reachedOf]
  | r :: rs => by
    rw [reachedOf, allOf]
    exact (reached_sublist r).append (reachedOf_sublist rs)

end

/-- The region is the row of modifiers of a pattern. -/
def isPatternRow : Region → Bool
  | patternModifiers _ _ => true
  | _ => false

/-- There is no part in the modifiers of a pattern. -/
def PlainPatterns (rs : List Region) : Prop :=
  ∀ r ∈ allOf rs, r.isPatternRow = true → ∀ a ∈ allOf r.inside, a.part? = none

instance (rs : List Region) : Decidable (PlainPatterns rs) :=
  inferInstanceAs (Decidable (∀ r ∈ allOf rs, r.isPatternRow = true →
    ∀ a ∈ allOf r.inside, a.part? = none))

mutual

theorem parts_of_plain : ∀ r : Region, PlainPatterns [r] → r.parts = r.all.filterMap part?
  | part p rs, h => by
    have hinside : PlainPatterns rs := fun a ha => h a (by simp [allOf, all, ha])
    rw [parts_part, all, partsOf_of_plain rs hinside]
    simp only [List.filterMap_cons, part?]
  | detail r rs, h => by
    have hinside : PlainPatterns rs := fun a ha => h a (by simp [allOf, all, ha])
    rw [parts_detail, all, partsOf_of_plain rs hinside]
    simp only [List.filterMap_cons, part?]
  | patternModifiers r rs, h => by
    have hnone : ∀ a ∈ allOf rs, a.part? = none :=
      h (patternModifiers r rs) (by simp [allOf, all]) rfl
    rw [parts, reached, all, List.filterMap_cons_none rfl, List.filterMap_eq_nil_iff.2 hnone]
    rfl

theorem partsOf_of_plain :
    ∀ rs : List Region, PlainPatterns rs → partsOf rs = (allOf rs).filterMap part?
  | [], _ => by simp [allOf]
  | r :: rs, h => by
    rw [partsOf_cons, allOf, List.filterMap_append, parts_of_plain r, partsOf_of_plain rs]
    · exact fun a ha => h a (by simp [allOf, ha])
    · refine fun a ha => h a ?_
      simp only [allOf, List.append_nil] at ha
      simp [allOf, ha]

end

theorem range_of_part? {r : Region} {p : Part} (h : r.part? = some p) : r.range = p.range := by
  cases r <;> cases h
  rfl

end Region

end JavaAnalysis.Ast

namespace JavaAnalysis.Parser

open Ast Lexeme

variable {level : LanguageLevel} {text : String} {lexemes : List Lexeme} {unit : CompilationUnit}
  {t : State}

/--
The outline of what is parsed of a text has each part of the text once, before the parts inside it
and in the order in which they start, but for the parts in the modifiers of patterns.
-/
theorem outline_run (hscan : scan level text = .ok lexemes) (h : run level lexemes = .ok (unit, t)) :
    Outline.partsOf unit.outlines = (Region.reachedOf unit.regions).filterMap Region.part? ∧
      (Outline.partsOf unit.outlines).Pairwise (fun a b => a.range.start ≤ b.range.start) ∧
      (Region.PlainPatterns unit.regions →
        Outline.partsOf unit.outlines = (Region.allOf unit.regions).filterMap Region.part?) := by
  obtain ⟨xs, hall, hfollow, -, htiled, -⟩ := run_tiled (significant_of_scan hscan) h
  rw [hall] at hfollow
  have hstarts := htiled.covered.starts (List.pairwise_append.1 hfollow).1
  have hparts := unit.parts_regions
  refine ⟨hparts.symm, ?_, fun hplain => ?_⟩
  · rw [← hparts]
    refine List.Pairwise.filterMap _ (fun r r' hle p hp p' hp' => ?_)
      (hstarts.sublist (Region.reachedOf_sublist _))
    rwa [← Region.range_of_part? hp, ← Region.range_of_part? hp']
  · rw [← hparts]
    exact Region.partsOf_of_plain _ hplain

/-- The part is an annotation. -/
def isAnnotated : Part → Bool
  | .annotated _ => true
  | _ => false

/-- A pattern with a plain modifier, in a method with an annotation. -/
theorem outline_run_plain : ∃ lexemes unit t,
    scan .standard "class A{@B int f(Object o){return o instanceof final A a?1:2;}}" = .ok lexemes ∧
      run .standard lexemes = .ok (unit, t) ∧ Region.PlainPatterns unit.regions ∧
      Outline.partsOf unit.outlines = (Region.allOf unit.regions).filterMap Region.part? ∧
      (Outline.partsOf unit.outlines).map Part.range =
        [⟨0, 63⟩, ⟨8, 62⟩, ⟨8, 62⟩, ⟨8, 10⟩, ⟨11, 14⟩, ⟨17, 25⟩, ⟨17, 23⟩, ⟨26, 62⟩,
          ⟨27, 61⟩, ⟨34, 60⟩, ⟨34, 56⟩, ⟨34, 35⟩, ⟨53, 54⟩, ⟨57, 58⟩, ⟨59, 60⟩] := by
  have hparts : ((scan .standard "class A{@B int f(Object o){return o instanceof final A a?1:2;}}").toOption.bind
      fun lexemes => (run .standard lexemes).toOption.map fun r =>
        (decide (Region.PlainPatterns r.1.regions), (Outline.partsOf r.1.outlines).map Part.range)) =
      some (true, [⟨0, 63⟩, ⟨8, 62⟩, ⟨8, 62⟩, ⟨8, 10⟩, ⟨11, 14⟩, ⟨17, 25⟩, ⟨17, 23⟩, ⟨26, 62⟩,
          ⟨27, 61⟩, ⟨34, 60⟩, ⟨34, 56⟩, ⟨34, 35⟩, ⟨53, 54⟩, ⟨57, 58⟩, ⟨59, 60⟩]) := by
    decide +kernel
  obtain ⟨lexemes, hscan, hrun⟩ := Option.bind_eq_some_iff.1 hparts
  obtain ⟨⟨unit, t⟩, hrun, hparts⟩ := Option.map_eq_some_iff.1 hrun
  obtain ⟨hplain, hranges⟩ := Prod.mk.inj hparts
  have hscan := toOption_eq_some.1 hscan
  have hrun := toOption_eq_some.1 hrun
  have hplain := of_decide_eq_true hplain
  exact ⟨lexemes, unit, t, hscan, hrun, hplain, (outline_run hscan hrun).2.2 hplain, hranges⟩

/-- The annotation of a pattern is not in the outline. -/
theorem outline_run_passedOver : ∃ lexemes unit t,
    scan .standard "class A{boolean f(Object o){return o instanceof @B String s;}}" = .ok lexemes ∧
      run .standard lexemes = .ok (unit, t) ∧
      ((Region.allOf unit.regions).filterMap Region.part?).any isAnnotated = true ∧
      (Outline.partsOf unit.outlines).any isAnnotated = false := by
  have hparts : ((scan .standard
      "class A{boolean f(Object o){return o instanceof @B String s;}}").toOption.bind fun lexemes =>
        (run .standard lexemes).toOption.map fun r =>
          (((Region.allOf r.1.regions).filterMap Region.part?).any isAnnotated,
            (Outline.partsOf r.1.outlines).any isAnnotated)) = some (true, false) := by
    decide +kernel
  obtain ⟨lexemes, hscan, hrun⟩ := Option.bind_eq_some_iff.1 hparts
  obtain ⟨⟨unit, t⟩, hrun, hparts⟩ := Option.map_eq_some_iff.1 hrun
  obtain ⟨hall, hreached⟩ := Prod.mk.inj hparts
  exact ⟨lexemes, unit, t, toOption_eq_some.1 hscan, toOption_eq_some.1 hrun, hall, hreached⟩

end JavaAnalysis.Parser
