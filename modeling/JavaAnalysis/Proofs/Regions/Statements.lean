import JavaAnalysis.Proofs.Regions.Expressions

/-!
# Regions over parsed declarations and statements

Each production for a declaration or a statement leaves regions over what it takes, given a grammar
whose parsers do so.
-/

set_option autoImplicit false
set_option linter.dupNamespace false

namespace JavaAnalysis.Parser

open Ast Lexeme

attribute [local simp] VarDecl.range MethodDecl.range TypeDecl.range Param.range Member.range
  Block.range ClassBody.range Pattern.range Stmt.range

variable {raw : List Lexeme} {g : Grammar} {s s₀ t : State} {rs : List Region}

theorem Runs.closeStmt {make : TextRange → Stmt} (h : Filled s₀ s rs)
    (hrange : ∀ r, (make r).range = r)
    (hregion : ∀ r, (make r).region = .part (.stmt (make r)) rs) :
    Runs raw (Parser.rangeFrom s₀.start >>= fun r => Pure.pure (make r)) s
      fun v t => Whole s₀ t v.region :=
  .close h (fun r => by rw [hregion]; exact hrange r) fun r => by rw [hregion]; rfl

/-! ## Variables -/

/-- A variable was taken, from its name on. -/
structure Declares (s : State) (f : VarFragment) (t : State) : Prop where
  filled : Filled s t (fragmentRegions [f])
  written : ∃ xs, Taken s t xs ∧ f.Written xs

/-- The modifiers and the type of a declaration were taken. -/
structure Typed (s t : State) (ms : List Modifier) (ty : TypeRef) : Prop where
  filled : Filled s t (modifierRegions ms (modifierItems ms) ++ [ty.region])
  spells : Spells s t (modifierPieces ms ++ [.span ty.range])
  nodeRange_eq : ty.nodeRange = ty.range

theorem Declares.mk' {name : Ident} {pairs : List TextRange} {init : Option Expr}
    (h : Filled s t ([name.region] ++ pairs.map .leaf ++ optionalRegions init))
    (hspells : Spells s t ([.name name] ++ pairs.map .pair ++ initPieces init))
    (hvalue : ∀ e, init = some e → e.isValue = true) :
    Declares s (.mk ⟨s.start, t.previousStop⟩ name pairs init) t := by
  have hwhole : Whole s t (.detail ⟨s.start, t.previousStop⟩
      ([name.region] ++ pairs.map .leaf ++ optionalRegions init)) := h.whole rfl rfl
  refine ⟨?_, ?_⟩
  · simp! only
    simpa using hwhole.filled
  · obtain ⟨xs, hxs, hspans⟩ := hwhole
    exact ⟨xs, hxs, hspans.ends, hspells.composed hxs.consumed_eq, hvalue⟩

/-- The initial value of a variable is an expression that stands for a value. -/
theorem varInit_runs (hg : g.Lays raw) :
    Runs raw g.varInit s fun e t => Whole s t e.region ∧ e.isValue = true :=
  (hg.varInit s).ensured (hg.valued.varInit s)

theorem varFragment_runs (hg : g.Lays raw) {name : Ident} (h : Names s₀ s name) :
    Runs raw (varFragment g name) s fun f t => Declares s₀ f t := by
  unfold varFragment
  have hstart : name.range.start = s₀.start := congrArg TextRange.start h.whole.range_eq
  rw [hstart]
  refine brackets_runs.bind fun pairs t hpairs => ?_
  have hfilled := h.whole.filled.then_ hpairs.crossed
  have hspells := h.spells.append hpairs.spells
  refine .ifStepJoin (fun init u => Filled s₀ u
      ([name.region] ++ pairs.map .leaf ++ optionalRegions init) ∧
      Spells s₀ u ([.name name] ++ pairs.map .pair ++ initPieces init) ∧
      ∀ e, init = some e → e.isValue = true) (by decide) (fun u hu => ?_) (fun _ => .pure ?_)
    fun init u ⟨hfilled, hspells, hvalue⟩ => ?_
  · refine (varInit_runs hg).map fun e v ⟨hv, hvalue⟩ => ⟨?_, ?_, ?_⟩
    · simpa! using (hfilled.append hu.filled).append hv.filled
    · have hinit := hu.spells.append hv.spells
      rw [Expr.range_region] at hinit
      exact hspells.append hinit
    · rintro _ ⟨rfl⟩
      exact hvalue
  · exact ⟨by simpa! using hfilled, by simpa [initPieces] using hspells, nofun⟩
  · exact .rangeOf hfilled (.pure (.mk' hfilled hspells hvalue))

/-- Behind a variable, a comma and more variables were taken, or nothing. -/
def Continues (s t : State) (fs : List VarFragment) : Prop :=
  fs = [] ∧ t = s ∨ ∃ u, Steps s u .comma ∧ Separates Declares .comma u fs t

theorem moreFragments_runs (hg : g.Lays raw) :
    Runs raw (moreFragments g) s fun fs t => Continues s t fs := by
  unfold moreFragments
  refine .ifStep (by decide) (fun u hu => ?_) fun _ => .pure (.inl ⟨rfl, rfl⟩)
  refine (separated_runs (by decide) fun s => ?_).mono fun fs t hfs => .inr ⟨u, hu, hfs⟩
  exact ident_names.bind fun name v hname => varFragment_runs hg hname

theorem varFragments_runs (hg : g.Lays raw) {name : Ident} (h : Names s₀ s name) :
    Runs raw (varFragments g name) s fun fs t => Separates Declares .comma s₀ fs t := by
  unfold varFragments
  refine (varFragment_runs hg h).bind fun f t hf => (moreFragments_runs hg).bind
    fun fs u hfs => .pure ?_
  rcases hfs with ⟨rfl, rfl⟩ | ⟨v, hv, hfs⟩
  · exact .last hf
  · exact .more hf hv hfs

theorem Declares.all_filled {fs : List VarFragment} (h : Separates Declares .comma s fs t) :
    Filled s t (fragmentRegions fs) := by
  rw [← fragmentRegions_eq]
  exact (h.mono fun _ _ _ hf => hf.filled).filled

theorem Declares.all_joined {fs : List VarFragment} (h : Separates Declares .comma s fs t) :
    ∃ xs, Taken s t xs ∧ Joined fs xs := by
  induction h with
  | last hf =>
    obtain ⟨xs, hxs, hwritten⟩ := hf.written
    exact ⟨xs, hxs, .last hwritten⟩
  | more hf hcomma _ ih =>
    obtain ⟨xs, hxs, hwritten⟩ := hf.written
    obtain ⟨x, hx, hkind⟩ := hcomma
    obtain ⟨ys, hys, hjoined⟩ := ih
    exact ⟨xs ++ x :: ys, hxs.append (hx.append hys), .comma hwritten hkind hjoined⟩

theorem Modifying.typed {ms : List Modifier} {ty : TypeRef} {u : State} (h : Modifying s t ms)
    (hty : Whole t u ty.region ∧ ty.nodeRange = ty.range) : Typed s u ms ty := by
  obtain ⟨hty, hrange⟩ := hty
  refine ⟨h.crossed.then_ hty.filled, ?_, hrange⟩
  have hspells := h.spells.append hty.spells
  rwa [TypeRef.range_region] at hspells

/-- A declaration lies over its modifiers, its type and its variables, and a semicolon perhaps. -/
theorem Typed.declaration {ms : List Modifier} {ty : TypeRef} {fs : List VarFragment} {u v : State}
    (h : Typed s u ms ty) (hfs : Separates Declares .comma u fs t)
    (hend : v = t ∨ Steps t v .semicolon) :
    Whole s v (VarDecl.mk ⟨s.start, v.previousStop⟩ ms ty fs).region := by
  have htail : ∃ tail, v.consumed = tail.reverse ++ t.consumed ∧
      (tail = [] ∨ (Piece.word .semicolon).Written tail) := by
    rcases hend with rfl | ⟨x, hx, hkind⟩
    · exact ⟨[], rfl, .inl rfl⟩
    · exact ⟨[x], hx.consumed_eq, .inr ⟨x, rfl, hkind⟩⟩
  have hfilled : Filled s v (modifierRegions ms (modifierItems ms) ++ [ty.region] ++
      fragmentRegions fs) := by
    have hall := h.filled.append (Declares.all_filled hfs)
    rcases hend with rfl | hsemi
    · exact hall
    · simpa using hall.append hsemi.filled
  have hinside : (VarDecl.mk ⟨s.start, v.previousStop⟩ ms ty fs).region.inside =
      modifierRegions ms (modifierItems ms) ++ [ty.region] ++ fragmentRegions fs := by
    simp!
  refine hfilled.over (by simp!) hinside fun xs hxs => ?_
  simp! only [Region.Spelled]
  obtain ⟨head, hhead, hcomposed⟩ := h.spells
  obtain ⟨body, hbody, hjoined⟩ := Declares.all_joined hfs
  obtain ⟨tail, htail, hsemi⟩ := htail
  refine ⟨h.nodeRange_eq, ?_, head, body, tail, ?_, hcomposed, hjoined, hsemi⟩
  · obtain ⟨ys, hys, hover⟩ := hfilled
    cases hys.unique hxs
    obtain ⟨run, hrun, hspans⟩ := hover.spans ty.region (mem_allOf (by simp))
    intro b hb
    obtain ⟨zs, hzs, hwritten⟩ := ty.exists_pair hspans b hb
    exact ⟨zs, hzs.trans hrun, hwritten⟩
  have hconsumed := hxs.consumed_eq
  rw [htail, hbody.consumed_eq, hhead, ← List.append_assoc, ← List.append_assoc] at hconsumed
  have hreverse := List.append_cancel_right hconsumed
  rw [← List.reverse_inj, ← hreverse]
  simp

/-- Modifiers and a type were read before the first name. -/
theorem varDecl_runs (hg : g.Lays raw) {ms : List Modifier} {ty : TypeRef} {name : Ident}
    {u : State} (h : Typed s₀ u ms ty) (hname : Names u s name) :
    Runs raw (varDecl g s₀.start ms ty name) s fun d t => Whole s₀ t d.region := by
  unfold varDecl
  refine (varFragments_runs hg hname).bind fun fs t hfs => ?_
  refine (expect_steps (by decide)).bind fun _ v hv => ?_
  have hwhole := h.declaration hfs (.inr hv)
  exact .rangeOf hwhole.filled (.pure hwhole)

/-! ## Members -/

theorem methodRest_runs (hg : g.Lays raw) {ms : List Modifier}
    {typeParams : Option TextRange × List TypeParam} {returnType : Option TypeRef} {name : Ident}
    (h : Filled s₀ s (modifierRegions ms (modifierItems ms) ++
      Region.listed typeParams.1 (typeParamRegions typeParams.2) ++
      TypeRef.regions returnType.toList ++ [name.region])) :
    Runs raw (methodRest g s₀.start ms typeParams returnType name) s
      fun d t => Whole s₀ t d.region := by
  unfold methodRest
  refine h.make (formalParams_makes hg s) fun params t h => ?_
  refine h.read (brackets_runs.mono fun _ _ => Bracketing.crossed) fun pairs t h => ?_
  refine .ifEatJoin (fun thrown u => Crossed t u (TypeRef.regions thrown)) (by decide)
    (fun u hu => ?_) (fun _ => .pure ?_) fun thrown u hthrown => ?_
  · exact (typeList_fills hg u).mono fun thrown v hv => .go (hu.append hv)
  · simpa [TypeRef.regions] using Crossed.stay
  have h := h.then_ hthrown
  refine .ifEatJoin (fun value v => Crossed u v (optionalRegions value)) (by decide)
    (fun v hv => ?_) (fun _ => .pure ?_) fun value v hvalue => ?_
  · refine (hg.elementValue v).map fun e w hw => .go ?_
    simpa! using hv.append hw.filled
  · simpa! using Crossed.stay
  have h := h.then_ hvalue
  refine .ifAt (fun _ => ?_) fun _ => ?_
  · refine h.make (hg.block v) fun body w h => ?_
    exact .close h (fun _ => by simp!) fun _ => by simp! [Region.listed]
  · refine h.skip expect_crosses fun _ w h => ?_
    exact .close h (fun _ => by simp!) fun _ => by simp! [Region.listed]

theorem method_whole {decl : MethodDecl} (h : Whole s t decl.region) :
    Whole s t (Member.method decl).region :=
  h.wrap (by simp! [Member.range]) (by simp!)

theorem memberRest_runs (hg : g.Lays raw) {owner : TypeDeclKind} {ms : List Modifier}
    {typeParams : Option TextRange × List TypeParam}
    (h : Crossed s₀ s (modifierRegions ms (modifierItems ms) ++
      Region.listed typeParams.1 (typeParamRegions typeParams.2)))
    (hnone : typeParams.1 = none → typeParams.2 = [] ∧ Spells s₀ s (modifierPieces ms)) :
    Runs raw (memberRest g owner s₀.start ms typeParams) s fun m t => Whole s₀ t m.region := by
  unfold memberRest
  refine .get (.ite (fun _ => ?_) fun _ => .ite (fun _ => ?_) fun _ => ?_)
  · refine h.make ident_makes fun name t h => (methodRest_runs hg ?_).map fun d u => method_whole
    simpa [TypeRef.regions] using h
  · refine h.make ident_makes fun name t h => h.make (hg.block t) fun body t h => ?_
    refine .rangeFrom h fun hwhole => .pure (method_whole (hwhole _ ?_ ?_))
    · simp!
    · simp! [TypeRef.regions, Region.listed]
  · refine (type_runs hg).bind ?_
    rintro ty t ⟨hty, hrange⟩
    refine ident_names.bind fun name u hname => ?_
    have h := h.then_ hty.filled
    refine .ifAt (fun _ => ?_) fun _ => .ite (fun _ => .expected) fun hno => ?_
    · refine (methodRest_runs hg ?_).map fun d v => method_whole
      simpa [TypeRef.regions] using h.append hname.whole.filled
    · have hparams : typeParams.1 = none := by simpa using hno
      obtain ⟨hnil, hspells⟩ := hnone hparams
      have htyped : Typed s₀ t ms ty := by
        rw [hnil, hparams] at h
        refine ⟨by simpa! [Region.listed] using h, ?_, hrange⟩
        have hspells := hspells.append hty.spells
        rwa [TypeRef.range_region] at hspells
      refine (varDecl_runs hg htyped hname).map fun d v hd => hd.wrap ?_ (by simp!)
      simp! [Member.range]

theorem member?_fills (hg : g.Lays raw) (owner : TypeDeclKind) :
    Fills raw (fun o => Member.regions o.toList) (member? g owner) := by
  intro s
  unfold member?
  refine .get (.ifEat (by decide) (fun t h => .pure ?_) fun _ => .ite (fun _ => ?_) fun _ => ?_)
  · simpa! using h
  · refine (eat_crosses (by decide)).bind fun isStatic t h => h.make (hg.block t) fun body t h => ?_
    refine .rangeFrom h fun hwhole => .pure ?_
    have hmember : Whole s t (Member.initializer (t.rangeFrom s.start) isStatic body).region :=
      hwhole _ (by simp!) (by simp!)
    simpa! using hmember.filled
  · refine (modifiers_modify hg).bind fun ms t h => .get (.ite (fun _ => ?_) fun _ => ?_)
    · refine (hg.typeDecl ms s t h.crossed).bind fun d u hd => .pure ?_
      have hmember : Whole s u (Member.type d).region :=
        hd.wrap (by simp! [Member.range])
          (by simp!)
      simpa! using hmember.filled
    · refine (typeParams_crosses hg).bind ?_
      rintro p u ⟨hp, hnone⟩
      refine (memberRest_runs hg (h.crossed.append hp) fun hparams => ?_).map fun m v hm => ?_
      · obtain ⟨hnil, hstay⟩ := hnone hparams
        exact ⟨hnil, hstay ▸ h.spells⟩
      simpa! using hm.filled

theorem members_crosses (hg : g.Lays raw) (owner : TypeDeclKind) :
    Runs raw (members g owner) s fun ms t => Crossed s t (Member.regions ms) := by
  unfold members
  refine (many_crosses fun s _ => member?_fills hg owner s).bind fun all t h => .pure ?_
  rwa [flatMap_toList (by simp!) (by simp!)] at h

/-! ## Bodies of types -/

theorem classBody_makes (hg : g.Lays raw) (kind : TypeDeclKind) :
    Makes raw ClassBody.region (classBody g kind) := by
  intro s
  unfold classBody
  refine .startHere ((expect_fills (by decide)).bind fun _ t h => ?_)
  refine h.read (members_crosses hg kind) fun ms t h => h.skip expect_crosses fun _ t h => ?_
  exact .close h (fun _ => by simp!) fun _ => by simp!

theorem enumConstant_fills (hg : g.Lays raw) :
    Fills raw (fun c => constantRegions [c]) (enumConstant g) := by
  intro s
  unfold enumConstant
  refine .startHere ((modifiers_crosses hg).bind fun ms t h => h.make ident_makes fun name t h => ?_)
  refine .isAt (.meet (fun (args : Option TextRange × List Expr) u => Filled s u
    (modifierRegions ms (modifierItems ms) ++ [name.region] ++
      Region.listed args.1 (Expr.regions args.2)))
    (fun args u h => ?_) (fun _ => .pure ?_) fun _ hrest => ?_)
  · refine h.read (classBody?_crosses hg) fun body u h => .rangeFrom h fun hwhole => .pure ?_
    simp! only
    exact (hwhole (.detail _ _) rfl (by simp)).filled
  · simpa! [Region.listed] using h
  · exact h.make (arguments_makes hg t) fun p u h => hrest (some p.1, p.2) u h

theorem enumBody_makes (hg : g.Lays raw) : Makes raw ClassBody.region (enumBody g) := by
  intro s
  unfold enumBody
  refine .startHere ((expect_fills (by decide)).bind fun _ t h => ?_)
  refine h.read (terminated_crosses (by decide) (enumConstant_fills hg)) fun constants t h => ?_
  rw [constantRegions_eq] at h
  refine .ifEatJoin (fun ms u => Crossed t u (Member.regions ms)) (by decide) (fun u hu => ?_)
    (fun _ => .pure ?_) fun ms u hms => ?_
  · exact (members_crosses hg .enumType).mono fun ms v hv => .go (hu.then_ hv)
  · simpa! using Crossed.stay
  · refine (h.then_ hms).skip expect_crosses fun _ v h => ?_
    exact .close h (fun _ => by simp!) fun _ => by simp!

theorem typeDecl_runs (hg : g.Lays raw) {ms : List Modifier}
    (h : Crossed s₀ s (modifierRegions ms (modifierItems ms))) :
    Runs raw (typeDecl g s₀.start ms) s fun d t => Whole s₀ t d.region := by
  unfold typeDecl
  refine .get ?_
  split
  · exact .expected
  · rename_i kind n hahead
    refine h.read (advanceBy_crosses n) fun _ t h => h.make ident_makes fun name t h => ?_
    refine h.read ((typeParams_crosses hg).mono fun _ _ hp => hp.1) fun typeParams t h => ?_
    refine .meet (fun (components : Option TextRange × List Param) u => Crossed t u
      (Region.listed components.1 (Param.regions components.2)))
      (fun components u hu => ?_) (fun _ => .pure ?_) fun _ hrest => ?_
    rotate_left
    · simpa! [Region.listed] using Crossed.stay
    · exact (formalParams_makes hg t).bind fun p u hu => hrest (some p.1, p.2) u (.go hu.filled)
    have h := h.then_ hu
    refine .ifEatMeet (fun supers v => Crossed u v (TypeRef.regions supers)) (by decide)
      (fun supers v hv => ?_) (fun _ => .pure ?_) fun v hv hrest => .iteJoin _ (fun _ => ?_)
      (fun _ => ?_) hrest
    rotate_left
    · simpa [TypeRef.regions] using Crossed.stay
    · exact (typeList_fills hg v).mono fun _ _ hw => .go (hv.append hw)
    · refine (hg.type v).map fun ty w hw => .go ?_
      simpa [List.singleton, TypeRef.regions] using hv.append hw.filled
    have h := h.then_ hv
    refine .ifEatJoin (fun interfaces w => Crossed v w (TypeRef.regions interfaces)) (by decide)
      (fun w hw => (typeList_fills hg w).mono fun _ _ hx => .go (hw.append hx)) (fun _ => .pure ?_)
      fun interfaces w hw => ?_
    · simpa [TypeRef.regions] using Crossed.stay
    have h := h.then_ hw
    refine .get (.meet (fun permitted x => Crossed w x (TypeRef.regions permitted))
      (fun permitted x hx => ?_) (fun _ => .pure ?_) fun hpermits hrest => ?_)
    rotate_left
    · simpa [TypeRef.regions] using Crossed.stay
    · refine advance_crosses.bind fun _ x hx => (typeList_fills hg x).bind fun ts y hy => ?_
      exact hrest ts y (.go (hx.then_ hy))
    have h := h.then_ hx
    refine .iteJoin (fun body y => Whole x y (ClassBody.region body)) (fun _ => enumBody_makes hg x)
      (fun _ => classBody_makes hg kind x) fun body y hy => ?_
    exact .close (h.append hy.filled) (fun _ => by simp!) fun _ => by simp!

/-! ## Statements -/

theorem block_makes (hg : g.Lays raw) : Makes raw Block.region (block g) := by
  intro s
  unfold block
  refine .startHere ((expect_fills (by decide)).bind fun _ t h => ?_)
  refine h.read (many_crosses fun s _ => hg.stmt.fills s) fun stmts t h => ?_
  rw [Stmt.regions_eq] at h
  refine h.skip expect_crosses fun _ t h => ?_
  exact .close h (fun _ => by simp!) fun _ => by simp!

/-- An expression between parentheses leaves no region of its own. -/
theorem parenExpr_fills (hg : g.Lays raw) : Fills raw (fun e => [Expr.region e]) (parenExpr g) := by
  intro s
  unfold parenExpr
  refine (expect_fills (by decide)).bind fun _ t h => h.make (hg.expr t) fun e t h => ?_
  exact h.skip expect_crosses fun _ t h => .pure h

/-- To see whether a variable is declared leaves the place as it is. -/
theorem isAtLocalVar_stays : Runs raw (isAtLocalVar g) s fun _ t => t = s := by
  unfold isAtLocalVar
  refine .get (.ite (fun _ => .pure rfl) fun _ => .ite (fun _ => .pure rfl) fun _ => ?_)
  split <;> exact .pure rfl

theorem isAtVarDecl_stays : Runs raw (isAtVarDecl g) s fun _ t => t = s := by
  unfold isAtVarDecl
  refine .isAt (.isAt (.ite (fun _ => .pure rfl) fun _ => isAtLocalVar_stays))

theorem localType_runs (hg : g.Lays raw) :
    Runs raw (localType g) s fun v t => Whole s t v.region ∧ v.nodeRange = v.range := by
  unfold localType
  exact (type_runs hg).bind fun ty t ⟨h, hrange⟩ => inferredIfVar_runs h hrange

theorem localVar_whole {decl : VarDecl} (h : Whole s t decl.region) :
    Whole s t (Stmt.localVar decl).region :=
  h.wrap (by simp! [Stmt.range]) (by simp!)

theorem block_whole {body : Block} (h : Whole s t body.region) :
    Whole s t (Stmt.block body).region :=
  h.wrap (by simp! [Stmt.range]) (by simp!)

theorem localDecl?_runs (hg : g.Lays raw) :
    Runs raw (localDecl? g) s (WholeIfAny s Stmt.region) := by
  unfold localDecl?
  refine .get ?_
  dsimp only
  refine isAtLocalVar_stays.bind fun b t ht => ?_
  cases ht
  refine .ite (fun _ => .pure rfl) fun _ => ?_
  refine (modifiers_modify hg).bind fun ms t h => .get (.ite (fun _ => ?_) fun _ => ?_)
  · refine (hg.typeDecl ms s t h.crossed).bind fun d u hd => .pure (hd.wrap ?_ ?_)
    · simp! [Stmt.range]
    · simp!
  · refine (localType_runs hg).bind fun ty u hty => ident_names.bind fun name v hname => ?_
    exact (varDecl_runs hg (h.typed hty) hname).bind fun d w hd => .pure (localVar_whole hd)

/-- A local declaration, or an expression as a statement. -/
theorem declOrExpr_runs (hg : g.Lays raw) :
    Runs raw (declOrExpr g s.start) s fun st t => Whole s t st.region := by
  unfold declOrExpr
  refine (localDecl?_runs hg).bind fun found t h => ?_
  cases found with
  | some st => exact .pure h
  | none =>
    cases h
    refine (hg.expr s).bind fun e t h => h.filled.skip expect_crosses fun _ t h => ?_
    exact .closeStmt h (fun _ => rfl) fun _ => by simp!

theorem ifStmt_makes (hg : g.Lays raw) : Makes raw Stmt.region (ifStmt g) := by
  intro s
  unfold ifStmt
  refine .startHere ((expect_fills (by decide)).bind fun _ t h => ?_)
  refine h.read ((parenExpr_fills hg t).mono fun _ _ => .go) fun cond t h => ?_
  refine h.make (hg.stmt t) fun body t h => .ifEat (by decide) (fun u hu => ?_) fun _ => ?_
  · refine (h.append hu).make (hg.stmt u) fun alternative u h => ?_
    exact .closeStmt h (fun _ => rfl) fun _ => by simp!
  · exact .closeStmt h (fun _ => rfl) fun _ => by simp!

theorem throwStmt_makes (hg : g.Lays raw) : Makes raw Stmt.region (throwStmt g) := by
  intro s
  unfold throwStmt
  refine .startHere ((expect_fills (by decide)).bind fun _ t h => h.make (hg.expr t) fun e t h => ?_)
  exact h.skip expect_crosses fun _ t h => .closeStmt h (fun _ => rfl) fun _ => by simp!

theorem exprList_fills (hg : g.Lays raw) {sep : TokenKind} (hsep : sep ≠ .endOfFile) :
    Runs raw (separated sep g.expr) s fun es t => Filled s t (Expr.regions es) := by
  simp only [← Expr.regions_eq]
  exact separated_fills hsep hg.expr.fills

theorem forRest_runs (hg : g.Lays raw) {init : ForInit} (h : Filled s₀ s (forInitRegions init)) :
    Runs raw (forRest g s₀.start init) s fun st t => Whole s₀ t st.region := by
  unfold forRest
  refine h.skip expect_crosses fun _ t h => ?_
  refine .ifAtJoin (fun cond u => Crossed t u (optionalRegions cond)) (fun _ => .pure ?_)
    (fun _ => ?_) fun cond u hu => ?_
  · simpa! using Crossed.stay
  · refine (hg.expr t).map fun e u hu => ?_
    simpa! using Crossed.go hu.filled
  refine (h.then_ hu).skip expect_crosses fun _ t h => ?_
  refine .ifAtJoin (fun update u => Crossed t u (Expr.regions update)) (fun _ => .pure ?_)
    (fun _ => (exprList_fills hg (by decide)).mono fun _ _ => .go) fun update u hu => ?_
  · simpa! using Crossed.stay
  refine (h.then_ hu).skip expect_crosses fun _ t h => h.make (hg.stmt t) fun body t h => ?_
  exact .closeStmt h (fun _ => rfl) fun _ => by simp!

theorem forDecl_runs (hg : g.Lays raw) (h : Filled s₀ s []) :
    Runs raw (forDecl g s₀.start) s fun st t => Whole s₀ t st.region := by
  unfold forDecl
  refine .startHere ((modifiers_modify hg).bind fun ms t hms => ?_)
  refine (localType_runs hg).bind fun ty t hty => ident_names.bind fun name u hname => ?_
  have htyped := hms.typed hty
  refine .get (.ite (fun _ => ?_) fun _ => ?_)
  · have hstart : name.range.start = t.start := congrArg TextRange.start hname.whole.range_eq
    rw [hstart]
    refine brackets_runs.bind fun pairs v hpairs => ?_
    have hfragment : Declares t (.mk ⟨t.start, v.previousStop⟩ name pairs none) v := by
      refine .mk' ?_ ?_ nofun
      · simpa! using hname.whole.filled.then_ hpairs.crossed
      · simpa [initPieces] using hname.spells.append hpairs.spells
    refine .rangeOf hfragment.filled ?_
    have hvar := htyped.declaration (.last hfragment) (.inl rfl)
    refine .rangeOf hvar.filled ?_
    refine (h.append hvar.filled).skip expect_crosses fun _ v h => ?_
    refine h.make (hg.expr v) fun iterable v h => h.skip expect_crosses fun _ v h => ?_
    refine h.make (hg.stmt v) fun body v h => ?_
    exact .closeStmt h (fun _ => rfl) fun _ => by simp!
  · refine (varFragments_runs hg hname).bind fun fs v hfs => ?_
    have hdecl := htyped.declaration hfs (.inl rfl)
    refine .rangeOf hdecl.filled (forRest_runs hg ?_)
    simpa! using h.append hdecl.filled

theorem forStmt_makes (hg : g.Lays raw) : Makes raw Stmt.region (forStmt g) := by
  intro s
  unfold forStmt
  refine .startHere ((expect_fills (by decide)).bind fun _ t h => h.skip expect_crosses fun _ t h => ?_)
  refine isAtVarDecl_stays.bind fun b u hu => ?_
  cases hu
  refine .ite (fun _ => forDecl_runs hg h) fun _ => .ifAt (fun _ => ?_) fun _ => ?_
  · exact forRest_runs hg (by simpa! using h)
  · refine h.read ((exprList_fills hg (by decide)).mono fun _ _ => .go) fun es u h => ?_
    exact forRest_runs hg (by simpa! using h)

/-! ## Resources and catches -/

theorem resource_fills (hg : g.Lays raw) : Fills raw (fun r => resourceRegions [r]) (resource g) := by
  intro s
  unfold resource
  refine isAtVarDecl_stays.bind fun b t ht => ?_
  cases ht
  refine .ite (fun _ => .startHere ?_) fun _ => ?_
  · refine (modifiers_modify hg).bind fun ms t hms => ?_
    refine (localType_runs hg).bind fun ty t hty => ident_names.bind fun name u hname => ?_
    have hstart : name.range.start = t.start := congrArg TextRange.start hname.whole.range_eq
    rw [hstart]
    refine (expect_steps (by decide)).bind fun _ v hv => ?_
    refine ((hg.expr v).ensured (hg.valued.expr v)).bind fun init w ⟨hw, hvalue⟩ => ?_
    have hfragment : Declares t (.mk ⟨t.start, w.previousStop⟩ name [] (some init)) w := by
      refine .mk' ?_ ?_ (by rintro _ ⟨rfl⟩; exact hvalue)
      · simpa! using (hname.whole.filled.append hv.filled).append hw.filled
      · have hspells := (hname.spells.append hv.spells).append hw.spells
        rw [Expr.range_region] at hspells
        simpa [initPieces] using hspells
    refine .rangeOf hfragment.filled ?_
    have hvar := (hms.typed hty).declaration (.last hfragment) (.inl rfl)
    refine .rangeOf hvar.filled (.pure ?_)
    simp! only
    exact hvar.filled
  · refine (hg.expr s).bind fun e t h => .pure ?_
    simpa! using h.filled

theorem catchClause_fills (hg : g.Lays raw) :
    Fills raw (fun c => catchRegions [c]) (catchClause g) := by
  intro s
  unfold catchClause
  refine .startHere ((expect_fills (by decide)).bind fun _ t h => h.skip expect_crosses fun _ t h => ?_)
  refine .startHere ((modifiers_crosses hg).bind fun ms u hms => ?_)
  refine hms.make (catchType_makes hg u) fun ty u hty => hty.make ident_makes fun name u hu => ?_
  refine .rangeFrom hu fun hwhole => ?_
  have hparam : Whole t u (Param.mk (u.rangeFrom t.start) ms (some ty) none name []).region :=
    hwhole _ (by simp!) (by simp! [TypeRef.regions])
  refine (h.append hparam.filled).skip expect_crosses fun _ v h => h.make (hg.block v) fun body v h => ?_
  refine .rangeFrom h fun hwhole => .pure ?_
  simp! only
  exact (hwhole (.detail _ _) rfl rfl).filled

theorem resources_crosses (hg : g.Lays raw) :
    Runs raw (resources g) s fun p t => Crossed s t (Region.listed p.1 (resourceRegions p.2)) := by
  unfold resources
  refine .ifAt (fun hkind => .startHere ?_) fun _ => .pure ?_
  · refine (advance_fills hkind (by decide)).bind fun _ t h => ?_
    refine h.read (terminated_crosses (by decide) (resource_fills hg)) fun items t h => ?_
    rw [resourceRegions_eq] at h
    refine h.skip expect_crosses fun _ t h => .rangeFrom h fun hwhole => .pure ?_
    exact .go (hwhole (.detail _ _) rfl rfl).filled
  · simpa! [Region.listed] using Crossed.stay

theorem tryStmt_makes (hg : g.Lays raw) : Makes raw Stmt.region (tryStmt g) := by
  intro s
  unfold tryStmt
  refine .startHere ((expect_fills (by decide)).bind fun _ t h => ?_)
  refine h.read (resources_crosses hg) fun resources t h => h.make (hg.block t) fun body t h => ?_
  refine h.read (many_crosses fun s _ => catchClause_fills hg s) fun catches t h => ?_
  rw [catchRegions_eq] at h
  refine .ifEatJoin (fun final u => Crossed t u (blockRegions final)) (by decide) (fun u hu => ?_)
    (fun _ => .pure ?_) fun final u hu => .ite (fun _ => .fail) fun _ => ?_
  · refine (hg.block u).map fun b v hv => ?_
    simpa! using Crossed.go (hu.append hv.filled)
  · simpa! using Crossed.stay
  · exact .closeStmt (h.then_ hu) (fun _ => rfl) fun _ => by simp!

/-! ## Switches -/

theorem casePattern_makes (hg : g.Lays raw) : Makes raw Pattern.region (casePattern g) := by
  intro s
  unfold casePattern
  refine .startHere ((modifiers_modify hg).bind fun ms t hms => ?_)
  refine hms.row.make (type_makes hg t) fun ty t h => h.make ident_makes fun name t h => ?_
  refine .get (.ite (fun _ => ?_) fun _ => .expected)
  exact .close h (fun _ => by simp!) fun _ => by simp!

theorem labelEnd_crosses : Runs raw labelEnd s fun _ t => Crossed s t [] := by
  unfold labelEnd
  refine .ifEat (by decide) (fun t h => .pure (.go h)) fun _ => ?_
  exact expect_crosses.bind fun _ t h => .pure h

theorem caseLabel_fills (hg : g.Lays raw) :
    Fills raw (fun p => labelRegions [p.1]) (caseLabel g) := by
  intro s
  unfold caseLabel
  refine .startHere (.ifEat (by decide) (fun t h => ?_) fun _ => ?_)
  · refine h.skip labelEnd_crosses fun arrow t h => .rangeFrom h fun hwhole => .pure ?_
    simp! only
    exact (hwhole (.leaf _) rfl rfl).filled
  · refine (expect_fills (by decide)).bind fun _ t h => ?_
    refine (Runs.attempt (casePattern_makes hg t)).bind fun found u hfound => ?_
    cases found with
    | some pattern =>
      have h := h.append (Whole.filled hfound)
      refine .get (.meet (fun guard v => Crossed u v (optionalRegions guard))
        (fun guard v hv => ?_) (fun _ => .pure ?_) fun _ hrest => ?_)
      · refine (h.then_ hv).skip labelEnd_crosses fun arrow w h => .rangeFrom h fun hwhole => .pure ?_
        simp! only
        exact (hwhole (.detail _ _) rfl rfl).filled
      · simpa! using Crossed.stay
      · refine advance_crosses.bind fun _ v hv => ?_
        have hguard : Runs raw (some <$> g.conditional) v
            fun guard w => Crossed u w (optionalRegions guard) :=
          (hg.conditional v).map fun e w hw => by simpa! using Crossed.go (hv.then_ hw.filled)
        exact hguard.bind hrest
    | none =>
      cases hfound
      refine h.read ((separated_fills (by decide) hg.conditional.fills).mono fun _ _ => .go)
        fun values u h => ?_
      rw [Expr.regions_eq] at h
      refine h.skip labelEnd_crosses fun arrow u h => .rangeFrom h fun hwhole => .pure ?_
      simp! only
      exact (hwhole (.detail _ _) rfl rfl).filled

theorem caseLabelsUpTo_fills (hg : g.Lays raw) (n : Nat) :
    Runs raw (caseLabelsUpTo g n) s fun p t => Filled s t (labelRegions p.1) := by
  induction n generalizing s with
  | zero => exact .exhausted
  | succ n ih =>
    unfold caseLabelsUpTo
    refine (caseLabel_fills hg s).bind fun p t h => .get (.ite (fun _ => ?_) fun _ => .pure h)
    refine ih.bind fun q u hu => .pure ?_
    rw [labelRegions_cons]
    exact h.append hu

theorem arrowBody_makes (hg : g.Lays raw) : Makes raw Stmt.region (arrowBody g) := by
  intro s
  unfold arrowBody
  refine .startHere (.kindAt ?_)
  split
  · exact (hg.block s).map fun b t h => block_whole h
  · exact throwStmt_makes hg s
  · refine (hg.expr s).bind fun e t h => h.filled.skip expect_crosses fun _ t h => ?_
    exact .closeStmt h (fun _ => rfl) fun _ => by simp!

theorem switchCase_fills (hg : g.Lays raw) : Fills raw (fun c => caseRegions [c]) (switchCase g) := by
  intro s
  unfold switchCase
  refine .get (.ite (fun _ => .expected) fun _ => ?_)
  refine (caseLabelsUpTo_fills hg s.budget).bind fun p t h => ?_
  refine .iteJoin (fun body u => Crossed t u (Stmt.regions body)) (fun _ => ?_) (fun _ => ?_)
    fun body u hu => ?_
  · refine (arrowBody_makes hg t).map fun st u hu => ?_
    simpa! [List.singleton] using Crossed.go hu.filled
  · simp only [← Stmt.regions_eq]
    exact many_crosses fun s _ => hg.stmt.fills s
  · refine .rangeFrom (h.then_ hu) fun hwhole => .pure ?_
    simp! only
    exact (hwhole (.detail _ _) rfl rfl).filled

theorem switchCases_makes (hg : g.Lays raw) :
    Makes raw (fun p => .detail p.1 (caseRegions p.2)) (switchCases g) := by
  intro s
  unfold switchCases
  refine .startHere ((expect_fills (by decide)).bind fun _ t h => ?_)
  refine h.read (many_crosses fun s _ => switchCase_fills hg s) fun cases t h => ?_
  rw [caseRegions_eq] at h
  exact h.skip expect_crosses fun _ t h => .close h (fun _ => rfl) fun _ => rfl

/-! ## All statements -/

theorem jumpLabel_crosses :
    Runs raw jumpLabel s fun label t => Crossed s t (label.toList.map Ident.region) := by
  unfold jumpLabel
  refine .ifAtJoin (fun label t => Crossed s t (label.toList.map Ident.region))
    (fun _ => ident_makes.map fun name t h => .go h.filled) (fun _ => .pure .stay) fun label t h => ?_
  refine expect_crosses.bind fun _ u hu => .pure ?_
  simpa using h.append hu

theorem wordStmt_runs (hg : g.Lays raw) :
    Runs raw (wordStmt g s.start) s fun st t => Whole s t st.region := by
  unfold wordStmt
  refine .get (.ite (fun _ => ?_) fun _ => .ite (fun hyield => ?_) fun _ => declOrExpr_runs hg)
  · refine ident_makes.bind fun label t h => h.filled.skip advance_crosses fun _ t h => ?_
    refine h.make (hg.stmt t) fun body t h => .closeStmt h (fun _ => rfl) fun _ => by simp!
  · have hword : s.kind 0 = .ident := by
      unfold State.isAtYield at hyield
      rw [Bool.and_eq_true, Bool.and_eq_true] at hyield
      exact kind_of_isWord hyield.1.1
    refine (advance_fills hword (by decide)).bind fun _ t h => h.make (hg.expr t) fun e t h => ?_
    exact h.skip expect_crosses fun _ t h => .closeStmt h (fun _ => rfl) fun _ => by simp!

theorem whileStmt_runs (hg : g.Lays raw) (hkind : s.kind 0 = .whileKw) :
    Runs raw (whileStmt g s.start) s fun st t => Whole s t st.region := by
  unfold whileStmt
  refine (advance_fills hkind (by decide)).bind fun _ t h => ?_
  refine h.read ((parenExpr_fills hg t).mono fun _ _ => .go) fun cond t h => ?_
  exact h.make (hg.stmt t) fun body t h => .closeStmt h (fun _ => rfl) fun _ => by simp!

theorem doStmt_runs (hg : g.Lays raw) (hkind : s.kind 0 = .doKw) :
    Runs raw (doStmt g s.start) s fun st t => Whole s t st.region := by
  unfold doStmt
  refine (advance_fills hkind (by decide)).bind fun _ t h => h.make (hg.stmt t) fun body t h => ?_
  refine h.skip expect_crosses fun _ t h => ?_
  refine h.read ((parenExpr_fills hg t).mono fun _ _ => .go) fun cond t h => ?_
  exact h.skip expect_crosses fun _ t h => .closeStmt h (fun _ => rfl) fun _ => by simp!

theorem returnStmt_runs (hg : g.Lays raw) (hkind : s.kind 0 = .returnKw) :
    Runs raw (returnStmt g s.start) s fun st t => Whole s t st.region := by
  unfold returnStmt
  refine (advance_fills hkind (by decide)).bind fun _ t h => ?_
  refine .ifAtJoin (fun e u => Crossed t u (optionalRegions e)) (fun _ => .pure ?_) (fun _ => ?_)
    fun e u hu => ?_
  · simpa! using Crossed.stay
  · refine (hg.expr t).map fun e u hu => ?_
    simpa! using Crossed.go hu.filled
  · refine (h.then_ hu).skip expect_crosses fun _ t h => ?_
    exact .closeStmt h (fun _ => rfl) fun _ => by simp!

theorem switchStmt_runs (hg : g.Lays raw) (hkind : s.kind 0 = .switchKw) :
    Runs raw (switchStmt g s.start) s fun st t => Whole s t st.region := by
  unfold switchStmt
  refine (advance_fills hkind (by decide)).bind fun _ t h => ?_
  refine h.read ((parenExpr_fills hg t).mono fun _ _ => .go) fun selector t h => ?_
  exact h.make (hg.switchCases t) fun p t h => .closeStmt h (fun _ => rfl) fun _ => by simp!

theorem synchronizedStmt_runs (hg : g.Lays raw) (hkind : s.kind 0 = .synchronizedKw) :
    Runs raw (synchronizedStmt g s.start) s fun st t => Whole s t st.region := by
  unfold synchronizedStmt
  refine (advance_fills hkind (by decide)).bind fun _ t h => ?_
  refine h.read ((parenExpr_fills hg t).mono fun _ _ => .go) fun lock t h => ?_
  exact h.make (hg.block t) fun body t h => .closeStmt h (fun _ => rfl) fun _ => by simp!

theorem assertStmt_runs (hg : g.Lays raw) (hkind : s.kind 0 = .assertKw) :
    Runs raw (assertStmt g s.start) s fun st t => Whole s t st.region := by
  unfold assertStmt
  refine (advance_fills hkind (by decide)).bind fun _ t h => h.make (hg.expr t) fun cond t h => ?_
  refine .ifEatJoin (fun e u => Crossed t u (optionalRegions e)) (by decide) (fun u hu => ?_)
    (fun _ => .pure ?_) fun e u hu => ?_
  · refine (hg.expr u).map fun e v hv => ?_
    simpa! using Crossed.go (hu.append hv.filled)
  · simpa! using Crossed.stay
  · refine (h.then_ hu).skip expect_crosses fun _ t h => ?_
    exact .closeStmt h (fun _ => rfl) fun _ => by simp!

theorem stmt_makes (hg : g.Lays raw) : Makes raw Stmt.region (stmt g) := by
  intro s
  unfold stmt
  refine .get ?_
  dsimp only
  split
  · exact (hg.block s).map fun b t h => block_whole h
  · rename_i hkind
    refine (advance_fills hkind (by decide)).bind fun _ t h => ?_
    exact .closeStmt h (fun _ => rfl) fun _ => by simp!
  · exact ifStmt_makes hg s
  · rename_i hkind
    exact whileStmt_runs hg hkind
  · rename_i hkind
    exact doStmt_runs hg hkind
  · exact forStmt_makes hg s
  · rename_i hkind
    exact returnStmt_runs hg hkind
  · rename_i hkind
    refine (advance_fills hkind (by decide)).bind fun _ t h => h.read jumpLabel_crosses fun label t h => ?_
    exact .closeStmt h (fun _ => rfl) fun _ => by simp!
  · rename_i hkind
    refine (advance_fills hkind (by decide)).bind fun _ t h => h.read jumpLabel_crosses fun label t h => ?_
    exact .closeStmt h (fun _ => rfl) fun _ => by simp!
  · exact throwStmt_makes hg s
  · exact tryStmt_makes hg s
  · rename_i hkind
    exact switchStmt_runs hg hkind
  · rename_i hkind
    exact .ite (fun _ => synchronizedStmt_runs hg hkind) fun _ => declOrExpr_runs hg
  · rename_i hkind
    exact assertStmt_runs hg hkind
  · exact wordStmt_runs hg
  · exact declOrExpr_runs hg

/-- The grammar of nothing parses nothing, so the induction on the depth has an empty base. -/
theorem grammar_lays (raw : List Lexeme) (n : Nat) : (grammar n).Lays raw := by
  induction n with
  | zero =>
    constructor
    case typeDecl => exact fun _ _ _ _ => .exhausted
    case classBody => exact fun _ _ => .exhausted
    case binary => exact fun _ _ => .exhausted
    case valued => exact grammar_valued 0
    all_goals exact fun _ => .exhausted
  | succ n ih =>
    exact {
      type := type_makes ih
      marker := marker_makes ih
      elementValue := elementValue_makes ih
      typeDecl := fun ms s₀ s h => typeDecl_runs ih h
      classBody := classBody_makes ih
      block := block_makes ih
      stmt := stmt_makes ih
      expr := expr_makes ih
      conditional := conditional_makes ih
      binary := binary_runs ih
      unary := unary_runs ih
      varInit := varInit_makes ih
      switchCases := switchCases_makes ih
      valued := grammar_valued (n + 1)
    }

end JavaAnalysis.Parser
