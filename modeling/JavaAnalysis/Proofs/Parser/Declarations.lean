import JavaAnalysis.Parser.Declarations
import JavaAnalysis.Proofs.Parser.Expressions

/-!
# Parsed declarations fit

Of several variables that are declared at once, the first one starts where the declaration starts,
and each ends with the comma or semicolon behind it. So what the parser takes for each of them is
recorded one by one, and put together only when it is known what stands behind the last one.
-/

set_option autoImplicit false
set_option linter.dupNamespace false

namespace JavaAnalysis.Parser

open Ast Lexeme

variable {raw : List Lexeme} {g : Grammar} {s s₀ s₁ t u : State}

/-! ## Variables -/

/-- A variable was taken, from its name to the end of its initial value. -/
def FragmentFrom (raw : List Lexeme) (s t : State) : VarFragment → Prop
  | .mk range name brackets init =>
    Takes raw s t (.name name :: (bracketShapes brackets ++ optionalShapes init)) ∧
      range = ⟨s.start, t.previousStop⟩ ∧
      ∃ u, Named raw s u name ∧ Traced raw u t (bracketShapes brackets ++ optionalShapes init)

/-- Variables were taken, with a comma between each and the next. -/
inductive Fragments (raw : List Lexeme) : State → List VarFragment → State → Prop where
  | last {s t : State} {f : VarFragment} : FragmentFrom raw s t f → Fragments raw s [f] t
  | more {s t u v : State} {f : VarFragment} {fs : List VarFragment} : FragmentFrom raw s t f →
    Took raw t u .comma → Fragments raw u fs v → Fragments raw s (f :: fs) v

namespace FragmentFrom

variable {f : VarFragment}

theorem moved (h : FragmentFrom raw s t f) : Moved raw s t := by
  obtain ⟨range, name, brackets, init⟩ := f
  exact h.1.step

theorem anchored (h : FragmentFrom raw s t f) : Anchored raw s.start t.previousStop none := by
  obtain ⟨range, name, brackets, init⟩ := f
  exact h.1.anchored

theorem range_eq (h : FragmentFrom raw s t f) : f.range = ⟨s.start, t.previousStop⟩ := by
  obtain ⟨range, name, brackets, init⟩ := f
  exact h.2.1

end FragmentFrom

namespace Fragments

variable {fs : List VarFragment}

theorem moved (h : Fragments raw s fs t) : Moved raw s t := by
  induction h with
  | last hf => exact hf.moved
  | more hf hcomma _ ih => exact (hf.moved.trans hcomma.step.toMoved).trans ih

theorem at_ (h : Fragments raw s fs t) : At raw t := h.moved.at_

theorem ne_nil (h : Fragments raw s fs t) : fragmentShapes fs ≠ [] := by
  cases h with
  | @last _ _ f _ =>
    obtain ⟨range, name, brackets, init⟩ := f
    simp! only
    exact List.cons_ne_nil _ _
  | @more _ _ _ _ f _ hf _ _ =>
    obtain ⟨range, name, brackets, init⟩ := f
    simp! only
    exact List.cons_ne_nil _ _

/-- The next variable starts where the parser stands. -/
theorem nextStart_eq (h : Fragments raw s fs t) (stop : Nat) :
    nextStart stop (fragmentShapes fs) = s.start := by
  cases h with
  | @last _ _ f hf =>
    obtain ⟨range, name, brackets, init⟩ := f
    simp! only [nextStart, hf.2.1]
  | @more _ _ _ _ f _ hf _ _ =>
    obtain ⟨range, name, brackets, init⟩ := f
    simp! only [nextStart, hf.2.1]

theorem getLast?_eq (h : Fragments raw s fs t) :
    ∃ f, fs.getLast? = some f ∧ f.range.stop = t.previousStop := by
  induction h with
  | @last s t f hf => exact ⟨f, rfl, by rw [hf.range_eq]⟩
  | @more s t u v f fs _ _ hfs ih =>
    obtain ⟨last, hlast, hstop⟩ := ih
    refine ⟨last, ?_, hstop⟩
    cases fs with
    | nil => cases hlast
    | cons f' fs => rwa [List.getLast?_cons_cons]

/-- The variables tell of their declarations, wherever the first of them starts. -/
theorem trail (h : Fragments raw s fs t) (terminated : Bool) (start : Nat) :
    Trail raw s t (variableSites terminated start (fragmentShapes fs)) := by
  have hone : ∀ {s t : State} {range : TextRange} {name : Ident} {brackets : List TextRange}
      {init : Option Expr} (site : Site), FragmentFrom raw s t (.mk range name brackets init) →
      site.key? = some name.range.start →
      Trail raw s t (shapeSites (bracketShapes brackets ++ optionalShapes init) ++ [site]) := by
    intro s t range name brackets init site hf hkey
    obtain ⟨-, -, u, hname, hinside⟩ := hf
    have hall := hname.declared (.refl raw s) hinside.trail site hkey
    rwa [List.nil_append] at hall
  induction h generalizing start with
  | @last s t f hf =>
    obtain ⟨range, name, brackets, init⟩ := f
    simp! only [variableSites]
    exact hone _ hf rfl
  | @more s t u v f fs hf hcomma _ ih =>
    obtain ⟨range, name, brackets, init⟩ := f
    simp! only [variableSites]
    have hfront := (hone (.fragment ⟨start, range.stop⟩
      (separatorOf (fragmentShapes fs).isEmpty terminated) name.range.start) hf rfl).append
      hcomma.step.trail
    rw [List.append_nil] at hfront
    have hall := hfront.append (ih (nextStart range.stop (fragmentShapes fs)))
    rwa [List.append_assoc] at hall

theorem ranged (h : Fragments raw s fs t) {start : Nat} (hstart : start ≤ s.start) :
    ∀ range ∈ variableRanges start (fragmentShapes fs), range.start ≤ range.stop := by
  have hone : ∀ {s t : State} {range : TextRange} {name : Ident} {brackets : List TextRange}
      {init : Option Expr} {start : Nat}, FragmentFrom raw s t (.mk range name brackets init) →
      start ≤ s.start → start ≤ range.stop ∧ name.range.start ≤ name.range.stop ∧
        WellRanged (bracketShapes brackets ++ optionalShapes init) := by
    intro s t range name brackets init start hf hstart
    obtain ⟨htakes, hrange, u, hname, hinside⟩ := hf
    refine ⟨?_, wellRanged_name.1 hname.name.traced.ranged, hinside.ranged⟩
    rw [hrange]
    exact Nat.le_trans hstart htakes.le
  induction h generalizing start with
  | @last s t f hf =>
    obtain ⟨range, name, brackets, init⟩ := f
    obtain ⟨hle, hname, hinside⟩ := hone hf hstart
    simp! only [variableRanges, List.append_nil, List.forall_mem_cons]
    exact ⟨hle, hname, hinside⟩
  | @more s t u v f fs hf hcomma hfs ih =>
    obtain ⟨range, name, brackets, init⟩ := f
    obtain ⟨hle, hname, hinside⟩ := hone hf hstart
    simp! only [variableRanges, List.cons_append, List.forall_mem_cons, List.forall_mem_append]
    exact ⟨hle, hname, hinside, ih (Nat.le_of_eq (hfs.nextStart_eq _))⟩

/--
Variables fit when it is known how the last one ends. The induction is on the variables that follow:
each of them starts at its own name, and only the first may start earlier.
-/
theorem fit {terminated : Bool} {start lo hi : Nat} (h : Fragments raw s fs t)
    (hstart : start = s.start ∨ Anchored raw start s.start none) (hlo : lo ≤ s.start)
    (hhi : t.previousStop ≤ hi)
    (hend : ∀ range : TextRange, range.stop = t.previousStop →
      FragmentEnd raw range true terminated hi) :
    FragmentsFit raw terminated (fragmentShapes fs) start lo hi := by
  have hanchored : ∀ {stop : Nat}, Anchored raw s.start stop none → Anchored raw start stop none := by
    intro stop hstop
    rcases hstart with rfl | hstart
    · exact hstop
    · exact hstart.mono hstop.le
  induction h generalizing start lo with
  | @last s t f hf =>
    obtain ⟨range, name, brackets, init⟩ := f
    obtain ⟨htakes, hrange, -⟩ := hf
    have hplaced := Placed.mono _ hlo hhi htakes.placed
    simp only [Placed, Shape.name, Fits] at hplaced
    obtain ⟨mid, -, hmid, hname, hinside⟩ := hplaced
    simp! only [FragmentsFit, List.isEmpty_nil, nextStart]
    refine ⟨hi, Nat.le_refl _, hend range (by rw [hrange]), (hanchored htakes.anchored).mono hhi,
      ⟨mid, hmid, hname, hinside⟩, Nat.le_refl _, trivial⟩
  | @more s t u v f fs hf hcomma hfs ih =>
    obtain ⟨range, name, brackets, init⟩ := f
    obtain ⟨htakes, hrange, -⟩ := hf
    have hle := hcomma.step.previousStop_le
    have hplaced := Placed.mono _ hlo hle htakes.placed
    simp only [Placed, Shape.name, Fits] at hplaced
    obtain ⟨mid, -, hmid, hname, hinside⟩ := hplaced
    obtain ⟨x, hx, hstop⟩ := hcomma.follows
    have hlater : u.previousStop ≤ hi := Nat.le_trans hfs.moved.previousStop_le hhi
    have hfragment : FragmentEnd raw range false terminated u.previousStop := by
      unfold FragmentEnd
      rw [hrange]
      simp only [Bool.false_and, Bool.false_eq_true, if_false]
      exact ⟨x, hx, hstop.symm⟩
    simp! only [FragmentsFit, List.isEmpty_eq_false_iff.2 hfs.ne_nil, hfs.nextStart_eq]
    refine ⟨u.previousStop, hlater, hfragment, (hanchored htakes.anchored).mono hle,
      ⟨mid, hmid, hname, hinside⟩, hcomma.step.at_.previousStop_le, ?_⟩
    exact ih (.inl rfl) (Nat.le_refl _) hhi hend id

variable {ms : List Modifier} {ty : TypeRef}

/-- A declaration of variables fits when it is known how the last of them ends. -/
theorem declares (h : Fragments raw s fs t)
    (hms : Reads raw s₀ s₁ (modifierShapes ms (markerShapes ms)))
    (hty : Takes raw s₁ s [ty.shape]) (hstep : Step raw t u)
    (hend : ∀ range : TextRange, range.stop = t.previousStop →
      FragmentEnd raw range true (isTerminated ⟨s₀.start, u.previousStop⟩ fs) u.previousStop) :
    Takes raw s₀ u [(VarDecl.mk ⟨s₀.start, u.previousStop⟩ ms ty fs).shape] := by
  have hfront := hty.after hms
  have hmoved := hfront.step.trans (h.moved.trans hstep.toMoved)
  have hanchored := hfront.anchored.mono (h.moved.trans hstep.toMoved).previousStop_le
  refine ⟨hmoved, hanchored, .singleton ?_ hanchored.le, ?_, ?_⟩
  · simp! only [Fits]
    refine ⟨Nat.le_refl _, h.ne_nil, s₁.start, s.previousStop,
      hms.step.start_le, ?_, hty.le, hty.fits, ?_⟩
    · exact Placed.mono _ (Nat.le_refl _) hms.step.at_.previousStop_le hms.placed
    · have hle := hty.at_.previousStop_le
      exact h.fit (.inr (hfront.anchored.mono hle)) hle hstep.previousStop_le hend
  · have hall := (hfront.traced.trail.append
      (h.trail (isTerminated ⟨s₀.start, u.previousStop⟩ fs) s₀.start)).append hstep.trail
    simpa! [Shape.sites, List.isEmpty_eq_false_iff.2 h.ne_nil] using hall
  · have hranged := wellRanged_append.1 hfront.traced.ranged
    have hvariables := h.ranged (Nat.le_trans hms.step.start_le hty.step.start_le)
    simp! only [WellRanged, shapeRanges_cons, shapeRanges_nil, Shape.ranges, List.append_nil,
      List.forall_mem_append] at hranged ⊢
    exact ⟨hranged, hvariables⟩

/-- The semicolon behind the variables is part of the last of them. -/
theorem declares_terminated (hs : Significant raw) (h : Fragments raw s fs t)
    (hms : Reads raw s₀ s₁ (modifierShapes ms (markerShapes ms))) (hty : Takes raw s₁ s [ty.shape])
    (hsemicolon : Took raw t u .semicolon) :
    Takes raw s₀ u [(VarDecl.mk ⟨s₀.start, u.previousStop⟩ ms ty fs).shape] := by
  obtain ⟨x, hx, hstop⟩ := hsemicolon.follows
  have hlt : t.previousStop < u.previousStop := by
    have hnonempty := hs.nonempty x hx.mem (ne_endOfFile_of_isFirm hx.firm)
    have hle := hx.le_start
    omega
  have hterminated : isTerminated ⟨s₀.start, u.previousStop⟩ fs = true := by
    obtain ⟨f, hlast, hf⟩ := h.getLast?_eq
    simp only [isTerminated, hlast, Option.any_some, hf, hlt, decide_true]
  refine h.declares hms hty hsemicolon.step fun range hrange => ?_
  unfold FragmentEnd
  rw [hterminated, hrange]
  simp only [Bool.not_true, Bool.and_false, Bool.false_eq_true, if_false, if_true]
  exact ⟨x, hx, hstop.symm⟩

/-- The declaration ends with the last of its variables. -/
theorem declares_bare (h : Fragments raw s fs t)
    (hms : Reads raw s₀ s₁ (modifierShapes ms (markerShapes ms)))
      (hty : Takes raw s₁ s [ty.shape]) :
    Takes raw s₀ t [(VarDecl.mk ⟨s₀.start, t.previousStop⟩ ms ty fs).shape] := by
  have hbare : isTerminated ⟨s₀.start, t.previousStop⟩ fs = false := by
    obtain ⟨f, hlast, hf⟩ := h.getLast?_eq
    simp only [isTerminated, hlast, Option.any_some, hf, Nat.lt_irrefl, decide_false]
  refine h.declares hms hty (.refl h.at_) fun range hrange => ?_
  unfold FragmentEnd
  rw [hbare, hrange]
  simp only [Bool.not_false, Bool.and_true, if_true]

end Fragments

/-- A variable from its name to where the parser stands. -/
theorem Named.fragment {name : Ident} {pairs : List TextRange} {init : Option Expr}
    (h : Named raw s t name)
    (hinside : Takes raw s u (.name name :: (bracketShapes pairs ++ optionalShapes init)))
    (htraced : Traced raw t u (bracketShapes pairs ++ optionalShapes init)) :
    FragmentFrom raw s u (.mk (u.rangeFrom name.range.start) name pairs init) := by
  rw [h.start_eq, hinside.rangeFrom_eq]
  exact ⟨hinside, rfl, t, h, htraced⟩

theorem varFragment_ensures (hs : Significant raw) (hg : g.Sound raw) {name : Ident}
    (h : Named raw s₀ s name) :
    Ensures (varFragment g name) s fun f t => FragmentFrom raw s₀ t f := by
  unfold varFragment
  refine (brackets_ensures hs h.at_).bind ?_
  intro pairs t₁ h₁
  -- The `=` may be what is left of a closing angle bracket, so it is no place to start from.
  refine (eat_step hs h₁.reads.step.at_).bind ?_
  rintro _ t₂ ⟨h₂, -⟩
  have hfront := (h.name.append h₁.reads).skip h₂
  have htraced := h₁.reads.traced.skip h₂.trail
  refine iteJoin (fun o t => Takes raw s₀ t
    (.name name :: (bracketShapes pairs ++ optionalShapes o)) ∧
    Traced raw s t (bracketShapes pairs ++ optionalShapes o))
    (fun _ => ?_) (fun _ => .pure ?_) fun init t₃ h₃ => rangeFrom_bind (.pure ?_)
  · refine (hg.varInit t₂ h₂.at_).map ?_
    rintro e u ⟨he, -⟩
    exact ⟨hfront.append he.some_expr.reads, htraced.append he.some_expr.traced⟩
  · simp! only [List.append_nil]
    exact ⟨hfront, htraced⟩
  · exact h.fragment h₃.1 h₃.2

theorem separatedFragments_ensures (hs : Significant raw) (hg : g.Sound raw) (n : Nat)
    (h : At raw s) :
    Ensures (separatedUpTo .comma (do varFragment g (← ident)) n) s
      fun fs t => Fragments raw s fs t := by
  induction n generalizing s with
  | zero => exact exhausted_ensures
  | succ n ih =>
    unfold separatedUpTo
    have hitem : Ensures (do varFragment g (← ident)) s fun f t => FragmentFrom raw s t f :=
      (ident_ensures hs h).bind fun name t hname => varFragment_ensures hs hg hname
    refine hitem.bind fun f t hf => ?_
    refine ifEat hs hf.moved.at_ rfl (fun u hu => ?_) fun _ => .pure (.last hf)
    exact (ih hu.step.at_).bind fun fs v hfs => .pure (.more hf hu hfs)

theorem varFragments_ensures (hs : Significant raw) (hg : g.Sound raw) {first : Ident}
    (h : Named raw s₀ s first) :
    Ensures (varFragments g first) s fun fs t => Fragments raw s₀ fs t := by
  unfold varFragments
  refine (varFragment_ensures hs hg h).bind ?_
  intro f t hf
  have hmore : Ensures (moreFragments g) t fun fs u =>
      fs = [] ∧ u = t ∨ ∃ v, Took raw t v .comma ∧ Fragments raw v fs u := by
    unfold moreFragments
    refine ifEat hs hf.moved.at_ rfl (fun v hv => ?_) fun _ => .pure (.inl ⟨rfl, rfl⟩)
    exact Ensures.get ((separatedFragments_ensures hs hg v.budget hv.step.at_).mono
      fun fs u hfs => .inr ⟨v, hv, hfs⟩)
  refine hmore.bind fun fs u hfs => .pure ?_
  rcases hfs with ⟨rfl, rfl⟩ | ⟨v, hv, hfs⟩
  · exact .last hf
  · exact .more hf hv hfs

theorem varDecl_ensures (hs : Significant raw) (hg : g.Sound raw)
    {ms : List Modifier} {ty : TypeRef}
    {first : Ident} (hms : Reads raw s₀ s₁ (modifierShapes ms (markerShapes ms)))
    (hty : Takes raw s₁ s [ty.shape]) (h : Named raw s t first) :
    Ensures (varDecl g s₀.start ms ty first) t fun d u => Takes raw s₀ u [d.shape] := by
  unfold varDecl
  refine (varFragments_ensures hs hg h).bind ?_
  intro fs t₁ h₁
  refine (expect_took hs h₁.at_ rfl).bind ?_
  rintro _ t₂ ⟨h₂, -⟩
  apply rangeFrom_bind
  apply Ensures.pure
  have hwhole := h₁.declares_terminated hs hms hty h₂
  rw [hwhole.rangeFrom_eq]
  exact hwhole

/-! ## Methods and constructors -/

/-- A declaration whose type, if it has one, stands behind its modifiers. -/
theorem Named.typedShape {kind : NodeKind} {name : Ident} {before after : List Shape} {v : State}
    {returnType : Option TypeRef} (h : Named raw t u name) (hbefore : Reads raw s₀ s before)
    (htype : Perhaps s (fun t ty => Takes raw s t [ty.shape]) returnType t)
    (hafter : Reads raw u v after) (hangled : kind.isAngled = false) :
    Takes raw s₀ v [Ast.typedShape (.declaring kind (v.rangeFrom s₀.start) name.range.start) before
      returnType none (.name name :: after)] := by
  cases returnType with
  | none =>
    cases htype
    exact h.declaring hbefore hafter kind hangled
  | some ty =>
    have hwhole := (Takes.append htype (h.name.append hafter).reads).after hbefore
    refine h.typed hbefore htype hafter hwhole.rangeFrom_eq ?_ rfl
    simp [NodeSpec.sites, NodeSpec.declaring, NodeSpec.plain, angledSites, hangled]

theorem methodRest_ensures (hs : Significant raw) (hg : g.Sound raw) {ms : List Modifier}
    {typeParams : Option TextRange × List TypeParam} {returnType : Option TypeRef} {name : Ident}
    (hbefore : Reads raw s₀ s₁ (modifierShapes ms (markerShapes ms) ++
      listShapes .typeParameters typeParams.1 (typeParamShapes typeParams.2)))
    (htype : Perhaps s₁ (fun t ty => Takes raw s₁ t [ty.shape]) returnType s)
    (h : Named raw s t name) :
    Ensures (methodRest g s₀.start ms typeParams returnType name) t fun d u =>
      Takes raw s₀ u [d.shape] := by
  unfold methodRest
  refine (formalParams_ensures hs hg h.at_).bind ?_
  intro p t₁ h₁
  refine (brackets_ensures hs h₁.at_).bind ?_
  intro pairs t₂ h₂
  refine ifEatJoin (fun thrown t => Reads raw t₂ t (clauseShapes .throwing .throwsKw thrown)) hs
    h₂.reads.step.at_ rfl (fun v hv => ?_)
      (fun _ => .pure (.nil h₂.reads.step.at_)) fun thrown t₃ h₃ => ?_
  · exact clause_ensures hs hg .throwing hv
  refine exprBehind_ensures hs h₃.step.at_ rfl hg.elementValue fun defaultValue t₄ h₄ => ?_
  have hfront := ((h₁.reads.append h₂.reads).append h₃).append h₄
  have hdecl : ∀ (body : Option Block) u, Reads raw t₄ u (blockShapes body) →
      Takes raw s₀ u [(MethodDecl.mk (u.rangeFrom s₀.start) ms
        typeParams.1 typeParams.2 returnType name
        (some p.1) p.2 pairs thrown defaultValue body).shape] := by
    intro body u hbody
    simp! only
    refine h.typedShape hbefore htype (hfront.append hbody) ?_
    cases returnType <;> rfl
  refine ifAt (fun _ => ?_) fun _ => ?_
  · refine (hg.block t₄ h₄.step.at_).bind ?_
    rintro body t₅ ⟨h₅, -⟩
    refine rangeFrom_bind (.pure (hdecl _ _ ?_))
    simp! only
    exact h₅.reads
  · refine (expect_took hs h₄.step.at_ rfl).bind ?_
    rintro _ t₅ ⟨h₅, -⟩
    refine rangeFrom_bind (.pure (hdecl _ _ ?_))
    simp! only
    exact h₅.takes.reads

/-! ## Members -/

theorem memberRest_ensures (hs : Significant raw) (hg : g.Sound raw) {owner : TypeDeclKind}
    {ms : List Modifier} {typeParams : Option TextRange × List TypeParam}
    (hbefore : Reads raw s₀ s (modifierShapes ms (markerShapes ms) ++
      listShapes .typeParameters typeParams.1 (typeParamShapes typeParams.2)))
    (hnone : typeParams.1 = none → typeParams.2 = []) :
    Ensures (memberRest g owner s₀.start ms typeParams) s fun m t =>
      Takes raw s₀ t (Member.shapes [m]) := by
  have htype : Perhaps s (fun t ty => Takes raw s t [ty.shape]) (none : Option TypeRef) s := rfl
  unfold memberRest
  apply Ensures.get
  refine Ensures.ite (fun _ => ?_) fun _ => .ite (fun _ => ?_) fun _ => ?_
  · refine (ident_ensures hs hbefore.step.at_).bind ?_
    intro name t₁ h₁
    refine (methodRest_ensures hs hg hbefore htype h₁).map ?_
    intro d t hd
    simp! only
    exact hd
  · refine (ident_ensures hs hbefore.step.at_).bind ?_
    intro name t₁ h₁
    refine (hg.block t₁ h₁.at_).bind ?_
    rintro body t₂ ⟨h₂, -⟩
    apply rangeFrom_bind
    apply Ensures.pure
    simp! only
    refine h₁.typedShape hbefore htype ?_ rfl
    simp! only [listShapes, bracketShapes, List.map_nil, clauseShapes]
    exact h₂.reads
  · refine (type_parses hs hg s hbefore.step.at_).bind ?_
    rintro ty t₁ ⟨h₁, -⟩
    refine (ident_ensures hs h₁.at_).bind ?_
    intro name t₂ h₂
    refine ifAt (fun _ => ?_) fun _ => .ite (fun _ => expected_ensures) fun hsome => ?_
    · have htype : Perhaps s (fun t ty => Takes raw s t [ty.shape]) (some ty) t₁ := h₁
      refine (methodRest_ensures hs hg hbefore htype h₂).map ?_
      intro d t hd
      simp! only
      exact hd
    · have hbare := Option.not_isSome_iff_eq_none.1 hsome
      rw [hbare, hnone hbare] at hbefore
      simp! only [listShapes, List.append_nil] at hbefore
      refine (varDecl_ensures hs hg hbefore h₁ h₂).map ?_
      intro d t hd
      simp! only
      exact hd

theorem member?_ensures (hs : Significant raw) (hg : g.Sound raw) {owner : TypeDeclKind}
    (h : At raw s) :
    Ensures (member? g owner) s fun o t => Takes raw s t (Member.shapes o.toList) := by
  unfold member?
  apply Ensures.get
  dsimp only
  refine ifEat hs h rfl (fun t ht => .pure ?_) fun _ => .ite (fun _ => ?_) fun _ => ?_
  · simp! only [Option.toList_none]
    exact ht.takes
  · refine (eat_reads hs h rfl).bind ?_
    intro isStatic t₁ h₁
    refine (hg.block t₁ h₁.step.at_).bind ?_
    rintro body t₂ ⟨h₂, -⟩
    apply rangeFrom_bind
    apply Ensures.pure
    have hwhole := h₂.after h₁
    rw [hwhole.rangeFrom_eq]
    simp! only [Option.toList_some]
    refine hwhole.plain _ ?_
    cases isStatic <;> rfl
  · refine (modifiers_reads hs hg h).bind ?_
    intro ms t₁ h₁
    apply Ensures.get
    refine Ensures.ite (fun _ => ?_) fun _ => ?_
    · refine (hg.typeDecl ms s t₁ h₁).bind ?_
      intro d t₂ h₂
      apply Ensures.pure
      simp! only [Option.toList_some]
      exact h₂
    · refine (typeParams_ensures hs hg h₁.step.at_).bind ?_
      rintro tps t₂ ⟨h₂, hnone⟩
      exact (memberRest_ensures hs hg (h₁.append h₂) hnone).map fun m t hm => hm

theorem members_reads (hs : Significant raw) (hg : g.Sound raw) {owner : TypeDeclKind}
    (h : At raw s) :
    Ensures (members g owner) s fun ms t => Reads raw s t (Member.shapes ms) := by
  unfold members
  refine (many_reads (fun s hat _ => member?_ensures hs hg hat) h).bind ?_
  intro all t hall
  apply Ensures.pure
  rw [← Member.flatMap_filterMap]
  exact hall

theorem classBody_ensures (hs : Significant raw) (hg : g.Sound raw) (kind : TypeDeclKind)
    (h : At raw s) : Ensures (classBody g kind) s fun b t => BodyFrom raw s t b := by
  unfold classBody
  apply startHere_bind
  refine (expect_took hs h rfl).bind ?_
  rintro _ t₁ ⟨h₁, -⟩
  refine (members_reads hs hg h₁.step.at_).bind ?_
  intro ms t₂ h₂
  refine (expect_step hs h₂.step.at_).bind ?_
  intro _ t₃ h₃
  apply rangeFrom_bind
  apply Ensures.pure
  have hwhole := (h₁.takes.append h₂).skip h₃
  have hinside : bodyShapes (.mk (t₃.rangeFrom s.start) [] ms) = Member.shapes ms := by
    simp! only [bodyShapes, List.nil_append]
  refine ⟨?_, hwhole.rangeFrom_eq, t₁, h₁, ?_⟩
  · rw [hinside]
    exact hwhole
  · rw [hinside]
    exact h₂.traced.skip h₃.trail

/-! ## Enums -/

theorem enumConstant_ensures (hs : Significant raw) (hg : g.Sound raw) (h : At raw s) :
    Ensures (enumConstant g) s fun c t => Takes raw s t (constantShapes [c]) := by
  unfold enumConstant
  apply startHere_bind
  refine (modifiers_reads hs hg h).bind ?_
  intro ms t₁ h₁
  refine (ident_ensures hs h₁.step.at_).bind ?_
  intro name t₂ h₂
  apply isAt_bind
  refine Ensures.meet (fun args t => Reads raw t₂ t (listShapes .arguments args.1 (Expr.shapes
    args.2))) (fun args t₃ h₃ => ?_) (fun _ => .pure ?_) fun _ hrest => ?_
  · obtain ⟨argsRange, args⟩ := args
    refine (classBody?_ensures hg h₃.step.at_).bind ?_
    intro body t₄ h₄
    apply rangeFrom_bind
    apply Ensures.pure
    have hwhole := h₂.declaring h₁ (h₃.append h₄) .enumConstant rfl
    simp! only [List.append_assoc, List.cons_append]
    exact hwhole
  · simp! only [listShapes]
    exact .nil h₂.at_
  · refine (arguments_ensures hs hg h₂.at_).bind ?_
    intro p t₃ h₃
    exact hrest (some p.1, p.2) t₃ h₃.reads

theorem enumBody_ensures (hs : Significant raw) (hg : g.Sound raw) (h : At raw s) :
    Ensures (enumBody g) s fun b t => BodyFrom raw s t b := by
  unfold enumBody
  apply startHere_bind
  refine (expect_took hs h rfl).bind ?_
  rintro _ t₁ ⟨h₁, -⟩
  dsimp only
  refine (terminated_reads hs rfl (fun s hat => enumConstant_ensures hs hg hat) h₁.step.at_).bind ?_
  intro cs t₂ h₂
  refine ifEatJoin (fun ms t => Reads raw t₂ t (Member.shapes ms)) hs h₂.step.at_ rfl
    (fun t ht => ?_) (fun _ => .pure ?_) fun ms t₃ h₃ => ?_
  · exact (members_reads hs hg ht.step.at_).mono fun ms u hms => (ht.takes.append hms).reads
  · simp! only
    exact .nil h₂.step.at_
  · refine (expect_step hs h₃.step.at_).bind ?_
    intro _ t₄ h₄
    apply rangeFrom_bind
    apply Ensures.pure
    rw [constantShapes_eq] at h₂
    have hwhole := ((h₁.takes.append h₂).append h₃).skip h₄
    have hinside : bodyShapes (.mk (t₄.rangeFrom s.start) cs ms) =
        constantShapes cs ++ Member.shapes ms := by
      simp only [bodyShapes]
    refine ⟨?_, hwhole.rangeFrom_eq, t₁, h₁, ?_⟩
    · rw [hinside]
      exact hwhole
    · rw [hinside]
      exact (h₂.append h₃).traced.skip h₄.trail

/-! ## Types -/

theorem isFirm_of_typeDeclAhead? {kind : TypeDeclKind} {n : Nat}
    (h : s.typeDeclAhead? = some (kind, n)) : (∃ k, n = k + 1) ∧ (s.kind 0).isFirm = true := by
  unfold State.typeDeclAhead? at h
  split at h
  · rename_i hkind
    cases h
    exact ⟨⟨0, rfl⟩, by rw [hkind]; rfl⟩
  · rename_i hkind
    cases h
    exact ⟨⟨0, rfl⟩, by rw [hkind]; rfl⟩
  · rename_i hkind
    cases h
    exact ⟨⟨0, rfl⟩, by rw [hkind]; rfl⟩
  · rename_i hkind
    split at h
    · cases h
      exact ⟨⟨1, rfl⟩, by rw [hkind]; rfl⟩
    · cases h
  · rename_i hkind
    split at h
    · cases h
      exact ⟨⟨0, rfl⟩, by rw [hkind]; rfl⟩
    · cases h
  · cases h

variable {ms : List Modifier} {kind : TypeDeclKind} {name : Ident}
    {typeParamsRange : Option TextRange}
  {typeParams : List TypeParam} {componentsRange : Option TextRange} {components : List Param}
  {supers interfaces permitted : List TypeRef}

/-- The last constant of an enum ends inside its body. -/
theorem stop_le_of_constants {cs : List EnumConstant} {c : EnumConstant} {others : List Shape}
    {lo hi : Nat} (h : Placed raw (constantShapes cs ++ others) lo hi) (hc : c ∈ cs) :
    c.range.stop ≤ hi := by
  induction cs generalizing lo with
  | nil => cases hc
  | cons c' cs ih =>
    obtain ⟨range, ms, name, argsRange, args, body⟩ := c'
    simp! only [List.cons_append, Placed, Fits] at h
    obtain ⟨mid, -, hmid, ⟨hranged, -⟩, hothers⟩ := h
    rcases List.mem_cons.1 hc with rfl | hc
    · exact Nat.le_trans hranged.2.1 hmid
    · exact ih hothers hc

/-- The separator of an enum is looked for in a range that ends where it starts, or later. -/
theorem BodyFrom.bodyGaps {body : ClassBody} (h : BodyFrom raw s t body) (kind : TypeDeclKind) :
    ∀ r ∈ (bodyGaps kind body.range body.constants body.members).ranges, r.start ≤ r.stop := by
  obtain ⟨range, constants, members⟩ := body
  unfold Ast.bodyGaps
  split
  · simp only [GapRule.ranges, List.forall_mem_singleton, ClassBody.range, ClassBody.constants]
    have hrange := h.range_eq
    simp only [ClassBody.range] at hrange
    cases hlast : constants.getLast? with
    | none =>
      simp only [Option.map_none, Option.getD_none, hrange]
      exact h.takes.le
    | some c =>
      simp only [Option.map_some, Option.getD_some, hrange]
      have hplaced := h.takes.placed
      simp only [bodyShapes] at hplaced
      exact stop_le_of_constants hplaced (List.mem_of_getLast? hlast)
  · intro r hr
    cases hr

/-- A type declaration fits when what is in front of its body does, and its body. -/
theorem typeDecl_takes {body : ClassBody} {s₂ : State}
    (hms : Reads raw s₀ s (modifierShapes ms (markerShapes ms))) (hname : Named raw s s₁ name)
    (h : Reads raw s₁ s₂ (listShapes .typeParameters typeParamsRange (typeParamShapes typeParams) ++
      listShapes .parameterList componentsRange (Param.shapes components) ++
      clauseShapes .extending .extendsKw supers ++
      clauseShapes .implementing .implementsKw interfaces ++
      clauseShapes .permitting .ident permitted))
    (hbody : BodyFrom raw s₂ t body) :
    Takes raw s₀ t [(TypeDecl.mk (t.rangeFrom s₀.start) kind ms name typeParamsRange typeParams
      componentsRange components supers interfaces permitted body).shape] := by
  have hgaps := hbody.bodyGaps kind
  obtain ⟨bodyRange, constants, members⟩ := body
  have hafter := h.append hbody.takes.body.reads
  have hwhole := (hname.name.append hafter).after hms
  rw [hwhole.rangeFrom_eq]
  have hnode := @Named.declares raw s₀ s s₁ name t _ _ ⟨kind.node, ⟨s₀.start, t.previousStop⟩, none,
    Ast.bodyGaps kind bodyRange constants members, some name.range.start⟩ hname hms hafter rfl rfl
    (by cases kind <;> rfl) hgaps
  simp only [List.append_assoc] at hnode
  simp! only [List.append_assoc, List.cons_append]
  exact hnode

theorem typeDecl_ensures (hs : Significant raw) (hg : g.Sound raw)
    (h : Reads raw s₀ s (modifierShapes ms (markerShapes ms))) :
    Ensures (typeDecl g s₀.start ms) s fun d t => Takes raw s₀ t [d.shape] := by
  unfold typeDecl
  apply Ensures.get
  split
  · exact expected_ensures
  rename_i kind n hahead
  obtain ⟨⟨k, rfl⟩, hfirm⟩ := isFirm_of_typeDeclAhead? hahead
  refine (advanceBy_takes hs k h.step.at_ hfirm).bind ?_
  intro _ t₁ h₁
  refine (ident_ensures hs h₁.at_).bind ?_
  intro name t₂ h₂
  refine (typeParams_ensures hs hg h₂.at_).bind ?_
  rintro tps t₃ ⟨htps, -⟩
  obtain ⟨typeParamsRange, typeParams⟩ := tps
  have hms := (h₁.after h).reads
  rw [List.append_nil] at hms
  refine .meet (fun cs t => Reads raw t₃ t (listShapes .parameterList cs.1 (Param.shapes cs.2)))
    (fun cs t₄ h₄ => ?_) (fun _ => .pure ?_) fun _ hrest => ?_
  rotate_left
  · simp! only [listShapes]
    exact .nil htps.step.at_
  · refine (formalParams_ensures hs hg htps.step.at_).bind ?_
    intro p t₄ h₄
    exact hrest (some p.1, p.2) t₄ h₄.reads
  obtain ⟨componentsRange, components⟩ := cs
  have hcomponents := htps.append h₄
  -- Each clause is read where its word stands; a clause that is left out leaves no shape.
  refine ifEatMeet (fun ts t => Reads raw t₄ t (clauseShapes .extending .extendsKw ts)) hs
    hcomponents.step.at_ rfl (fun supers t₅ h₅ => ?_) (fun _ => .pure (.nil hcomponents.step.at_))
    fun u hu hrest => iteJoin _ (fun _ => ?_) (fun _ => ?_) hrest
  rotate_left
  · exact clause_ensures hs hg .extending hu
  · refine (hg.type u hu.step.at_).map ?_
    rintro ty v ⟨hty, hrange⟩
    refine (hu.clause _ ?_ (.single hrange)).reads
    rw [← TypeRef.shapes_eq]
    exact hty
  have hsupers := hcomponents.append h₅
  refine ifEatJoin (fun ts t => Reads raw t₅ t (clauseShapes .implementing .implementsKw ts)) hs
    hsupers.step.at_ rfl (fun u hu => ?_) (fun _ => .pure (.nil hsupers.step.at_)) fun interfaces t₆ h₆ => ?_
  · exact clause_ensures hs hg .implementing hu
  have hinterfaces := hsupers.append h₆
  apply Ensures.get
  refine Ensures.meet (fun ts t => Reads raw t₆ t (clauseShapes .permitting .ident ts))
    (fun permitted t₇ h₇ => ?_) (fun _ => .pure (.nil hinterfaces.step.at_)) fun hpermits hrest => ?_
  rotate_left
  · rw [Bool.and_eq_true] at hpermits
    have hword := kind_of_isWord hpermits.2
    refine (advance_took hs hinterfaces.step.at_ hword rfl).bind ?_
    rintro _ u ⟨hu, -⟩
    exact (clause_ensures hs hg .permitting hu).bind hrest
  have hpermitted := hinterfaces.append h₇
  refine iteJoin (fun body t => BodyFrom raw t₇ t body) (fun _ => ?_) (fun _ => ?_)
    fun body t₈ h₈ => rangeFrom_bind (.pure (typeDecl_takes hms h₂ hpermitted h₈))
  · exact enumBody_ensures hs hg hpermitted.step.at_
  · exact classBody_ensures hs hg kind hpermitted.step.at_

end JavaAnalysis.Parser
