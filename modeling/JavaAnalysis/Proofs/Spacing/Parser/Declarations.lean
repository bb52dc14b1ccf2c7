import JavaAnalysis.Proofs.Parser.Declarations
import JavaAnalysis.Proofs.Spacing.Parser.Expressions

/-!
# Two runs over declarations

What is read of a declaration is the same in a tight row and elsewhere. A declaration begins with its
modifiers, so the parsers of what comes behind these are told where it began.
-/

set_option autoImplicit false
set_option linter.dupNamespace false

namespace JavaAnalysis.Parser

open Ast

variable {f : Shift} {g : Grammar} {s t : State}

theorem isAtRecord_eq (h : State.Moved f s t) : t.isAtRecord = s.isAtRecord := by
  unfold State.isAtRecord
  simp only [h.isWord_eq, h.kind_eq]

theorem typeDeclAhead?_eq (h : State.Moved f s t) : t.typeDeclAhead? = s.typeDeclAhead? := by
  unfold State.typeDeclAhead?
  simp only [isAtRecord_eq h, h.kind_eq]

/-! ## Variables -/

/-- A name begins before what stands behind it. -/
theorem ident_mirrors_named (h : State.Moved f s t) :
    Mirrors f (fun name => max (s.start + 1) (name.range.start + 1)) (Ident.shift f) ident ident
      s t := by
  refine .ifAt h (fun hat => .get ?_) fun _ => expected_mirrors h _
  dsimp only
  rw [h.text_eq]
  refine .advance h (by rw [hat]; decide) fun u v h₁ hle₁ _ => .pure h₁ ?_ rfl
  show max (s.start + 1) (s.start + 1) ≤ u.start
  omega

theorem varFragment_alike (hg : g.Alike f) (h : State.Moved f s t) {name : Ident}
    (hname : name.range.start < s.start) :
    Mirrors f (fun _ => s.start) (VarFragment.shift f) (varFragment g name)
      (varFragment g (name.shift f)) s t := by
  refine (brackets_alike s t h).bind fun pairs u v h₁ hle₁ => ?_
  refine (eat_mirrors h₁).bind fun found u₂ v₂ h₂ hle₂ => ?_
  refine .meet (fun _ => u₂.start) (Option.map (Expr.shift f)) Iff.rfl (fun init u₃ v₃ h₃ hle₃ => ?_)
    (fun _ hrest => ?_) fun _ => .pure h₂ (Nat.le_refl _) rfl
  · exact .rangeFrom h₃ (by omega) (.pure h₃ (by omega) (by simp!))
  · exact (Mirrors.map (k := Option.map (Expr.shift f)) (hg.varInit.alike u₂ v₂ h₂) fun _ => rfl).bind
      hrest

theorem namedFragment_onward (hg : g.Alike f) :
    Onward f (VarFragment.shift f) (ident >>= varFragment g) (ident >>= varFragment g) := by
  intro s t h
  refine (ident_mirrors_named h).bind fun name u v h₁ hle₁ => ?_
  exact (varFragment_alike hg h₁ (by omega)).mono (by omega)

theorem moreFragments_alike (hg : g.Alike f) :
    Alike f (List.map (VarFragment.shift f)) (moreFragments g) (moreFragments g) := by
  intro s t h
  refine (eat_mirrors h).bind fun found u v h₁ hle₁ => .ite Iff.rfl (fun _ => ?_)
    fun _ => .pure h₁ hle₁ rfl
  exact ((separated_onward (namedFragment_onward hg)).alike u v h₁).mono hle₁

theorem varFragments_alike (hg : g.Alike f) (h : State.Moved f s t) {first : Ident}
    (hname : first.range.start < s.start) :
    Mirrors f (fun _ => s.start) (List.map (VarFragment.shift f)) (varFragments g first)
      (varFragments g (first.shift f)) s t := by
  refine (varFragment_alike hg h hname).bind fun fragment u v h₁ hle₁ => ?_
  exact (moreFragments_alike hg u v h₁).bind fun others u₂ v₂ h₂ hle₂ => .pure h₂ (by omega) rfl

theorem varDecl_mirrors (hg : g.Alike f) (h : State.Moved f s t) {start : Nat}
    (hstart : start < s.start) (ms : List Modifier) (type : TypeRef) {first : Ident}
    (hname : first.range.start < s.start) :
    Mirrors f (fun _ => s.start + 1) (VarDecl.shift f) (varDecl g start ms type first)
      (varDecl g (f.start start) (ms.map (Modifier.shift f)) (type.shift f) (first.shift f)) s t := by
  refine (varFragments_alike hg h hname).bind fun fragments u v h₁ hle₁ => ?_
  refine (expect_mirrors h₁ (by decide)).bind fun _ u₂ v₂ h₂ hle₂ => ?_
  exact .rangeFrom h₂ (by omega) (.pure h₂ (by omega) (by simp!))

/-! ## Members -/

theorem methodRest_mirrors (hg : g.Alike f) (h : State.Moved f s t) {start : Nat}
    (hle : start ≤ s.start) (ms : List Modifier) (typeParams : Option TextRange × List TypeParam)
    (returnType : Option TypeRef) (name : Ident) :
    Mirrors f (fun _ => s.start + 1) (MethodDecl.shift f)
      (methodRest g start ms typeParams returnType name)
      (methodRest g (f.start start) (ms.map (Modifier.shift f))
        (typeParams.1.map f.range, typeParams.2.map (TypeParam.shift f))
        (returnType.map (TypeRef.shift f)) (name.shift f)) s t := by
  refine (formalParams_onward hg s t h).bind fun p u v h₁ hle₁ => ?_
  refine (brackets_alike u v h₁).bind fun pairs u₂ v₂ h₂ hle₂ => ?_
  refine (eat_mirrors h₂).bind fun found u₃ v₃ h₃ hle₃ => ?_
  refine .meet (fun _ => u₃.start) (List.map (TypeRef.shift f)) Iff.rfl
    (fun thrown u₄ v₄ h₄ hle₄ => ?_)
    (fun _ hrest => ((typeList_onward hg).alike u₃ v₃ h₃).bind hrest)
    fun _ => .pure h₃ (Nat.le_refl _) rfl
  refine (eat_mirrors h₄).bind fun found u₅ v₅ h₅ hle₅ => ?_
  refine .meet (fun _ => u₅.start) (Option.map (Expr.shift f)) Iff.rfl
    (fun value u₆ v₆ h₆ hle₆ => .ifAt h₆ (fun _ => ?_) fun _ => ?_)
    (fun _ hrest => (Mirrors.map (k := Option.map (Expr.shift f)) (hg.elementValue.alike u₅ v₅ h₅)
      fun _ => rfl).bind hrest) fun _ => .pure h₅ (Nat.le_refl _) rfl
  · refine (hg.block u₆ v₆ h₆).bind fun body u₇ v₇ h₇ hle₇ => ?_
    exact .rangeFrom h₇ (by omega) (.pure h₇ (by omega) (by simp!))
  · refine (expect_mirrors h₆ (by decide)).bind fun _ u₇ v₇ h₇ hle₇ => ?_
    exact .rangeFrom h₇ (by omega) (.pure h₇ (by omega) (by simp!))

theorem memberRest_mirrors (hg : g.Alike f) (owner : TypeDeclKind) (h : State.Moved f s t)
    {start : Nat} (hle : start ≤ s.start) (ms : List Modifier)
    (typeParams : Option TextRange × List TypeParam) :
    Mirrors f (fun _ => s.start + 1) (Member.shift f) (memberRest g owner start ms typeParams)
      (memberRest g owner (f.start start) (ms.map (Modifier.shift f))
        (typeParams.1.map f.range, typeParams.2.map (TypeParam.shift f))) s t := by
  refine .get ?_
  rw [h.kind_eq, h.kind_eq]
  refine .ite Iff.rfl (fun _ => ?_) fun _ => .ite Iff.rfl (fun _ => ?_) fun _ => ?_
  · refine (ident_mirrors h).bind fun name u v h₁ hle₁ => ?_
    exact ((methodRest_mirrors hg h₁ (by omega) ms typeParams none name).mono (by omega)).map
      fun _ => rfl
  · refine (ident_mirrors h).bind fun name u v h₁ hle₁ => ?_
    refine (hg.block u v h₁).bind fun body u₂ v₂ h₂ hle₂ => ?_
    exact .rangeFrom h₂ (by omega)
      (.pure h₂ (by omega) (by simp!))
  · refine (type_onward hg s t h).bind fun type u v h₁ hle₁ => ?_
    refine (ident_mirrors_named h₁).bind fun name u₂ v₂ h₂ hle₂ => .ifAt h₂ (fun _ => ?_) fun _ => ?_
    · exact ((methodRest_mirrors hg h₂ (by omega) ms typeParams (some type) name).mono
        (by omega)).map fun _ => rfl
    · refine .ite (by simp) (fun _ => expected_mirrors h₂ _) fun _ => ?_
      exact ((varDecl_mirrors hg h₂ (by omega) ms type (by omega)).mono (by omega)).map
        fun _ => rfl

theorem member?_alike (hg : g.Alike f) (owner : TypeDeclKind) :
    Alike f (Option.map (Member.shift f)) (member? g owner) (member? g owner) := by
  intro s t h
  refine .get ?_
  dsimp only
  rw [h.kind_eq, h.kind_eq, h.start_eq]
  refine (eat_mirrors h).bind fun found u v h₁ hle₁ => .ite Iff.rfl
    (fun _ => .pure h₁ hle₁ rfl) fun _ => .ite Iff.rfl (fun _ => ?_) fun _ => ?_
  · refine (eat_mirrors h₁).bind fun isStatic u₂ v₂ h₂ hle₂ => ?_
    refine (hg.block u₂ v₂ h₂).bind fun body u₃ v₃ h₃ hle₃ => ?_
    exact .rangeFrom h₃ (by omega) (.pure h₃ (by omega) rfl)
  · refine (modifiers_alike hg u v h₁).bind fun ms u₂ v₂ h₂ hle₂ => .get ?_
    rw [typeDeclAhead?_eq h₂]
    refine .ite Iff.rfl (fun _ => ?_) fun _ => ?_
    · exact (hg.typeDecl u₂ v₂ s.start ms h₂ (by omega)).bind fun decl u₃ v₃ h₃ hle₃ =>
        .pure h₃ (by omega) rfl
    · refine (typeParams_alike hg u₂ v₂ h₂).bind fun typeParams u₃ v₃ h₃ hle₃ => ?_
      exact ((memberRest_mirrors hg owner h₃ (by omega) ms typeParams).mono (by omega)).map
        fun _ => rfl

theorem members_alike (hg : g.Alike f) (owner : TypeDeclKind) :
    Alike f (List.map (Member.shift f)) (members g owner) (members g owner) := by
  intro s t h
  refine (many_alike (fun s t h => by rw [h.kind_eq]) (member?_alike hg owner) s t h).bind
    fun all u v h₁ hle₁ => .pure h₁ hle₁ ?_
  rw [List.filterMap_map, List.map_filterMap]
  rfl

theorem classBody_onward (hg : g.Alike f) (kind : TypeDeclKind) :
    Onward f (ClassBody.shift f) (classBody g kind) (classBody g kind) := by
  intro s t h
  refine .startHere h ((expect_mirrors h (by decide)).bind fun _ u v h₁ hle₁ => ?_)
  refine (members_alike hg kind u v h₁).bind fun ms u₂ v₂ h₂ hle₂ => ?_
  refine (expect_mirrors h₂ (by decide)).bind fun _ u₃ v₃ h₃ hle₃ => ?_
  exact .rangeFrom h₃ (by omega) (.pure h₃ (by omega) (by simp!))

theorem enumConstant_onward (hg : g.Alike f) :
    Onward f (EnumConstant.shift f) (enumConstant g) (enumConstant g) := by
  intro s t h
  refine .startHere h ((modifiers_alike hg s t h).bind fun ms u v h₁ hle₁ => ?_)
  refine (ident_mirrors h₁).bind fun name u₂ v₂ h₂ hle₂ => .isAt h₂ ?_
  refine .meet (fun _ => u₂.start) (fun p => (p.1.map f.range, p.2.map (Expr.shift f))) Iff.rfl
    (fun p u₃ v₃ h₃ hle₃ => ?_) (fun _ hrest => ?_) fun _ => .pure h₂ (Nat.le_refl _) rfl
  · refine (classBody?_alike hg u₃ v₃ h₃).bind fun body u₄ v₄ h₄ hle₄ => ?_
    exact .rangeFrom h₄ (by omega) (.pure h₄ (by omega) (by simp!))
  · refine (arguments_onward hg u₂ v₂ h₂).bind fun p u₃ v₃ h₃ hle₃ => ?_
    exact .pure_bind (hrest (some p.1, p.2) u₃ v₃ h₃ (by omega))

theorem enumBody_onward (hg : g.Alike f) :
    Onward f (ClassBody.shift f) (enumBody g) (enumBody g) := by
  intro s t h
  refine .startHere h ((expect_mirrors h (by decide)).bind fun _ u v h₁ hle₁ => ?_)
  refine (terminated_alike (fun s t h => by rw [h.kind_eq]) (enumConstant_onward hg).alike
    u v h₁).bind fun constants u₂ v₂ h₂ hle₂ => ?_
  refine (eat_mirrors h₂).bind fun found u₃ v₃ h₃ hle₃ => ?_
  refine .meet (fun _ => u₃.start) (List.map (Member.shift f)) Iff.rfl (fun ms u₄ v₄ h₄ hle₄ => ?_)
    (fun _ hrest => (members_alike hg _ u₃ v₃ h₃).bind hrest) fun _ => .pure h₃ (Nat.le_refl _) rfl
  refine (expect_mirrors h₄ (by decide)).bind fun _ u₅ v₅ h₅ hle₅ => ?_
  exact .rangeFrom h₅ (by omega) (.pure h₅ (by omega) (by simp!))

/-! ## Types -/

theorem typeDecl_mirrors (hg : g.Alike f) (h : State.Moved f s t) {start : Nat}
    (hle : start ≤ s.start) (ms : List Modifier) :
    Mirrors f (fun _ => s.start + 1) (TypeDecl.shift f) (typeDecl g start ms)
      (typeDecl g (f.start start) (ms.map (Modifier.shift f))) s t := by
  refine .get ?_
  rw [typeDeclAhead?_eq h]
  cases hahead : s.typeDeclAhead? with
  | none => exact expected_mirrors h _
  | some found =>
    obtain ⟨kind, n⟩ := found
    obtain ⟨⟨k, rfl⟩, hfirm⟩ := isFirm_of_typeDeclAhead? hahead
    refine (advanceBy_mirrors h (by omega) (ne_endOfFile_of_isFirm hfirm)).bind
      fun _ u v h₁ hle₁ => ?_
    refine (ident_mirrors h₁).bind fun name u₂ v₂ h₂ hle₂ => ?_
    refine (typeParams_alike hg u₂ v₂ h₂).bind fun typeParams u₃ v₃ h₃ hle₃ => ?_
    refine .meet (fun _ => u₃.start) (fun p => (p.1.map f.range, p.2.map (Param.shift f))) Iff.rfl
      (fun components u₄ v₄ h₄ hle₄ => ?_) (fun _ hrest => ?_) fun _ => .pure h₃ (Nat.le_refl _) rfl
    · refine (eat_mirrors h₄).bind fun found u₅ v₅ h₅ hle₅ => ?_
      refine .meet (fun _ => u₅.start) (List.map (TypeRef.shift f)) Iff.rfl
        (fun supers u₆ v₆ h₆ hle₆ => ?_) (fun _ hrest => .ite Iff.rfl (fun _ => ?_) fun _ => ?_)
        fun _ => .pure h₅ (Nat.le_refl _) rfl
      · refine (eat_mirrors h₆).bind fun found u₇ v₇ h₇ hle₇ => ?_
        refine .meet (fun _ => u₇.start) (List.map (TypeRef.shift f)) Iff.rfl
          (fun interfaces u₈ v₈ h₈ hle₈ => .get ?_)
          (fun _ hrest => ((typeList_onward hg).alike u₇ v₇ h₇).bind hrest)
          fun _ => .pure h₇ (Nat.le_refl _) rfl
        rw [h₈.isWord_eq]
        refine .meet (fun _ => u₈.start) (List.map (TypeRef.shift f)) Iff.rfl
          (fun permitted u₉ v₉ h₉ hle₉ => ?_) (fun _ hrest => ?_)
          fun _ => .pure h₈ (Nat.le_refl _) rfl
        · have hbody : ∀ p, Onward f (ClassBody.shift f) p p →
              Mirrors f (fun _ => s.start + 1) (TypeDecl.shift f)
                (p >>= fun body => rangeFrom start >>= fun r => pure (.mk r kind ms name
                  typeParams.1 typeParams.2 components.1 components.2 supers interfaces permitted
                  body))
                (p >>= fun body => rangeFrom (f.start start) >>= fun r => pure (.mk r kind
                  (ms.map (Modifier.shift f)) (name.shift f) (typeParams.1.map f.range)
                  (typeParams.2.map (TypeParam.shift f)) (components.1.map f.range)
                  (components.2.map (Param.shift f)) (supers.map (TypeRef.shift f))
                  (interfaces.map (TypeRef.shift f)) (permitted.map (TypeRef.shift f)) body))
                u₉ v₉ := fun p hp => by
            refine (hp u₉ v₉ h₉).bind fun body u v h hle => ?_
            exact .rangeFrom h (by omega) (.pure h (by omega) (by simp!))
          exact .ite Iff.rfl (fun _ => hbody _ (enumBody_onward hg))
            fun _ => hbody _ (classBody_onward hg kind)
        · refine (advance_mirrors_spot h₈).bind fun _ u₉ v₉ h₉ hle₉ => ?_
          exact (((typeList_onward hg).alike u₉ v₉ h₉).mono hle₉).bind hrest
      · exact ((typeList_onward hg).alike u₅ v₅ h₅).bind hrest
      · exact (Mirrors.map (k := List.map (TypeRef.shift f)) (hg.type.alike u₅ v₅ h₅)
          fun _ => rfl).bind hrest
    · refine (formalParams_onward hg u₃ v₃ h₃).bind fun p u₄ v₄ h₄ hle₄ => ?_
      exact .pure_bind (hrest (some p.1, p.2) u₄ v₄ h₄ (by omega))

end JavaAnalysis.Parser
