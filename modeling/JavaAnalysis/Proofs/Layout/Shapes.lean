import JavaAnalysis.Layout.OfAst

/-!
# Shapes of lists

The shapes of a list of parts are those of its parts, one behind the other. Lists of parts are told
apart from lists of shapes because some parts give no shape and others give several.
-/

set_option autoImplicit false

namespace JavaAnalysis.Ast

/-- Shapes of a list that are told item by item are those of its items, one behind the other. -/
theorem flatMap_shapes {α : Type} {shapes : α → List Shape} {f : List α → List Shape}
    (hnil : f [] = []) (hcons : ∀ v vs, f (v :: vs) = shapes v ++ f vs) (vs : List α) :
    vs.flatMap shapes = f vs := by
  induction vs with
  | nil => exact hnil.symm
  | cons v vs ih => rw [List.flatMap_cons, ih, hcons v vs]

/-- Shapes of what was read, with what was left out among it. -/
theorem flatMap_filterMap {α : Type} (shape : α → Shape) (all : List (Option α)) :
    all.flatMap (fun o => (o.map shape).toList) = (all.filterMap id).map shape := by
  induction all with
  | nil => rfl
  | cons o all ih =>
    rw [List.flatMap_cons, ih]
    cases o <;> rfl

theorem TypeRef.shapes_eq (ts : List TypeRef) : ts.flatMap (fun t => [t.shape]) =
    TypeRef.shapes ts :=
  flatMap_shapes rfl (fun _ _ => rfl) ts

theorem AnnotationUse.shapes_eq (uses : List AnnotationUse) :
    uses.flatMap (fun use => [use.shape]) = AnnotationUse.shapes uses :=
  flatMap_shapes rfl (fun _ _ => rfl) uses

theorem Param.shapes_eq (ps : List Param) : ps.flatMap (fun p => [p.shape]) = Param.shapes ps :=
  flatMap_shapes rfl (fun _ _ => rfl) ps

theorem Expr.shapes_eq (es : List Expr) : es.flatMap (fun e => [e.shape]) = Expr.shapes es :=
  flatMap_shapes rfl (fun _ _ => rfl) es

theorem Stmt.shapes_eq (ss : List Stmt) : ss.flatMap (fun s => [s.shape]) = Stmt.shapes ss :=
  flatMap_shapes rfl (fun _ _ => rfl) ss

theorem elementShapes_eq (args : List ElementValue) :
    args.flatMap (fun arg => elementShapes [arg]) = elementShapes args := by
  refine flatMap_shapes rfl (fun arg args => ?_) args
  obtain ⟨range, name, value⟩ := arg
  cases name <;> simp!

theorem markerShapes_eq (ms : List Modifier) :
    ms.flatMap (fun m => markerShapes [m]) = markerShapes ms := by
  refine flatMap_shapes rfl (fun m ms => ?_) ms
  cases m <;> simp!

theorem typeParamShapes_eq (params : List TypeParam) :
    params.flatMap (fun p => typeParamShapes [p]) = typeParamShapes params := by
  refine flatMap_shapes rfl (fun p ps => ?_) params
  obtain ⟨range, marks, name, bounds⟩ := p
  simp!

theorem constantShapes_eq (cs : List EnumConstant) :
    cs.flatMap (fun c => constantShapes [c]) = constantShapes cs := by
  refine flatMap_shapes rfl (fun c cs => ?_) cs
  obtain ⟨range, ms, name, argsRange, args, body⟩ := c
  simp!

theorem resourceShapes_eq (rs : List Resource) :
    rs.flatMap (fun r => resourceShapes [r]) = resourceShapes rs := by
  refine flatMap_shapes rfl (fun r rs => ?_) rs
  cases r <;> simp!

theorem catchShapes_eq (cs : List CatchClause) :
    cs.flatMap (fun c => catchShapes [c]) = catchShapes cs := by
  refine flatMap_shapes rfl (fun c cs => ?_) cs
  obtain ⟨range, param, body⟩ := c
  simp!

theorem caseShapes_eq (cs : List SwitchCase) :
    cs.flatMap (fun c => caseShapes [c]) = caseShapes cs := by
  refine flatMap_shapes rfl (fun c cs => ?_) cs
  obtain ⟨range, labels, arrow, body⟩ := c
  simp!

theorem dimShapes_eq (dims : List DimExpr) :
    dims.flatMap (fun d => dimShapes [d]) = dimShapes dims := by
  refine flatMap_shapes rfl (fun d ds => ?_) dims
  obtain ⟨range, size⟩ := d
  simp!

theorem labelShapes_cons (label : CaseLabel) (labels : List CaseLabel) :
    labelShapes (label :: labels) = labelShapes [label] ++ labelShapes labels := by
  cases label <;> simp!

theorem Member.shapes_cons (m : Member) (ms : List Member) :
    Member.shapes (m :: ms) = Member.shapes [m] ++ Member.shapes ms := by
  cases m <;> simp!

/-- A member that was left out gives no shape. -/
theorem Member.flatMap_filterMap (all : List (Option Member)) :
    all.flatMap (fun o => Member.shapes o.toList) = Member.shapes (all.filterMap id) := by
  induction all with
  | nil => rfl
  | cons o all ih =>
    rw [List.flatMap_cons, ih]
    cases o with
    | none => rfl
    | some m => exact (Member.shapes_cons m _).symm

/-- What is in front of the next segment of a class type. -/
def outerShapes : Option TypeRef → List Shape
  | some q => [q.shape]
  | none => []

/-- The shape of a named type with what stands in front of its name. -/
theorem shape_named (range : TextRange) (outer : Option TypeRef) (name : Ident)
    (argsRange : Option TextRange) (args : List TypeRef) :
    (TypeRef.named range outer name argsRange args).shape =
      match argsRange with
      | some r => .plain .parameterizedType range
          [.plain .classType ⟨range.start, name.range.stop⟩ (outerShapes outer ++ [.nameUse name]),
            .plain .typeArguments r (TypeRef.shapes args)]
      | none => .plain .classType ⟨range.start, name.range.stop⟩
          (outerShapes outer ++ .nameUse name :: TypeRef.shapes args) := by
  cases outer <;> cases argsRange <;> simp!

/-- What is inside the braces of a class. -/
def bodyShapes : ClassBody → List Shape
  | .mk _ constants members => constantShapes constants ++ Member.shapes members

theorem anonymousShapes_some (b : ClassBody) : anonymousShapes (some b) =
    [.node ⟨.classDecl, b.range, none, .declarations, some b.range.start⟩ [.body
      (bodyShapes b)]] := by
  obtain ⟨range, constants, members⟩ := b
  simp! [ClassBody.range]

end JavaAnalysis.Ast
