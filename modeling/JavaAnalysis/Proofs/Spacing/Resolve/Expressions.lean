import JavaAnalysis.Proofs.Spacing.Resolve.Names

/-!
# Names in expressions in two walks

Two walks that are alike know the same types of expressions, bind the names in them alike, and miss
the same names.
-/

set_option autoImplicit false
set_option linter.dupNamespace false

namespace JavaAnalysis.Binder

open Ast

variable {f : Shift} {b c : Binder}

/-! ## What is known of expressions -/

namespace Moved

variable (h : Moved f b c)
include h

theorem boundType?_eq (name : Ident) : c.boundType? (name.shift f) = b.boundType? name := by
  have hname := h.boundAt?_eq name.range.start
  simp only [boundType?, Ident.shift_range, Shift.range_start, hname, h.valueType?_eq]

theorem exprType?_eq : ∀ e : Expr, c.exprType? (e.shift f) = b.exprType? e
  | .name name => h.boundType?_eq name
  | .fieldAccess _ _ name => h.boundType?_eq name
  | .methodCall _ _ _ _ name _ _ => by
    have hname := h.boundAt?_eq name.range.start
    simp! only [Ident.shift_range, Shift.range_start, hname, h.bindings_eq]
  | .newObject _ _ type _ _ (some (.mk range _ _)) => by
    have hbody := h.boundAt?_eq range.start
    simp! only [ClassBody.shiftOption_eq, Option.map_some, Shift.range_start, hbody,
      h.boundClass?_eq]
  | .newObject _ _ type _ _ none => h.boundClass?_eq type
  | .literal _ kind => by
    cases kind <;> simp! only [h.builtIn?_eq]
  | .paren _ e => exprType?_eq e
  | .cast _ type _ => h.boundClass?_eq type
  | .this _ => by simp! only [h.currentType?_eq]
  | .super _ => by simp! only [h.currentType?_eq, h.superClass?_eq]
  | .conditional _ _ yes _ => exprType?_eq yes
  | .assign _ _ target _ => exprType?_eq target
  | .newArray _ _ _ _ _ | .arrayInit _ _ | .arrayAccess _ _ _ | .unary _ _ _ | .binary _ _ _ _
  | .instanceOf _ _ _ | .instanceOfPattern _ _ _ | .classLiteral _ _ | .lambdaExpr _ _ _ _ _
  | .lambdaBlock _ _ _ _ _ | .methodRef _ _ _ | .switching _ _ _ _ | .annotated _ | .type _ => rfl

theorem describeArg_eq (arg : Expr) : c.describeArg (arg.shift f) = b.describeArg arg := by
  unfold describeArg
  rw [h.exprType?_eq, h.bindings_eq]
  cases arg with
  | name name =>
    have hname := h.boundAt?_eq name.range.start
    simp! only [Ident.shift_range, Shift.range_start, hname]
  | _ => rfl

theorem assignedField?_eq (target : Expr) (name : Ident) :
    c.assignedField? (target.shift f) (name.shift f) = b.assignedField? target name := by
  cases target with
  | this _ => simp! only [assignedField?, h.bindings_eq, h.currentType?_eq, Ident.shift_text]
  | _ => rfl

theorem enumOf?_eq (e : Expr) : c.enumOf? (e.shift f) = b.enumOf? e := by
  unfold enumOf?
  rw [h.exprType?_eq, h.bindings_eq]

theorem isUntyped_eq (e : Expr) : c.isUntyped (e.shift f) = b.isUntyped e := by
  cases e with
  | name name =>
    have hname := h.boundAt?_eq name.range.start
    simp! only [isUntyped, Ident.shift_range, Shift.range_start, hname, h.untyped_eq]
  | _ => rfl

end Moved

/-! ## Names -/

theorem valueQualifier_alike (use : NameUse) (e : Expr) :
    Alike f (valueQualifier use e) (valueQualifier use (e.shift f)) := by
  refine .get fun b c h => ?_
  rw [h.exprType?_eq]
  exact .pure _

theorem resolveSimpleName_alike (name : Ident) :
    Alike f (resolveSimpleName name) (resolveSimpleName (name.shift f)) := by
  refine (lookupVariable_alike _).bind fun asVariable => ?_
  have hlast : ∀ lookup, Alike f
      (referIfFound name.range.start lookup >>= fun _ =>
        if lookup = .missing then
          report .unresolvedName .semantic s!"{name.text} cannot be resolved to a variable" name.range
        else pure ())
      (referIfFound (f.start name.range.start) lookup >>= fun _ =>
        if lookup = .missing then
          report .unresolvedName .semantic s!"{name.text} cannot be resolved to a variable"
            (f.range name.range)
        else pure ()) := fun lookup =>
    (referIfFound_alike _ lookup).bind fun _ => .ite (fun _ => report_alike _ _ _ _) fun _ => .pure _
  exact .ite (fun _ => (lookupType_alike _).bind hlast) fun _ => (Alike.pure asVariable).bind hlast

theorem resolveTargetName_alike (name : Ident) :
    Alike f (resolveTargetName name) (resolveTargetName (name.shift f)) := by
  refine (lookupVariable_alike _).bind fun lookup => ?_
  cases lookup with
  | found id => exact bind_alike _ id
  | unknown => exact .pure _
  | missing => exact resolveSimpleName_alike name

theorem resolveQualifierName_alike (name : Ident) :
    Alike f (resolveQualifierName name) (resolveQualifierName (name.shift f)) := by
  refine (lookupVariable_alike _).bind fun lookup => ?_
  cases lookup with
  | found id =>
    refine (refer_alike _ id).bind fun _ => .get fun b c h => ?_
    rw [h.valueType?_eq]
    exact .pure _
  | unknown => exact .pure _
  | missing =>
    refine (lookupType_alike _).bind fun lookup => ?_
    cases lookup with
    | found id => exact (refer_alike _ id).bind fun _ => .pure _
    | unknown => exact .pure _
    | missing =>
      refine .ite (fun _ => .pure _) fun _ => ?_
      exact (report_alike _ _ _ _).bind fun _ => .pure _

theorem resolveName_alike (use : NameUse) (name : Ident) :
    Alike f (resolveName use name) (resolveName use (name.shift f)) := by
  cases use with
  | value => exact (resolveSimpleName_alike name).bind fun _ => .pure _
  | target => exact (resolveTargetName_alike name).bind fun _ => .pure _
  | qualifier => exact resolveQualifierName_alike name

/-! ## Names behind a dot -/

theorem selectFromPackage_alike (package : String) (name : Ident) :
    Alike f (selectFromPackage package name) (selectFromPackage package (name.shift f)) := by
  refine .get fun b c h => ?_
  simp only [Ident.shift_text, h.builtIn?_eq]
  split
  · exact (refer_alike _ _).bind fun _ => .pure _
  · exact .pure _

theorem selectMember_alike (type : BindingId) (name : Ident) :
    Alike f (selectMember type name) (selectMember type (name.shift f)) := by
  refine .get fun b c h => ?_
  simp only [Ident.shift_text, h.bindings_eq, h.valueType?_eq, h.isClosed_eq]
  split
  · exact (refer_alike _ _).bind fun _ => .pure _
  split
  · exact (refer_alike _ _).bind fun _ => .pure _
  · exact .ite (fun _ => (report_alike _ _ _ _).bind fun _ => .pure _) fun _ => .pure _

theorem select_alike (qualifier : Qualifier) (name : Ident) :
    Alike f (select qualifier name) (select qualifier (name.shift f)) := by
  have hmember : ∀ type, Alike f
      (if (name.text == "this") = true then bind name.range.start type >>= fun _ =>
          pure (.value (some type))
        else if (name.text == "super" && qualifier == .type type) = true then
          get >>= fun b => pure (.value (b.superClass? type))
        else selectMember type name)
      (if (name.text == "this") = true then bind (f.start name.range.start) type >>= fun _ =>
          pure (.value (some type))
        else if (name.text == "super" && qualifier == .type type) = true then
          get >>= fun b => pure (.value (b.superClass? type))
        else selectMember type (name.shift f)) := fun type => by
    refine .ite (fun _ => (bind_alike _ type).bind fun _ => .pure _) fun _ => .ite (fun _ => ?_)
      fun _ => selectMember_alike type name
    refine .get fun b c h => ?_
    rw [h.superClass?_eq]
    exact .pure _
  cases qualifier with
  | package package => exact selectFromPackage_alike package name
  | type type => exact hmember type
  | value type =>
    cases type with
    | none => exact .pure _
    | some type => exact hmember type
  | unknown => exact .pure _

/-! ## Calls -/

theorem reportMissingMethod_alike (name : Ident) (args : List Expr) (owner : String) :
    Alike f (reportMissingMethod name args owner)
      (reportMissingMethod (name.shift f) (args.map (Expr.shift f)) owner) := by
  refine .get fun b c h => ?_
  have hargs : (args.map (Expr.shift f)).map c.describeArg = args.map b.describeArg := by
    rw [List.map_map]
    exact List.map_congr_left fun arg _ => h.describeArg_eq arg
  rw [hargs]
  exact report_alike _ _ _ _

theorem resolveConstructorCall_alike (name : Ident) (arity : Nat) :
    Alike f (resolveConstructorCall name arity) (resolveConstructorCall (name.shift f) arity) := by
  refine .get fun b c h => ?_
  simp only [Ident.shift_text, h.bindings_eq, h.currentType?_eq, h.superClass?_eq]
  split
  · exact refer_alike _ _
  · exact .pure _

theorem resolveSimpleCall_alike (name : Ident) (args : List Expr) :
    Alike f (resolveSimpleCall name args)
      (resolveSimpleCall (name.shift f) (args.map (Expr.shift f))) := by
  unfold resolveSimpleCall
  rw [List.length_map]
  refine .ite (fun _ => resolveConstructorCall_alike name _) fun _ => ?_
  refine (lookupMethod_alike _ _).bind fun lookup => (referIfFound_alike _ _).bind fun _ => ?_
  refine .ite (fun _ => .get fun b c h => ?_) fun _ => .pure _
  rw [h.currentType?_eq, h.bindings_eq]
  exact reportMissingMethod_alike name args _

theorem resolveMemberCall_alike (qualifier : Qualifier) (name : Ident) (args : List Expr) :
    Alike f (resolveMemberCall qualifier name args)
      (resolveMemberCall qualifier (name.shift f) (args.map (Expr.shift f))) := by
  unfold resolveMemberCall
  split
  · exact .pure _
  · refine .get fun b c h => ?_
    simp only [Ident.shift_text, List.length_map, h.findMethod?_eq, h.isClosed_eq, h.bindings_eq]
    split
    · exact refer_alike _ _
    · exact .ite (fun _ => reportMissingMethod_alike name args _) fun _ => .pure _

theorem resolveMethodRef_alike (qualifier : Qualifier) (name : Option Ident) :
    Alike f (resolveMethodRef qualifier name)
      (resolveMethodRef qualifier (name.map (Ident.shift f))) := by
  unfold resolveMethodRef
  cases name with
  | none => cases qualifier.type? <;> exact .pure _
  | some name =>
    cases qualifier.type? with
    | none => exact .pure _
    | some owner =>
      refine .get fun b c h => ?_
      simp only [Ident.shift_text, h.bindings_eq]
      split
      · exact refer_alike _ _
      · exact .pure _

/-! ## Switches and annotations -/

theorem resolveCaseName_alike (enumType : Option BindingId) (name : Ident) :
    Alike f (resolveCaseName enumType name) (resolveCaseName enumType (name.shift f)) := by
  cases enumType with
  | none => exact (lookupVariable_alike _).bind fun _ => referIfFound_alike _ _
  | some type =>
    refine .get fun b c h => ?_
    simp only [Ident.shift_text, h.bindings_eq]
    split
    · exact refer_alike _ _
    · exact .pure _

theorem checkExhaustive_alike (range : TextRange) (selector : Expr) (cases : List SwitchCase) :
    Alike f (checkExhaustive range selector cases)
      (checkExhaustive (f.range range) (selector.shift f) (cases.map (SwitchCase.shift f))) := by
  refine .get fun b c h => ?_
  rw [h.isUntyped_eq, SwitchCase.shift_anyDefault]
  exact .ite (fun _ => report_alike _ _ _ _) fun _ => .pure _

theorem resolveMarkerName_alike (name : QualifiedName) :
    Alike f (resolveMarkerName name) (resolveMarkerName (name.shift f)) := by
  have hlast : ∀ lookup, Alike f
      (referIfFound name.range.start lookup >>= fun _ =>
        if lookup = .missing then reportMissingType name.toDotted name.range else pure ())
      (referIfFound (f.start name.range.start) lookup >>= fun _ =>
        if lookup = .missing then reportMissingType name.toDotted (f.range name.range)
        else pure ()) := fun lookup =>
    (referIfFound_alike _ lookup).bind fun _ =>
      .ite (fun _ => reportMissingType_alike _ _) fun _ => .pure _
  unfold resolveMarkerName
  rw [QualifiedName.shift_toDotted, QualifiedName.shift_segments]
  match name.segments with
  | [] => exact (lookupBuiltIn_alike _).bind hlast
  | [simple] => exact (lookupType_alike _).bind hlast
  | _ :: _ :: _ => exact (lookupBuiltIn_alike _).bind hlast

end JavaAnalysis.Binder
