import JavaAnalysis.Proofs.Spacing.Outline
import JavaAnalysis.Proofs.Spacing.Resolve.Bodies
import JavaAnalysis.Unnecessary

/-!
# What is unnecessary in a moved file

What could be left out of a file could be left out where it was moved to, and nothing else. The
warnings stand in the same order, as the order of the text is that of before.
Main statement: `Resolution.Moved.unnecessary_eq`.
-/

set_option autoImplicit false
set_option linter.dupNamespace false

namespace JavaAnalysis

open Ast

variable {f : Shift}

namespace Ast

theorem Part.jumpsTo_shift (label : String) (p : Part) :
    (p.shift f).jumpsTo label = p.jumpsTo label := by
  cases p with
  | stmt s =>
    cases s with
    | breaking _ l => cases l <;> rfl
    | continuing _ l => cases l <;> rfl
    | _ => rfl
  | _ => rfl

theorem Part.hides_shift (label : String) (p : Part) :
    (p.shift f).hides label = p.hides label := by
  cases p with
  | stmt s => cases s <;> rfl
  | expr e => cases e <;> rfl
  | _ => rfl

mutual

theorem Outline.refersTo_shift (label : String) : ∀ o : Outline,
    (o.shift f).refersTo label = o.refersTo label
  | .mk part inside => by
    simp only [Outline.shift_mk, Outline.refersTo, Part.jumpsTo_shift, Part.hides_shift,
      Outline.anyRefersTo_shift label inside]

theorem Outline.anyRefersTo_shift (label : String) : ∀ os : List Outline,
    Outline.anyRefersTo label (os.map (Outline.shift f)) = Outline.anyRefersTo label os
  | [] => rfl
  | o :: os => by
    simp only [List.map_cons, Outline.anyRefersTo, o.refersTo_shift label,
      Outline.anyRefersTo_shift label os]

end

end Ast

namespace Resolution

theorem unusedLabel?_shift (label : Ident) (body : Stmt) :
    unusedLabel? (label.shift f) (body.shift f) =
      (unusedLabel? label body).map (Problem.shift f) := by
  unfold unusedLabel?
  rw [Stmt.outline_shift, Ident.shift_text, Outline.refersTo_shift]
  split <;> rfl

theorem deadBranch?_shift (value : LiteralKind) (cond : Expr) (branch : Stmt) :
    deadBranch? value (cond.shift f) (branch.shift f) =
      (deadBranch? value cond branch).map (Problem.shift f) := by
  unfold deadBranch?
  rw [Expr.shift_stripParens, Stmt.shift_range]
  cases cond.stripParens with
  | literal _ kind =>
    simp! only
    split <;> rfl
  | _ => rfl

/-- What is reported of the variables of a declaration is reported of each by itself. -/
theorem fragments_eq {report report' : VarFragment → Option Problem} (decl : VarDecl)
    (heq : ∀ v, report' (v.shift f) = (report v).map (Problem.shift f)) :
    (decl.shift f).fragments.filterMap report' =
      (decl.fragments.filterMap report).map (Problem.shift f) := by
  rw [VarDecl.shift_fragments, List.filterMap_map, List.map_filterMap]
  exact congrArg (List.filterMap · decl.fragments) (funext heq)

namespace Moved

variable {r s : Resolution} (h : Moved f r s)
include h

theorem declared?_eq (name : Ident) : s.declared? (name.shift f) = r.declared? name :=
  h.boundAt?_eq name.range.start

theorem isUsed_eq : s.isUsed = r.isUsed := by
  funext id
  simp only [isUsed, h.used_eq]

theorem isPrivate_eq : s.isPrivate = r.isPrivate := by
  funext id
  simp only [isPrivate, h.bindings_eq]

theorem enclosingName?_eq : s.enclosingName? = r.enclosingName? := by
  funext id
  simp only [enclosingName?, h.bindings_eq]

theorem memberName_eq : s.memberName = r.memberName := by
  funext id
  simp only [memberName, h.enclosingName?_eq, h.bindings_eq]

theorem unusedImports_eq (imports : List ImportDecl) :
    s.unusedImports (imports.map (ImportDecl.shift f)) =
      (r.unusedImports imports).map (Problem.shift f) := by
  unfold unusedImports
  rw [h.importsUsed_eq, List.zip_map_left, List.filterMap_map, List.map_filterMap]
  congr 1
  funext p
  obtain ⟨i, used⟩ := p
  cases used with
  | true => rfl
  | false => simp [Problem.shift, Problem.unnecessary, ImportDecl.shift]

theorem unusedLocals_eq (decl : VarDecl) :
    s.unusedLocals (decl.shift f) = (r.unusedLocals decl).map (Problem.shift f) := by
  refine fragments_eq decl fun v => ?_
  dsimp only
  rw [VarFragment.shift_name, h.declared?_eq, h.isUsed_eq]
  cases r.declared? v.name with
  | none => rfl
  | some id =>
    rw [Option.bind_eq_bind, Option.bind_some, Option.bind_some,
      apply_ite (Option.map (Problem.shift f))]
    rfl

theorem unusedFields_eq (decl : VarDecl) :
    s.unusedFields (decl.shift f) = (r.unusedFields decl).map (Problem.shift f) := by
  refine fragments_eq decl fun v => ?_
  dsimp only
  rw [VarFragment.shift_name, h.declared?_eq, h.isUsed_eq, h.isPrivate_eq, h.memberName_eq]
  cases r.declared? v.name with
  | none => rfl
  | some id =>
    rw [Option.bind_eq_bind, Option.bind_some, Option.bind_some,
      apply_ite (Option.map (Problem.shift f))]
    rfl

theorem unusedMethod?_eq (decl : MethodDecl) :
    s.unusedMethod? (decl.shift f) = (r.unusedMethod? decl).map (Problem.shift f) := by
  unfold unusedMethod?
  dsimp only
  rw [MethodDecl.shift_name, h.declared?_eq, h.isUsed_eq, h.isPrivate_eq, h.enclosingName?_eq,
    h.bindings_eq, MethodDecl.shift_isConstructor]
  cases r.declared? decl.name with
  | none => rfl
  | some id =>
    rw [Option.bind_eq_bind, Option.bind_some, Option.bind_some,
      apply_ite (Option.map (Problem.shift f))]
    rfl

theorem unusedType?_eq (decl : TypeDecl) :
    s.unusedType? (decl.shift f) = (r.unusedType? decl).map (Problem.shift f) := by
  unfold unusedType?
  dsimp only
  rw [TypeDecl.shift_name, h.declared?_eq, h.isUsed_eq, h.isPrivate_eq, h.memberName_eq]
  cases r.declared? decl.name with
  | none => rfl
  | some id =>
    rw [Option.bind_eq_bind, Option.bind_some, Option.bind_some,
      apply_ite (Option.map (Problem.shift f))]
    rfl

theorem unusedMembers_eq (m : Member) :
    s.unusedMembers (m.shift f) = (r.unusedMembers m).map (Problem.shift f) := by
  cases m with
  | field decl => exact h.unusedFields_eq decl
  | method decl =>
    show (s.unusedMethod? (decl.shift f)).toList = List.map _ (r.unusedMethod? decl).toList
    rw [h.unusedMethod?_eq]
    cases r.unusedMethod? decl <;> rfl
  | initializer _ _ _ => rfl
  | type decl =>
    show (s.unusedType? (decl.shift f)).toList = List.map _ (r.unusedType? decl).toList
    rw [h.unusedType?_eq]
    cases r.unusedType? decl <;> rfl

theorem unnecessaryInStmt_eq (stmt : Stmt) :
    s.unnecessaryInStmt (stmt.shift f) = (r.unnecessaryInStmt stmt).map (Problem.shift f) := by
  have hlist : ∀ o : Option Problem,
      (o.map (Problem.shift f)).toList = o.toList.map (Problem.shift f) := fun o => by
    cases o <;> rfl
  cases stmt with
  | localVar decl => exact h.unusedLocals_eq decl
  | forEach _ decl _ _ => exact h.unusedLocals_eq decl
  | forLoop _ init _ _ _ =>
    cases init with
    | decl decl => exact h.unusedLocals_eq decl
    | _ => rfl
  | labeled _ label body =>
    simp! only [unnecessaryInStmt, unusedLabel?_shift, hlist]
  | ifThen _ cond body =>
    simp! only [unnecessaryInStmt, deadBranch?_shift, hlist]
  | ifThenElse _ cond body alternative =>
    simp! only [unnecessaryInStmt, deadBranch?_shift, hlist, List.map_append]
  | _ => rfl

theorem knownTypeName?_eq (e : Expr) : s.knownTypeName? (e.shift f) = r.knownTypeName? e := by
  unfold knownTypeName?
  rw [Expr.shift_stripParens]
  cases e.stripParens with
  | name name =>
    have hname := h.boundAt?_eq name.range.start
    simp! only [Ident.shift_range, Shift.range_start, hname, h.bindings_eq]
  | literal _ kind => cases kind <;> rfl
  | _ => rfl

theorem redundantCast?_eq (e : Expr) :
    s.redundantCast? (e.shift f) = (r.redundantCast? e).map (Problem.shift f) := by
  cases e with
  | cast range type operand =>
    have hspelled := type.shift_display f
    have hcast : ∀ (r : Resolution) (range : TextRange) (type : TypeRef) (operand : Expr),
        (∀ at_, type ≠ .inferred at_) → r.redundantCast? (.cast range type operand) =
          if r.knownTypeName? operand = some type.display then
            some (.unnecessary .redundantCast
              s!"Unnecessary cast from {type.display} to {type.display}" range)
          else none := fun r range type operand hne => by
      cases type with
      | inferred at_ => exact absurd rfl (hne at_)
      | _ => rfl
    cases type with
    | inferred _ => rfl
    | _ =>
      show s.redundantCast? (.cast _ _ _) = _
      rw [hcast, hcast, hspelled, h.knownTypeName?_eq, apply_ite (Option.map (Problem.shift f))]
      · rfl
      · exact fun _ => nofun
      · exact fun _ => nofun
  | _ => rfl

theorem unnecessaryIn_eq (p : Part) :
    s.unnecessaryIn (p.shift f) = (r.unnecessaryIn p).map (Problem.shift f) := by
  cases p with
  | member m => exact h.unusedMembers_eq m
  | stmt stmt => exact h.unnecessaryInStmt_eq stmt
  | expr e =>
    show (s.redundantCast? (e.shift f)).toList = List.map _ (r.redundantCast? e).toList
    rw [h.redundantCast?_eq]
    cases r.redundantCast? e <;> rfl
  | _ => rfl

/-- What could be left out of a file that was moved is what could be left out before. -/
theorem unnecessary_eq (unit : CompilationUnit) :
    s.unnecessary (unit.shift f) = (r.unnecessary unit).map (Problem.shift f) := by
  have hparts : ∀ parts : List Part, (parts.map (Part.shift f)).flatMap s.unnecessaryIn =
      (parts.flatMap r.unnecessaryIn).map (Problem.shift f) := fun parts => by
    simp only [List.flatMap_map, List.map_flatMap, h.unnecessaryIn_eq]
  unfold unnecessary
  rw [CompilationUnit.outlines_shift, Outline.partsOf_shift, hparts]
  show List.mergeSort (s.unusedImports (unit.imports.map (ImportDecl.shift f)) ++ _) _ = _
  rw [h.unusedImports_eq, ← List.map_append]
  refine (List.map_mergeSort fun a _ b _ => ?_).symm
  exact decide_eq_decide.2 h.ascending.le_iff_le.symm

end Moved

end Resolution

end JavaAnalysis
