import JavaAnalysis.Ast.Outline
import JavaAnalysis.Binding.Basic
import JavaAnalysis.Proofs.Spacing.Shift

/-!
# Moved syntax

Moving a file changes where its parts are, and not what they say: their names, their spelling and
their modifiers are those of before. So are the parts themselves, each of which is moved.
-/

set_option autoImplicit false

namespace JavaAnalysis

@[simp] theorem Shift.range_start (f : Shift) (r : TextRange) :
    (f.range r).start = f.start r.start := rfl

@[simp] theorem Shift.range_stop (f : Shift) (r : TextRange) :
    (f.range r).stop = f.stop r.stop := rfl

namespace Ast

variable (f : Shift)

@[simp] theorem Ident.shift_text (n : Ident) : (n.shift f).text = n.text := rfl

@[simp] theorem Ident.shift_range (n : Ident) : (n.shift f).range = f.range n.range := rfl

@[simp] theorem QualifiedName.shift_range (n : QualifiedName) :
    (n.shift f).range = f.range n.range := rfl

@[simp] theorem QualifiedName.shift_segments (n : QualifiedName) :
    (n.shift f).segments = n.segments.map (Ident.shift f) := rfl

theorem map_text_shift (names : List Ident) :
    (names.map (Ident.shift f)).map Ident.text = names.map Ident.text := by
  rw [List.map_map]
  rfl

@[simp] theorem QualifiedName.shift_toDotted (n : QualifiedName) :
    (n.shift f).toDotted = n.toDotted := by
  simp only [QualifiedName.toDotted, QualifiedName.shift_segments, List.map_map, Function.comp_def,
    Ident.shift_text]

/-! ## Types -/

@[simp] theorem TypeRef.shift_range (t : TypeRef) : (t.shift f).range = f.range t.range := by
  cases t <;> rfl

mutual

@[simp] theorem TypeRef.shift_display : ∀ t : TypeRef, (t.shift f).display = t.display
  | .primitive _ _ | .inferred _ | .wildcard _ => rfl
  | .named _ none name argsRange args => by
    simp [TypeRef.shift, TypeRef.display, TypeRef.shift_displayAll args]
  | .named _ (some q) name argsRange args => by
    simp [TypeRef.shift, TypeRef.display, q.shift_display, TypeRef.shift_displayAll args]
  | .array _ element _ => by simp [TypeRef.shift, TypeRef.display, element.shift_display]
  | .bounded _ .upper bound => by simp [TypeRef.shift, TypeRef.display, bound.shift_display]
  | .bounded _ .lower bound => by simp [TypeRef.shift, TypeRef.display, bound.shift_display]
  | .union _ ts => by simp [TypeRef.shift, TypeRef.display, TypeRef.shift_displayAll ts]
  | .intersection _ ts => by simp [TypeRef.shift, TypeRef.display, TypeRef.shift_displayAll ts]

theorem TypeRef.shift_displayAll : ∀ ts : List TypeRef,
    TypeRef.displayAll (ts.map (TypeRef.shift f)) = TypeRef.displayAll ts
  | [] => rfl
  | t :: ts => by
    simp [TypeRef.displayAll, t.shift_display, TypeRef.shift_displayAll ts]

end

@[simp] theorem TypeRef.shift_erased (t : TypeRef) : (t.shift f).erased = t.erased := by
  fun_induction TypeRef.erased t with
  | case1 _ q name argsRange args ih => simp [TypeRef.shift, TypeRef.erased, ih]
  | case2 => simp [TypeRef.shift, TypeRef.erased]
  | case3 t hsome hnone =>
    cases t with
    | named r q name argsRange args =>
      cases q with
      | none => exact absurd rfl (hnone _ _ _ _)
      | some q => exact absurd rfl (hsome _ _ _ _ _)
    | _ => exact TypeRef.shift_display f _

@[simp] theorem TypeRef.shift_isArray (t : TypeRef) : (t.shift f).isArray = t.isArray := by
  cases t <;> rfl

/-! ## Declarations -/

@[simp] theorem TypeDecl.shift_name (d : TypeDecl) : (d.shift f).name = d.name.shift f := by
  cases d
  rfl

@[simp] theorem TypeDecl.shift_range (d : TypeDecl) : (d.shift f).range = f.range d.range := by
  cases d
  rfl

@[simp] theorem EnumConstant.shift_name (c : EnumConstant) : (c.shift f).name = c.name.shift f := by
  cases c
  rfl

@[simp] theorem EnumConstant.shift_range (c : EnumConstant) :
    (c.shift f).range = f.range c.range := by
  cases c
  rfl

@[simp] theorem ClassBody.shift_range (b : ClassBody) : (b.shift f).range = f.range b.range := by
  cases b
  rfl

@[simp] theorem VarFragment.shift_name (v : VarFragment) : (v.shift f).name = v.name.shift f := by
  cases v
  rfl

@[simp] theorem VarFragment.shift_range (v : VarFragment) :
    (v.shift f).range = f.range v.range := by
  cases v
  rfl

@[simp] theorem VarDecl.shift_fragments (d : VarDecl) :
    (d.shift f).fragments = d.fragments.map (VarFragment.shift f) := by
  cases d
  simp! [VarDecl.fragments]

@[simp] theorem VarDecl.shift_range (d : VarDecl) : (d.shift f).range = f.range d.range := by
  cases d
  rfl

@[simp] theorem MethodDecl.shift_name (d : MethodDecl) : (d.shift f).name = d.name.shift f := by
  cases d
  rfl

@[simp] theorem MethodDecl.shift_range (d : MethodDecl) : (d.shift f).range = f.range d.range := by
  cases d
  rfl

@[simp] theorem MethodDecl.shift_isConstructor (d : MethodDecl) :
    (d.shift f).isConstructor = d.isConstructor := by
  cases d
  simp! [MethodDecl.isConstructor]

@[simp] theorem Param.shift_name (p : Param) : (p.shift f).name = p.name.shift f := by
  cases p
  rfl

@[simp] theorem Param.shift_range (p : Param) : (p.shift f).range = f.range p.range := by
  cases p
  rfl

@[simp] theorem Param.shift_modifiers (p : Param) :
    (p.shift f).modifiers = p.modifiers.map (Modifier.shift f) := by
  cases p
  simp! [Param.modifiers]

@[simp] theorem Param.shift_isVarargs (p : Param) : (p.shift f).isVarargs = p.isVarargs := by
  cases p
  simp! [Param.isVarargs]

@[simp] theorem TypeParam.shift_name (p : TypeParam) : (p.shift f).name = p.name.shift f := by
  cases p
  rfl

@[simp] theorem AnnotationUse.shift_range (u : AnnotationUse) :
    (u.shift f).range = f.range u.range := by
  cases u
  rfl

@[simp] theorem Modifier.shift_range (m : Modifier) : (m.shift f).range = f.range m.range := by
  cases m with
  | word => rfl
  | annotated use => exact use.shift_range f

theorem ofModifiers_shift (ms : List Modifier) :
    ModifierSet.ofModifiers (ms.map (Modifier.shift f)) = ModifierSet.ofModifiers ms := by
  unfold ModifierSet.ofModifiers
  rw [List.filterMap_map]
  congr 2
  funext m
  cases m <;> rfl

/-! ## Statements and expressions -/

@[simp] theorem Block.shift_range (b : Block) : (b.shift f).range = f.range b.range := by
  cases b
  rfl

@[simp] theorem Stmt.shift_range (s : Stmt) : (s.shift f).range = f.range s.range := by
  cases s <;> simp! [Stmt.range]

@[simp] theorem Pattern.shift_range (p : Pattern) : (p.shift f).range = f.range p.range := by
  cases p
  rfl

@[simp] theorem CaseLabel.shift_isPattern (l : CaseLabel) :
    (l.shift f).isPattern = l.isPattern := by
  cases l <;> rfl

@[simp] theorem CaseLabel.shift_isDefault (l : CaseLabel) :
    (l.shift f).isDefault = l.isDefault := by
  cases l <;> rfl

@[simp] theorem SwitchCase.shift_labels (c : SwitchCase) :
    (c.shift f).labels = c.labels.map (CaseLabel.shift f) := by
  cases c
  simp! [SwitchCase.labels]

@[simp] theorem SwitchCase.shift_anyDefault (cs : List SwitchCase) :
    SwitchCase.anyDefault (cs.map (SwitchCase.shift f)) = SwitchCase.anyDefault cs := by
  simp only [SwitchCase.anyDefault, List.any_map, Function.comp_def, SwitchCase.shift_labels,
    CaseLabel.shift_isDefault]

@[simp] theorem Expr.shift_range (e : Expr) : (e.shift f).range = f.range e.range := by
  cases e <;> simp! [Expr.range]

@[simp] theorem Expr.shift_stripParens (e : Expr) :
    (e.shift f).stripParens = e.stripParens.shift f := by
  fun_induction Expr.stripParens e with
  | case1 _ e ih => simpa! using ih
  | case2 e hparen =>
    cases e <;> first | rfl | exact absurd rfl (hparen _ _)

end Ast

end JavaAnalysis
