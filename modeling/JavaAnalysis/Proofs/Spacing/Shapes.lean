import JavaAnalysis.Layout.OfAst
import JavaAnalysis.Proofs.Spacing.Row
import JavaAnalysis.Proofs.Spacing.Syntax

/-!
# Moved shapes

The nodes of a file that was moved have the shapes of before, with their ranges and the places of
their names moved along. What starts where something else has ended is told by either end, so the
ends of a range in a shape may go with the byte behind them or with the one in front.
Main statement: `CompilationUnit.shapes_moved`.
-/

set_option autoImplicit false
set_option linter.dupNamespace false

namespace JavaAnalysis

open Ast

/-- Two rules for the same gaps, before and after. -/
inductive GapRule.Moved (f : Shift) : GapRule → GapRule → Prop where
  | tokens : Moved f .tokens .tokens
  | declarations : Moved f .declarations .declarations
  | enumBody {r r' : TextRange} (hr : f.TakesRange r r') (members : Option Nat) :
    Moved f (.enumBody r members) (.enumBody r' (members.map f.start))

/-- What is told of the same node before and after. -/
structure NodeSpec.Moved (f : Shift) (s t : NodeSpec) : Prop where
  kind_eq : t.kind = s.kind
  range : f.TakesRange s.range t.range
  word_eq : t.word = s.word
  gaps : s.gaps.Moved f t.gaps
  declares_eq : t.declares = s.declares.map f.start

mutual

/-- Shapes of the same part of a file before and after. -/
inductive Shape.Moved (f : Shift) : Shape → Shape → Prop where
  | ident {r r' : TextRange} (hr : f.TakesRange r r') (use : Option Nat) :
    Shape.Moved f (.ident r use) (.ident r' (use.map f.start))
  | node {s t : NodeSpec} {cs ds : List Shape} (hs : s.Moved f t)
      (hcs : List.Forall₂ (Shape.Moved f) cs ds) :
    Shape.Moved f (.node s cs) (.node t ds)
  | typed {s t : NodeSpec} {before before' after after' : List Shape} {x y : Shape}
      (hs : s.Moved f t) (hbefore : List.Forall₂ (Shape.Moved f) before before')
      (hx : Shape.Moved f x y) (type : TypeRef) (ellipsis : Option TextRange)
      (hafter : List.Forall₂ (Shape.Moved f) after after') :
    Shape.Moved f (.typed s before x type ellipsis after)
      (.typed t before' y (type.shift f) (ellipsis.map f.range) after')
  | clause (kind : ClauseKind) (word : TokenKind) {r r' : TextRange} {types types' : List Shape}
      (hr : f.TakesRange r r') (htypes : List.Forall₂ (Shape.Moved f) types types') :
    Shape.Moved f (.clause kind word r types) (.clause kind word r' types')
  | variables (start : Nat) (terminated : Bool) {before before' : List Shape} {x y : Shape}
      {fs gs : List FragmentShape} (hbefore : List.Forall₂ (Shape.Moved f) before before')
      (hx : Shape.Moved f x y) (type : TypeRef)
      (hfs : List.Forall₂ (FragmentShape.Moved f) fs gs) :
    Shape.Moved f (.variables start terminated before x type fs)
      (.variables (f.start start) terminated before' y (type.shift f) gs)
  | labeled {r r' : TextRange} {body body' : List Shape} (hr : f.TakesRange r r') (label : Ident)
      (hbody : List.Forall₂ (Shape.Moved f) body body') :
    Shape.Moved f (.labeled r label body) (.labeled r' (label.shift f) body')
  | jump (kind : NodeKind) {r r' : TextRange} (hr : f.TakesRange r r') (label : Option Ident) :
    Shape.Moved f (.jump kind r label) (.jump kind r' (label.map (Ident.shift f)))
  | body {inside inside' : List Shape} (h : List.Forall₂ (Shape.Moved f) inside inside') :
    Shape.Moved f (.body inside) (.body inside')

/-- Shapes of the same variable before and after. -/
inductive FragmentShape.Moved (f : Shift) : FragmentShape → FragmentShape → Prop where
  | mk (r : TextRange) (name : Ident) {inside inside' : List Shape}
      (h : List.Forall₂ (Shape.Moved f) inside inside') :
    FragmentShape.Moved f (.mk r name inside) (.mk (f.range r) (name.shift f) inside')

end

variable {f : Shift}

/-! ## Nodes -/

attribute [local simp] List.Forall₂.nil Shift.takes_range

@[simp] theorem Shape.moved_node {s t : NodeSpec} {cs ds : List Shape} :
    Shape.Moved f (.node s cs) (.node t ds) ↔
      s.Moved f t ∧ List.Forall₂ (Shape.Moved f) cs ds := by
  constructor
  · rintro ⟨⟩
    exact ⟨‹_›, ‹_›⟩
  · exact fun h => .node h.1 h.2

@[simp] theorem NodeSpec.moved_plain (kind : NodeKind) (r : TextRange) :
    (NodeSpec.plain kind r).Moved f (.plain kind (f.range r)) :=
  ⟨rfl, f.takes_range r, rfl, .tokens, rfl⟩

@[simp] theorem NodeSpec.moved_headed (kind : NodeKind) (r : TextRange) (word : TokenKind) :
    (NodeSpec.headed kind r word).Moved f (.headed kind (f.range r) word) :=
  ⟨rfl, f.takes_range r, rfl, .tokens, rfl⟩

@[simp] theorem NodeSpec.moved_declaring (kind : NodeKind) (r : TextRange) (o : Nat) :
    (NodeSpec.declaring kind r o).Moved f (.declaring kind (f.range r) (f.start o)) :=
  ⟨rfl, f.takes_range r, rfl, .tokens, rfl⟩

@[simp] theorem Shape.moved_plain (kind : NodeKind) (r : TextRange) {cs ds : List Shape} :
    Shape.Moved f (.plain kind r cs) (.plain kind (f.range r) ds) ↔
      List.Forall₂ (Shape.Moved f) cs ds := by
  simp [Shape.plain]

@[simp] theorem Shape.moved_headed (kind : NodeKind) (r : TextRange) (word : TokenKind)
    {cs ds : List Shape} : Shape.Moved f (.headed kind r word cs) (.headed kind (f.range r) word ds) ↔
      List.Forall₂ (Shape.Moved f) cs ds := by
  simp [Shape.headed]

@[simp] theorem Shape.moved_leaf (kind : NodeKind) (r : TextRange) :
    Shape.Moved f (.leaf kind r) (.leaf kind (f.range r)) := by
  simp [Shape.leaf]

@[simp] theorem Shape.moved_name (n : Ident) : Shape.Moved f (.name n) (.name (n.shift f)) :=
  .ident (f.takes_range _) none

@[simp] theorem Shape.moved_nameUse (n : Ident) :
    Shape.Moved f (.nameUse n) (.nameUse (n.shift f)) :=
  .ident (f.takes_range _) (some n.range.start)

@[simp] theorem Shape.moved_body {cs ds : List Shape} :
    Shape.Moved f (.body cs) (.body ds) ↔ List.Forall₂ (Shape.Moved f) cs ds := by
  constructor
  · rintro ⟨⟩
    assumption
  · exact .body

/-- What comes behind shapes that stand for each other can be looked at alone. -/
@[simp] theorem forall₂_append_iff {α β : Type} {R : α → β → Prop} {as cs : List α} {bs ds : List β}
    (h : List.Forall₂ R as bs) :
    List.Forall₂ R (as ++ cs) (bs ++ ds) ↔ List.Forall₂ R cs ds := by
  induction h with
  | nil => rfl
  | cons hab _ ih => simpa [hab] using ih

namespace Ast

variable (f)

/-! ## Names, lists, and what may be missing -/

theorem selectShape_moved (start : Nat) (use : Option Nat) (names : List Ident) {s t : Shape}
    (h : s.Moved f t) : (selectShape start use s names).Moved f
      (selectShape (f.start start) (use.map f.start) t (names.map (Ident.shift f))) := by
  induction names generalizing s t with
  | nil => exact h
  | cons name names ih =>
    cases names with
    | nil =>
      exact .node (NodeSpec.moved_plain .memberSelect ⟨start, name.range.stop⟩)
        (.cons h (.cons (.ident (f.takes_range _) use) .nil))
    | cons next names =>
      exact ih (.node (NodeSpec.moved_plain .memberSelect ⟨start, name.range.stop⟩)
        (.cons h (.cons (Shape.moved_name name) .nil)))

theorem QualifiedName.shape_moved (n : QualifiedName) (isUse : Bool) :
    (n.shape isUse).Moved f ((n.shift f).shape isUse) := by
  have huse : (if isUse then some (f.start n.range.start) else none) =
      (if isUse then some n.range.start else none).map f.start := by
    cases isUse <;> rfl
  simp only [QualifiedName.shape, QualifiedName.shift_range, QualifiedName.shift_segments,
    Shift.range_start, huse]
  match n.segments with
  | [] => exact .ident ⟨.start _, .start _⟩ _
  | [first] => exact .ident (f.takes_range _) _
  | first :: second :: rest =>
    exact selectShape_moved f _ _ (second :: rest) (Shape.moved_name first)

variable {f}

theorem listShapes_moved (kind : NodeKind) (r : Option TextRange) {items items' : List Shape}
    (h : List.Forall₂ (Shape.Moved f) items items') :
    List.Forall₂ (Shape.Moved f) (listShapes kind r items)
      (listShapes kind (r.map f.range) items') := by
  cases r with
  | none => exact h
  | some r => simpa [listShapes] using h

theorem clauseShapes_moved (kind : ClauseKind) (word : TokenKind) {ts : List TypeRef}
    (h : List.Forall₂ (Shape.Moved f) (TypeRef.shapes ts)
      (TypeRef.shapes (ts.map (TypeRef.shift f)))) :
    List.Forall₂ (Shape.Moved f) (clauseShapes kind word ts)
      (clauseShapes kind word (ts.map (TypeRef.shift f))) := by
  unfold clauseShapes
  rw [List.head?_map, List.getLast?_map]
  cases ts.head? with
  | none => exact .nil
  | some first =>
    cases ts.getLast? with
    | none => exact .nil
    | some last =>
      simp only [Option.map_some, TypeRef.shift_range]
      exact .cons (.clause kind word ⟨.start _, .stop _⟩ h) .nil

theorem exprListShapes_moved (kind : NodeKind) (es : List Expr) {items items' : List Shape}
    (h : List.Forall₂ (Shape.Moved f) items items') :
    List.Forall₂ (Shape.Moved f) (exprListShapes kind es items)
      (exprListShapes kind (es.map (Expr.shift f)) items') := by
  unfold exprListShapes
  rw [List.head?_map, List.getLast?_map]
  cases es.head? with
  | none => exact .nil
  | some first =>
    cases es.getLast? with
    | none => exact .nil
    | some last =>
      simp only [Option.map_some, Expr.shift_range]
      exact .cons (.node (NodeSpec.moved_plain kind ⟨first.range.start, last.range.stop⟩) h) .nil

theorem typedShape_moved {s t : NodeSpec} {before before' after after' : List Shape}
    (hs : s.Moved f t) (hbefore : List.Forall₂ (Shape.Moved f) before before')
    {type : Option TypeRef} (htype : ∀ t ∈ type, t.shape.Moved f (t.shift f).shape)
    (ellipsis : Option TextRange) (hafter : List.Forall₂ (Shape.Moved f) after after') :
    (typedShape s before type ellipsis after).Moved f
      (typedShape t before' (type.map (TypeRef.shift f)) (ellipsis.map f.range) after') := by
  cases type with
  | none => exact .node hs (List.rel_append hbefore hafter)
  | some type => exact .typed hs hbefore (htype type rfl) type ellipsis hafter

theorem bracketShapes_moved (brackets : List TextRange) :
    List.Forall₂ (Shape.Moved f) (bracketShapes brackets) (bracketShapes (brackets.map f.range)) := by
  unfold bracketShapes
  rw [List.map_map, List.forall₂_map_left_iff, List.forall₂_map_right_iff]
  exact List.forall₂_same.2 fun r _ => Shape.moved_leaf _ r

theorem rangeOfAll?_shift (ms : List Modifier) :
    Modifier.rangeOfAll? (ms.map (Modifier.shift f)) = (Modifier.rangeOfAll? ms).map f.range := by
  cases ms with
  | nil => rfl
  | cons m ms =>
    have hlast : (m.shift f :: ms.map (Modifier.shift f)).getLast (List.cons_ne_nil _ _) =
        ((m :: ms).getLast (List.cons_ne_nil _ _)).shift f :=
      List.getLast_map (l := m :: ms) (List.cons_ne_nil _ _)
    show some _ = some _
    rw [hlast, Modifier.shift_range, Modifier.shift_range]
    rfl

theorem modifierShapes_moved (ms : List Modifier) {markers markers' : List Shape}
    (h : List.Forall₂ (Shape.Moved f) markers markers') :
    List.Forall₂ (Shape.Moved f) (modifierShapes ms markers)
      (modifierShapes (ms.map (Modifier.shift f)) markers') := by
  unfold modifierShapes
  rw [rangeOfAll?_shift]
  exact listShapes_moved .modifiers _ h

@[simp] theorem Member.shift_range (m : Member) : (m.shift f).range = f.range m.range := by
  cases m <;> simp! [Member.range]

/-- The members of an enum may start where its last constant ends. -/
theorem bodyGaps_moved (kind : TypeDeclKind) (r : TextRange) (constants : List EnumConstant)
    (members : List Member) : (bodyGaps kind r constants members).Moved f
      (bodyGaps kind (f.range r) (constants.map (EnumConstant.shift f))
        (members.map (Member.shift f))) := by
  unfold bodyGaps
  split
  · have hmembers : ((members.map (Member.shift f)).head?.map fun m => m.range.start) =
        (members.head?.map fun m => m.range.start).map f.start := by
      cases members <;> simp
    rw [hmembers, List.getLast?_map]
    refine .enumBody ⟨?_, .stop _⟩ _
    cases constants.getLast? with
    | none => exact .start _
    | some c =>
      simp only [Option.map_some, Option.getD_some, EnumConstant.shift_range]
      exact .stop _
  · exact .declarations

theorem isTerminated_shift (hf : StrictMono f.start) (r : TextRange)
    (fragments : List VarFragment) :
    isTerminated (f.range r) (fragments.map (VarFragment.shift f)) =
      isTerminated r fragments := by
  unfold isTerminated
  rw [List.getLast?_map]
  cases fragments.getLast? with
  | none => rfl
  | some v =>
    simp only [Option.map_some, Option.any_some, VarFragment.shift_range, Shift.range_stop,
      Shift.stop_lt_stop_iff hf]

/-! ## All parts of a file -/

mutual

theorem TypeRef.shape_moved : ∀ t : TypeRef, t.shape.Moved f (t.shift f).shape
  | .primitive _ _ | .inferred _ | .wildcard _ => by simp [TypeRef.shift, TypeRef.shape]
  | .named r qualifier name argsRange args => by
    have hnamed : NodeSpec.Moved f (.plain .classType ⟨r.start, name.range.stop⟩)
        (.plain .classType ⟨f.start r.start, f.stop name.range.stop⟩) :=
      NodeSpec.moved_plain .classType ⟨r.start, name.range.stop⟩
    cases qualifier with
    | none =>
      cases argsRange <;>
        simp [TypeRef.shift, TypeRef.shape, Shape.plain, hnamed, TypeRef.shapes_moved args]
    | some q =>
      cases argsRange <;>
        simp [TypeRef.shift, TypeRef.shape, Shape.plain, hnamed, q.shape_moved,
          TypeRef.shapes_moved args]
  | .array _ element _ => by simp [TypeRef.shift, TypeRef.shape, element.shape_moved]
  | .bounded _ _ bound => by simp [TypeRef.shift, TypeRef.shape, bound.shape_moved]
  | .union _ ts => by simp [TypeRef.shift, TypeRef.shape, TypeRef.shapes_moved ts]
  | .intersection _ ts => by simp [TypeRef.shift, TypeRef.shape, TypeRef.shapes_moved ts]

theorem TypeRef.shapes_moved : ∀ ts : List TypeRef, List.Forall₂ (Shape.Moved f)
    (TypeRef.shapes ts) (TypeRef.shapes (ts.map (TypeRef.shift f)))
  | [] => by simp [TypeRef.shapes]
  | t :: ts => by simp [TypeRef.shapes, t.shape_moved, TypeRef.shapes_moved ts]

end

section

-- Only the last declarator of a statement asks for the order, and through it all that holds one.
set_option linter.unusedSectionVars false

variable (hf : StrictMono f.start)
include hf

attribute [local simp] listShapes_moved modifierShapes_moved exprListShapes_moved
  clauseShapes_moved bracketShapes_moved TypeRef.shape_moved TypeRef.shapes_moved
  QualifiedName.shape_moved typeArgsShapes

mutual

theorem AnnotationUse.shape_moved : ∀ use : AnnotationUse,
    use.shape.Moved f (use.shift f).shape
  | .mk _ name argsRange args => by simp! [elementShapes_moved args]

theorem elementShapes_moved : ∀ args : List ElementValue, List.Forall₂ (Shape.Moved f)
    (elementShapes args) (elementShapes (args.map (ElementValue.shift f)))
  | [] => by simp!
  | .mk _ none value :: args => by simp! [value.shape_moved, elementShapes_moved args]
  | .mk _ (some name) value :: args => by simp! [value.shape_moved, elementShapes_moved args]

theorem AnnotationUse.shapes_moved : ∀ uses : List AnnotationUse, List.Forall₂ (Shape.Moved f)
    (AnnotationUse.shapes uses) (AnnotationUse.shapes (uses.map (AnnotationUse.shift f)))
  | [] => by simp!
  | use :: uses => by simp! [use.shape_moved, AnnotationUse.shapes_moved uses]

theorem markerShapes_moved : ∀ ms : List Modifier, List.Forall₂ (Shape.Moved f)
    (markerShapes ms) (markerShapes (ms.map (Modifier.shift f)))
  | [] => by simp!
  | .word _ _ :: ms => by simp! [markerShapes_moved ms]
  | .annotated use :: ms => by simp! [use.shape_moved, markerShapes_moved ms]

theorem TypeDecl.shape_moved : ∀ decl : TypeDecl, decl.shape.Moved f (decl.shift f).shape
  | .mk r kind ms name typeParamsRange typeParams componentsRange components supers interfaces
      permitted (.mk bodyRange constants members) => by
    have hspec : NodeSpec.Moved f
        ⟨kind.node, r, none, bodyGaps kind bodyRange constants members, some name.range.start⟩
        ⟨kind.node, f.range r, none, bodyGaps kind (f.range bodyRange)
          (constants.map (EnumConstant.shift f)) (members.map (Member.shift f)),
          some (f.start name.range.start)⟩ :=
      ⟨rfl, f.takes_range r, rfl, bodyGaps_moved kind bodyRange constants members, rfl⟩
    simp! [hspec, markerShapes_moved ms, typeParamShapes_moved typeParams,
      Param.shapes_moved components, constantShapes_moved constants, Member.shapes_moved members]

theorem anonymousShapes_moved : ∀ body : Option ClassBody, List.Forall₂ (Shape.Moved f)
    (anonymousShapes body) (anonymousShapes (body.map (ClassBody.shift f)))
  | none => by simp!
  | some (.mk r constants members) => by
    have hspec : NodeSpec.Moved f ⟨.classDecl, r, none, .declarations, some r.start⟩
        ⟨.classDecl, f.range r, none, .declarations, some (f.start r.start)⟩ :=
      ⟨rfl, f.takes_range r, rfl, .declarations, rfl⟩
    simp! [hspec, constantShapes_moved constants, Member.shapes_moved members]

theorem constantShapes_moved : ∀ constants : List EnumConstant, List.Forall₂ (Shape.Moved f)
    (constantShapes constants) (constantShapes (constants.map (EnumConstant.shift f)))
  | [] => by simp!
  | .mk _ ms name argsRange args body :: constants => by
    simp! [markerShapes_moved ms, Expr.shapes_moved args, anonymousShapes_moved body,
      constantShapes_moved constants]

theorem Member.shapes_moved : ∀ members : List Member, List.Forall₂ (Shape.Moved f)
    (Member.shapes members) (Member.shapes (members.map (Member.shift f)))
  | [] => by simp!
  | .field decl :: members => by simp! [decl.shape_moved, Member.shapes_moved members]
  | .method decl :: members => by simp! [decl.shape_moved, Member.shapes_moved members]
  | .initializer _ isStatic body :: members => by
    simp! [body.shape_moved, Member.shapes_moved members]
  | .type decl :: members => by simp! [decl.shape_moved, Member.shapes_moved members]

theorem MethodDecl.shape_moved : ∀ decl : MethodDecl, decl.shape.Moved f (decl.shift f).shape
  | .mk r ms typeParamsRange typeParams returnType name paramsRange params brackets thrown
      defaultValue body => by
    have htyped := @typedShape_moved f
      (.declaring (if returnType.isNone then .constructor else .method) r name.range.start)
      _ _ _ _ _ (NodeSpec.moved_declaring _ _ _)
      (List.rel_append (modifierShapes_moved ms (markerShapes_moved ms))
        (listShapes_moved .typeParameters typeParamsRange (typeParamShapes_moved typeParams)))
      returnType (fun t _ => t.shape_moved) none
      (.cons (Shape.moved_name name) (List.rel_append (List.rel_append (List.rel_append
        (List.rel_append (listShapes_moved .parameterList paramsRange (Param.shapes_moved params))
          (bracketShapes_moved brackets))
        (clauseShapes_moved .throwing .throwsKw (TypeRef.shapes_moved thrown)))
        (optionalShapes_moved defaultValue)) (blockShapes_moved body)))
    simpa! using htyped

theorem typeParamShapes_moved : ∀ params : List TypeParam, List.Forall₂ (Shape.Moved f)
    (typeParamShapes params) (typeParamShapes (params.map (TypeParam.shift f)))
  | [] => by simp!
  | .mk _ marks name bounds :: params => by
    simp! [AnnotationUse.shapes_moved marks, typeParamShapes_moved params]

theorem Param.shapes_moved : ∀ ps : List Param, List.Forall₂ (Shape.Moved f)
    (Param.shapes ps) (Param.shapes (ps.map (Param.shift f)))
  | [] => by simp!
  | p :: ps => by simp! [p.shape_moved, Param.shapes_moved ps]

theorem Param.shape_moved : ∀ p : Param, p.shape.Moved f (p.shift f).shape
  | .mk r ms type ellipsis name brackets => by
    have htyped := @typedShape_moved f (.declaring .parameter r name.range.start) _ _ _ _ _
      (NodeSpec.moved_declaring _ _ _) (modifierShapes_moved ms (markerShapes_moved ms)) type
      (fun t _ => t.shape_moved) ellipsis
      (.cons (Shape.moved_name name) (bracketShapes_moved brackets))
    simpa! using htyped

theorem VarDecl.shape_moved : ∀ decl : VarDecl, decl.shape.Moved f (decl.shift f).shape
  | .mk r ms type fragments => by
    simp! only [Modifier.shiftAll_eq, VarFragment.shiftAll_eq, isTerminated_shift hf]
    exact .variables _ _ (modifierShapes_moved ms (markerShapes_moved ms)) type.shape_moved type
      (fragmentShapes_moved fragments)

theorem fragmentShapes_moved : ∀ fragments : List VarFragment,
    List.Forall₂ (FragmentShape.Moved f) (fragmentShapes fragments)
      (fragmentShapes (fragments.map (VarFragment.shift f)))
  | [] => by simp!
  | .mk r name brackets init :: fragments => by
    simp! only [List.map_cons, Expr.shiftOption_eq]
    exact .cons (.mk r name (List.rel_append (bracketShapes_moved brackets)
      (optionalShapes_moved init))) (fragmentShapes_moved fragments)

theorem Block.shape_moved : ∀ b : Block, b.shape.Moved f (b.shift f).shape
  | .mk _ ss => by simp! [Stmt.shapes_moved ss]

theorem blockShapes_moved : ∀ b : Option Block, List.Forall₂ (Shape.Moved f)
    (blockShapes b) (blockShapes (b.map (Block.shift f)))
  | none => by simp!
  | some b => by simp! [b.shape_moved]

theorem Stmt.shapes_moved : ∀ ss : List Stmt, List.Forall₂ (Shape.Moved f)
    (Stmt.shapes ss) (Stmt.shapes (ss.map (Stmt.shift f)))
  | [] => by simp!
  | s :: ss => by simp! [s.shape_moved, Stmt.shapes_moved ss]

theorem Stmt.shape_moved : ∀ s : Stmt, s.shape.Moved f (s.shift f).shape
  | .localVar decl => by simp! [decl.shape_moved]
  | .block b => by simp! [b.shape_moved]
  | .localType decl => by simp! [decl.shape_moved]
  | .expression _ e => by simp! [e.shape_moved]
  | .ifThen _ cond body => by simp! [cond.shape_moved, body.shape_moved]
  | .ifThenElse _ cond body alternative => by
    simp! [cond.shape_moved, body.shape_moved, alternative.shape_moved]
  | .whileLoop _ cond body => by simp! [cond.shape_moved, body.shape_moved]
  | .doLoop _ body cond => by simp! [cond.shape_moved, body.shape_moved]
  | .forLoop _ init cond update body => by
    simp! [forInitShapes_moved init, optionalShapes_moved cond, Expr.shapes_moved update,
      body.shape_moved]
  | .forEach _ var iterable body => by
    simp! [var.shape_moved, iterable.shape_moved, body.shape_moved]
  | .returning _ e => by simp! [optionalShapes_moved e]
  | .breaking r label => by
    simp! only
    exact .jump _ (f.takes_range r) label
  | .continuing r label => by
    simp! only
    exact .jump _ (f.takes_range r) label
  | .yielding _ e => by simp! [e.shape_moved]
  | .labeled r label body => by
    simp! only
    exact .labeled (f.takes_range r) label (.cons body.shape_moved .nil)
  | .throwing _ e => by simp! [e.shape_moved]
  | .trying _ resourcesRange resources body catches final => by
    simp! [resourceShapes_moved resources, body.shape_moved, catchShapes_moved catches,
      blockShapes_moved final]
  | .switching _ selector _ cases => by simp! [selector.shape_moved, caseShapes_moved cases]
  | .synchronizing _ lock body => by simp! [lock.shape_moved, body.shape_moved]
  | .asserting _ cond message => by simp! [cond.shape_moved, optionalShapes_moved message]
  | .empty _ => by simp!

theorem forInitShapes_moved : ∀ init : ForInit, List.Forall₂ (Shape.Moved f)
    (forInitShapes init) (forInitShapes (init.shift f))
  | .absent => by simp!
  | .decl decl => by simp! [decl.shape_moved]
  | .exprs es => by simp! [Expr.shapes_moved es]

theorem resourceShapes_moved : ∀ rs : List Resource, List.Forall₂ (Shape.Moved f)
    (resourceShapes rs) (resourceShapes (rs.map (Resource.shift f)))
  | [] => by simp!
  | .decl decl :: rs => by simp! [decl.shape_moved, resourceShapes_moved rs]
  | .expr e :: rs => by simp! [e.shape_moved, resourceShapes_moved rs]

theorem catchShapes_moved : ∀ catches : List CatchClause, List.Forall₂ (Shape.Moved f)
    (catchShapes catches) (catchShapes (catches.map (CatchClause.shift f)))
  | [] => by simp!
  | .mk _ param body :: catches => by
    simp! [param.shape_moved, body.shape_moved, catchShapes_moved catches]

theorem caseShapes_moved : ∀ cases : List SwitchCase, List.Forall₂ (Shape.Moved f)
    (caseShapes cases) (caseShapes (cases.map (SwitchCase.shift f)))
  | [] => by simp!
  | .mk _ labels _ body :: cases => by
    simp! [labelShapes_moved labels, Stmt.shapes_moved body, caseShapes_moved cases]

theorem labelShapes_moved : ∀ labels : List CaseLabel, List.Forall₂ (Shape.Moved f)
    (labelShapes labels) (labelShapes (labels.map (CaseLabel.shift f)))
  | [] => by simp!
  | .default _ :: labels => by simp! [labelShapes_moved labels]
  | .values _ values :: labels => by simp! [Expr.shapes_moved values, labelShapes_moved labels]
  | .pattern _ p guard :: labels => by
    simp! [p.shape_moved, optionalShapes_moved guard, labelShapes_moved labels]

theorem Pattern.shape_moved : ∀ p : Pattern, p.shape.Moved f (p.shift f).shape
  | .mk r ms type name => by
    simp! only [Modifier.shiftAll_eq]
    exact .typed (NodeSpec.moved_declaring .pattern r name.range.start)
      (modifierShapes_moved ms (markerShapes_moved ms)) type.shape_moved type none
      (.cons (Shape.moved_name name) .nil)

theorem Expr.shapes_moved : ∀ es : List Expr, List.Forall₂ (Shape.Moved f)
    (Expr.shapes es) (Expr.shapes (es.map (Expr.shift f)))
  | [] => by simp!
  | e :: es => by simp! [e.shape_moved, Expr.shapes_moved es]

theorem optionalShapes_moved : ∀ e : Option Expr, List.Forall₂ (Shape.Moved f)
    (optionalShapes e) (optionalShapes (e.map (Expr.shift f)))
  | none => by simp!
  | some e => by simp! [e.shape_moved]

theorem dimShapes_moved : ∀ dims : List DimExpr, List.Forall₂ (Shape.Moved f)
    (dimShapes dims) (dimShapes (dims.map (DimExpr.shift f)))
  | [] => by simp!
  | .mk _ size :: dims => by simp! [optionalShapes_moved size, dimShapes_moved dims]

theorem Expr.shape_moved : ∀ e : Expr, e.shape.Moved f (e.shift f).shape
  | .literal _ _ | .name _ | .this _ | .super _ => by simp!
  | .fieldAccess _ target _ => by simp! [target.shape_moved]
  | .methodCall r (some target) typeArgsRange typeArgs name argsRange args => by
    have hselect : NodeSpec.Moved f (.plain .memberSelect ⟨r.start, name.range.stop⟩)
        (.plain .memberSelect ⟨f.start r.start, f.stop name.range.stop⟩) :=
      NodeSpec.moved_plain .memberSelect ⟨r.start, name.range.stop⟩
    simp! [Shape.plain, hselect, target.shape_moved, Expr.shapes_moved args]
  | .methodCall _ none typeArgsRange typeArgs _ _ args => by simp! [Expr.shapes_moved args]
  | .newObject _ outer type _ args body => by
    simp! [optionalShapes_moved outer, Expr.shapes_moved args, anonymousShapes_moved body]
  | .newArray _ element dims initRange init => by
    simp! [dimShapes_moved dims, Expr.shapes_moved init]
  | .arrayInit _ items => by simp! [Expr.shapes_moved items]
  | .arrayAccess _ array index => by simp! [array.shape_moved, index.shape_moved]
  | .unary _ _ operand => by simp! [operand.shape_moved]
  | .binary _ _ lhs rhs => by simp! [lhs.shape_moved, rhs.shape_moved]
  | .assign _ _ target value => by simp! [target.shape_moved, value.shape_moved]
  | .conditional _ cond yes no => by simp! [cond.shape_moved, yes.shape_moved, no.shape_moved]
  | .instanceOf _ operand _ => by simp! [operand.shape_moved]
  | .instanceOfPattern _ operand pattern => by simp! [operand.shape_moved, pattern.shape_moved]
  | .cast _ _ operand => by simp! [operand.shape_moved]
  | .paren _ inner => by simp! [inner.shape_moved]
  | .classLiteral _ _ => by simp!
  | .lambdaExpr _ _ params _ body => by simp! [Param.shapes_moved params, body.shape_moved]
  | .lambdaBlock _ _ params _ body => by simp! [Param.shapes_moved params, body.shape_moved]
  | .methodRef _ target name => by
    cases name <;> simp! [target.shape_moved]
  | .switching _ selector _ cases => by simp! [selector.shape_moved, caseShapes_moved cases]
  | .annotated use => by simp! [use.shape_moved]
  | .type _ => by simp!

end

/-- The shapes of a file that was moved. -/
theorem CompilationUnit.shapes_moved (unit : CompilationUnit) :
    List.Forall₂ (Shape.Moved f) unit.shapes (unit.shift f).shapes := by
  obtain ⟨_, package, imports, types⟩ := unit
  have himports : List.Forall₂ (Shape.Moved f) (imports.map ImportDecl.shape)
      ((imports.map (ImportDecl.shift f)).map ImportDecl.shape) := by
    rw [List.map_map, List.forall₂_map_left_iff, List.forall₂_map_right_iff]
    refine List.forall₂_same.2 fun i _ => ?_
    simp [ImportDecl.shape, ImportDecl.shift]
  have htypes : List.Forall₂ (Shape.Moved f) (types.map TypeDecl.shape)
      ((types.map (TypeDecl.shift f)).map TypeDecl.shape) := by
    rw [List.map_map, List.forall₂_map_left_iff, List.forall₂_map_right_iff]
    exact List.forall₂_same.2 fun decl _ => decl.shape_moved hf
  have hpackage : List.Forall₂ (Shape.Moved f) (package.map PackageDecl.shape).toList
      ((package.map (PackageDecl.shift f)).map PackageDecl.shape).toList := by
    cases package with
    | none => exact .nil
    | some p => simp [PackageDecl.shape, PackageDecl.shift, AnnotationUse.shapes_moved hf]
  exact List.rel_append (List.rel_append hpackage himports) htypes

end

end Ast

end JavaAnalysis
