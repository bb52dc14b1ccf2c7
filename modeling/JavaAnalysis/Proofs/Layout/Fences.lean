import JavaAnalysis.Layout.OfAst
import JavaAnalysis.Proofs.Tree.Formed
import JavaAnalysis.Tree.View

/-!
# Labels around jumps

Where a jump goes is read off the tree: up from the name in the jump, the first statement with a
label of that name, unless the way there leaves the body of a lambda or a member of a type.
-/

set_option autoImplicit false
set_option linter.dupNamespace false

namespace JavaAnalysis

/-- A child of the one kind is, below a node of the other, the body of a lambda or a member. -/
def NodeKind.isBodyIn (child parent : NodeKind) : Bool :=
  (parent == .lambdaExpression && child != .parameterList) ||
    ((TypeView.ofKind? parent).isSome && (MemberView.ofKind? child).isSome)

def NodeKind.isJump (k : NodeKind) : Bool := k == .breakStatement || k == .continueStatement

namespace SyntaxTree

variable (t : SyntaxTree)

/-- How an identifier is written. -/
def spelling? (id : NodeId) : Option String := (t.identifierToken? id).map t.tokenText

/-- The node is a statement with a label of the name. -/
def HasLabel (id : NodeId) (name : String) : Prop :=
  t.kind id = .labeledStatement ∧ (t.nameOf? id).map t.tokenText = some name

/-- The node is the name of a label in a jump. -/
def isJumpName (id : NodeId) : Bool :=
  t.kind id == .identifier && (t.parent? id).any fun p => (t.kind p).isJump

/-- The names of labels in the jumps of the tree. -/
def jumpNames : List NodeId := t.ids.filter t.isJumpName

def labeledStatements : List NodeId := t.ids.filter fun id => t.kind id == .labeledStatement

/-- The first statement with a label of the name on the way up, on which no body is left. -/
inductive Reaches (name : String) : NodeId → NodeId → Prop
  | here {id s : NodeId} : t.parent? id = some s → (t.kind id).isBodyIn (t.kind s) = false →
    t.HasLabel s name → Reaches name id s
  | above {id p s : NodeId} : t.parent? id = some p → (t.kind id).isBodyIn (t.kind p) = false →
    ¬ t.HasLabel p name → Reaches name p s → Reaches name id s

variable {t} {name : String} {id p : NodeId}

theorem nodup_ids : t.ids.Nodup :=
  List.nodup_range.map fun _ _ h => congrArg NodeId.index h

theorem mem_jumpNames : id ∈ t.jumpNames ↔ id.index < t.nodes.size ∧ t.isJumpName id = true := by
  rw [jumpNames, List.mem_filter, mem_ids]

theorem mem_labeledStatements :
    id ∈ t.labeledStatements ↔ id.index < t.nodes.size ∧ t.kind id = .labeledStatement := by
  simp [labeledStatements, mem_ids]

theorem nodup_jumpNames : t.jumpNames.Nodup := nodup_ids.filter _

theorem nodup_labeledStatements : t.labeledStatements.Nodup := nodup_ids.filter _

/-- Nothing is above the root. -/
theorem Formed.parent?_root (h : t.Formed) : t.parent? t.root = none := by
  rw [Option.eq_none_iff_forall_ne_some]
  intro p hp
  have hchild : t.root ∈ t.children p :=
    mem_children.2 (List.mem_of_getElem? ((h.slot_iff p _ t.root).2 ⟨hp, rfl⟩))
  have hmem : t.root ∈ t.ids.flatMap t.children :=
    List.mem_flatMap.2 ⟨p, mem_ids.2 (h.lt_size p _ (mem_children.1 hchild)), hchild⟩
  exact (List.nodup_cons.1 (h.perm.nodup_iff.2 nodup_ids)).1 hmem

theorem Reaches.exists_parent {s : NodeId} (h : t.Reaches name id s) :
    ∃ p, t.parent? id = some p ∧ (t.kind id).isBodyIn (t.kind p) = false := by
  cases h with
  | here hparent hin _ => exact ⟨_, hparent, hin⟩
  | above hparent hin _ _ => exact ⟨_, hparent, hin⟩

/-- A label above a node that has another label or none is a label above its child nodes. -/
theorem reaches_iff_parent (hparent : t.parent? id = some p)
    (hin : (t.kind id).isBodyIn (t.kind p) = false) (hlabel : ¬ t.HasLabel p name) (s : NodeId) :
    t.Reaches name id s ↔ t.Reaches name p s := by
  refine ⟨fun h => ?_, .above hparent hin hlabel⟩
  cases h with
  | here hparent' _ hlabel' =>
    cases hparent.symm.trans hparent'
    exact absurd hlabel' hlabel
  | above hparent' _ _ hrest =>
    cases hparent.symm.trans hparent'
    exact hrest

theorem reaches_iff_of_hasLabel (hparent : t.parent? id = some p)
    (hin : (t.kind id).isBodyIn (t.kind p) = false) (hlabel : t.HasLabel p name) (s : NodeId) :
    t.Reaches name id s ↔ s = p := by
  constructor
  · intro h
    cases h with
    | here hparent' _ _ => exact Option.some.inj (hparent'.symm.trans hparent)
    | above hparent' _ hlabel' _ =>
      cases hparent.symm.trans hparent'
      exact absurd hlabel hlabel'
  · rintro rfl
    exact .here hparent hin hlabel

theorem not_reaches_of_isBodyIn (hparent : t.parent? id = some p)
    (hin : (t.kind id).isBodyIn (t.kind p) = true) (s : NodeId) : ¬ t.Reaches name id s := by
  intro h
  obtain ⟨p', hparent', hin'⟩ := h.exists_parent
  cases hparent.symm.trans hparent'
  rw [hin] at hin'
  cases hin'

theorem not_reaches_of_root (hparent : t.parent? id = none) (s : NodeId) :
    ¬ t.Reaches name id s := by
  intro h
  obtain ⟨p, hparent', -⟩ := h.exists_parent
  rw [hparent] at hparent'
  cases hparent'

end SyntaxTree

end JavaAnalysis

/-!
## Bodies among shapes

A shape is fenced if the bodies inside it, in which labels around them are out of reach, are the
bodies of lambdas and the members of types and nothing else is, and if labels and jumps have nodes
of kinds that nothing else has. Main statements: `allFenced_of_whole`, `allFenced_body`.
-/

namespace JavaAnalysis

open Ast

/-- No child of a node of the kind is a body in it, and it is neither a jump nor has it a label. -/
def NodeKind.isOrdinary : NodeKind → Bool
  | .lambdaExpression => false
  | .classDecl => false
  | .interfaceDecl => false
  | .enumDecl => false
  | .recordDecl => false
  | .labeledStatement => false
  | .breakStatement => false
  | .continueStatement => false
  | _ => true

/-- A node of the kind is made for what it stands for, not for a label or a jump. -/
def NodeKind.isPlain (k : NodeKind) : Bool := !k.isJump && k != .labeledStatement

mutual

/-- The kinds of the nodes that a shape becomes. -/
def Shape.kinds : Shape → List NodeKind
  | .ident _ _ => [.identifier]
  | .node spec _ => [spec.kind]
  | .typed spec _ _ _ _ _ => [spec.kind]
  | .clause kind _ _ _ => [kind.node]
  | .variables _ _ _ _ _ _ => [.variableDecl]
  | .labeled _ _ _ => [.labeledStatement]
  | .jump kind _ _ => [kind]
  | .body inside => kindsOf inside

def kindsOf : List Shape → List NodeKind
  | [] => []
  | s :: ss => s.kinds ++ kindsOf ss

end

/-- Below a node of the kind, the shape becomes bodies if it is a body, and else none. -/
def Shape.Sits (parent : NodeKind) : Shape → Prop
  | .body inside => ∀ k ∈ kindsOf inside, k.isBodyIn parent = true
  | s => ∀ k ∈ s.kinds, k.isBodyIn parent = false

mutual

/-- Inside the shape, bodies are where they must be, and labels and jumps have their own nodes. -/
def Shape.Fenced : Shape → Prop
  | .ident _ _ => True
  | .node spec children => spec.kind.isPlain = true ∧ AllFenced spec.kind children
  | .typed spec before typeShape _ _ after =>
    spec.kind.isPlain = true ∧ AllFenced spec.kind before ∧
      (typeShape.Sits spec.kind ∧ typeShape.Fenced) ∧ AllFenced spec.kind after
  | .clause kind _ _ types => AllFenced kind.node types
  | .variables _ _ before typeShape _ fragments =>
    AllFenced .variableDecl before ∧ (typeShape.Sits .variableDecl ∧ typeShape.Fenced) ∧
      FragmentsFenced fragments
  | .labeled _ _ body => .identifier ∉ kindsOf body ∧ AllFenced .labeledStatement body
  | .jump kind _ _ => kind.isJump = true
  | .body inside => AllFenced .block inside

/-- The shapes are fenced as child nodes of a node of the kind. -/
def AllFenced (parent : NodeKind) : List Shape → Prop
  | [] => True
  | s :: ss => (s.Sits parent ∧ s.Fenced) ∧ AllFenced parent ss

def FragmentsFenced : List FragmentShape → Prop
  | [] => True
  | .mk _ _ inside :: fragments => AllFenced .variableDecl inside ∧ FragmentsFenced fragments

end

variable {parent kind : NodeKind} {shape : Shape} {shapes others : List Shape}

theorem NodeKind.isBodyIn_of_isOrdinary (h : parent.isOrdinary = true) (k : NodeKind) :
    k.isBodyIn parent = false := by
  cases parent <;> first | rfl | cases h

theorem NodeKind.isPlain_of_isOrdinary (h : kind.isOrdinary = true) : kind.isPlain = true := by
  cases kind <;> first | rfl | cases h

theorem NodeKind.not_isJump_of_isPlain (h : kind.isPlain = true) :
    kind.isJump = false ∧ kind ≠ .labeledStatement := by
  simpa [NodeKind.isPlain] using h

theorem allFenced_iff : AllFenced parent shapes ↔ ∀ s ∈ shapes, s.Sits parent ∧ s.Fenced := by
  induction shapes with
  | nil => simp [AllFenced]
  | cons s ss ih => simp [AllFenced, ih]

theorem mem_kindsOf {k : NodeKind} : k ∈ kindsOf shapes ↔ ∃ s ∈ shapes, k ∈ s.kinds := by
  induction shapes with
  | nil => simp [kindsOf]
  | cons s ss ih => simp [kindsOf, ih]

/-! ## Whole shapes -/

def Shape.isBody : Shape → Bool
  | .body _ => true
  | _ => false

/-- The shape is fenced, and it is no body. -/
def Shape.Whole (s : Shape) : Prop := s.isBody = false ∧ s.Fenced

theorem Shape.Whole.sits (h : shape.Whole) (hkind : ∀ k ∈ shape.kinds, k.isBodyIn parent = false) :
    shape.Sits parent ∧ shape.Fenced := by
  obtain ⟨hbody, hfenced⟩ := h
  refine ⟨?_, hfenced⟩
  cases shape with
  | body => cases hbody
  | _ => exact hkind

def AllWhole (shapes : List Shape) : Prop := ∀ s ∈ shapes, s.Whole

@[simp]
theorem allWhole_nil : AllWhole [] := nofun

@[simp]
theorem allWhole_cons : AllWhole (shape :: shapes) ↔ shape.Whole ∧ AllWhole shapes :=
  List.forall_mem_cons

@[simp]
theorem allWhole_append : AllWhole (shapes ++ others) ↔ AllWhole shapes ∧ AllWhole others :=
  List.forall_mem_append

/-- Below an ordinary node, it is enough that shapes are whole. -/
theorem allFenced_of_whole (hparent : parent.isOrdinary = true) (h : AllWhole shapes) :
    AllFenced parent shapes :=
  allFenced_iff.2 fun s hs => (h s hs).sits fun k _ => NodeKind.isBodyIn_of_isOrdinary hparent k

/-- Below any node, shapes that are whole must not become bodies. -/
theorem allFenced_of_kinds (h : AllWhole shapes)
    (hkinds : ∀ k ∈ kindsOf shapes, k.isBodyIn parent = false) : AllFenced parent shapes :=
  allFenced_iff.2 fun s hs => (h s hs).sits fun k hk => hkinds k (mem_kindsOf.2 ⟨s, hs, hk⟩)

/-- Shapes in a body, behind those in front of it. -/
theorem allFenced_body (h : AllFenced parent shapes) (hbody : AllWhole others)
    (hkinds : ∀ k ∈ kindsOf others, k.isBodyIn parent = true) :
    AllFenced parent (shapes ++ [.body others]) := by
  refine allFenced_iff.2 fun s hs => ?_
  rcases List.mem_append.1 hs with hs | hs
  · exact allFenced_iff.1 h s hs
  · cases List.mem_singleton.1 hs
    refine ⟨hkinds, ?_⟩
    simp only [Shape.Fenced]
    exact allFenced_of_whole rfl hbody

section

-- What a whole shape is made of is told by these equations, one for each kind of shape.
attribute [local simp] Shape.Whole Shape.isBody Shape.Fenced

@[simp]
theorem whole_ident (range : TextRange) (use : Option Nat) : (Shape.ident range use).Whole := by
  simp

@[simp]
theorem whole_node {spec : NodeSpec} (hkind : spec.kind.isOrdinary = true)
    (h : AllWhole shapes) : (Shape.node spec shapes).Whole := by
  have hplain := NodeKind.isPlain_of_isOrdinary hkind
  simpa [hplain] using allFenced_of_whole hkind h

@[simp]
theorem whole_typed {spec : NodeSpec} {type : TypeRef} {ellipsis : Option TextRange}
    (hkind : spec.kind.isOrdinary = true) (hbefore : AllWhole shapes) (htype : shape.Whole)
    (hafter : AllWhole others) :
    (Shape.typed spec shapes shape type ellipsis others).Whole := by
  have hplain := NodeKind.isPlain_of_isOrdinary hkind
  have hsits : shape.Sits spec.kind ∧ shape.Fenced :=
    htype.sits fun k _ => NodeKind.isBodyIn_of_isOrdinary hkind k
  simp [hplain, allFenced_of_whole hkind hbefore, hsits, allFenced_of_whole hkind hafter]

@[simp]
theorem whole_clause {kind : ClauseKind} {word : TokenKind} {range : TextRange}
    (h : AllWhole shapes) : (Shape.clause kind word range shapes).Whole := by
  have hkind : kind.node.isOrdinary = true := by cases kind <;> rfl
  simpa using allFenced_of_whole hkind h

@[simp]
theorem whole_variables {start : Nat} {terminated : Bool} {type : TypeRef}
    {fragments : List FragmentShape} (hbefore : AllWhole shapes) (htype : shape.Whole)
    (hfragments : FragmentsFenced fragments) :
    (Shape.variables start terminated shapes shape type fragments).Whole := by
  have hsits : shape.Sits .variableDecl ∧ shape.Fenced :=
    htype.sits fun k _ => NodeKind.isBodyIn_of_isOrdinary rfl k
  simp [@allFenced_of_whole .variableDecl _ rfl hbefore, hsits, hfragments]

end

end JavaAnalysis
