import JavaAnalysis.DimensionFix
import JavaAnalysis.Proofs.Layout.Declarations
import JavaAnalysis.Proofs.Layout.Splits
import JavaAnalysis.Proofs.Tree.Formed
import JavaAnalysis.Tree.View

/-!
# Variables in finished trees

What a tree tells of the node of a variable: its name, its initial value, its separator and its
declared type are found again among the children of the node. The variables of one declaration are
neighbours and share the tokens of the declaration.
Main statements: `Realizes.variableAs`, `Split.splitInto`.
-/

set_option autoImplicit false
set_option linter.dupNamespace false

namespace JavaAnalysis

open Ast TreeDraft

namespace SyntaxTree

variable {t : SyntaxTree} {id u c p : NodeId} {q : TokenId} {before : List NodeId}
  {as bs : List Element}

/-! ## What is found among children -/

theorem children_append (h : t.childElements id = as ++ bs) :
    t.children id = nodesAmong as ++ nodesAmong bs := by
  rw [children, h]
  exact nodesAmong_append as bs

theorem childTokens_append (h : t.childElements id = as ++ bs) :
    t.childTokens id = tokensAmong as ++ tokensAmong bs := by
  rw [childTokens, h]
  exact List.filterMap_append

/-- The name is that of the first identifier among the children. -/
theorem nameOf?_eq (hchildren : t.childElements id = before.map .node ++ .node u :: bs)
    (hbefore : ∀ c ∈ before, t.kind c ≠ .identifier) (hkind : t.kind u = .identifier)
    (hname : t.childElements u = [.token q]) : t.nameOf? id = some q := by
  have hchildOfKind : t.childOfKind? id .identifier = some u := by
    have hnone : before.find? (fun c => t.kind c == .identifier) = none :=
      List.find?_eq_none.2 fun c hc => by simpa using hbefore c hc
    rw [childOfKind?, children_append hchildren, nodesAmong_nodes, nodesAmong_cons_node,
      List.find?_append, hnone, List.find?_cons_of_pos (by simp [hkind])]
    rfl
  rw [nameOf?, hchildOfKind]
  simp [identifierToken?, childTokens, hname, Element.token?]

theorem separatorOf?_eq {xs : List TokenId} (h : t.childTokens id = xs ++ [q])
    (hkind : (t.token q).kind = .comma ∨ (t.token q).kind = .semicolon) :
    t.separatorOf? id = some q := by
  rw [separatorOf?, h, List.getLast?_concat, Option.filter_some, if_pos]
  simpa using hkind

theorem separatorOf?_eq_none
    (h : ∀ x ∈ t.childTokens id, (t.token x).kind ≠ .comma ∧ (t.token x).kind ≠ .semicolon) :
    t.separatorOf? id = none := by
  rw [separatorOf?, Option.filter_eq_none_iff]
  intro x hx
  simpa using h x (List.mem_of_getLast? hx)

/-- A token among the children is behind what is in front of it and in front of all else. -/
theorem Formed.around (h : t.Formed) (hchildren : t.childElements id = as ++ .token q :: bs) :
    (∀ c, .node c ∈ as → (t.firstToken c).index < q.index) ∧
      ∀ c, .node c ∈ bs → q.index < (t.firstToken c).index := by
  have hid := h.lt_size id (.token q) (by simp [hchildren])
  have hascending := t.ascending_tokensOf id
  have hmem : ∀ c, .node c ∈ t.childElements id → t.firstToken c ∈ t.tokensIn (.node c) :=
    fun c hc => h.firstToken_mem (h.child_lt_size (mem_children.2 hc))
  rw [h.tokensOf_eq id hid, hchildren, List.flatMap_append, List.flatMap_cons] at hascending
  obtain ⟨-, hrest, hcross⟩ := List.pairwise_append.1 hascending
  refine ⟨fun c hc => hcross _ (List.mem_flatMap.2 ⟨_, hc, hmem c ?_⟩) q ?_, fun c hc => ?_⟩
  · simp [hchildren, hc]
  · exact List.mem_append_left _ (List.mem_singleton_self q)
  · refine (List.pairwise_append.1 hrest).2.2 q (List.mem_singleton_self q) _ ?_
    exact List.mem_flatMap.2 ⟨_, hc, hmem c (by simp [hchildren, hc])⟩

/-- The initial value is the first expression behind the equals sign. -/
theorem initializerOf?_eq (h : t.Formed)
    (hchildren : t.childElements id = as ++ .token q :: .node c :: bs)
    (hbefore : tokensAmong as = []) (hkind : (t.token q).kind = .eq)
    (hvalue : (t.kind c).isExpression = true) : t.initializerOf? id = some c := by
  obtain ⟨hfront, hback⟩ := h.around hchildren
  have htoken : t.tokenOfKind? id .eq = some q := by
    rw [tokenOfKind?, childTokens_append hchildren, hbefore]
    exact List.find?_cons_of_pos (by simp [hkind])
  have hbehind : (t.children id).dropWhile (fun c => decide ((t.firstToken c).index < q.index)) =
      c :: nodesAmong bs := by
    rw [children_append hchildren, List.dropWhile_append_of_pos]
    · rw [nodesAmong_cons_token, nodesAmong_cons_node, List.dropWhile_cons_of_neg]
      have hlt := hback c List.mem_cons_self
      simpa using Nat.le_of_lt hlt
    · intro a ha
      simpa using hfront a (mem_nodesAmong.1 ha)
  rw [initializerOf?, htoken]
  show ((t.children id).dropWhile _).find? _ = _
  rw [hbehind]
  exact List.find?_cons_of_pos hvalue

theorem initializerOf?_eq_none (h : ∀ x ∈ t.childTokens id, (t.token x).kind ≠ .eq) :
    t.initializerOf? id = none := by
  have hnone : t.tokenOfKind? id .eq = none := by
    rw [tokenOfKind?, List.find?_eq_none]
    exact fun x hx => by simpa using h x hx
  rw [initializerOf?, hnone]
  rfl

/-! ## Trees finished from layouts -/

/-- The nodes of the layout are in the tree, with their tokens and declared types. -/
structure Completes (t : SyntaxTree) (l : Layout) : Prop extends Layout.Shows t t.row l where
  ends_eq : ∀ id, id.index < l.spans.size → (t.firstToken id, t.lastToken id) = l.spanOf id
  declaredType?_eq : ∀ id, id.index < l.spans.size →
    t.declaredType? id = l.draft.declaredTypes[id]?

/-- The node is what the shape became when the nodes of the tree were made. -/
def Depicts (t : SyntaxTree) (shape : Shape) (id : NodeId) : Prop :=
  ∃ l loose l', Layout.Drafted t.row l loose ∧ Layout.lay shape l = .ok ([id], l') ∧ t.Completes l'

theorem Completes.earlier {l l' : Layout} (h : t.Completes l') (hk : Layout.Keeps l l') :
    t.Completes l := by
  refine ⟨h.toShows.of_grows hk.toGrows, fun id hid => ?_, fun id hid => ?_⟩
  · rw [h.ends_eq id (Nat.lt_of_lt_of_le hid hk.size_le), hk.spanOf_eq id hid]
  · rw [h.declaredType?_eq id (Nat.lt_of_lt_of_le hid hk.size_le), hk.declaredType_eq id hid]

theorem Completes.depicts {l : Layout} {shape : Shape} (h : t.Completes l)
    (hbecame : Layout.Became t.row shape id l) : t.Depicts shape id := by
  obtain ⟨l₀, loose, l₁, hdrafted, hrun, hkeeps⟩ := hbecame
  exact ⟨l₀, loose, l₁, hdrafted, hrun, h.earlier hkeeps⟩

/-- The node is that of a variable of the declaration, with all that its parts are found by. -/
structure VariableAs (t : SyntaxTree) (d : VarDecl) (typeNode : NodeId) (isLast : Bool)
    (f : VarFragment) (id : NodeId) : Prop where
  kind_eq : t.kind id = .variableDecl
  name : ∃ q, t.nameOf? id = some q ∧ (t.token q).range = f.name.range ∧
    (t.token q).text = f.name.text
  noInitializer : f.init? = none → t.initializerOf? id = none
  initializer : ∀ e, f.init? = some e → ∃ c, t.initializerOf? id = some c ∧ t.Depicts e.shape c ∧
    t.row.span? e.range = some (t.firstToken c, t.lastToken c)
  separator : (t.separatorOf? id).map (fun q => (t.token q).kind) =
    separatorOf isLast d.terminated
  /-- There is a dimension for each pair of brackets, first those behind the type. -/
  declaredType : ∃ declared, t.declaredType? id = some declared ∧ declared.typeNode = typeNode ∧
    declared.shape.rank = d.type.brackets.length + f.brackets.length ∧
    Layout.Measures t.row (d.type.brackets.map (·, .afterType) ++ f.brackets.map (·, .afterName))
      declared.dimensions

end SyntaxTree

/-- The rank of a declared type is the number of its dimensions. -/
theorem DeclaredType.rank_shape (declared : DeclaredType) :
    declared.shape.rank = declared.dimensions.length := by
  have hfold : ∀ (dims : List Dimension) (s : TypeShape),
      (dims.foldl (fun s _ => TypeShape.array s) s).rank = s.rank + dims.length := by
    intro dims
    induction dims with
    | nil => exact fun _ => rfl
    | cons dim dims ih =>
      intro s
      rw [List.foldl_cons, ih, List.length_cons, TypeShape.rank]
      omega
  rw [DeclaredType.shape, hfold]
  exact Nat.zero_add _

end JavaAnalysis

namespace JavaAnalysis.Layout

open Ast TreeDraft SyntaxTree

variable {t : SyntaxTree} {l : Layout} {d : VarDecl} {type : TypeRef} {typeNode id nameNode : NodeId}
  {before types inner dims inits ids top : List NodeId} {inside : List Shape} {f : VarFragment}
  {separator : Option TokenKind} {xs ys : List Element} {isLast : Bool} {row : TokenRow}
  {init : Option Expr} {span : TextRange} {loose : List NodeId}

/-! ## The children of variables in finished trees -/

/-- The child tokens of a variable are its equals sign and its separator. -/
theorem Consists.childTokens_eq
    (h : Consists t.row l before f separator id nameNode dims inits xs ys) (hc : t.Completes l)
    (hid : id.index < l.spans.size) : t.childTokens id = tokensAmong xs ++ tokensAmong ys := by
  have hchildren := (hc.childElements_eq id hid).trans h.children_eq
  have hnone : tokensAmong (before.map .node ++ .node nameNode :: dims.map .node) = [] := by
    rw [← List.map_cons, ← List.map_append, tokensAmong_nodes]
  rw [← List.append_assoc] at hchildren
  rw [childTokens_append hchildren, hnone, List.nil_append]
  exact List.filterMap_append

theorem InitElements.kind_eq (h : InitElements row init inits xs) :
    ∀ q ∈ tokensAmong xs, (row.token q).kind = .eq := by
  cases init with
  | none =>
    obtain ⟨-, rfl⟩ := h
    exact nofun
  | some e =>
    obtain ⟨q, c, -, rfl, hkind⟩ := h
    exact List.forall_mem_singleton.2 hkind

theorem separatorOf_kind {terminated : Bool} {kind : TokenKind}
    (h : separatorOf isLast terminated = some kind) : kind = .comma ∨ kind = .semicolon := by
  cases isLast <;> cases terminated <;> cases h <;> simp

theorem SeparatorElements.kind_eq (h : SeparatorElements row separator ys) :
    ∀ q ∈ tokensAmong ys, separator = some (row.token q).kind := by
  cases separator with
  | none =>
    cases h
    exact nofun
  | some kind =>
    obtain ⟨q, rfl, rfl⟩ := h
    exact List.forall_mem_singleton.2 rfl

section

variable (hc : t.Completes l)
  (hvariable : Variable t.row l types type before span f.name inside id nameNode inner)
  (h : Consists t.row l before f separator id nameNode dims inits xs ys)
include hc hvariable h

/-- The name of a variable is found among its children. -/
theorem Consists.nameOf?_eq (hbefore : ∀ c ∈ before, t.kind c ≠ .identifier) :
    ∃ q, t.nameOf? id = some q ∧ (t.token q).range = f.name.range ∧
      (t.token q).text = f.name.text := by
  obtain ⟨q, hspan, hrange, htext⟩ := h.named
  have hnamed := hvariable.named
  have hchildren := (hc.childElements_eq id hvariable.stands.lt_size).trans h.children_eq
  rw [List.cons_append] at hchildren
  refine ⟨q, SyntaxTree.nameOf?_eq hchildren hbefore ?_ ?_, hrange, htext⟩
  · rw [hc.kind_eq nameNode hnamed.lt_size, hnamed.kind_eq]
  · rw [hc.childElements_eq nameNode hnamed.lt_size]
    exact hvariable.spelled q.index hspan

/-- So is its separator, which is the last token among them. -/
theorem Consists.separatorOf?_eq
    (hseparator : ∀ kind, separator = some kind → kind = .comma ∨ kind = .semicolon) :
    (t.separatorOf? id).map (fun q => (t.token q).kind) = separator := by
  have htokens := h.childTokens_eq hc hvariable.stands.lt_size
  have hys := h.separator
  cases separator with
  | none =>
    cases hys
    have hnone : t.separatorOf? id = none := by
      refine separatorOf?_eq_none fun q hq => ?_
      rw [htokens] at hq
      have hkind : (t.token q).kind = .eq :=
        h.equals.kind_eq q ((List.mem_append.1 hq).resolve_right nofun)
      simp [hkind]
    rw [hnone]
    rfl
  | some kind =>
    obtain ⟨q, rfl, rfl⟩ := hys
    rw [SyntaxTree.separatorOf?_eq htokens (hseparator _ rfl)]
    rfl

/-- Without an initial value there is no equals sign. -/
theorem Consists.initializerOf?_eq_none (hinit : f.init? = none)
    (hseparator : ∀ kind, separator = some kind → kind = .comma ∨ kind = .semicolon) :
    t.initializerOf? id = none := by
  refine SyntaxTree.initializerOf?_eq_none fun q hq => ?_
  have hequals := h.equals
  rw [hinit] at hequals
  obtain ⟨-, rfl⟩ := hequals
  rw [h.childTokens_eq hc hvariable.stands.lt_size] at hq
  have hkind := hseparator _ (h.separator.kind_eq q hq)
  rintro heq
  rw [show t.row.token q = t.token q from rfl, heq] at hkind
  simp at hkind

/-- An initial value is found behind the equals sign. -/
theorem Consists.initializerOf?_eq (hformed : t.Formed) (ho : t.row.Ordered) {e : Expr}
    (hinit : f.init? = some e) (hvalue : e.isValue = true) :
    ∃ c, t.initializerOf? id = some c ∧ t.Depicts e.shape c ∧
      t.row.span? e.range = some (t.firstToken c, t.lastToken c) := by
  have hequals := h.equals
  have hinits := h.init
  rw [hinit] at hequals hinits
  obtain ⟨q, c, rfl, rfl, hkind⟩ := hequals
  obtain ⟨c', hc', hbecame⟩ := hinits
  obtain ⟨rfl, -⟩ := List.cons.inj hc'
  obtain ⟨kind, htop, hexpression⟩ := Expr.top?_shape hvalue
  have hstands := hbecame.stands ho htop
  refine ⟨c, ?_, hc.depicts hbecame, ?_⟩
  · have hchildren := (hc.childElements_eq id hvariable.stands.lt_size).trans h.children_eq
    rw [← List.append_assoc, List.cons_append, List.cons_append, List.nil_append] at hchildren
    refine SyntaxTree.initializerOf?_eq hformed hchildren ?_ hkind ?_
    · rw [← List.map_cons, ← List.map_append, tokensAmong_nodes]
    · rw [hc.kind_eq c hstands.lt_size, hstands.kind_eq]
      exact hexpression
  · rw [hc.ends_eq c hstands.lt_size, hstands.span?_eq]

end

/-- What a tree tells of the node of a variable. -/
theorem Realizes.variableAs (hformed : t.Formed) (ho : t.row.Ordered) (hc : t.Completes l)
    (h : Realizes t.row l [typeNode] d.type before f (separatorOf isLast d.terminated) id)
    (hvalue : ∀ e, f.init? = some e → e.isValue = true)
    (hpairs : ∀ b ∈ d.type.brackets, ∃ first last, t.row.span? b = some (first, last))
    (hbefore : ∀ c ∈ before, t.kind c ≠ .identifier) : t.VariableAs d typeNode isLast f id := by
  obtain ⟨declared, hdeclared, htype, hmeasures⟩ := h.declaredType ho hvalue hpairs
  obtain ⟨span, nameNode, dims, inits, xs, ys, hvariable, hconsists⟩ := h
  have hid := hvariable.stands.lt_size
  refine ⟨?_, hconsists.nameOf?_eq hc hvariable hbefore, fun hinit => ?_, fun e hinit => ?_,
    hconsists.separatorOf?_eq hc hvariable fun kind => separatorOf_kind, declared, ?_, htype, ?_,
    hmeasures⟩
  · rw [hc.kind_eq id hid, hvariable.stands.kind_eq]
  · exact hconsists.initializerOf?_eq_none hc hvariable hinit fun kind => separatorOf_kind
  · exact hconsists.initializerOf?_eq hc hvariable hformed ho hinit (hvalue e hinit)
  · rw [hc.declaredType?_eq id hid, hdeclared]
  · rw [declared.rank_shape, ← hmeasures.length_eq]
    simp

end JavaAnalysis.Layout

/-!
## Declarations that are split

The variables of a declaration are nodes of their own, one behind the other. The first of them has
the type, which is that of all.
Main statement: `Split.splitInto`.
-/

namespace JavaAnalysis

open Ast TreeDraft

namespace SyntaxTree

/-- The nodes are those of the variables of the declaration, which share its type and its tokens. -/
structure SplitInto (t : SyntaxTree) (d : VarDecl) (typeNode : NodeId) (ids : List NodeId) :
    Prop where
  length_eq : ids.length = d.fragments.length
  nodup : ids.Nodup
  /-- They are neighbours below one node, in the order of the declaration. -/
  consecutive : ∃ p front back, t.children p = front ++ ids ++ back
  /-- Together they have all tokens of the declaration, each once, with the semicolon at its end. -/
  tokensOf_eq : ∃ a b, t.row.span? d.range = some (a, b) ∧ ids.flatMap t.tokensOf =
    (List.range' a.index (b.index + 1 - a.index)).map TokenId.mk ∧
    (d.terminated = true ↔ (t.token b).kind = .semicolon ∧
      ∀ f, d.fragments.getLast? = some f → f.range.stop ≤ (t.token b).start)
  variableAs : ∀ i f id, d.fragments[i]? = some f → ids[i]? = some id →
    t.VariableAs d typeNode (i + 1 == d.fragments.length) f id
  type_depicts : t.Depicts d.type.shape typeNode
  ownsType_iff : ∀ i id, ids[i]? = some id → (t.ownsType id = true ↔ i = 0)

end SyntaxTree

namespace Layout

open SyntaxTree

variable {t : SyntaxTree} {l : Layout} {d : VarDecl} {typeNode : NodeId}
  {before ids : List NodeId}

/-- Where the tokens of children follow each other, so do the children. -/
theorem contiguous_of_tokensIn (hformed : t.Formed) (hc : t.Completes l) {es : List Element}
    {next count : Nat} (h : es.flatMap t.tokensIn = (List.range' next count).map TokenId.mk)
    (hsize : ∀ c, .node c ∈ es → c.index < t.nodes.size ∧ c.index < l.spans.size) :
    Contiguous l es next (next + count) := by
  induction es generalizing next count with
  | nil =>
    have hcount : count = 0 := by simpa using h.symm
    rw [hcount]
    rfl
  | cons e es ih =>
    have hothers := fun c hc' => hsize c (List.mem_cons_of_mem e hc')
    rw [List.flatMap_cons] at h
    cases e with
    | token q =>
      cases count with
      | zero => cases h
      | succ count =>
        rw [List.range'_succ] at h
        obtain ⟨rfl, hrest⟩ := List.cons.inj h
        refine ⟨rfl, ?_⟩
        rw [Nat.add_comm count, ← Nat.add_assoc]
        exact ih hrest hothers
    | node c =>
      obtain ⟨hnodes, hspans⟩ := hsize c List.mem_cons_self
      have hle := hformed.first_le_last hnodes
      have hends := hc.ends_eq c hspans
      have htokens : t.tokensIn (.node c) = (List.range' (t.firstToken c).index
          ((t.lastToken c).index + 1 - (t.firstToken c).index)).map TokenId.mk := rfl
      obtain ⟨rest, rfl⟩ : ∃ rest, count =
          ((t.lastToken c).index + 1 - (t.firstToken c).index) + rest := by
        have hlength := congrArg List.length h
        simp only [htokens, List.length_append, List.length_map, List.length_range'] at hlength
        exact ⟨_, hlength.symm⟩
      rw [htokens, ← List.range'_append_1, List.map_append] at h
      obtain ⟨hfirst, hrest⟩ := List.append_inj h (by simp)
      have hnext : (t.firstToken c).index = next := by
        obtain ⟨k, hk⟩ : ∃ k, (t.lastToken c).index + 1 - (t.firstToken c).index = k + 1 :=
          ⟨_, (Nat.succ_pred_eq_of_pos (by omega)).symm⟩
        rw [hk, List.range'_succ, List.range'_succ] at hfirst
        exact congrArg TokenId.index (List.cons.inj hfirst).1
      unfold Contiguous
      rw [← hends]
      refine ⟨hspans, hnext, hnext ▸ hle, ?_⟩
      have hmid : next + ((t.lastToken c).index + 1 - (t.firstToken c).index) =
          (t.lastToken c).index + 1 := by omega
      rw [← Nat.add_assoc, hmid]
      exact ih (hmid ▸ hrest) hothers

/-- The type is a child of the first variable. -/
theorem Split.parent?_type {f : VarFragment} {id : NodeId} (h : Split t.row l d before typeNode ids)
    (hc : t.Completes l) (hf : d.fragments[0]? = some f) (hid : ids[0]? = some id) :
    t.parent? typeNode = some id := by
  obtain ⟨span, nameNode, dims, inits, xs, ys, hvariable, hconsists⟩ := h.realizes 0 f id hf hid
  refine hc.parent?_eq typeNode id ?_
  rw [hc.childElements_eq id hvariable.stands.lt_size, hconsists.children_eq]
  simp

/-- A declaration that was split in a layout is split in the tree that was finished from it. -/
theorem Split.splitInto (hformed : t.Formed) (ho : t.row.Ordered) (hc : t.Completes l)
    (hsize : t.nodes.size = l.spans.size) (h : Split t.row l d before typeNode ids)
    (hvalue : ∀ f ∈ d.fragments, ∀ e, f.init? = some e → e.isValue = true)
    (hpairs : ∀ b ∈ d.type.brackets, ∃ first last, t.row.span? b = some (first, last))
    (hspan : ∃ a b, t.row.span? d.range = some (a, b) ∧
      (d.terminated = true ↔ (t.token b).kind = .semicolon ∧
        ∀ f, d.fragments.getLast? = some f → f.range.stop ≤ (t.token b).start))
    (hparent : ids = [] ∨ ∃ p : NodeId, p.index < l.spans.size ∧
      ∀ c ∈ ids, .node c ∈ (l.draft.node p).children) :
    t.SplitInto d typeNode ids := by
  obtain ⟨a, b, hspan, hterminated⟩ := hspan
  have hcontiguous := h.contiguous a b hspan
  have htype := h.type_became
  have hbefore : ∀ c ∈ before ++ [typeNode], t.kind c ≠ .identifier := by
    rw [List.forall_mem_append, List.forall_mem_singleton]
    constructor
    · intro c hmem
      obtain ⟨hlt, hkind⟩ := h.modifiers c hmem
      rw [hc.kind_eq c hlt, hkind]
      decide
    · obtain ⟨kind, htop, hkind⟩ := d.type.top?_shape
      have hstands := htype.stands ho htop
      rw [hc.kind_eq typeNode hstands.lt_size, hstands.kind_eq]
      rintro rfl
      cases hkind
  have hvariables : ∀ i f id, d.fragments[i]? = some f → ids[i]? = some id →
      t.VariableAs d typeNode (i + 1 == d.fragments.length) f id := by
    intro i f id hf hid
    refine (h.realizes i f id hf hid).variableAs hformed ho hc (hvalue f (List.mem_of_getElem? hf))
      hpairs fun c hmem => ?_
    split at hmem
    · exact hbefore c hmem
    · cases hmem
  have hnodup : ids.Nodup := by
    have hascending := hcontiguous.pairwise
    rw [nodesAmong_nodes] at hascending
    exact hascending.imp fun hlt heq => Nat.ne_of_lt hlt
      (congrArg (fun c => (l.spanOf c).1.index) heq)
  refine ⟨h.length_eq, hnodup, ?_, ⟨a, b, hspan, ?_, hterminated⟩, hvariables, hc.depicts htype, fun i id hid => ?_⟩
  · rcases hparent with rfl | ⟨p, hp, hmem⟩
    · exact ⟨t.root, t.children t.root, [], by simp⟩
    · have hchildren := hc.childElements_eq p hp
      have htokens := hformed.tokensOf_eq p (hsize ▸ hp)
      rw [hchildren] at htokens
      have hwhole := contiguous_of_tokensIn hformed hc htokens.symm fun c hc' => by
        have hlt := hformed.child_lt_size (mem_children.2 (hchildren.symm ▸ hc'))
        exact ⟨hlt, hsize ▸ hlt⟩
      obtain ⟨front, back, heq⟩ := hwhole.exists_among hcontiguous hmem
      refine ⟨p, nodesAmong front, nodesAmong back, ?_⟩
      rw [children_append (hchildren.trans heq), nodesAmong_append,
        nodesAmong_nodes]
  · have htokens : (ids.map Element.node).flatMap t.tokensIn = _ :=
      hcontiguous.flatMap_eq (fun _ => rfl) fun c hmem => by
        show t.tokensOf c = _
        rw [tokensOf, ← hc.ends_eq c (hcontiguous.lt_size hmem)]
    rwa [List.flatMap_map] at htokens
  · have hlt : i < d.fragments.length := h.length_eq ▸ (List.getElem?_eq_some_iff.1 hid).1
    obtain ⟨declared, hdeclared, htype, -⟩ :=
      (hvariables i _ id (List.getElem?_eq_getElem hlt) hid).declaredType
    obtain ⟨id₀, hid₀⟩ : ∃ id₀, ids[0]? = some id₀ :=
      ⟨_, List.getElem?_eq_getElem (Nat.lt_of_le_of_lt (Nat.zero_le i)
        (List.getElem?_eq_some_iff.1 hid).1)⟩
    have hparent : t.parent? typeNode = some id₀ :=
      h.parent?_type hc (List.getElem?_eq_getElem (Nat.lt_of_le_of_lt (Nat.zero_le i) hlt)) hid₀
    rw [ownsType, hdeclared, Option.any_some, htype, hparent, beq_iff_eq, ← hid₀, ← hid]
    constructor
    · exact fun heq =>
        ((List.getElem?_inj (List.getElem?_eq_some_iff.1 hid₀).1 hnodup).1 heq).symm
    · rintro rfl
      rfl

end Layout

end JavaAnalysis
