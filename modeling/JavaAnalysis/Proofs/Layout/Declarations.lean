import JavaAnalysis.Proofs.Layout.Variables
import JavaAnalysis.Proofs.Regions.Variables

/-!
# The children of variables

The node of a variable has as children the nodes of its name, of the brackets behind the name and of
its initial value, the equals sign in front of that and the separator; the first variable of a
declaration has those of the modifiers and of the type in front. There are no others.
Main statement: `Variable.children_eq`.
-/

set_option autoImplicit false
set_option linter.dupNamespace false

namespace JavaAnalysis

open Ast

/-! ## Shapes of which the node can be told -/

theorem Ast.TypeRef.top?_shape (t : TypeRef) :
    ∃ kind, t.shape.top? = some (kind, t.nodeRange) ∧ kind.isType = true := by
  rcases t with _ | _ | ⟨_, _ | _, _, _ | _, _⟩ | _ | _ | _ | _ | _
  all_goals
    simp only [TypeRef.shape]
    exact ⟨_, rfl, rfl⟩

theorem Ast.Expr.top?_shape {e : Expr} (h : e.isValue = true) :
    ∃ kind, e.shape.top? = some (kind, e.range) ∧ kind.isExpression = true := by
  cases e with
  | annotated use => cases h
  | type t => cases h
  | methodCall range target => cases target <;> exact ⟨_, rfl, rfl⟩
  | unary range op operand =>
    simp! only
    cases op.isPostfix <;> exact ⟨_, rfl, rfl⟩
  | _ => exact ⟨_, rfl, rfl⟩

theorem Ast.modifierShapes_tops (ms : List Modifier) :
    List.Forall₂ (fun (r : TextRange) s => s.top? = some (.modifiers, r))
      (Modifier.rangeOfAll? ms).toList (modifierShapes ms (markerShapes ms)) := by
  cases ms with
  | nil => exact .nil
  | cons m ms => exact .cons rfl .nil

theorem Ast.bracketShapes_tops (brackets : List TextRange) :
    List.Forall₂ (fun (r : TextRange) s => s.top? = some (.arrayDimension, r))
      brackets (bracketShapes brackets) := by
  rw [bracketShapes, List.forall₂_map_right_iff]
  exact List.forall₂_same.2 fun _ _ => rfl

namespace Layout

open TreeDraft

variable {row : TokenRow} {raw : List Lexeme} {l l' : Layout}
  {loose ids before types inner dims inits : List NodeId} {id decl nameNode : NodeId}
  {kind : NodeKind} {start stop : Nat} {type : TypeRef} {f : VarFragment}
  {rs ranges : List TextRange} {r : TextRange} {separator : Option TokenKind}
  {init : Option Expr} {shape : Shape}

/-- The node is what the shape has become on the way to the layout. -/
def Became (row : TokenRow) (shape : Shape) (id : NodeId) (l : Layout) : Prop :=
  ∃ l₀ loose l₁, Drafted row l₀ loose ∧ lay shape l₀ = .ok ([id], l₁) ∧ Keeps l₁ l

theorem Became.later (h : Became row shape id l) (hk : Keeps l l') : Became row shape id l' := by
  obtain ⟨l₀, loose, l₁, hdrafted, hrun, hkeeps⟩ := h
  exact ⟨l₀, loose, l₁, hdrafted, hrun, hkeeps.trans hk⟩

theorem Became.stands (ho : row.Ordered) (h : Became row shape id l)
    (htop : shape.top? = some (kind, r)) : Stands row l id kind r := by
  obtain ⟨l₀, loose, l₁, hdrafted, hrun, hkeeps⟩ := h
  obtain ⟨id', hids, hstands⟩ := lay_top ho hdrafted htop _ _ hrun
  obtain ⟨rfl, -⟩ := List.cons.inj hids
  exact hstands.later hkeeps.toGrows

/-- The node of an initial value, if there is one. -/
def InitNodes (row : TokenRow) (l : Layout) : Option Expr → List NodeId → Prop
  | none, ids => ids = []
  | some e, ids => ∃ c, ids = [c] ∧ Became row e.shape c l

theorem InitNodes.later (h : InitNodes row l init inits) (hk : Keeps l l') :
    InitNodes row l' init inits := by
  cases init with
  | none => exact h
  | some e =>
    obtain ⟨c, hc, hbecame⟩ := h
    exact ⟨c, hc, hbecame.later hk⟩

/-- The nodes of brackets and of an initial value. -/
theorem inside_nodes (ho : row.Ordered) {brackets : List TextRange} (h : Drafted row l loose)
    (hvalue : ∀ e, init = some e → e.isValue = true)
    (hrun : layAll (bracketShapes brackets ++ optionalShapes init) l = .ok (inner, l')) :
    ∃ dims inits, inner = dims ++ inits ∧
      List.Forall₂ (fun r id => Stands row l' id .arrayDimension r) brackets dims ∧
      InitNodes row l' init inits := by
  obtain ⟨dims, l₁, inits, hdims, hinits, rfl⟩ := layAll_append hrun
  obtain ⟨hdrafted, hstands⟩ := layAll_tops ho h (bracketShapes_tops brackets) _ _ hdims
  have hrecords := layAll_records ho (optionalShapes init) hdrafted _ _ hinits
  refine ⟨dims, inits, rfl, hstands.imp fun _ _ hs => hs.later hrecords.recorded.grows, ?_⟩
  cases init with
  | none =>
    simp! only [layAll] at hinits
    cases hinits
    rfl
  | some e =>
    simp! only [layAll] at hinits
    obtain ⟨ids, l₂, hlay, hrest⟩ := bind_run_eq_ok.1 hinits
    obtain ⟨_, _, hnil, hpure⟩ := bind_run_eq_ok.1 hrest
    cases hnil
    cases hpure
    obtain ⟨kind, htop, -⟩ := Expr.top?_shape (hvalue e rfl)
    obtain ⟨c, rfl, -⟩ := lay_top ho hdrafted htop _ _ hlay
    exact ⟨c, rfl, l₁, _, _, hdrafted, hlay, .refl _⟩

/-! ## The children of a variable -/

/-- The equals sign and the node of an initial value, if there is one. -/
def InitElements (row : TokenRow) : Option Expr → List NodeId → List Element → Prop
  | none, ids, es => ids = [] ∧ es = []
  | some _, ids, es => ∃ q c, ids = [c] ∧ es = [.token q, .node c] ∧ (row.token q).kind = .eq

/-- The token of a separator, if there is one. -/
def SeparatorElements (row : TokenRow) : Option TokenKind → List Element → Prop
  | none, es => es = []
  | some kind, es => ∃ q, es = [.token q] ∧ (row.token q).kind = kind

/-- What stands behind a variable is its separator. -/
theorem behindPieces_eq (terminated : Bool) (fs : List VarFragment) : behindPieces terminated fs =
    (separatorOf fs.isEmpty terminated).toList.map .word := by
  cases fs with
  | nil => cases terminated <;> rfl
  | cons f fs => rfl

/-- The token that stands right behind a range is found there. -/
theorem after?_of_abuts (ho : row.Ordered) {a : TextRange} {q : TokenId} (h : Abuts row a r)
    (hspan : row.span? r = some (q, q)) (hr : (row.token q).range = r) :
    row.after? a.stop = some q := by
  have hsize := ho.size
  have hq := (ho.span?_eq_some hspan).lt
  have hstart : (row.token q).start = r.start := congrArg TextRange.start hr
  refine ho.after?_eq (by omega) ?_ fun j hj => ?_
  · have hle := h.le
    exact hstart ▸ hle
  · have hbelow : (row.token ⟨j⟩).start < (row.token q).start := ho.start_lt hj (by omega)
    have hpos := ho.nonempty j (by omega)
    rcases h.adjoins j (by omega) with hstop | hbehind
    · omega
    · omega

theorem occupies_nodes {R : TextRange → NodeId → Prop}
    (h : List.Forall₂ R ranges ids)
    (hR : ∀ r c, R r c → c.index < l.spans.size ∧ row.span? r = some (l.spanOf c)) :
    List.Forall₂ (Occupies row l) ranges (ids.map .node) := by
  rw [List.forall₂_map_right_iff]
  exact h.imp fun r c hc => hR r c hc

/-- The initial value lies behind its equals sign. -/
theorem init_elements (ho : row.Ordered) (hvalue : ∀ e, init = some e → e.isValue = true)
    (h : Lined row (initPieces init) rs) (hinit : InitNodes row l init inits) :
    ∃ es, List.Forall₂ (Occupies row l) rs es ∧ InitElements row init inits es ∧
      nodesAmong es = inits := by
  cases init with
  | none =>
    cases hinit
    rw [h.eq_nil]
    exact ⟨[], .nil, ⟨rfl, rfl⟩, rfl⟩
  | some e =>
    obtain ⟨c, rfl, hbecame⟩ := hinit
    obtain ⟨kind, htop, -⟩ := Expr.top?_shape (hvalue e rfl)
    have hstands := hbecame.stands ho htop
    obtain ⟨r, rs', rfl, ⟨q, hspan, -, hkind⟩, hrest⟩ := h.of_cons
    obtain ⟨r', rs'', rfl, hlies, hnil⟩ := hrest.of_cons
    cases hlies.eq_range rfl
    rw [hnil.eq_nil]
    exact ⟨[.token q, .node c], .cons hspan (.cons ⟨hstands.lt_size, hstands.span?_eq⟩ .nil),
      ⟨q, c, rfl, rfl, hkind⟩, rfl⟩

/-- The separator lies right behind the variable, so that the node of the variable ends with it. -/
theorem separator_elements (ho : row.Ordered)
    (h : Lined row (separator.toList.map .word) rs) {a : TextRange}
    (habuts : ∀ b, rs.head? = some b → Abuts row a b) (hends : EndsAt row a.stop separator stop) :
    ∃ es, List.Forall₂ (Occupies row l) rs es ∧ SeparatorElements row separator es ∧
      nodesAmong es = [] ∧ ∀ b, (a :: rs).getLast? = some b → b.stop = stop := by
  cases separator with
  | none =>
    rw [h.eq_nil]
    refine ⟨[], .nil, rfl, rfl, ?_⟩
    rintro _ ⟨⟩
    exact hends.symm
  | some kind =>
    obtain ⟨r, rs', rfl, ⟨q, hspan, hrange, hkind⟩, hnil⟩ := h.of_cons
    rw [hnil.eq_nil] at habuts ⊢
    obtain ⟨q', hfound, -, rfl⟩ := hends
    cases (after?_of_abuts ho (habuts r rfl) hspan hrange).symm.trans hfound
    refine ⟨[.token q], .cons hspan .nil, ⟨q, rfl, hkind⟩, rfl, ?_⟩
    rintro _ ⟨⟩
    rw [← hrange]
    rfl

/-- The nodes and tokens that a variable consists of. -/
structure Consists (row : TokenRow) (l : Layout) (before : List NodeId) (f : VarFragment)
    (separator : Option TokenKind) (decl nameNode : NodeId) (dims inits : List NodeId)
    (xs ys : List Element) : Prop where
  children_eq : (l.draft.node decl).children =
    before.map .node ++ (.node nameNode :: dims.map .node ++ (xs ++ ys))
  named : ∃ q, row.span? f.name.range = some (q, q) ∧ (row.token q).range = f.name.range ∧
    (row.token q).text = f.name.text
  brackets : List.Forall₂ (fun r id => Stands row l id .arrayDimension r) f.brackets dims
  init : InitNodes row l f.init? inits
  equals : InitElements row f.init? inits xs
  separator : SeparatorElements row separator ys

/--
The variable has no other children: what the declaration is written with up to its separator lies
among the tokens without gaps, and nothing else is over these tokens.
-/
theorem Variable.children_eq (ho : row.Ordered) {heads : List TextRange}
    (hdrafted : Drafted row l loose) (hdelimited : f.Delimited)
    (hvalue : ∀ e, f.init? = some e → e.isValue = true)
    (h : Variable row l types type before ⟨start, stop⟩ f.name
      (bracketShapes f.brackets ++ optionalShapes f.init?) decl nameNode inner)
    (hbefore : List.Forall₂ (fun r c => c.index < l.spans.size ∧ row.span? r = some (l.spanOf c))
      heads before)
    (hlined : Lined row (heads.map .span ++ (f.pieces ++ separator.toList.map .word)) rs)
    (hstart : ∀ r, rs.head? = some r → r.start = start)
    (hends : EndsAt row f.range.stop separator stop) :
    ∃ dims inits xs ys, inner = dims ++ inits ∧
      Consists row l before f separator decl nameNode dims inits xs ys ∧
      ∃ r, rs.getLast? = some r ∧ r.stop = stop := by
  obtain ⟨l₀, loose₀, l₁, hdrafted₀, hrun, hkeeps⟩ := h.inside
  obtain ⟨dims, inits, rfl, hdims, hinits⟩ := inside_nodes ho hdrafted₀ hvalue hrun
  have hdims : List.Forall₂ (fun r id => Stands row l id .arrayDimension r) f.brackets dims :=
    hdims.imp fun _ _ hs => hs.later hkeeps.toGrows
  have hinits := hinits.later hkeeps
  -- The ranges of the pieces and what is over them.
  have hchain := hlined.chain
  obtain ⟨hs, _, rfl, hheads, hrest, -⟩ := hlined.of_append
  obtain rfl := hheads.eq_ranges fun _ => rfl
  obtain ⟨fr, sr, rfl, hfragment, hseparator, hmeet⟩ := hrest.of_append
  obtain ⟨is, rfl, his, a, ha, hstop⟩ := hdelimited.ranges hfragment
  obtain ⟨_, _, heq, ⟨-, hnamed⟩, -⟩ := hfragment.of_cons
  obtain ⟨rfl, -⟩ := List.cons.inj heq
  obtain ⟨xs, hxs, hequals, hxnodes⟩ := init_elements ho hvalue his hinits
  obtain ⟨ys, hys, hbehind, hynodes, hlast⟩ := separator_elements (l := l) ho hseparator
    (fun b hb => hmeet a b ha hb) (hstop.symm ▸ hends)
  have hcovered : List.Forall₂ (Occupies row l)
      (hs ++ (f.name.range :: (f.brackets ++ is) ++ sr))
      (before.map .node ++ (.node nameNode :: (dims.map .node ++ xs) ++ ys)) := by
    refine List.rel_append (occupies_nodes hbefore fun _ _ hc => hc) (List.rel_append ?_ hys)
    exact .cons ⟨h.named.lt_size, h.named.span?_eq⟩
      (List.rel_append (occupies_nodes hdims fun _ _ hs => ⟨hs.lt_size, hs.span?_eq⟩) hxs)
  have hend : ∃ r, (hs ++ (f.name.range :: (f.brackets ++ is) ++ sr)).getLast? = some r ∧
      r.stop = stop := by
    cases hsr : sr.getLast? with
    | none =>
      rw [List.getLast?_eq_none_iff] at hsr
      subst hsr
      refine ⟨a, ?_, hlast a rfl⟩
      rw [List.append_nil, List.getLast?_append_of_ne_nil _ (List.cons_ne_nil _ _), ha]
    | some b =>
      refine ⟨b, ?_, hlast b ?_⟩
      · rw [List.getLast?_append, List.getLast?_append, hsr]
        rfl
      · rw [List.getLast?_cons, hsr]
        rfl
  have hall := hdrafted.children_eq ho h.stands.lt_size h.stands.span?_eq hcovered hchain hstart hend
    (by
      simp only [nodesAmong_append, nodesAmong_cons_node, nodesAmong_nodes, hxnodes, hynodes,
        List.cons_append, List.append_nil]
      exact h.perm)
  obtain ⟨r, hr, hrstop⟩ := hend
  refine ⟨dims, inits, xs, ys, rfl, ⟨?_, hnamed, hdims, hinits, hequals, hbehind⟩, r, hr, hrstop⟩
  rw [hall]
  simp only [List.cons_append, List.append_assoc]

/-! ## All variables of a declaration -/

/-- The node of a variable, with all its children. -/
def Realizes (row : TokenRow) (l : Layout) (types : List NodeId) (type : TypeRef)
    (before : List NodeId) (f : VarFragment) (separator : Option TokenKind) (decl : NodeId) :
    Prop :=
  ∃ span nameNode dims inits xs ys,
    Variable row l types type before span f.name
      (bracketShapes f.brackets ++ optionalShapes f.init?) decl nameNode (dims ++ inits) ∧
    Consists row l before f separator decl nameNode dims inits xs ys

theorem fragmentShapes_cons (f : VarFragment) (fs : List VarFragment) :
    fragmentShapes (f :: fs) =
      .mk f.range f.name (bracketShapes f.brackets ++ optionalShapes f.init?) ::
        fragmentShapes fs := by
  cases f
  simp! only

theorem isEmpty_fragmentShapes (fs : List VarFragment) :
    (fragmentShapes fs).isEmpty = fs.isEmpty := by
  cases fs with
  | nil => simp! only
  | cons f fs =>
    rw [fragmentShapes_cons]
    rfl

/-- Where the pieces of the variables behind another one start. -/
theorem nextStart_eq {terminated : Bool} {fs : List VarFragment} {r : TextRange}
    (hdelimited : ∀ f ∈ fs, f.Delimited) (h : Lined row (variablePieces terminated fs) rs)
    (hr : rs.head? = some r) : r.start = nextStart stop (fragmentShapes fs) := by
  cases fs with
  | nil =>
    rw [h.eq_nil] at hr
    cases hr
  | cons f fs =>
    rw [variablePieces, VarFragment.pieces, List.cons_append, List.cons_append, List.cons_append] at h
    obtain ⟨r, rs', rfl, hlies, -⟩ := h.of_cons
    cases hr
    rw [hlies.eq_range rfl, (hdelimited f List.mem_cons_self).start_eq, fragmentShapes_cons]
    rfl

/-- Each variable of a declaration has a node, and these lie one right behind the other. -/
theorem Variables.realizes (ho : row.Ordered) (hdrafted : Drafted row l loose) {terminated : Bool}
    {fs : List VarFragment} (hdelimited : ∀ f ∈ fs, f.Delimited)
    (hvalue : ∀ f ∈ fs, ∀ e, f.init? = some e → e.isValue = true)
    (h : Variables row l types type terminated start before (fragmentShapes fs) ids)
    {heads : List TextRange}
    (hbefore : List.Forall₂ (fun r c => c.index < l.spans.size ∧ row.span? r = some (l.spanOf c))
      heads before)
    (hlined : Lined row (heads.map .span ++ variablePieces terminated fs) rs)
    (hstart : ∀ r, rs.head? = some r → r.start = start) :
    ids.length = fs.length ∧
    (∀ i f id, fs[i]? = some f → ids[i]? = some id → Realizes row l types type
      (if i = 0 then before else []) f (separatorOf (i + 1 == fs.length) terminated) id) ∧
    ∃ spans, List.Forall₂ (fun r id => Stands row l id .variableDecl r) spans ids ∧
      spans.IsChain (Abuts row) ∧ (∀ r, spans.head? = some r → r.start = start) ∧
      ∀ r, spans.getLast? = some r → ∃ r', rs.getLast? = some r' ∧ r.stop = r'.stop := by
  induction fs generalizing start before heads rs ids with
  | nil =>
    simp! only at h
    cases h
    exact ⟨rfl, by simp, [], .nil, .nil, by simp, by simp⟩
  | cons f fs ih =>
    obtain ⟨hf, hfs⟩ := List.forall_mem_cons.1 hdelimited
    obtain ⟨hfvalue, hfsvalue⟩ := List.forall_mem_cons.1 hvalue
    rw [fragmentShapes_cons] at h
    cases h with
    | @cons _ stop _ inner _ _ _ _ decl nameNode decls hends hvariable hothers =>
    rw [isEmpty_fragmentShapes] at hends
    rw [variablePieces, behindPieces_eq, ← List.append_assoc] at hlined
    obtain ⟨rs, rs', rfl, hfirst, hrest, hmeet⟩ := hlined.of_append
    obtain ⟨dims, inits, xs, ys, rfl, hconsists, r, hr, hstop⟩ := hvariable.children_eq ho hdrafted
      hf hfvalue hbefore hfirst (fun r hr => hstart r (by rw [List.head?_append, hr]; rfl)) hends
    have hnext : ∀ r, rs'.head? = some r → r.start = nextStart stop (fragmentShapes fs) :=
      fun r hr => nextStart_eq hfs hrest hr
    obtain ⟨hlength, heach, spans, hspans, hchain, hhead, hlast⟩ :=
      ih hfs hfsvalue hothers .nil hrest hnext
    refine ⟨congrArg (· + 1) hlength, ?_, ⟨start, stop⟩ :: spans, .cons hvariable.stands hspans,
      ?_, ?_, ?_⟩
    · rintro (_ | i) g id hg hid
      · cases hg
        cases hid
        have hlast : (0 + 1 == (f :: fs).length) = fs.isEmpty := by cases fs <;> rfl
        rw [hlast]
        exact ⟨_, _, _, _, _, _, hvariable, hconsists⟩
      · have hrealizes := heach i g id hg hid
        rw [ite_self] at hrealizes
        simpa using hrealizes
    · cases spans with
      | nil => exact .singleton _
      | cons r' spans =>
        obtain ⟨_, hne, -⟩ := hlast _ (List.getLast?_eq_some_getLast (List.cons_ne_nil r' spans))
        cases rs' with
        | nil => cases hne
        | cons r₂ rs' =>
          have hsame : r₂.start = r'.start := (hnext r₂ rfl).trans (hhead r' rfl).symm
          exact .cons_cons ((hmeet r r₂ hr rfl).of_ends hstop hsame) hchain
    · rintro _ ⟨⟩
      rfl
    · cases hspans with
      | nil =>
        cases List.length_eq_zero_iff.1 hlength.symm
        rintro _ ⟨⟩
        rw [hrest.eq_nil, List.append_nil]
        exact ⟨r, hr, hstop.symm⟩
      | cons =>
        intro r₁ hr₁
        rw [List.getLast?_cons_cons] at hr₁
        obtain ⟨r', hr', heq⟩ := hlast r₁ hr₁
        exact ⟨r', by rw [List.getLast?_append, hr']; rfl, heq⟩

end Layout

end JavaAnalysis

/-!
## Dimensions of declared variables

A variable is declared with the type of its declaration and with a dimension for each pair of
brackets, first those behind the type and then those behind its own name.
Main statement: `Realizes.declaredType`.
-/

namespace JavaAnalysis.Layout

open TreeDraft Ast

variable {row : TokenRow} {l l' : Layout} {before dims inits : List NodeId}
  {decl typeNode : NodeId} {type : TypeRef} {f : VarFragment} {separator : Option TokenKind}

/-- A dimension for each pair of brackets, over its tokens. -/
def Measures (row : TokenRow) (brackets : List (TextRange × DimensionSide))
    (dimensions : List Dimension) : Prop :=
  List.Forall₂ (fun b d => row.span? b.1 = some (d.opening, d.closing) ∧ d.side = b.2) brackets
    dimensions

/-- The brackets of a type, each of which is over tokens. -/
theorem typeDimensions_measures (hrow : l.row = row) :
    ∀ (type : TypeRef), (∀ b ∈ type.brackets, ∃ first last, row.span? b = some (first, last)) →
      Measures row (type.brackets.map (·, .afterType)) (l.typeDimensions type)
  | .array _ element pair, h => by
    rw [TypeRef.brackets, List.forall_mem_append, List.forall_mem_singleton] at h
    obtain ⟨first, last, hspan⟩ := h.2
    rw [TypeRef.brackets, typeDimensions, List.map_append, hrow, hspan]
    exact List.rel_append (typeDimensions_measures hrow element h.1) (.cons ⟨hspan, rfl⟩ .nil)
  | .primitive _ _, _ => .nil
  | .inferred _, _ => .nil
  | .named _ _ _ _ _, _ => .nil
  | .wildcard _, _ => .nil
  | .bounded _ _ _, _ => .nil
  | .union _ _, _ => .nil
  | .intersection _ _, _ => .nil

/-- The brackets behind a name, in front of nodes that are no brackets. -/
theorem nameDimensions_measures {brackets : List TextRange}
    (hdims : List.Forall₂ (fun r id => Stands row l id .arrayDimension r) brackets dims)
    (hinits : ∀ c ∈ inits, (l.draft.node c).kind ≠ .arrayDimension) :
    Measures row (brackets.map (·, .afterName)) (l.nameDimensions (dims ++ inits)) := by
  have hnone : inits.filter (fun id => (l.draft.node id).kind == .arrayDimension) = [] :=
    List.filter_eq_nil_iff.2 fun c hc => by simpa using hinits c hc
  rw [nameDimensions, List.filter_append, hnone, List.append_nil]
  induction hdims with
  | nil => exact .nil
  | @cons r id rs ids hr _ ih =>
    have hkind : ((l.draft.node id).kind == .arrayDimension) = true := by rw [hr.kind_eq]; rfl
    rw [List.filter_cons_of_pos (by exact hkind)]
    exact .cons ⟨hr.span?_eq, rfl⟩ ih

theorem Stands.earlier {id : NodeId} {kind : NodeKind} {r : TextRange}
    (h : Stands row l' id kind r) (hg : Grows l l') (hlt : id.index < l.spans.size) :
    Stands row l id kind r := by
  refine ⟨hlt, ?_, ?_⟩
  · rw [← hg.node_eq id hlt, h.kind_eq]
  · rw [← hg.spanOf_eq id hlt, h.span?_eq]

/-- A variable is declared with the brackets behind its type and those behind its name. -/
theorem Realizes.declaredType (ho : row.Ordered)
    (h : Realizes row l [typeNode] type before f separator decl)
    (hvalue : ∀ e, f.init? = some e → e.isValue = true)
    (hpairs : ∀ b ∈ type.brackets, ∃ first last, row.span? b = some (first, last)) :
    ∃ declared, l.draft.declaredTypes[decl]? = some declared ∧ declared.typeNode = typeNode ∧
      Measures row (type.brackets.map (·, .afterType) ++ f.brackets.map (·, .afterName))
        declared.dimensions := by
  obtain ⟨span, nameNode, dims, inits, xs, ys, hvariable, hconsists⟩ := h
  obtain ⟨l₁, hgrows, hrow, hold, hdeclared⟩ := hvariable.declared typeNode rfl
  refine ⟨_, hdeclared, rfl, ?_⟩
  rw [Layout.declaredType, show l₁.ellipsisDimensions none = [] from rfl, List.append_nil]
  refine List.rel_append (typeDimensions_measures hrow type hpairs)
    (nameDimensions_measures ?_ fun c hc => ?_)
  · have hdims : ∀ c ∈ dims, c.index < l₁.spans.size := fun c hc =>
      hold c (List.mem_append_left _ hc)
    have hboth := (List.forall₂_and_left dims f.brackets).2 ⟨hdims, hconsists.brackets.flip⟩
    exact hboth.flip.imp fun _ _ hs => hs.2.earlier hgrows hs.1
  · have hlt := hold c (List.mem_append_right _ hc)
    rw [← hgrows.node_eq c hlt]
    have hinit := hconsists.init
    cases hf : f.init? with
    | none =>
      rw [hf] at hinit
      cases hinit
      cases hc
    | some e =>
      rw [hf] at hinit
      obtain ⟨c', rfl, hbecame⟩ := hinit
      rw [List.mem_singleton] at hc
      subst hc
      obtain ⟨kind, htop, hkind⟩ := Expr.top?_shape (hvalue e hf)
      rw [(hbecame.stands ho htop).kind_eq]
      rintro rfl
      cases hkind

end JavaAnalysis.Layout
