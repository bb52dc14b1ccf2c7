import JavaAnalysis.Proofs.Layout.Contained
import JavaAnalysis.Proofs.Layout.Drafted
import JavaAnalysis.Proofs.Regions.Variables

/-!
# Children side by side

Children that are over ranges of which each ends right in front of the next one cover the tokens of
these ranges without gaps. A node that covers the same tokens with the same child nodes has just
these children. Main statement: `Drafted.children_eq`.
-/

set_option autoImplicit false
set_option linter.dupNamespace false

namespace JavaAnalysis

open Ast (Abuts)

namespace TokenRow.Ordered

variable {row : TokenRow} {r r' : TextRange} {a b a' b' : TokenId}

/-- The first token inside a range is told by where the range starts. -/
theorem first_eq_of_start (ho : row.Ordered) (h : row.span? r = some (a, b))
    (h' : row.span? r' = some (a', b')) (hstart : r.start = r'.start) : a = a' := by
  have hs := ho.span?_eq_some h
  have hs' := ho.span?_eq_some h'
  have hle := hs.first_le a'.index (Nat.lt_of_le_of_lt hs'.le hs'.lt) (hstart ▸ hs'.start_le)
  have hle' := hs'.first_le a.index (Nat.lt_of_le_of_lt hs.le hs.lt) (hstart ▸ hs.start_le)
  exact congrArg TokenId.mk (Nat.le_antisymm hle hle')

/-- The last token inside a range is told by where the range ends. -/
theorem last_eq_of_stop (ho : row.Ordered) (h : row.span? r = some (a, b))
    (h' : row.span? r' = some (a', b')) (hstop : r.stop = r'.stop) : b = b' := by
  have hs := ho.span?_eq_some h
  have hs' := ho.span?_eq_some h'
  have hle := hs.le_last b'.index hs'.lt (hstop ▸ hs'.le_stop)
  have hle' := hs'.le_last b.index hs.lt (hstop ▸ hs.le_stop)
  exact congrArg TokenId.mk (Nat.le_antisymm hle' hle)

/-- Between ranges that abut there is no token. -/
theorem next_of_abuts (ho : row.Ordered) (habuts : Abuts row r r')
    (h : row.span? r = some (a, b)) (h' : row.span? r' = some (a', b')) :
    b.index + 1 = a'.index := by
  have hs := ho.span?_eq_some h
  have hs' := ho.span?_eq_some h'
  have hlt := ho.lt_of_stop_le hs.lt
    (Nat.le_trans hs.le_stop (Nat.le_trans habuts.le hs'.start_le))
  have hcount := Nat.lt_of_le_of_lt hs'.le hs'.lt
  by_contra hne
  rcases habuts.adjoins (b.index + 1) (by omega) with hstop | hstart
  · have := hs.le_last (b.index + 1) (by omega) hstop
    omega
  · have := hs'.first_le (b.index + 1) (by omega) hstart
    omega

end TokenRow.Ordered

namespace Layout

open TreeDraft

variable {row : TokenRow} {l : Layout} {es es' : List Element} {rs : List TextRange}
  {next stop : Nat} {c : NodeId}

/-- The child is over the tokens inside the range. -/
def Occupies (row : TokenRow) (l : Layout) (r : TextRange) : Element → Prop
  | .token q => row.span? r = some (q, q)
  | .node c => c.index < l.spans.size ∧ row.span? r = some (l.spanOf c)

/-- Children over ranges that abut each other cover the tokens from the first range to the last. -/
theorem contiguous_of_chain (ho : row.Ordered) (h : List.Forall₂ (Occupies row l) rs es)
    (hchain : rs.IsChain (Abuts row))
    (hfirst : ∀ r a b, rs.head? = some r → row.span? r = some (a, b) → a.index = next) :
    ∃ stop, Contiguous l es next stop ∧
      ∀ r, rs.getLast? = some r → ∃ a b, row.span? r = some (a, b) ∧ b.index + 1 = stop := by
  induction h generalizing next with
  | nil => exact ⟨next, rfl, nofun⟩
  | @cons r e rs es he hrest ih =>
    obtain ⟨a, b, hspan⟩ : ∃ a b, row.span? r = some (a, b) := by
      cases e with
      | token q => exact ⟨q, q, he⟩
      | node c => exact ⟨_, _, he.2⟩
    have ha := hfirst r a b rfl hspan
    have hle := (ho.span?_eq_some hspan).le
    obtain ⟨stop, hcontiguous, hlast⟩ := @ih (b.index + 1) hchain.tail fun r' a' b' hr' hspan' => by
      cases rs with
      | nil => cases hr'
      | cons r'' rs =>
        cases hr'
        exact (ho.next_of_abuts (List.isChain_cons_cons.1 hchain).1 hspan hspan').symm
    refine ⟨stop, ?_, fun r' hr' => ?_⟩
    · cases e with
      | token q =>
        cases hspan.symm.trans he
        exact ⟨ha, ha ▸ hcontiguous⟩
      | node c =>
        have heq : l.spanOf c = (a, b) := Option.some.inj (he.2.symm.trans hspan)
        unfold Contiguous
        rw [heq]
        exact ⟨he.1, ha, ha ▸ hle, hcontiguous⟩
    · cases hrest with
      | nil =>
        cases hr'
        exact ⟨a, b, hspan, hcontiguous⟩
      | cons =>
        rw [List.getLast?_cons_cons] at hr'
        exact hlast r' hr'

theorem Contiguous.first_le (h : Contiguous l es next stop) (hc : c ∈ nodesAmong es) :
    next ≤ (l.spanOf c).1.index := by
  induction es generalizing next with
  | nil => cases hc
  | cons e es ih =>
    cases e with
    | token q =>
      have hle := ih h.2 hc
      omega
    | node c' =>
      obtain ⟨-, hfirst, hle, hrest⟩ := h
      rw [nodesAmong_cons_node] at hc
      rcases List.mem_cons.1 hc with rfl | hc
      · exact Nat.le_of_eq hfirst.symm
      · have := ih hrest hc
        omega

theorem Contiguous.lt_size (h : Contiguous l es next stop) (hc : .node c ∈ es) :
    c.index < l.spans.size := by
  induction es generalizing next with
  | nil => cases hc
  | cons e es ih =>
    cases e with
    | token q => exact ih h.2 ((List.mem_cons.1 hc).resolve_left nofun)
    | node c' =>
      rcases List.mem_cons.1 hc with heq | hc
      · cases heq
        exact h.1
      · exact ih h.2.2.2 hc

theorem Contiguous.pairwise (h : Contiguous l es next stop) :
    (nodesAmong es).Pairwise fun a b => (l.spanOf a).1.index < (l.spanOf b).1.index := by
  induction es generalizing next with
  | nil => exact .nil
  | cons e es ih =>
    cases e with
    | token q => exact ih h.2
    | node c =>
      obtain ⟨-, hfirst, hle, hrest⟩ := h
      rw [nodesAmong_cons_node]
      refine List.pairwise_cons.2 ⟨fun b hb => ?_, ih hrest⟩
      have := hrest.first_le hb
      omega

theorem Contiguous.head_eq {e : Element} (h : Contiguous l (e :: es) next stop)
    (hc : .node c ∈ e :: es) (hfirst : (l.spanOf c).1.index = next) : e = .node c := by
  rcases List.mem_cons.1 hc with hc | hc
  · exact hc.symm
  · have hmem := SyntaxTree.mem_nodesAmong.2 hc
    cases e with
    | token q =>
      have hle := h.2.first_le hmem
      omega
    | node c' =>
      obtain ⟨-, -, hle, hrest⟩ := h
      have := hrest.first_le hmem
      omega

/-- Nodes side by side that are all among children, and start with them, start the children. -/
theorem Contiguous.exists_behind {mid : Nat} {ids : List NodeId} (h : Contiguous l es next stop)
    (hids : Contiguous l (ids.map .node) next mid) (hmem : ∀ c ∈ ids, .node c ∈ es) :
    ∃ back, es = ids.map .node ++ back := by
  induction ids generalizing es next with
  | nil => exact ⟨es, rfl⟩
  | cons c cs ih =>
    obtain ⟨-, hfirst, hle, hothers⟩ := hids
    cases es with
    | nil => cases hmem c List.mem_cons_self
    | cons e es =>
      obtain rfl := h.head_eq (hmem c List.mem_cons_self) hfirst
      obtain ⟨-, -, -, hrest⟩ := h
      have hbehind : ∀ c' ∈ cs, .node c' ∈ es := fun c' hc' => by
        have hlt := hothers.first_le ((nodesAmong_nodes cs).symm ▸ hc')
        refine (List.mem_cons.1 (hmem c' (List.mem_cons_of_mem _ hc'))).resolve_left ?_
        rintro ⟨⟩
        omega
      obtain ⟨back, rfl⟩ := ih hrest hothers hbehind
      exact ⟨back, rfl⟩

/-- Nodes side by side that are all among children stand together there. -/
theorem Contiguous.exists_among {start mid : Nat} {ids : List NodeId}
    (h : Contiguous l es next stop) (hids : Contiguous l (ids.map .node) start mid)
    (hmem : ∀ c ∈ ids, .node c ∈ es) : ∃ front back, es = front ++ ids.map .node ++ back := by
  cases ids with
  | nil => exact ⟨[], es, rfl⟩
  | cons c cs =>
    obtain ⟨-, hstart, -, -⟩ := id hids
    induction es generalizing next with
    | nil => cases hmem c List.mem_cons_self
    | cons e es ih =>
      by_cases he : e = .node c
      · have hnext : next = start := by
          subst he
          exact h.2.1.symm.trans hstart
        subst hnext
        obtain ⟨back, hback⟩ := h.exists_behind hids hmem
        exact ⟨[], back, hback⟩
      · have hc : .node c ∈ es :=
          (List.mem_cons.1 (hmem c List.mem_cons_self)).resolve_left (Ne.symm he)
        obtain ⟨mid', hrest, hlt⟩ : ∃ mid', Contiguous l es mid' stop ∧ next < mid' := by
          cases e with
          | token q => exact ⟨_, h.2, Nat.lt_succ_self _⟩
          | node c' => exact ⟨_, h.2.2.2, Nat.lt_succ_of_le h.2.2.1⟩
        have hbehind : ∀ c' ∈ c :: cs, .node c' ∈ es := fun c' hc' => by
          refine (List.mem_cons.1 (hmem c' hc')).resolve_left ?_
          rintro rfl
          have hle := hids.first_le ((nodesAmong_nodes (c :: cs)).symm ▸ hc')
          have hle' := hrest.first_le (SyntaxTree.mem_nodesAmong.2 hc)
          have hfirst := h.2.1
          omega
        obtain ⟨front, back, rfl⟩ := ih hrest hbehind
        exact ⟨e :: front, back, rfl⟩

/-- Children are told by the tokens that they cover and the nodes among them. -/
theorem Contiguous.unique (h : Contiguous l es next stop) (h' : Contiguous l es' next stop)
    (hnodes : (nodesAmong es).Perm (nodesAmong es')) : es = es' := by
  have heq : nodesAmong es = nodesAmong es' :=
    hnodes.eq_of_pairwise (fun a b _ _ hab hba => absurd hab (Nat.lt_asymm hba)) h.pairwise
      h'.pairwise
  clear hnodes
  induction es generalizing es' next with
  | nil =>
    cases h
    cases es' with
    | nil => rfl
    | cons e es' =>
      cases e with
      | token q =>
        have := h'.2.le
        omega
      | node c => cases heq
  | cons e es ih =>
    cases e with
    | token q =>
      cases es' with
      | nil =>
        cases h'
        have := h.2.le
        omega
      | cons e' es' =>
        cases e' with
        | token q' =>
          obtain ⟨hq, hrest⟩ := h
          obtain ⟨hq', hrest'⟩ := h'
          rw [show q = q' from congrArg TokenId.mk (hq.trans hq'.symm), ih hrest hrest' heq]
        | node c =>
          -- The node would start at the token, but it is among the children behind the token.
          have hmem : c ∈ nodesAmong es := by
            rw [show nodesAmong es = _ from heq]
            exact List.mem_cons_self
          have hle := h.2.first_le hmem
          have hfirst := h'.2.1
          omega
    | node c =>
      cases es' with
      | nil => cases heq
      | cons e' es' =>
        cases e' with
        | token q =>
          have hmem : c ∈ nodesAmong es' := by
            rw [← show _ = nodesAmong es' from heq]
            exact List.mem_cons_self
          have hle := h'.2.first_le hmem
          have hfirst := h.2.1
          omega
        | node c' =>
          obtain ⟨rfl, hothers⟩ := List.cons.inj heq
          rw [ih h.2.2.2 h'.2.2.2 hothers]

/-- Children over ranges that abut each other are those of the node that is over all of these. -/
theorem Drafted.children_eq {loose : List NodeId} {id : NodeId} {range : TextRange}
    (ho : row.Ordered) (h : Drafted row l loose) (hid : id.index < l.spans.size)
    (hspan : row.span? range = some (l.spanOf id)) (hes : List.Forall₂ (Occupies row l) rs es)
    (hchain : rs.IsChain (Abuts row)) (hstart : ∀ r, rs.head? = some r → r.start = range.start)
    (hstop : ∃ r, rs.getLast? = some r ∧ r.stop = range.stop)
    (hnodes : (nodesAmong (l.draft.node id).children).Perm (nodesAmong es)) :
    (l.draft.node id).children = es := by
  have hcontiguous := h.contiguous id hid
  generalize l.spanOf id = span at hspan hcontiguous
  obtain ⟨first, last⟩ := span
  obtain ⟨stop, hcovers, hends⟩ := contiguous_of_chain ho hes hchain fun r a b hr hr' =>
    congrArg TokenId.index (ho.first_eq_of_start hr' hspan (hstart r hr))
  obtain ⟨r, hr, hend⟩ := hstop
  obtain ⟨a, b, hr', rfl⟩ := hends r hr
  rw [ho.last_eq_of_stop hr' hspan hend] at hcovers
  exact hcontiguous.unique hcovers hnodes

end Layout

end JavaAnalysis

/-!
## The nodes of variables

What comes of a declaration of variables that is laid: a node for each of them over its tokens and
those behind it up to the separator, with the nodes of its name and of what stands behind the name
as children; the first one has those of the modifiers and the type as well, and all are declared
with that type. Main statement: `lay_variables`.
-/

namespace JavaAnalysis

/-- The kind and the range of the one node that a shape becomes, if these can be told from it. -/
def Shape.top? : Shape → Option (NodeKind × TextRange)
  | .ident range _ => some (.identifier, range)
  | .node spec _ => some (spec.kind, spec.range)
  | _ => none

namespace Layout

open TreeDraft Ast

variable {row : TokenRow} {raw : List Lexeme} {l l' l'' : Layout}
  {loose ids ids' before types inner : List NodeId} {es : List Element} {id : NodeId}
  {gaps : Gaps} {kind : NodeKind} {range : TextRange} {next n start stop : Nat} {type : TypeRef}
  {terminated : Bool}

/-- A node of the kind is over the tokens of the range. -/
structure Stands (row : TokenRow) (l : Layout) (id : NodeId) (kind : NodeKind) (range : TextRange) :
    Prop where
  lt_size : id.index < l.spans.size
  kind_eq : (l.draft.node id).kind = kind
  span?_eq : row.span? range = some (l.spanOf id)

theorem Stands.later (h : Stands row l id kind range) (hg : Grows l l') :
    Stands row l' id kind range := by
  refine ⟨Nat.lt_of_lt_of_le h.lt_size hg.size_le, ?_, ?_⟩
  · rw [hg.node_eq id h.lt_size, h.kind_eq]
  · rw [hg.spanOf_eq id h.lt_size, h.span?_eq]

theorem Made.stands (h : Made row loose l kind range id l') : Stands row l' id kind range :=
  ⟨h.lt_size, h.kind_eq, h.span?_eq⟩

/-! ## Child nodes among tokens -/

/-- Where no token becomes a declaration, a node has no child nodes but those that it is to have. -/
theorem interleave_perm {last : TokenId} :
    Ensures (interleave kind .tokens last next ids) l fun es _ => nodesAmong es = ids := by
  have hgaps : ∀ {n next : Nat} {l : Layout}, Ensures (gapsFrom .tokens n next) l
      fun es _ => nodesAmong es = [] := by
    intro n next l es l' hrun
    rw [gapsFrom_tokens] at hrun
    cases hrun
    simp [nodesAmong, List.filterMap_map, Function.comp_def, Element.node?]
  induction ids generalizing next l with
  | nil => exact hgaps
  | cons id ids ih =>
    unfold interleave
    refine .get ?_
    dsimp only
    split
    · exact .throw_bind
    · refine hgaps.bind fun before l₁ hbefore => ih.bind fun rest l₂ hrest => .pure ?_
      rw [nodesAmong_append, nodesAmong_cons_node, hbefore, hrest, List.nil_append]

theorem nodeOver_perm (ho : row.Ordered) (h : Drafted row l (ids ++ loose)) :
    Ensures (nodeOver kind range ids .tokens) l fun id l' =>
      (nodesAmong (l'.draft.node id).children).Perm ids := by
  unfold nodeOver
  refine .get ?_
  rw [h.row_eq]
  cases hspan : row.span? range with
  | none => exact .throw
  | some span =>
    obtain ⟨hle, hlt⟩ := span_le ho hspan
    have hperm : Ensures (elements kind span ids (.ofRule l .tokens)) l fun es _ =>
        (nodesAmong es).Perm ids := by
      unfold elements
      refine .get (interleave_perm.mono fun es _ hes => ?_)
      rw [hes]
      exact List.mergeSort_perm ids _
    refine (hperm.and (elements_woven h hlt hle)).bind fun es l₁ ⟨hes, hwoven⟩ => ?_
    refine (allocate_ensures hwoven.drafted.size_eq).mono fun id l₂ hnew => ?_
    rw [hnew.node_eq hwoven.drafted.size_eq]
    exact hes

/-! ## One variable -/

/-- Where the node of a variable ends that may have a separator behind it. -/
def EndsAt (row : TokenRow) (offset : Nat) : Option TokenKind → Nat → Prop
  | none, stop => stop = offset
  | some kind, stop =>
    ∃ q, row.after? offset = some q ∧ (row.token q).kind = kind ∧ stop = (row.token q).stop

theorem fragmentStop_endsAt {isLast : Bool} (hrow : l.row = row) :
    Ensures (fragmentStop range isLast terminated) l fun stop l' => l' = l ∧
      EndsAt row range.stop (separatorOf isLast terminated) stop := by
  unfold fragmentStop
  split
  · rename_i hlast
    obtain ⟨rfl, rfl⟩ : isLast = true ∧ terminated = false := by simpa using hlast
    exact .pure ⟨rfl, rfl⟩
  · rename_i hlast
    have hseparator : separatorOf isLast terminated =
        some (if isLast then .semicolon else .comma) := by
      cases isLast <;> cases terminated <;> simp_all [separatorOf]
    refine (following_ensures _ _ _).bind ?_
    rintro id l₁ ⟨hfound, hkind, hl⟩
    refine .get (.pure ⟨hl, ?_⟩)
    subst hl
    subst hrow
    rw [hseparator]
    exact ⟨id, hfound, hkind, rfl⟩

/-- The node of a variable that was laid, with those of its name and of what is behind the name. -/
structure Variable (row : TokenRow) (l : Layout) (types : List NodeId) (type : TypeRef)
    (before : List NodeId) (span : TextRange) (name : Ident) (inside : List Shape)
    (decl nameNode : NodeId) (inner : List NodeId) : Prop where
  stands : Stands row l decl .variableDecl span
  perm : (nodesAmong (l.draft.node decl).children).Perm (before ++ nameNode :: inner)
  named : Stands row l nameNode .identifier name.range
  spelled : ∀ i, row.span? name.range = some (⟨i⟩, ⟨i⟩) →
    (l.draft.node nameNode).children = [.token ⟨i⟩]
  inside : ∃ l₀ loose l₁, Drafted row l₀ loose ∧ layAll inside l₀ = .ok (inner, l₁) ∧ Keeps l₁ l
  declared : ∀ typeNode, types = [typeNode] → ∃ l₁, Grows l₁ l ∧ l₁.row = row ∧
    (∀ c ∈ inner, c.index < l₁.spans.size) ∧
    l.draft.declaredTypes[decl]? = some (l₁.declaredType typeNode type none inner)

theorem Variable.later {span : TextRange} {name : Ident} {inside : List Shape}
    {decl nameNode : NodeId}
    (h : Variable row l types type before span name inside decl nameNode inner)
    (hk : Keeps l l') : Variable row l' types type before span name inside decl nameNode inner := by
  obtain ⟨l₀, loose, l₁, hdrafted, hrun, hkeeps⟩ := h.inside
  refine ⟨h.stands.later hk.toGrows, ?_, h.named.later hk.toGrows, ?_,
    ⟨l₀, loose, l₁, hdrafted, hrun, hkeeps.trans hk⟩, fun typeNode htypes => ?_⟩
  · rw [hk.node_eq decl h.stands.lt_size]
    exact h.perm
  · rw [hk.node_eq nameNode h.named.lt_size]
    exact h.spelled
  · obtain ⟨l₂, hgrows, hrow, hinner, hdeclared⟩ := h.declared typeNode htypes
    refine ⟨l₂, hgrows.trans hk.toGrows, hrow, hinner, ?_⟩
    rw [hk.declaredType_eq decl h.stands.lt_size, hdeclared]

/-- The nodes of variables, the first of which starts at `start` and owns the nodes `before`. -/
inductive Variables (row : TokenRow) (l : Layout) (types : List NodeId) (type : TypeRef)
    (terminated : Bool) : Nat → List NodeId → List FragmentShape → List NodeId → Prop
  | nil {start : Nat} {before : List NodeId} : Variables row l types type terminated start before [] []
  | cons {start stop : Nat} {before inner : List NodeId} {range : TextRange} {name : Ident}
    {inside : List Shape} {fragments : List FragmentShape} {decl nameNode : NodeId}
    {decls : List NodeId} :
    EndsAt row range.stop (separatorOf fragments.isEmpty terminated) stop →
    Variable row l types type before ⟨start, stop⟩ name inside decl nameNode inner →
    Variables row l types type terminated (nextStart stop fragments) [] fragments decls →
    Variables row l types type terminated start before (.mk range name inside :: fragments)
      (decl :: decls)

theorem layFragments_variables (ho : row.Ordered) :
    ∀ (fragments : List FragmentShape) {l : Layout} {loose before : List NodeId}
      {start first lo hi : Nat}, Drafted row l (before ++ loose) →
      FragmentsFit raw terminated fragments first lo hi → (fragments = [] → before = []) →
      Ensures (layFragments terminated start types type before fragments) l fun ids l' =>
        Keeps l l' ∧ Variables row l' types type terminated start before fragments ids
  | [], l, loose, before, start, first, lo, hi, _, _, _ => by
    simp only [layFragments]
    exact .pure ⟨.refl l, .nil⟩
  | .mk range name inside :: fragments, l, loose, before, start, first, lo, hi, h, hfits, _ => by
    simp only [FragmentsFit] at hfits
    obtain ⟨_, -, -, -, ⟨_, -, -, hfitsInside⟩, -, hfitsOthers⟩ := hfits
    simp only [layFragments]
    refine (fragmentStop_endsAt h.row_eq).bind ?_
    rintro stop l₁ ⟨hl, hend⟩
    subst hl
    refine ((leaf_keeps ho h).and (leaf_holds ho h)).bind ?_
    rintro u l₂ ⟨⟨hmade, hkeeps⟩, _, _, hover⟩
    have hrun : Ensures (layAll inside) l₂ fun ids l' => layAll inside l₂ = .ok (ids, l') :=
      fun _ _ h => h
    refine (((layAll_records ho inside hmade.drafted).and hrun).and
      (layAll_contains ho inside hmade.drafted hfitsInside)).bind ?_
    rintro ids l₃ ⟨⟨hrecords, hrun⟩, hcontains⟩
    have hdrafted : Drafted row l₃ (before ++ u :: ids ++ loose) :=
      hrecords.drafted.congr fun id => by
        simp only [List.count_append, List.count_cons]
        omega
    refine ((nodeOver_keeps ho hdrafted).and (nodeOver_perm ho hdrafted)).bind ?_
    rintro decl l₄ ⟨⟨hmade₄, hholds₄, hkeeps₄⟩, hperm⟩
    refine (setTypes_sets decl types type none ids).bind ?_
    rintro _ l₅ ⟨halike, hbound, hothers, hset⟩
    refine (declareAt_enrolls name.range.start).bind fun _ l₆ h₆ => ?_
    have hkeeps₆ := hkeeps₄.declared hmade₄.old_le halike hbound hothers h₆
    have hdrafted₆ : Drafted row l₆ ([] ++ decl :: loose) := by
      obtain ⟨occurrences, rfl⟩ := h₆
      exact (hmade₄.drafted.alike halike).alike ⟨rfl, rfl, rfl⟩
    have hgrows : Grows l₄ l₆ := (halike.grows hbound).trans h₆.keeps.toGrows
    have hname : Stands row l₂ u .identifier name.range := hmade.stands
    have hnamed : Grows l₂ l₆ := hcontains.keeps.toGrows.trans hkeeps₆.toGrows
    have hvariable : Variable row l₆ types type before ⟨start, stop⟩ name inside decl u ids := by
      refine ⟨hmade₄.stands.later hgrows, ?_, hname.later hnamed, ?_,
        ⟨l₂, _, l₃, hmade.drafted, hrun, hkeeps₆⟩, fun typeNode htypes => ?_⟩
      · rw [hgrows.node_eq decl hmade₄.lt_size]
        exact hperm
      · rw [hnamed.node_eq u hmade.lt_size]
        exact hover
      · refine ⟨l₄, hgrows, hmade₄.drafted.row_eq, fun c hc => ?_, ?_⟩
        · exact Nat.lt_of_lt_of_le (hrecords.drafted.lt_size (List.mem_append_left _ hc))
            hkeeps₄.size_le
        · obtain ⟨occurrences, rfl⟩ := h₆
          exact hset typeNode htypes
    refine (layFragments_variables ho fragments hdrafted₆ hfitsOthers fun _ => rfl).bind ?_
    rintro ids' l₇ ⟨hkeeps₇, hvariables⟩
    refine .pure ⟨?_, .cons hend (hvariable.later hkeeps₇) ?_⟩
    · exact ((hkeeps.trans hcontains.keeps).trans hkeeps₆).trans hkeeps₇
    · exact hvariables

/-- A declaration of variables that is laid. -/
theorem lay_variables (ho : row.Ordered) {shapes : List Shape} {typeShape : Shape}
    {fragments : List FragmentShape} {lo hi : Nat} (h : Drafted row l loose)
    (hfits : Fits raw (.variables start terminated shapes typeShape type fragments) lo hi) :
    Ensures (lay (.variables start terminated shapes typeShape type fragments)) l fun ids l' =>
      ∃ before types l₁ l₂, layAll shapes l = .ok (before, l₁) ∧
        lay typeShape l₁ = .ok (types, l₂) ∧ Drafted row l₁ (before ++ loose) ∧
        Keeps l₁ l' ∧ Keeps l₂ l' ∧
        Variables row l' types type terminated start (before ++ types) fragments ids := by
  simp only [Fits] at hfits
  obtain ⟨-, hne, _, _, -, hfitsBefore, -, hfitsType, hfitsFragments⟩ := hfits
  simp only [lay, List.isEmpty_eq_false_iff.2 hne, Bool.false_eq_true, if_false]
  have hrun : Ensures (layAll shapes) l fun ids l' => layAll shapes l = .ok (ids, l') :=
    fun _ _ h => h
  refine ((layAll_records ho shapes h).and hrun).bind fun before l₁ ⟨hrecords₁, hrun₁⟩ => ?_
  have hrun : Ensures (lay typeShape) l₁ fun ids l' => lay typeShape l₁ = .ok (ids, l') :=
    fun _ _ h => h
  refine (((lay_records ho typeShape hrecords₁.drafted).and hrun).and
    (lay_contains ho typeShape hrecords₁.drafted hfitsType)).bind
      fun types l₂ ⟨⟨hrecords₂, hrun₂⟩, hcontains⟩ => ?_
  refine (layFragments_variables ho fragments (hrecords₁.append hrecords₂).drafted hfitsFragments
    fun hnil => absurd hnil hne).mono fun ids l₃ ⟨hkeeps, hvariables⟩ => ?_
  exact ⟨before, types, l₁, l₂, hrun₁, hrun₂, hrecords₁.drafted, hcontains.keeps.trans hkeeps, hkeeps,
    hvariables⟩

/-! ## Shapes that become one node -/

/-- A shape of which this can be told becomes one node of its kind over its range. -/
theorem lay_top (ho : row.Ordered) {shape : Shape} (h : Drafted row l loose)
    (htop : shape.top? = some (kind, range)) :
    Ensures (lay shape) l fun ids l' => ∃ id, ids = [id] ∧ Stands row l' id kind range := by
  cases shape with
  | ident range use =>
    cases htop
    simp only [lay]
    refine (leaf_keeps ho h).bind ?_
    rintro id l₁ ⟨hmade, _⟩
    cases use with
    | none => exact .pure ⟨id, rfl, hmade.stands⟩
    | some offset =>
      exact (referAt_enrolls offset).bind fun _ l₂ h₂ =>
        .pure ⟨id, rfl, hmade.stands.later h₂.keeps.toGrows⟩
  | node spec children =>
    cases htop
    simp only [lay]
    refine (checkWord_ensures spec).bind fun _ l₁ hl => ?_
    subst hl
    refine (layAll_records ho children h).bind fun ids l₁ h₁ => ?_
    refine (nodeOver_ensures ho h₁.drafted).bind fun id l₂ h₂ => ?_
    exact (declareIf_enrolls spec.declares).bind fun _ l₃ h₃ =>
      .pure ⟨id, rfl, h₂.stands.later h₃.keeps.toGrows⟩
  | _ => cases htop

/-- The nodes of several shapes that become one node each. -/
theorem layAll_tops (ho : row.Ordered) {kind : NodeKind} {ranges : List TextRange}
    {shapes : List Shape} (h : Drafted row l loose)
    (htop : List.Forall₂ (fun (r : TextRange) s => s.top? = some (kind, r)) ranges shapes) :
    Ensures (layAll shapes) l fun ids l' =>
      Drafted row l' (ids ++ loose) ∧
        List.Forall₂ (fun r id => Stands row l' id kind r) ranges ids := by
  induction htop generalizing l loose with
  | nil =>
    simp only [layAll]
    exact .pure ⟨h, .nil⟩
  | @cons r s rs ss hs _ ih =>
    simp only [layAll]
    refine ((lay_records ho s h).and (lay_top ho h hs)).bind
      fun _ l₁ ⟨hrecords, id, hids, hstands⟩ => ?_
    subst hids
    refine ((layAll_records ho ss hrecords.drafted).and (ih hrecords.drafted)).bind
      fun ids l₂ ⟨hrecords₂, hdrafted, hothers⟩ => .pure ⟨?_, ?_⟩
    · refine hdrafted.congr fun id' => ?_
      simp only [List.cons_append, List.count_append, List.count_cons]
      omega
    · exact .cons (hstands.later hrecords₂.recorded.grows) hothers

/-- Shapes are laid one behind the other. -/
theorem layAll_append {as bs : List Shape} (h : layAll (as ++ bs) l = .ok (ids, l')) :
    ∃ front l₁ back, layAll as l = .ok (front, l₁) ∧ layAll bs l₁ = .ok (back, l') ∧
      ids = front ++ back := by
  induction as generalizing l ids with
  | nil => exact ⟨[], l, ids, by simp only [layAll]; rfl, h, rfl⟩
  | cons s ss ih =>
    simp only [List.cons_append, layAll] at h ⊢
    obtain ⟨first, l₁, hfirst, hrest⟩ := bind_run_eq_ok.1 h
    obtain ⟨others, l₂, hothers, hpure⟩ := bind_run_eq_ok.1 hrest
    cases hpure
    obtain ⟨front, l₃, back, hfront, hback, rfl⟩ := ih hothers
    refine ⟨first ++ front, l₃, back, ?_, hback, (List.append_assoc _ _ _).symm⟩
    exact bind_run_eq_ok.2 ⟨first, l₁, hfirst, bind_run_eq_ok.2 ⟨front, l₃, hfront, rfl⟩⟩

end Layout

end JavaAnalysis
