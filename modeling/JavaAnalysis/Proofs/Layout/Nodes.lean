import JavaAnalysis.Proofs.Layout.Drafted
import JavaAnalysis.Proofs.Layout.Fits

/-!
# Laying one node

A node over a range takes the nodes inside the range as its children, with the tokens between them.
Where these nodes lie in the text one behind the other, none of them overlaps another or sticks out,
and the node is made. Main statement: `nodeOver_succeeds`.
-/

set_option autoImplicit false
set_option linter.dupNamespace false

namespace JavaAnalysis

namespace Layout

open TreeDraft

variable {row : TokenRow} {l l' : Layout} {loose ids ids' : List NodeId} {es : List Element}
  {gaps : Gaps} {kind : NodeKind} {next stop lo lo' hi hi' mid : Nat} {range : TextRange}

/-- The nodes lie in the text between two offsets, one behind the other. -/
def Within (l : Layout) : List NodeId → Nat → Nat → Prop
  | [], _, _ => True
  | id :: ids, lo, hi =>
    id.index < l.spans.size ∧ (l.spanOf id).1.index ≤ (l.spanOf id).2.index ∧
      (l.spanOf id).2.index < l.row.count ∧ lo ≤ (l.token (l.spanOf id).1).start ∧
      (l.token (l.spanOf id).2).stop ≤ hi ∧ Within l ids (l.token (l.spanOf id).2).stop hi

theorem Within.mono (h : Within l ids lo hi) (hlo : lo' ≤ lo) (hhi : hi ≤ hi') :
    Within l ids lo' hi' := by
  induction ids generalizing lo lo' with
  | nil => trivial
  | cons id ids ih =>
    obtain ⟨hid, hordered, hlt, hstart, hstop, hrest⟩ := h
    exact ⟨hid, hordered, hlt, Nat.le_trans hlo hstart, Nat.le_trans hstop hhi,
      ih hrest (Nat.le_refl _)⟩

theorem Within.append (h : Within l ids lo mid) (h' : Within l ids' mid hi) (hlo : lo ≤ mid)
    (hhi : mid ≤ hi) : Within l (ids ++ ids') lo hi := by
  induction ids generalizing lo with
  | nil => exact h'.mono hlo (Nat.le_refl hi)
  | cons id ids ih =>
    obtain ⟨hid, hordered, hlt, hstart, hstop, hrest⟩ := h
    exact ⟨hid, hordered, hlt, hstart, Nat.le_trans hstop hhi, ih hrest hstop⟩

theorem Within.extends (h : Within l ids lo hi) (hrow : l'.row = l.row) (he : Extends l l') :
    Within l' ids lo hi := by
  induction ids generalizing lo with
  | nil => trivial
  | cons id ids ih =>
    obtain ⟨hid, hordered, hlt, hstart, hstop, hrest⟩ := h
    unfold Within
    rw [he.spanOf_eq id hid, token, token, hrow]
    exact ⟨Nat.lt_of_lt_of_le hid he.size_le, hordered, hlt, hstart, hstop, ih hrest⟩

/-- Nodes inside the text of some tokens cover these tokens one behind the other. -/
theorem Within.nested (h : Within l ids lo hi) (ho : l.row.Ordered) (hle : next ≤ stop)
    (hnext : ∀ j < l.row.count, lo ≤ (l.row.token ⟨j⟩).start → next ≤ j)
    (hstop : ∀ j < l.row.count, (l.row.token ⟨j⟩).stop ≤ hi → j < stop) :
    Nested l ids next stop := by
  induction ids generalizing next lo with
  | nil => exact hle
  | cons id ids ih =>
    obtain ⟨hid, hordered, hlt, hstart, hend, hrest⟩ := h
    have hfirst := hnext _ (Nat.lt_of_le_of_lt hordered hlt) hstart
    have hlast := hstop _ hlt hend
    refine ⟨hid, hfirst, hordered, ih hrest hlast fun j _ hj => ?_⟩
    exact ho.lt_of_stop_le hlt hj

theorem Nested.le (h : Nested l ids next stop) : next ≤ stop := by
  induction ids generalizing next with
  | nil => exact h
  | cons id ids ih =>
    obtain ⟨-, hfirst, hordered, hrest⟩ := h
    have := ih hrest
    omega

theorem Nested.extends (h : Nested l ids next stop) (he : Extends l l') :
    Nested l' ids next stop := by
  induction ids generalizing next with
  | nil => exact h
  | cons id ids ih =>
    obtain ⟨hid, hfirst, hordered, hrest⟩ := h
    unfold Nested
    rw [he.spanOf_eq id hid]
    exact ⟨Nat.lt_of_lt_of_le hid he.size_le, hfirst, hordered, ih hrest⟩

theorem Nested.first_le (h : Nested l ids next stop) :
    ∀ id ∈ ids, next ≤ (l.spanOf id).1.index := by
  induction ids generalizing next with
  | nil => simp
  | cons id ids ih =>
    obtain ⟨-, hfirst, hordered, hrest⟩ := h
    intro id' hid'
    rcases List.mem_cons.1 hid' with rfl | hid'
    · exact hfirst
    · have := ih hrest id' hid'
      omega

theorem Nested.pairwise (h : Nested l ids next stop) :
    ids.Pairwise fun a b => (l.spanOf a).1.index < (l.spanOf b).1.index := by
  induction ids generalizing next with
  | nil => exact .nil
  | cons id ids ih =>
    obtain ⟨-, hfirst, hordered, hrest⟩ := h
    refine List.pairwise_cons.2 ⟨fun id' hid' => ?_, ih hrest⟩
    have := hrest.first_le id' hid'
    omega

/-! ## Tokens between child nodes -/

theorem gap_succeeds (h : Drafted row l loose) (hlt : next < row.tokens.size) :
    Succeeds (gap gaps ⟨next⟩) l fun e l' =>
      Drafted row l' (nodesAmong [e] ++ loose) ∧ Extends l l' ∧
        Contiguous l' [e] next (next + 1) := by
  have htoken : Succeeds (pure (.token ⟨next⟩) : Step Element) l fun e l' =>
      Drafted row l' (nodesAmong [e] ++ loose) ∧ Extends l l' ∧
        Contiguous l' [e] next (next + 1) :=
    .pure ⟨h, Extends.refl l, rfl, rfl⟩
  unfold gap
  cases gaps with
  | tokens => exact htoken
  | declarations keep =>
    refine Succeeds.get ?_
    split
    · have hnew : Succeeds (allocate .emptyDecl [.token ⟨next⟩] (⟨next⟩, ⟨next⟩)) l fun id l' =>
          Drafted row l' (id :: loose) ∧ Extends l l' ∧ id.index < l'.spans.size ∧
            l'.spanOf id = (⟨next⟩, ⟨next⟩) :=
        Drafted.allocate h (Nat.le_refl _) hlt ⟨rfl, rfl⟩
      refine hnew.bind fun id l' ⟨hdrafted, he, hid, hspan⟩ => .pure ⟨hdrafted, he, hid, ?_⟩
      rw [hspan]
      exact ⟨rfl, Nat.le_refl _, rfl⟩
    · exact htoken

theorem gapsFrom_succeeds {n : Nat} (h : Drafted row l loose) (hle : next + n ≤ row.tokens.size) :
    Succeeds (gapsFrom gaps n next) l fun es l' =>
      Drafted row l' (nodesAmong es ++ loose) ∧ Extends l l' ∧
        Contiguous l' es next (next + n) := by
  induction n generalizing next l loose with
  | zero => exact .pure ⟨h, Extends.refl l, rfl⟩
  | succ n ih =>
    refine (gap_succeeds h (by omega)).bind fun e l₁ ⟨hdrafted, he, hfirst⟩ => ?_
    refine (ih hdrafted (by omega)).bind fun es l₂ ⟨hdrafted', he', hrest⟩ => .pure ⟨?_, ?_, ?_⟩
    · refine hdrafted'.congr fun id => ?_
      have hcons : nodesAmong (e :: es) = nodesAmong [e] ++ nodesAmong es :=
        nodesAmong_append [e] es
      rw [hcons]
      simp only [List.count_append]
      omega
    · exact he.trans he'
    · have hcount : next + (n + 1) = next + 1 + n := by omega
      rw [hcount]
      exact (hfirst.extends he').append hrest

theorem interleave_succeeds {last : TokenId} (h : Drafted row l (ids ++ loose))
    (hlast : last.index < row.tokens.size) (hnested : Nested l ids next (last.index + 1)) :
    Succeeds (interleave kind gaps last next ids) l fun es l' =>
      Drafted row l' (nodesAmong es ++ loose) ∧ Extends l l' ∧
        Contiguous l' es next (last.index + 1) := by
  induction ids generalizing next l loose with
  | nil =>
    have hle : next ≤ last.index + 1 := hnested
    have hcount : next + (last.index + 1 - next) = last.index + 1 := by omega
    have hgaps := @gapsFrom_succeeds row l loose gaps next (last.index + 1 - next) h (by omega)
    rw [hcount] at hgaps
    exact hgaps
  | cons id ids ih =>
    obtain ⟨hid, hfirst, hordered, hrest⟩ := hnested
    have hend := hrest.le
    unfold interleave
    refine Succeeds.get ?_
    have hno : ¬ ((l.spanOf id).1.index < next ∨ last.index < (l.spanOf id).2.index) := by omega
    simp only [hno, if_false]
    have hcount : next + ((l.spanOf id).1.index - next) = (l.spanOf id).1.index := by omega
    have hbefore := @gapsFrom_succeeds row l (id :: ids ++ loose) gaps next
      ((l.spanOf id).1.index - next) h (by omega)
    rw [hcount] at hbefore
    refine hbefore.bind fun before l₁ ⟨hdrafted, he, hgaps⟩ => ?_
    have hloose : Drafted row l₁ (ids ++ (nodesAmong before ++ id :: loose)) :=
      hdrafted.congr fun id' => by
        simp only [List.cons_append, List.count_append, List.count_cons]
        omega
    refine (ih hloose (hrest.extends he)).bind fun rest l₂ ⟨hdrafted', he', hothers⟩ =>
      .pure ⟨?_, he.trans he', ?_⟩
    · refine hdrafted'.congr fun id' => ?_
      rw [nodesAmong_append, nodesAmong_cons_node]
      simp only [List.count_append, List.count_cons]
      omega
    · refine (hgaps.extends he').append ?_
      have hspan := (he.trans he').spanOf_eq id hid
      unfold Contiguous
      rw [hspan]
      exact ⟨Nat.lt_of_lt_of_le hid (he.trans he').size_le, rfl, hordered, hothers⟩

/-- Nodes that are nested already need not be sorted. -/
theorem elements_succeeds {first last : TokenId} (h : Drafted row l (ids ++ loose))
    (hlast : last.index < row.tokens.size)
    (hnested : Nested l ids first.index (last.index + 1)) :
    Succeeds (elements kind (first, last) ids gaps) l fun es l' =>
      Drafted row l' (nodesAmong es ++ loose) ∧ Extends l l' ∧
        Contiguous l' es first.index (last.index + 1) := by
  have hsorted : (ids.mergeSort fun a b =>
      decide ((l.spanOf a).1.index ≤ (l.spanOf b).1.index)) = ids := by
    refine List.mergeSort_of_pairwise (hnested.pairwise.imp fun hlt => ?_)
    exact decide_eq_true (Nat.le_of_lt hlt)
  unfold elements
  refine Succeeds.get ?_
  rw [hsorted]
  exact interleave_succeeds h hlast hnested

/-! ## Nodes over a range -/

/-- From the first layout to the second, nodes without a parent are laid between two offsets. -/
structure Laid (row : TokenRow) (loose : List NodeId) (l : Layout) (lo hi : Nat) (ids : List NodeId)
    (l' : Layout) : Prop where
  drafted : Drafted row l' (ids ++ loose)
  kept : Extends l l'
  within : Within l' ids lo hi

variable {raw : List Lexeme} {word : Option TokenKind}

theorem nodeOver_succeeds {rule : GapRule} (hc : row.Carries raw)
    (h : Drafted row l (ids ++ loose)) (hrange : Ranged raw range word lo hi)
    (hids : Within l ids range.start range.stop) :
    Succeeds (nodeOver kind range ids rule) l fun id l' => Laid row loose l lo hi [id] l' := by
  obtain ⟨hlo, hhi, hanchored⟩ := hrange
  obtain ⟨i, hi, hstart, hstop, -⟩ := hc.anchored hanchored
  obtain ⟨first, last, hspan⟩ := hc.ordered.span?_of_inside hi (Nat.le_of_eq hstart.symm) hstop
  have hspans := hc.ordered.span?_eq_some hspan
  have hlast : last.index < row.tokens.size := by
    have hsize := hc.ordered.size
    have hlt := hspans.lt
    omega
  have hrow := h.row_eq
  have hnested : Nested l ids first.index (last.index + 1) := by
    refine hids.nested (hrow ▸ hc.ordered) (Nat.le_succ_of_le hspans.le) ?_ ?_
    · rw [hrow]
      exact hspans.first_le
    · rw [hrow]
      exact fun j hj hj' => Nat.lt_succ_of_le (hspans.le_last j hj hj')
  unfold nodeOver
  refine Succeeds.get ?_
  rw [hrow, hspan]
  refine (elements_succeeds h hlast hnested).bind fun es l₁ ⟨hdrafted, he, hes⟩ => ?_
  refine (hdrafted.allocate hspans.le hlast hes).mono fun id l₂ ⟨hdrafted', he', hid, hspan'⟩ => ?_
  refine ⟨hdrafted', he.trans he', hid, ?_⟩
  rw [hspan', token, token, hdrafted'.row_eq]
  exact ⟨hspans.le, hspans.lt, Nat.le_trans hlo hspans.start_le,
    Nat.le_trans hspans.le_stop hhi, trivial⟩

/-! ## Tokens that must be there -/

theorem expectKind_succeeds {node : NodeKind} {offset : Nat} {expected : TokenKind}
    {found : Option TokenId} {id : TokenId} (hfound : found = some id)
    (hkind : (l.token id).kind = expected) :
    Succeeds (expectKind node offset expected found) l fun id' l' => id' = id ∧ l' = l := by
  unfold expectKind
  refine Succeeds.get ?_
  have hfilter : found.filter (fun id => (l.token id).kind == expected) = some id := by
    simp [hfound, hkind]
  rw [hfilter]
  exact .pure ⟨rfl, rfl⟩

theorem leading_succeeds {node : NodeKind} {expected : TokenKind} (hc : row.Carries raw)
    (hrow : l.row = row) (h : Anchored raw range.start range.stop (some expected)) :
    Succeeds (leading node range expected) l fun _ l' => l' = l := by
  obtain ⟨i, hi, hstart, hstop, hkind⟩ := hc.anchored h
  have hfound := hc.ordered.firstInside?_eq hi hstart.symm hstop
  unfold leading
  refine Succeeds.get ?_
  rw [hrow]
  have htoken : (l.token ⟨i⟩).kind = expected := by
    rw [token, hrow]
    exact hkind expected rfl
  exact (expectKind_succeeds hfound htoken).bind fun _ _ ⟨_, hl⟩ => .pure hl

theorem preceding_succeeds {node : NodeKind} {expected : TokenKind} {offset : Nat} {x : Lexeme}
    (hc : row.Carries raw) (hs : Lexeme.Significant raw) (hrow : l.row = row)
    (h : Precedes raw x expected offset) :
    Succeeds (preceding node offset expected) l fun id l' =>
      l' = l ∧ (l.token id).toLexeme = x := by
  obtain ⟨i, hfound, hlexeme⟩ := hc.before? hs h
  rw [← hrow] at hfound hlexeme
  have hkind : (l.token ⟨i⟩).kind = expected := by
    rw [token, hlexeme]
    exact h.kind_eq
  unfold preceding
  refine Succeeds.get ?_
  exact (expectKind_succeeds hfound hkind).mono fun _ _ ⟨hid, hl⟩ => ⟨hl, hid ▸ hlexeme⟩

theorem following_succeeds {node : NodeKind} {expected : TokenKind} {offset : Nat} {x : Lexeme}
    (hc : row.Carries raw) (hrow : l.row = row) (h : Follows raw offset expected x) :
    Succeeds (following node offset expected) l fun id l' =>
      l' = l ∧ (l.token id).toLexeme = x := by
  obtain ⟨i, hfound, hlexeme⟩ := hc.after? h
  rw [← hrow] at hfound hlexeme
  have hkind : (l.token ⟨i⟩).kind = expected := by
    rw [token, hlexeme]
    exact h.kind_eq
  unfold following
  refine Succeeds.get ?_
  exact (expectKind_succeeds hfound hkind).mono fun _ _ ⟨hid, hl⟩ => ⟨hl, hid ▸ hlexeme⟩

end Layout

end JavaAnalysis
