import JavaAnalysis.Layout.Tree
import JavaAnalysis.Proofs.Layout.Nodes

/-!
# Laying shapes that fit

Where shapes fit the lexemes of a file, their nodes can be laid over its tokens: by induction over
the shapes, with the nodes inside a shape in the text between its ends, and nothing else left loose.
Main statement: `layAll_succeeds`.
-/

set_option autoImplicit false
set_option linter.dupNamespace false

namespace JavaAnalysis

namespace Layout

open TreeDraft Ast

variable {row : TokenRow} {raw : List Lexeme} {l l' l'' : Layout} {loose ids ids' : List NodeId}
  {es : List Element}
  {lo hi mid start stop : Nat} {range : TextRange}

/-! ## Steps that make no nodes -/

theorem Alike.refl (l : Layout) : Alike l l := ⟨rfl, rfl, rfl⟩

theorem record_succeeds (f : Occurrences → Occurrences) (l : Layout) :
    Succeeds (record f) l fun _ l' => Alike l l' :=
  ⟨_, _, rfl, rfl, rfl, rfl⟩

theorem declareAt_succeeds (offset : Nat) (id : NodeId) (l : Layout) :
    Succeeds (declareAt offset id) l fun _ l' => Alike l l' := by
  unfold declareAt
  refine Succeeds.get ?_
  split
  · exact record_succeeds _ l
  · exact .pure (Alike.refl l)

theorem referAt_succeeds (offset : Nat) (id : NodeId) (l : Layout) :
    Succeeds (referAt offset id) l fun _ l' => Alike l l' := by
  unfold referAt
  refine Succeeds.get ?_
  split
  · exact record_succeeds _ l
  · exact .pure (Alike.refl l)

theorem declareIf_succeeds (offset : Option Nat) (id : NodeId) (l : Layout) :
    Succeeds (declareIf offset id) l fun _ l' => Alike l l' := by
  cases offset with
  | none => exact .pure (Alike.refl l)
  | some o => exact declareAt_succeeds o id l

theorem setType_succeeds (id typeNode : NodeId) (type : TypeRef) (ellipsis : Option TextRange)
    (after : List NodeId) (l : Layout) :
    Succeeds (setType id typeNode type ellipsis after) l fun _ l' => Alike l l' :=
  ⟨_, _, rfl, rfl, rfl, rfl⟩

theorem forM_succeeds {f : NodeId → Step PUnit}
    (hf : ∀ id l, Succeeds (f id) l fun _ l' => Alike l l') (ids : List NodeId) (l : Layout) :
    Succeeds (ids.forM f) l fun _ l' => Alike l l' := by
  induction ids generalizing l with
  | nil => exact .pure (Alike.refl l)
  | cons id ids ih =>
    have hfirst : Succeeds (f id >>= fun _ => ids.forM f) l fun _ l' => Alike l l' :=
      (hf id l).bind fun _ l₁ h₁ => (ih l₁).mono fun _ l₂ h₂ => h₁.trans h₂
    exact hfirst

/-! ## Laying one thing after another -/

namespace Laid

theorem nil (h : Drafted row l loose) : Laid row loose l lo hi [] l :=
  ⟨h, Extends.refl l, trivial⟩

theorem alike (h : Laid row loose l lo hi ids l') (ha : Alike l' l'') :
    Laid row loose l lo hi ids l'' :=
  ⟨h.drafted.alike ha, h.kept.trans ha.extends, h.within.extends ha.row_eq ha.extends⟩

theorem widen (h : Laid row loose l lo hi ids l')
    {lo' hi' : Nat} (hlo : lo' ≤ lo) (hhi : hi ≤ hi') :
    Laid row loose l lo' hi' ids l' :=
  ⟨h.drafted, h.kept, h.within.mono hlo hhi⟩

/-- Nodes that are laid behind nodes that were laid before. -/
theorem append (h : Laid row loose l lo mid ids l')
    (h' : Laid row (ids ++ loose) l' mid hi ids' l'')
    (hlo : lo ≤ mid) (hhi : mid ≤ hi) : Laid row loose l lo hi (ids ++ ids') l'' := by
  have hrow : l''.row = l'.row := h'.drafted.row_eq.trans h.drafted.row_eq.symm
  refine ⟨h'.drafted.congr fun id => ?_, h.kept.trans h'.kept,
    (h.within.extends hrow h'.kept).append h'.within hlo hhi⟩
  simp only [List.count_append]
  omega

/-- A node that takes in nodes that were laid before. -/
theorem wrap {id : NodeId} (h : Laid row loose l start stop ids l')
    (h' : Laid row loose l' lo hi [id] l'') :
    Laid row loose l lo hi [id] l'' :=
  ⟨h'.drafted, h.kept.trans h'.kept, h'.within⟩

end Laid

theorem leaf_succeeds {kind : NodeKind} (hc : row.Carries raw) (h : Drafted row l loose)
    (hrange : Ranged raw range none lo hi) :
    Succeeds (leaf kind range) l fun id l' => Laid row loose l lo hi [id] l' :=
  nodeOver_succeeds hc h hrange trivial

theorem checkWord_succeeds {spec : NodeSpec} (hc : row.Carries raw) (h : Drafted row l loose)
    (hrange : Ranged raw spec.range spec.word lo hi) :
    Succeeds (checkWord spec) l fun _ l' => l' = l := by
  obtain ⟨-, -, hanchored⟩ := hrange
  unfold checkWord
  split
  · rename_i word hword
    rw [hword] at hanchored
    exact leading_succeeds hc h.row_eq hanchored
  · exact .pure rfl

theorem fragmentStop_succeeds {isLast terminated : Bool} (hc : row.Carries raw)
    (h : Drafted row l loose) (hend : FragmentEnd raw range isLast terminated stop) :
    Succeeds (fragmentStop range isLast terminated) l fun found l' => found = stop ∧ l' = l := by
  unfold fragmentStop
  unfold FragmentEnd at hend
  split
  · rename_i hlast
    rw [if_pos hlast] at hend
    exact .pure ⟨hend.symm, rfl⟩
  · rename_i hlast
    rw [if_neg hlast] at hend
    obtain ⟨x, hx, rfl⟩ := hend
    refine (following_succeeds hc h.row_eq hx).bind fun id l₁ ⟨hl, hlexeme⟩ => ?_
    subst hl
    exact Succeeds.get (.pure ⟨by rw [hlexeme], rfl⟩)

theorem clauseRange_succeeds {kind : NodeKind} {word : TokenKind} {x : Lexeme}
    (hc : row.Carries raw) (hs : Lexeme.Significant raw) (h : Drafted row l loose)
    (hx : Precedes raw x word range.start) :
    Succeeds (clauseRange kind word range) l fun found l' =>
      found = ⟨x.start, range.stop⟩ ∧ l' = l := by
  unfold clauseRange
  refine (preceding_succeeds hc hs h.row_eq hx).bind fun id l₁ ⟨hl, hlexeme⟩ => ?_
  subst hl
  exact Succeeds.get (.pure ⟨by rw [hlexeme], rfl⟩)

theorem inBody_succeeds {α : Type} {step : Step α} {post : α → Layout → Prop}
    (hstep : ∀ l', Alike l l' → Succeeds step l' post)
    (hpost : ∀ a l' l'', post a l' → Alike l' l'' → post a l'') :
    Succeeds (inBody step) l post := by
  unfold inBody
  refine Succeeds.get ?_
  have hstart : Alike l { l with occurrences := l.occurrences.enterBody.2 } := ⟨rfl, rfl, rfl⟩
  obtain ⟨a, l₁, hrun, ha⟩ := hstep _ hstart
  exact ⟨a, _, bind_run_eq_ok.2 ⟨(), _, rfl, bind_run_eq_ok.2 ⟨a, l₁, hrun, rfl⟩⟩,
    hpost _ _ _ ha ⟨rfl, rfl, rfl⟩⟩

/-! ## Laying shapes -/

mutual

theorem lay_succeeds (hc : row.Carries raw) (hs : Lexeme.Significant raw) :
    ∀ (shape : Shape) {l : Layout} {loose : List NodeId} {lo hi : Nat}, Drafted row l loose →
      Fits raw shape lo hi → Succeeds (lay shape) l fun ids l' => Laid row loose l lo hi ids l'
  | .ident range use, l, loose, lo, hi, h, hfits => by
    simp only [Fits] at hfits
    simp only [lay]
    refine (leaf_succeeds hc h hfits).bind fun id l₁ h₁ => ?_
    cases use with
    | none => exact .pure h₁
    | some offset =>
      exact (referAt_succeeds offset id l₁).bind fun _ l₂ h₂ => .pure (h₁.alike h₂)
  | .node spec children, l, loose, lo, hi, h, hfits => by
    simp only [Fits] at hfits
    obtain ⟨hrange, hchildren⟩ := hfits
    simp only [lay]
    refine (checkWord_succeeds hc h hrange).bind fun _ l₁ hl => ?_
    subst hl
    refine (layAll_succeeds hc hs children h hchildren).bind fun ids l₁ h₁ => ?_
    refine (nodeOver_succeeds hc h₁.drafted hrange h₁.within).bind fun id l₂ h₂ => ?_
    exact (declareIf_succeeds spec.declares id l₂).bind fun _ l₃ h₃ => .pure ((h₁.wrap h₂).alike h₃)
  | .typed spec before typeShape type ellipsis after, l, loose, lo, hi, h, hfits => by
    simp only [Fits] at hfits
    obtain ⟨hrange, mid, stop, hmid, hbefore, hstop, htype, hle, hafter⟩ := hfits
    simp only [lay]
    refine (layAll_succeeds hc hs before h hbefore).bind fun ids₁ l₁ h₁ => ?_
    refine (lay_succeeds hc hs typeShape h₁.drafted htype).bind fun ids₂ l₂ h₂ => ?_
    have h₁₂ := h₁.append h₂ hmid hstop
    refine (layAll_succeeds hc hs after h₁₂.drafted hafter).bind fun ids₃ l₃ h₃ => ?_
    have h₁₃ := h₁₂.append h₃ (Nat.le_trans hmid hstop) hle
    refine (nodeOver_succeeds hc h₁₃.drafted hrange h₁₃.within).bind fun id l₄ h₄ => ?_
    refine (forM_succeeds (fun typeNode l => setType_succeeds id typeNode type ellipsis ids₃ l)
      ids₂ l₄).bind fun _ l₅ h₅ => ?_
    exact (declareIf_succeeds spec.declares id l₅).bind fun _ l₆ h₆ =>
      .pure ((h₁₃.wrap h₄).alike (h₅.trans h₆))
  | .clause kind word range types, l, loose, lo, hi, h, hfits => by
    simp only [Fits] at hfits
    obtain ⟨x, hx, hlo, hle, hhi, htypes⟩ := hfits
    simp only [lay]
    refine (clauseRange_succeeds hc hs h hx).bind fun found l₁ ⟨hfound, hl⟩ => ?_
    subst hfound hl
    refine (layAll_succeeds hc hs types h htypes).bind fun ids l₁ h₁ => ?_
    have hrange : Ranged raw ⟨x.start, range.stop⟩ none lo hi :=
      ⟨hlo, hhi, x, hx.mem, hx.firm, rfl, Nat.le_trans hx.stop_le hle, fun _ h => by cases h⟩
    have hstart : x.start ≤ range.start := Nat.le_trans (Nat.le_add_right _ _) hx.stop_le
    have hwithin : Within l₁ ids x.start range.stop := h₁.within.mono hstart (Nat.le_refl _)
    exact (nodeOver_succeeds hc h₁.drafted hrange hwithin).bind fun id l₂ h₂ => .pure (h₁.wrap h₂)
  | .variables start terminated before typeShape type fragments, l, loose, lo, hi, h, hfits => by
    simp only [Fits] at hfits
    obtain ⟨hlo, hne, mid, stop, hmid, hbefore, hstop, htype, hfragments⟩ := hfits
    simp only [lay, List.isEmpty_eq_false_iff.2 hne, Bool.false_eq_true, if_false]
    refine (layAll_succeeds hc hs before h hbefore).bind fun ids₁ l₁ h₁ => ?_
    refine (lay_succeeds hc hs typeShape h₁.drafted htype).bind fun ids₂ l₂ h₂ => ?_
    have h₁₂ := h₁.append h₂ hmid hstop
    refine (layFragments_succeeds hc hs fragments h₁₂.drafted h₁₂.within (Nat.le_trans hmid hstop)
      hfragments fun hnil => absurd hnil hne).mono fun ids₃ l₃ h₃ => ?_
    exact ⟨h₃.drafted, h₁₂.kept.trans h₃.kept, h₃.within.mono hlo (Nat.le_refl hi)⟩
  | .labeled range label body, l, loose, lo, hi, h, hfits => by
    simp only [Fits] at hfits
    obtain ⟨hrange, -, mid, hmid, hlabel, hbody⟩ := hfits
    simp only [lay]
    refine (leaf_succeeds hc h hlabel).bind fun id l₁ h₁ => ?_
    refine (record_succeeds _ l₁).bind fun _ l₂ h₂ => ?_
    have h₁₂ := h₁.alike h₂
    refine (layAll_succeeds hc hs body h₁₂.drafted hbody).bind fun ids l₃ h₃ => ?_
    have h₁₃ := h₁₂.append h₃ hlabel.le hmid
    refine (nodeOver_succeeds hc h₁₃.drafted hrange h₁₃.within).bind fun labeled l₄ h₄ => ?_
    exact (record_succeeds _ l₄).bind fun _ l₅ h₅ => .pure ((h₁₃.wrap h₄).alike h₅)
  | .jump kind range none, l, loose, lo, hi, h, hfits => by
    simp only [Fits] at hfits
    simp only [lay]
    exact (leaf_succeeds hc h hfits).bind fun id l₁ h₁ => .pure h₁
  | .jump kind range (some label), l, loose, lo, hi, h, hfits => by
    simp only [Fits] at hfits
    obtain ⟨hrange, -, hlabel⟩ := hfits
    simp only [lay]
    refine (leaf_succeeds hc h hlabel).bind fun id l₁ h₁ => ?_
    refine (record_succeeds _ l₁).bind fun _ l₂ h₂ => ?_
    have h₁₂ := h₁.alike h₂
    exact (nodeOver_succeeds hc h₁₂.drafted hrange h₁₂.within).bind fun jump l₃ h₃ =>
      .pure (h₁₂.wrap h₃)
  | .body inside, l, loose, lo, hi, h, hfits => by
    simp only [Fits] at hfits
    simp only [lay]
    refine inBody_succeeds (fun l₁ h₁ => ?_) fun ids l₁ l₂ h₁ h₂ => h₁.alike h₂
    exact (layAll_succeeds hc hs inside (h.alike h₁) hfits).mono fun ids l₂ h₂ =>
      ⟨h₂.drafted, h₁.extends.trans h₂.kept, h₂.within⟩

/-- Shapes that fit can be laid. -/
theorem layAll_succeeds (hc : row.Carries raw) (hs : Lexeme.Significant raw) :
    ∀ (shapes : List Shape) {l : Layout} {loose : List NodeId} {lo hi : Nat}, Drafted row l loose →
      Placed raw shapes lo hi →
        Succeeds (layAll shapes) l fun ids l' => Laid row loose l lo hi ids l'
  | [], l, loose, lo, hi, h, _ => by
    simp only [layAll]
    exact .pure (.nil h)
  | s :: ss, l, loose, lo, hi, h, hplaced => by
    simp only [Placed] at hplaced
    obtain ⟨mid, hlo, hhi, hfirst, hothers⟩ := hplaced
    simp only [layAll]
    refine (lay_succeeds hc hs s h hfirst).bind fun ids₁ l₁ h₁ => ?_
    exact (layAll_succeeds hc hs ss h₁.drafted hothers).bind fun ids₂ l₂ h₂ =>
      .pure (h₁.append h₂ hlo hhi)

theorem layFragments_succeeds (hc : row.Carries raw) (hs : Lexeme.Significant raw)
    {terminated : Bool} {types : List NodeId} {type : TypeRef} :
    ∀ (fragments : List FragmentShape) {l : Layout} {loose before : List NodeId}
      {start lo hi : Nat}, Drafted row l (before ++ loose) → Within l before start lo → start ≤ lo →
      FragmentsFit raw terminated fragments start lo hi → (fragments = [] → before = []) →
      Succeeds (layFragments terminated start types type before fragments) l fun ids l' =>
        Laid row loose l start hi ids l'
  | [], l, loose, before, start, lo, hi, h, _, _, _, hnil => by
    simp only [layFragments]
    rw [hnil rfl] at h
    exact .pure (.nil h)
  | .mk range name inside :: fragments, l, loose, before, start, lo, hi, h, hwithin, hlo, hfits, _
    => by
    simp only [FragmentsFit] at hfits
    obtain ⟨_, hhi, hend, hanchored, ⟨mid, hmid, hname, hinside⟩, hnext, hfragments⟩ := hfits
    simp only [layFragments]
    refine (fragmentStop_succeeds hc h hend).bind fun stop l₁ ⟨hstop, hl⟩ => ?_
    subst hstop hl
    have h₀ : Laid row loose l₁ start lo before l₁ := ⟨h, Extends.refl l₁, hwithin⟩
    refine (leaf_succeeds hc h hname).bind fun id l₂ h₁ => ?_
    have h₀₁ := h₀.append h₁ hlo hname.le
    refine (layAll_succeeds hc hs inside h₀₁.drafted hinside).bind fun ids l₃ h₂ => ?_
    have h₀₂ := h₀₁.append h₂ (Nat.le_trans hlo hname.le) hmid
    rw [List.append_assoc, List.singleton_append] at h₀₂
    have hrange : Ranged raw ⟨start, stop⟩ none start stop :=
      ⟨Nat.le_refl _, Nat.le_refl _, hanchored⟩
    refine (nodeOver_succeeds hc h₀₂.drafted hrange h₀₂.within).bind fun decl l₄ h₃ => ?_
    refine (forM_succeeds (fun typeNode l => setType_succeeds decl typeNode type none ids l)
      types l₄).bind fun _ l₅ h₄ => ?_
    refine (declareAt_succeeds name.range.start decl l₅).bind fun _ l₆ h₅ => ?_
    have h₀₆ := (h₀₂.wrap h₃).alike (h₄.trans h₅)
    have hothers : Succeeds (layFragments terminated (nextStart stop fragments) types type []
        fragments) l₆ fun ids l' => Laid row (decl :: loose) l₆
          (nextStart stop fragments) hi ids l' :=
      layFragments_succeeds hc hs fragments h₀₆.drafted trivial (Nat.le_refl _) hfragments
        fun _ => rfl
    refine hothers.bind fun ids' l₇ h₆ => .pure ?_
    exact h₀₆.append (h₆.widen hnext (Nat.le_refl hi)) hanchored.le hhi

end

/-! ## The tree of a file -/

theorem drafted_start (row : TokenRow) (boundAt? : Nat → Option BindingId) :
    Drafted row (Layout.start row boundAt?) [] :=
  ⟨rfl, rfl, fun i hi => absurd hi (Nat.not_lt_zero i), fun _ hid => absurd hid (Nat.not_lt_zero _),
    fun _ hid => absurd hid (Nat.not_lt_zero _), .nil⟩

/-- The root over all tokens, the one at the end of the file included. -/
theorem allocate_root_succeeds (hc : row.Carries raw) (h : Drafted row l (nodesAmong es ++ loose))
    (hes : Contiguous l es 0 row.count) :
    Succeeds (allocate .compilationUnit (es ++ [.token row.final]) (⟨0⟩, row.final)) l fun id l' =>
      Drafted row l' (id :: loose) ∧ id.index < l'.spans.size ∧ l'.spanOf id =
        (⟨0⟩, row.final) := by
  have hsize := hc.ordered.size
  have hfinal : row.final.index = row.count := by
    simp only [TokenRow.final]
    omega
  have hdrafted : Drafted row l (nodesAmong (es ++ [.token row.final]) ++ loose) := by
    rw [nodesAmong_append, nodesAmong_cons_token]
    exact h.congr fun id => by simp [nodesAmong]
  have hcontiguous : Contiguous l (es ++ [.token row.final]) 0 (row.final.index + 1) :=
    hes.append ⟨hfinal, by rw [hfinal]; rfl⟩
  have hlt : row.final.index < row.tokens.size := by omega
  refine (hdrafted.allocate (Nat.zero_le _) hlt hcontiguous).mono ?_
  rintro id l' ⟨hdrafted', -, hid, hspan⟩
  exact ⟨hdrafted', hid, hspan⟩

theorem layUnit_succeeds {unit : CompilationUnit} {length : Nat} (hc : row.Carries raw)
    (hs : Lexeme.Significant raw) (hrange : unit.range = .upTo length)
    (hplaced : Placed raw unit.shapes 0 length)
    (hlength : (row.token row.final).start ≤ length) (h : Drafted row l []) :
    Succeeds (layUnit unit) l fun id l' =>
      Drafted row l' [id] ∧ id.index < l'.spans.size ∧ l'.spanOf id = (⟨0⟩, row.final) := by
  have hsize := hc.ordered.size
  have hstops : ∀ i < row.count, (row.token ⟨i⟩).stop ≤ length := by
    intro i hi
    have hfollow := hc.ordered.follow i row.count hi (by omega)
    have hfinal : row.final = ⟨row.count⟩ := congrArg TokenId.mk (by omega)
    rw [hfinal] at hlength
    omega
  unfold layUnit
  refine (layAll_succeeds hc hs unit.shapes h hplaced).bind fun children l₁ h₁ => ?_
  refine Succeeds.get ?_
  rw [hrange, h₁.drafted.row_eq]
  cases hspan : row.span? (.upTo length) with
  | none =>
    have hcount : row.count = 0 := by
      refine Nat.eq_zero_of_not_pos fun hpos => ?_
      obtain ⟨first, last, hsome⟩ := @TokenRow.Ordered.span?_of_inside row (.upTo length) 0
        hc.ordered hpos (Nat.zero_le _) (hstops 0 hpos)
      rw [hspan] at hsome
      cases hsome
    have hnil : children = [] := by
      cases children with
      | nil => rfl
      | cons id ids =>
        obtain ⟨-, -, hlt, -⟩ := h₁.within
        rw [h₁.drafted.row_eq, hcount] at hlt
        exact absurd hlt (Nat.not_lt_zero _)
    have hdrafted : Drafted row l₁ (nodesAmong [] ++ []) := by
      have hdrafted := h₁.drafted
      rw [hnil] at hdrafted
      exact hdrafted
    exact allocate_root_succeeds hc hdrafted hcount.symm
  | some span =>
    obtain ⟨first, last⟩ := span
    have hspans := hc.ordered.span?_eq_some hspan
    have hfirst : first.index = 0 := by
      have hpos := Nat.lt_of_le_of_lt (Nat.zero_le _) hspans.lt
      have := hspans.first_le 0 hpos (Nat.zero_le _)
      omega
    have hlast : last.index + 1 = row.count := by
      have hlt := hspans.lt
      have := hspans.le_last (row.count - 1) (by omega) (hstops _ (by omega))
      omega
    have hnested : Nested l₁ children first.index (last.index + 1) := by
      have hrow := h₁.drafted.row_eq
      refine h₁.within.nested (hrow ▸ hc.ordered) (Nat.le_succ_of_le hspans.le) ?_ ?_
      · intro j _ _
        omega
      · rw [hrow]
        intro j hj _
        omega
    refine (elements_succeeds h₁.drafted (by omega) hnested).bind fun es l₂ ⟨h₂, _, hes⟩ => ?_
    rw [hfirst, hlast] at hes
    exact allocate_root_succeeds hc h₂ hes

theorem tokensInOrder (hc : row.Carries raw) (hs : Lexeme.Significant raw) :
    SyntaxTree.TokensInOrder row := by
  have hsize := hc.ordered.size
  have hback : row.tokens.back? = some (row.token row.final) := by
    have hlt : row.tokens.size - 1 < row.tokens.size := by omega
    simp [Array.back?, TokenRow.token, TokenRow.final, Array.getD_eq_getD_getElem?, hlt]
  constructor
  · obtain ⟨before, last, rfl, hend, -⟩ := hs.final
    have hlast := hc.final
    rw [List.getLast?_concat, Option.some.injEq] at hlast
    have hkind : (row.token row.final).kind = .endOfFile := hlast ▸ hend.kind
    simp [hback, Token.isEndOfFile, hkind]
  · rw [List.pairwise_iff_getElem]
    intro i j hi hj hij
    have htoken : ∀ i (hi : i < row.tokens.toList.length), row.tokens.toList[i] =
      row.token ⟨i⟩ := by
      intro i hi
      have hlt : i < row.tokens.size := by simpa using hi
      simp [TokenRow.token, Array.getD_eq_getD_getElem?, hlt]
    rw [htoken i hi, htoken j hj]
    exact hc.ordered.follow i j hij (by simpa using hj)

/-- Where the shapes of a file fit its lexemes, the file has a tree. -/
theorem tree_isOk {unit : CompilationUnit} {length : Nat} (hc : row.Carries raw)
    (hs : Lexeme.Significant raw) (hrange : unit.range = .upTo length)
    (hplaced : Placed raw unit.shapes 0 length)
    (hlength : (row.token row.final).start ≤ length) (text : String)
    (boundAt? : Nat → Option BindingId) : ∃ t, tree text row boundAt? unit = .ok t := by
  obtain ⟨root, l, hrun, hdrafted, hid, hspan⟩ :=
    layUnit_succeeds hc hs hrange hplaced hlength (drafted_start row boundAt?)
  have hsound := hdrafted.sound hid hspan (by have := hc.ordered.size; omega) (tokensInOrder hc hs)
  obtain ⟨t, ht⟩ := hsound.ofDraft hdrafted.bottomUp text
  refine ⟨(t, l.occurrences), ?_⟩
  unfold tree
  rw [hrun]
  simp only [bind, Except.bind, ht]
  rfl

end Layout

end JavaAnalysis
