import JavaAnalysis.Proofs.Layout.Declarations

/-!
# Declarations that were laid

A declaration of variables is written somewhere in a file. When its shape was laid, each of its
variables got a node, and these nodes cover the tokens of the declaration one behind the other. They
are nodes of all layouts that come later. Main statement: `HasLaid.split`.
-/

set_option autoImplicit false
set_option linter.dupNamespace false

namespace JavaAnalysis

open Ast Lexeme

variable {raw xs : List Lexeme} {row : TokenRow} {cuts : List Nat} {shape : Shape}
  {shapes : List Shape} {lo hi : Nat} {kind : NodeKind} {r : TextRange} {d : VarDecl}

/-! ## Where shapes start -/

/-- A shape that fits starts with a lexeme that is a token of its own. -/
theorem Fits.heads (h : Fits raw shape lo hi) (htop : shape.top? = some (kind, r)) :
    (Piece.span r).Heads raw := by
  have hranged : ∃ word, Ranged raw r word lo hi := by
    cases shape with
    | ident range use =>
      cases htop
      simp only [Fits] at h
      exact ⟨_, h⟩
    | node spec children =>
      cases htop
      simp only [Fits] at h
      exact ⟨_, h.1⟩
    | _ => cases htop
  obtain ⟨word, -, -, x, hx, hfirm, hstart, -⟩ := hranged
  exact ⟨x, hx, hfirm, hstart⟩

theorem FragmentsFit.initHeads {terminated : Bool} {fs : List VarFragment} {start : Nat}
    (h : FragmentsFit raw terminated (fragmentShapes fs) start lo hi)
    (hvalue : ∀ f ∈ fs, ∀ e, f.init? = some e → e.isValue = true) :
    ∀ f ∈ fs, f.InitHeads raw := by
  induction fs generalizing start lo with
  | nil => exact nofun
  | cons f fs ih =>
    obtain ⟨hf, hfs⟩ := List.forall_mem_cons.1 hvalue
    rw [Layout.fragmentShapes_cons] at h
    simp only [FragmentsFit] at h
    obtain ⟨_, -, -, -, ⟨_, -, -, hinside⟩, -, hothers⟩ := h
    refine List.forall_mem_cons.2 ⟨fun e he => ?_, ih hothers hfs⟩
    obtain ⟨kind, htop, -⟩ := Expr.top?_shape (hf e he)
    have hmem : e.shape ∈ bracketShapes f.brackets ++ optionalShapes f.init? := by
      rw [he]
      simp! only [List.mem_append, List.mem_singleton, or_true]
    exact (hinside.fits_of_mem hmem).heads htop

theorem Ast.VarDecl.shape_eq (d : VarDecl) : d.shape =
    .variables d.range.start d.terminated (modifierShapes d.modifiers (markerShapes d.modifiers))
      d.type.shape d.type (fragmentShapes d.fragments) := by
  cases d
  simp! only
  rfl

theorem exists_of_forall₂ {α β : Type} {R : α → β → Prop} {as : List α} {bs : List β} {a : α}
    (h : List.Forall₂ R as bs) (ha : a ∈ as) : ∃ b ∈ bs, R a b := by
  induction h with
  | nil => cases ha
  | @cons a' b as bs hab _ ih =>
    rcases List.mem_cons.1 ha with rfl | ha
    · exact ⟨b, List.mem_cons_self, hab⟩
    · obtain ⟨b', hb', hab'⟩ := ih ha
      exact ⟨b', List.mem_cons_of_mem _ hb', hab'⟩

/-- The modifiers and the type of a declaration that fits start with tokens of their own. -/
theorem Fits.headRanges (h : Fits raw d.shape lo hi) (htype : d.type.nodeRange = d.type.range) :
    ∀ r ∈ d.headRanges, (Piece.span r).Heads raw := by
  rw [d.shape_eq] at h
  simp only [Fits] at h
  obtain ⟨-, -, _, _, -, hbefore, -, hfitsType, -⟩ := h
  rw [VarDecl.headRanges, List.forall_mem_append]
  refine ⟨fun r hr => ?_, List.forall_mem_singleton.2 ?_⟩
  · obtain ⟨s, hs, htop⟩ := exists_of_forall₂ (modifierShapes_tops d.modifiers) hr
    exact (hbefore.fits_of_mem hs).heads htop
  · obtain ⟨kind, htop, -⟩ := d.type.top?_shape
    rw [← htype]
    exact hfitsType.heads htop

namespace Layout

variable {l l' : Layout} {loose top ids before : List NodeId} {typeNode : NodeId}

theorem Consists.later {f : VarFragment} {separator : Option TokenKind} {decl nameNode : NodeId}
    {dims inits : List NodeId} {es es' : List Element}
    (h : Consists row l before f separator decl nameNode dims inits es es') (hk : Keeps l l')
    (hdecl : decl.index < l.spans.size) :
    Consists row l' before f separator decl nameNode dims inits es es' := by
  refine ⟨?_, h.named, h.brackets.imp fun _ _ hs => hs.later hk.toGrows, h.init.later hk, h.equals,
    h.separator⟩
  rw [hk.node_eq decl hdecl]
  exact h.children_eq

theorem Realizes.later {types : List NodeId} {type : TypeRef} {f : VarFragment}
    {separator : Option TokenKind} {decl : NodeId}
    (h : Realizes row l types type before f separator decl) (hk : Keeps l l') :
    Realizes row l' types type before f separator decl := by
  obtain ⟨span, nameNode, dims, inits, xs, ys, hvariable, hconsists⟩ := h
  exact ⟨span, nameNode, dims, inits, xs, ys, hvariable.later hk,
    hconsists.later hk hvariable.stands.lt_size⟩

/-- The nodes that a declaration of variables became. -/
structure Split (row : TokenRow) (l : Layout) (d : VarDecl) (before : List NodeId)
    (typeNode : NodeId) (ids : List NodeId) : Prop where
  length_eq : ids.length = d.fragments.length
  realizes : ∀ i f id, d.fragments[i]? = some f → ids[i]? = some id →
    Realizes row l [typeNode] d.type (if i = 0 then before ++ [typeNode] else []) f
      (separatorOf (i + 1 == d.fragments.length) d.terminated) id
  modifiers : ∀ c ∈ before, c.index < l.spans.size ∧ (l.draft.node c).kind = .modifiers
  type_became : Became row d.type.shape typeNode l
  /-- They take up the tokens of the declaration, one right behind the other. -/
  contiguous : ∀ a b, row.span? d.range = some (a, b) →
    Contiguous l (ids.map .node) a.index (b.index + 1)

theorem Split.later (h : Split row l d before typeNode ids) (hk : Keeps l l') :
    Split row l' d before typeNode ids := by
  refine ⟨h.length_eq, fun i f id hf hid => (h.realizes i f id hf hid).later hk, fun c hc => ?_,
    h.type_became.later hk, fun a b hspan => (h.contiguous a b hspan).extends hk.toExtends⟩
  obtain ⟨hlt, hkind⟩ := h.modifiers c hc
  refine ⟨Nat.lt_of_lt_of_le hlt hk.size_le, ?_⟩
  rw [hk.node_eq c hlt, hkind]

/-- A written declaration that was laid was split. -/
theorem HasLaid.split (hs : Significant raw) (hc : row.Carries raw)
    (hfollow : Follow (raw.flatMap (TokenRow.pieces cuts))) (hwritten : d.Written xs)
    (hcovers : d.range.Covers xs) (hxs : xs <:+: raw.flatMap (TokenRow.pieces cuts))
    (h : HasLaid row raw d.shape top l) :
    ∃ before typeNode ids, Split row l d before typeNode ids ∧
      (ids ⊆ top ∨ ∃ p : NodeId, p.index < l.spans.size ∧
        ∀ c ∈ ids, .node c ∈ (l.draft.node p).children) := by
  obtain ⟨l₀, loose, lo, hi, ids, l₁, hdrafted, hfits, hrun, hkeeps, hparent⟩ := h
  have ho := hc.ordered
  have htype := hwritten.nodeRange_eq
  obtain ⟨-, body, -, -, -, hbody, -⟩ := hwritten.divided
  have hdelimited : ∀ f ∈ d.fragments, f.Delimited := fun f hf =>
    (hbody.exists_written f hf).choose_spec.delimited
  have hvalue : ∀ f ∈ d.fragments, ∀ e, f.init? = some e → e.isValue = true := fun f hf =>
    (hbody.exists_written f hf).choose_spec.isValue
  have hheads := hfits.headRanges htype
  have hrecords := lay_records ho d.shape hdrafted ids l₁ hrun
  rw [d.shape_eq] at hrun hfits
  have hinits : ∀ f ∈ d.fragments, f.InitHeads raw := by
    simp only [Fits] at hfits
    obtain ⟨-, -, _, _, -, -, -, -, hfragments⟩ := hfits
    exact hfragments.initHeads hvalue
  obtain ⟨before, types, l₂, l₃, hbefore, htypes, hdrafted₂, hkeeps₂, hkeeps₃, hvariables⟩ :=
    lay_variables ho hdrafted hfits ids l₁ hrun
  obtain ⟨kind, htop, -⟩ := d.type.top?_shape
  obtain ⟨typeNode, rfl, hstands⟩ := lay_top ho hdrafted₂ htop _ _ htypes
  obtain ⟨-, hmodifiers⟩ := layAll_tops ho hdrafted (modifierShapes_tops d.modifiers) _ _ hbefore
  rw [htype] at hstands
  obtain ⟨rs, hlined, hstart, hstop⟩ := hwritten.lined hs hc hfollow hcovers hxs hheads hinits
  have hfront : List.Forall₂ (fun r c => c.index < l₁.spans.size ∧ row.span? r = some (l₁.spanOf c))
      d.headRanges (before ++ [typeNode]) := by
    refine List.rel_append (hmodifiers.imp fun r c hc => ?_) (.cons ?_ .nil)
    · have hc := hc.later hkeeps₂.toGrows
      exact ⟨hc.lt_size, hc.span?_eq⟩
    · have hc := hstands.later hkeeps₃.toGrows
      exact ⟨hc.lt_size, hc.span?_eq⟩
  obtain ⟨hlength, heach, spans, hspans, hchain, hhead, hlast⟩ :=
    hvariables.realizes ho hrecords.drafted hdelimited hvalue hfront hlined hstart
  have hsplit : Split row l₁ d before typeNode ids := by
    refine ⟨hlength, heach, fun c hc => ?_, ⟨l₂, _, l₃, hdrafted₂, htypes, hkeeps₃⟩,
      fun a b hspan => ?_⟩
    · obtain ⟨r, -, hr⟩ := exists_of_forall₂ hmodifiers.flip hc
      have hr := hr.later hkeeps₂.toGrows
      exact ⟨hr.lt_size, hr.kind_eq⟩
    · have hne : spans ≠ [] := by
        rintro rfl
        cases hspans
        obtain ⟨f, -, hf, -⟩ := hbody.ends
        rw [List.length_eq_zero_iff.1 hlength.symm] at hf
        cases hf
      have hlast? := List.getLast?_eq_some_getLast hne
      obtain ⟨r, hr, hend⟩ := hlast _ hlast?
      obtain ⟨stop, hcontiguous, hlast⟩ := contiguous_of_chain ho
        (occupies_nodes hspans fun _ _ hc => ⟨hc.lt_size, hc.span?_eq⟩) hchain
        fun r a' b' hr hr' => congrArg TokenId.index (ho.first_eq_of_start hr' hspan (hhead r hr))
      obtain ⟨a', b', hr', rfl⟩ := hlast _ hlast?
      rw [ho.last_eq_of_stop hr' hspan (hend.trans (hstop r hr))] at hcontiguous
      exact hcontiguous
  exact ⟨before, typeNode, ids, hsplit.later hkeeps, hparent⟩

end Layout

end JavaAnalysis
