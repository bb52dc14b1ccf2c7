import JavaAnalysis.Proofs.Layout.Lay
import JavaAnalysis.Proofs.Layout.Made
import JavaAnalysis.Proofs.Semantics.Entering

/-!
# What is recorded while shapes are laid

Whatever the tokens are over which shapes are laid: each site becomes a node of its kind over the
tokens of its extent, these nodes are entered one after the other, nothing else is entered, and no
node but those of sites is a list in angle brackets. Main statement: `layAll_records`.
-/

set_option autoImplicit false
set_option linter.dupNamespace false

namespace JavaAnalysis

/-- Where the tokens of a site lie, with the separator behind it. -/
def Site.extent? (row : TokenRow) (site : Site) : Option TextRange :=
  match site.separator with
  | none => some site.range
  | some kind =>
    ((row.after? site.range.stop).filter fun id => (row.token id).kind == kind).map fun id =>
      ⟨site.range.start, (row.token id).stop⟩

namespace Layout

open TreeDraft Ast

variable {row : TokenRow} {l l' l'' : Layout} {loose ids : List NodeId} {id : NodeId}
  {range : TextRange} {kind : NodeKind} {site : Site} {as bs : List Site}
  {ps qs : List (Site × NodeId)}

/-- The node is what the site has become. -/
structure Becomes (row : TokenRow) (l : Layout) (site : Site) (id : NodeId) : Prop where
  lt_size : id.index < l.spans.size
  kind_eq : (l.draft.node id).kind = site.kind
  covers : ∃ range, site.extent? row = some range ∧ row.span? range = some (l.spanOf id)
  /-- An identifier that uses a name starts with a token of its own. -/
  leading : ∀ offset, site.role = .uses offset →
    .token (l.spanOf id).1 ∈ (l.draft.node id).children

/-- The two layouts have the same nodes, and the given ones were entered. -/
structure Enters (l : Layout) (ps : List (Site × NodeId)) (l' : Layout) : Prop
    extends Alike l l' where
  boundAt?_eq : l'.boundAt? = l.boundAt?
  occurrences : (l.occurrences.enterAll l.boundAt? ps).Agrees l'.occurrences

/-- From the first layout to the second, the nodes of the sites were made and entered. -/
structure Entered (row : TokenRow) (l : Layout) (ps : List (Site × NodeId)) (l' : Layout) :
    Prop where
  becomes : ∀ p ∈ ps, l.spans.size ≤ p.2.index ∧ Becomes row l' p.1 p.2
  ascending : (ps.map fun p => p.2.index).Pairwise (· < ·)
  occurrences : (l.occurrences.enterAll l.boundAt? ps).Agrees l'.occurrences

/-- From the first layout to the second, just the sites were recorded. -/
structure Recorded (row : TokenRow) (l : Layout) (sites : List Site) (l' : Layout) : Prop where
  grows : Grows l l'
  entered : ∃ ps, Entered row l ps l' ∧ ps.map (·.1) = sites.filter Site.isNamed
  angled : ∀ id, l.spans.size ≤ id.index → id.index < l'.spans.size →
    (l'.draft.node id).kind.isAngled = true →
      ∃ site ∈ sites, (site.role = .encloses ∧ site.separator = none) ∧ Becomes row l' site id

theorem Becomes.grows (h : Becomes row l site id) (hg : Grows l l') : Becomes row l' site id := by
  have hid := h.lt_size
  refine ⟨Nat.lt_of_lt_of_le hid hg.size_le, ?_, ?_, ?_⟩
  · rw [hg.node_eq id hid]
    exact h.kind_eq
  · rw [hg.spanOf_eq id hid]
    exact h.covers
  · rw [hg.node_eq id hid, hg.spanOf_eq id hid]
    exact h.leading

theorem Becomes.hide (h : Becomes row l site id) : Becomes row l site.hide id :=
  ⟨h.lt_size, h.kind_eq, h.covers, h.leading⟩

theorem Alike.grows (h : Alike l l') (hbound : l'.boundAt? = l.boundAt?) : Grows l l' := by
  refine ⟨h.extends, fun id _ => ?_, hbound⟩
  rw [node, node, h.nodes_eq]

namespace Enters

theorem refl (l : Layout) : Enters l [] l := ⟨Alike.refl l, rfl, .refl _⟩

theorem trans (h : Enters l ps l') (h' : Enters l' qs l'') : Enters l (ps ++ qs) l'' := by
  refine ⟨h.toAlike.trans h'.toAlike, h'.boundAt?_eq.trans h.boundAt?_eq, ?_⟩
  have hthen := h'.occurrences
  rw [h.boundAt?_eq] at hthen
  rw [Occurrences.enterAll_append]
  exact (h.occurrences.enterAll qs).trans hthen

theorem grows (h : Enters l ps l') : Grows l l' := h.toAlike.grows h.boundAt?_eq

end Enters

namespace Recorded

/-- Where no node is made or entered, there may be sites, but no names. -/
theorem none (h : Enters l [] l') (hnamed : as.filter Site.isNamed = []) :
    Recorded row l as l' := by
  refine ⟨h.grows, ⟨[], ⟨by simp, .nil, h.occurrences⟩, hnamed.symm⟩, fun id hle hlt => ?_⟩
  rw [h.spans_eq] at hlt
  exact absurd hlt (Nat.not_lt.2 hle)

/-- Steps that neither make nor enter nodes record nothing. -/
theorem idle (h : Enters l [] l') : Recorded row l [] l' := .none h rfl

/-- One thing is recorded after the other. -/
theorem append (h : Recorded row l as l') (h' : Recorded row l' bs l'') :
    Recorded row l (as ++ bs) l'' := by
  obtain ⟨hgrows, ⟨ps, hps, hnamed⟩, hangled⟩ := h
  obtain ⟨hgrows', ⟨qs, hqs, hnamed'⟩, hangled'⟩ := h'
  refine ⟨hgrows.trans hgrows', ⟨ps ++ qs, ⟨?_, ?_, ?_⟩, ?_⟩, fun id hle hlt hkind => ?_⟩
  · rw [List.forall_mem_append]
    refine ⟨fun p hp => ?_, fun q hq => ?_⟩
    · obtain ⟨hle, hbecomes⟩ := hps.becomes p hp
      exact ⟨hle, hbecomes.grows hgrows'⟩
    · obtain ⟨hle, hbecomes⟩ := hqs.becomes q hq
      exact ⟨Nat.le_trans hgrows.size_le hle, hbecomes⟩
  · rw [List.map_append, List.pairwise_append]
    refine ⟨hps.ascending, hqs.ascending, fun i hi j hj => ?_⟩
    obtain ⟨p, hp, rfl⟩ := List.mem_map.1 hi
    obtain ⟨q, hq, rfl⟩ := List.mem_map.1 hj
    exact Nat.lt_of_lt_of_le (hps.becomes p hp).2.lt_size (hqs.becomes q hq).1
  · have hthen := hqs.occurrences
    rw [hgrows.boundAt?_eq] at hthen
    rw [Occurrences.enterAll_append]
    exact (hps.occurrences.enterAll qs).trans hthen
  · rw [List.map_append, List.filter_append, hnamed, hnamed']
  · by_cases hold : id.index < l'.spans.size
    · rw [hgrows'.node_eq id hold] at hkind
      obtain ⟨site, hsite, hrole, hbecomes⟩ := hangled id hle hold hkind
      exact ⟨site, List.mem_append_left _ hsite, hrole, hbecomes.grows hgrows'⟩
    · obtain ⟨site, hsite, hrole, hbecomes⟩ := hangled' id (Nat.not_lt.1 hold) hlt hkind
      exact ⟨site, List.mem_append_right _ hsite, hrole, hbecomes⟩

/-- It does not matter which sites the outline passes over. -/
theorem leading (h : Recorded row l as l') (kind : NodeKind) :
    Recorded row l (leadingSites kind as) l' := by
  unfold leadingSites
  split
  · obtain ⟨hgrows, ⟨ps, hps, hnamed⟩, hangled⟩ := h
    refine ⟨hgrows, ⟨ps.map fun p => (p.1.hide, p.2), ⟨?_, ?_, ?_⟩, ?_⟩, fun id hle hlt hkind => ?_⟩
    · rintro _ hmem
      obtain ⟨p, hp, rfl⟩ := List.mem_map.1 hmem
      obtain ⟨hle, hbecomes⟩ := hps.becomes p hp
      exact ⟨hle, hbecomes.hide⟩
    · rw [List.map_map]
      exact hps.ascending
    · rw [Occurrences.enterAll, List.foldl_map]
      exact hps.occurrences
    · rw [List.filter_map, Site.isNamed_hide, ← hnamed, List.map_map, List.map_map]
      rfl
    · obtain ⟨site, hsite, hrole, hbecomes⟩ := hangled id hle hlt hkind
      exact ⟨site.hide, List.mem_map_of_mem hsite, hrole, hbecomes.hide⟩
  · exact h

end Recorded

/-! ## One node -/

theorem angledSites_named (kind : NodeKind) (range : TextRange) :
    (angledSites kind range).filter Site.isNamed = [] := by
  unfold angledSites
  split <;> rfl

/-- The node of a range is what a site without separator has become. -/
theorem Made.becomes (h : Made row loose l kind range id l') (hkind : site.kind = kind)
    (hextent : site.extent? row = some range)
    (hleading : ∀ offset, site.role = .uses offset →
      .token (l'.spanOf id).1 ∈ (l'.draft.node id).children) : Becomes row l' site id :=
  ⟨h.lt_size, h.kind_eq.trans hkind.symm, ⟨range, hextent, h.span?_eq⟩, hleading⟩

/-- A node is made and, if it is that of a name, entered. -/
theorem Made.recorded {site? : Option Site} (h : Made row loose l kind range id l')
    (hbecomes : ∀ site ∈ site?, site.isNamed = true ∧ Becomes row l' site id)
    (hentered : Enters l' (site?.map (·, id)).toList l'') :
    Recorded row l (angledSites kind range ++ site?.toList) l'' := by
  have hgrows := hentered.grows
  have hsize : l''.spans.size = l'.spans.size := by rw [hentered.spans_eq]
  refine ⟨h.grows.trans hgrows, ⟨(site?.map (·, id)).toList, ⟨?_, ?_, ?_⟩, ?_⟩,
    fun other hle hlt hkind => ?_⟩
  · intro p hp
    obtain ⟨site, hsite, rfl⟩ := Option.map_eq_some_iff.1 (Option.mem_toList.1 hp)
    exact ⟨h.old_le, (hbecomes site hsite).2.grows hgrows⟩
  · cases site? with
    | none => exact .nil
    | some site => exact List.pairwise_singleton _ _
  · have hthen := hentered.occurrences
    rw [h.occurrences_eq, h.grows.boundAt?_eq] at hthen
    exact hthen
  · rw [List.filter_append, angledSites_named]
    cases site? with
    | none => rfl
    | some site => simp [(hbecomes site rfl).1]
  · rw [hsize] at hlt
    rw [hgrows.node_eq other hlt] at hkind
    rcases h.new other hle hlt with rfl | hempty
    · rw [h.kind_eq] at hkind
      refine ⟨.enclosing kind range, ?_, ⟨rfl, rfl⟩, ?_⟩
      · simp [angledSites, hkind]
      · exact (h.becomes rfl rfl fun _ hrole => SiteRole.noConfusion hrole).grows hgrows
    · rw [hempty] at hkind
      cases hkind

/-! ## Steps that make no nodes -/

theorem record_enters {f : Occurrences → Occurrences}
    (h : (l.occurrences.enterAll l.boundAt? ps).Agrees (f l.occurrences)) :
    Ensures (record f) l fun _ l' => Enters l ps l' := by
  rintro _ l' ⟨⟩
  exact ⟨⟨rfl, rfl, rfl⟩, rfl, h⟩

theorem declareAt_enters {offset : Nat} (hrole : site.role = .declares offset) :
    Ensures (declareAt offset id) l fun _ l' => Enters l [(site, id)] l' := by
  have hdeclares : site.declares? l.boundAt? = l.boundAt? offset := by
    simp [Site.declares?, Site.declared?, hrole]
  have huses : site.uses? l.boundAt? = none := by simp [Site.uses?, Site.used?, hrole]
  unfold declareAt
  refine .get ?_
  split
  · rename_i b hb
    refine record_enters ?_
    simp only [Occurrences.enterAll, List.foldl, Occurrences.enter, hdeclares, hb]
    exact .refl _
  · rename_i hb
    refine .pure ⟨Alike.refl l, rfl, ?_⟩
    simp only [Occurrences.enterAll, List.foldl, Occurrences.enter, hdeclares, hb, huses]
    exact .refl _

theorem referAt_enters {offset : Nat} (hrole : site.role = .uses offset) :
    Ensures (referAt offset id) l fun _ l' => Enters l [(site, id)] l' := by
  have hdeclares : site.declares? l.boundAt? = none := by
    simp [Site.declares?, Site.declared?, hrole]
  have huses : site.uses? l.boundAt? = l.boundAt? offset := by
    simp [Site.uses?, Site.used?, hrole]
  unfold referAt
  refine .get ?_
  split
  · rename_i b hb
    refine record_enters ?_
    simp only [Occurrences.enterAll, List.foldl, Occurrences.enter, hdeclares, huses, hb]
    exact .refl _
  · rename_i hb
    refine .pure ⟨Alike.refl l, rfl, ?_⟩
    simp only [Occurrences.enterAll, List.foldl, Occurrences.enter, hdeclares, hb, huses]
    exact .refl _

theorem declareIf_enters (offset : Option Nat) (kind : NodeKind) (range : TextRange) :
    Ensures (declareIf offset id) l fun _ l' =>
      Enters l ((offset.map (Site.declaration kind range)).map (·, id)).toList l' := by
  cases offset with
  | none => exact .pure (.refl l)
  | some o => exact declareAt_enters rfl

theorem setTypes_enters (id : NodeId) (types : List NodeId) (type : TypeRef)
    (ellipsis : Option TextRange) (after : List NodeId) :
    Ensures (types.forM fun typeNode => setType id typeNode type ellipsis after) l fun _ l' =>
      Enters l [] l' := by
  induction types generalizing l with
  | nil => exact .pure (.refl l)
  | cons t ts ih =>
    have hset : Ensures (setType id t type ellipsis after) l fun _ l' => Enters l [] l' := by
      rintro _ l' ⟨⟩
      exact ⟨⟨rfl, rfl, rfl⟩, rfl, .refl _⟩
    exact hset.bind fun _ l₁ h₁ => ih.mono fun _ l₂ h₂ => h₁.trans h₂

/-- A token that must be there is looked for without changing anything. -/
theorem expectKind_ensures {node : NodeKind} {offset : Nat} {expected : TokenKind}
    {found : Option TokenId} : Ensures (expectKind node offset expected found) l fun id l' =>
      found = some id ∧ (l.token id).kind = expected ∧ l' = l := by
  unfold expectKind
  refine .get ?_
  split
  · rename_i id hfound
    obtain ⟨hid, hkind⟩ := Option.filter_eq_some_iff.1 hfound
    exact .pure ⟨hid, by simpa using hkind, rfl⟩
  · exact .throw

theorem checkWord_ensures (spec : NodeSpec) : Ensures (checkWord spec) l fun _ l' => l' = l := by
  unfold checkWord
  split
  · unfold leading
    exact .get (expectKind_ensures.bind fun _ _ ⟨_, _, hl⟩ => .pure hl)
  · exact .pure rfl

theorem preceding_ensures (node : NodeKind) (offset : Nat) (expected : TokenKind) :
    Ensures (preceding node offset expected) l fun id l' =>
      l.row.before? offset = some id ∧ (l.token id).kind = expected ∧ l' = l := by
  unfold preceding
  exact .get expectKind_ensures

theorem following_ensures (node : NodeKind) (offset : Nat) (expected : TokenKind) :
    Ensures (following node offset expected) l fun id l' =>
      l.row.after? offset = some id ∧ (l.token id).kind = expected ∧ l' = l := by
  unfold following
  exact .get expectKind_ensures

theorem clauseRange_ensures (kind : NodeKind) (word : TokenKind) (range : TextRange) :
    Ensures (clauseRange kind word range) l fun _ l' => l' = l := by
  unfold clauseRange
  exact (preceding_ensures _ _ _).bind fun _ _ ⟨_, _, hl⟩ => .get (.pure hl)

/-- Where a variable ends is where the tokens of its site end. -/
theorem fragmentStop_ensures (start : Nat) (range : TextRange) (isLast terminated : Bool)
    (offset : Nat) (hrow : l.row = row) :
    Ensures (fragmentStop range isLast terminated) l fun stop l' => l' = l ∧
      (Site.fragment ⟨start, range.stop⟩ (separatorOf isLast terminated) offset).extent? row =
        some ⟨start, stop⟩ := by
  unfold fragmentStop
  split
  · rename_i hlast
    obtain ⟨rfl, hterminated⟩ : isLast = true ∧ terminated = false := by simpa using hlast
    exact .pure ⟨rfl, by simp [Site.extent?, Site.fragment, separatorOf, hterminated]⟩
  · rename_i hlast
    have hseparator : separatorOf isLast terminated =
        some (if isLast then .semicolon else .comma) := by
      cases isLast <;> cases terminated <;> simp_all [separatorOf]
    refine (following_ensures _ _ _).bind fun id l₁ ⟨hfound, hkind, hl⟩ => .get (.pure ⟨hl, ?_⟩)
    subst hl
    rw [hrow] at hfound
    rw [token, hrow] at hkind
    simp [Site.extent?, Site.fragment, hseparator, hfound, hkind, token, hrow]

theorem inBody_ensures {α : Type} {step : Step α} {post : α → Layout → Prop}
    (hstep : ∀ l', Enters l [] l' → Ensures step l' post)
    (hpost : ∀ a l' l'', post a l' → Enters l' [] l'' → post a l'') :
    Ensures (inBody step) l post := by
  unfold inBody
  refine .get ?_
  have hopen : Ensures (modify fun l' => { l' with occurrences := l.occurrences.enterBody.2 } :
      Step PUnit) l fun _ l' => Enters l [] l' := by
    rintro _ l' ⟨⟩
    exact ⟨⟨rfl, rfl, rfl⟩, rfl, ⟨rfl, rfl, rfl⟩⟩
  refine hopen.bind fun _ l₁ h₁ => (hstep l₁ h₁).bind fun a l₂ h₂ => ?_
  have hclose : Ensures (record fun o => o.exitBody l.occurrences.enterBody.1) l₂ fun _ l' =>
      Enters l₂ [] l' := record_enters ⟨rfl, rfl, rfl⟩
  exact hclose.bind fun _ l₃ h₃ => .pure (hpost a l₂ l₃ h₂ h₃)

/-- Labels are entered apart from bindings. -/
theorem record_idle {f : Occurrences → Occurrences} (h : ∀ o : Occurrences, o.Agrees (f o)) :
    Ensures (record f) l fun _ l' => Enters l [] l' :=
  record_enters (h l.occurrences)

theorem exitLabel_agrees (id : NodeId) (o : Occurrences) : o.Agrees (o.exitLabel id).2 := by
  unfold Occurrences.exitLabel
  split <;> exact ⟨rfl, rfl, rfl⟩

theorem resolveLabel_agrees (name : String) (id : NodeId) (o : Occurrences) :
    o.Agrees (o.resolveLabel name id).2 := by
  unfold Occurrences.resolveLabel
  split <;> exact ⟨rfl, rfl, rfl⟩

/-! ## Shapes -/

/-- From the first layout to the second, loose nodes were laid and the sites recorded. -/
structure Records (row : TokenRow) (loose : List NodeId) (l : Layout) (sites : List Site)
    (ids : List NodeId) (l' : Layout) : Prop where
  drafted : Drafted row l' (ids ++ loose)
  recorded : Recorded row l sites l'

namespace Records

theorem idle (h : Records row loose l as ids l') (h' : Enters l' [] l'') :
    Records row loose l as ids l'' := by
  refine ⟨h.drafted.alike h'.toAlike, ?_⟩
  have hthen := h.recorded.append (.idle h')
  rwa [List.append_nil] at hthen

theorem leading (h : Records row loose l as ids l') (kind : NodeKind) :
    Records row loose l (leadingSites kind as) ids l' :=
  ⟨h.drafted, h.recorded.leading kind⟩

theorem append {ids' : List NodeId} (h : Records row loose l as ids l')
    (h' : Records row (ids ++ loose) l' bs ids' l'') :
    Records row loose l (as ++ bs) (ids ++ ids') l'' := by
  refine ⟨h'.drafted.congr fun id => ?_, h.recorded.append h'.recorded⟩
  simp only [List.count_append]
  omega

/-- A node takes in the loose nodes. -/
theorem wrap {site? : Option Site} (h : Records row loose l as ids l')
    (hmade : Made row loose l' kind range id l'')
    (hbecomes : ∀ site ∈ site?, site.isNamed = true ∧ Becomes row l'' site id) {l₃ : Layout}
    (hentered : Enters l'' (site?.map (·, id)).toList l₃) :
    Records row loose l (as ++ (angledSites kind range ++ site?.toList)) [id] l₃ :=
  ⟨hmade.drafted.alike hentered.toAlike, h.recorded.append (hmade.recorded hbecomes hentered)⟩

/-- A node that no name belongs to takes in the loose nodes. -/
theorem wrap_plain (h : Records row loose l as ids l')
    (hmade : Made row loose l' kind range id l'') :
    Records row loose l (as ++ angledSites kind range) [id] l'' := by
  have hwrapped : Records row loose l (as ++ (angledSites kind range ++ [])) [id] l'' :=
    @wrap row l l' l'' loose ids id range kind as none h hmade (by simp) l'' (.refl l'')
  rwa [List.append_nil] at hwrapped

/-- A node of a name takes in the loose nodes. -/
theorem wrap_named {l₃ : Layout} (h : Records row loose l as ids l')
    (hmade : Made row loose l' kind range id l'') (hnamed : site.isNamed = true)
    (hbecomes : Becomes row l'' site id) (hentered : Enters l'' [(site, id)] l₃) :
    Records row loose l (as ++ (angledSites kind range ++ [site])) [id] l₃ := by
  refine @wrap row l l' l'' loose ids id range kind as (some site) h hmade ?_ l₃ hentered
  rintro _ ⟨⟩
  exact ⟨hnamed, hbecomes⟩

/-- A node that may declare a name takes in the loose nodes. -/
theorem wrap_spec {spec : NodeSpec} {l₃ : Layout} (h : Records row loose l as ids l')
    (hmade : Made row loose l' spec.kind spec.range id l'')
    (hentered : Enters l''
      ((spec.declares.map (Site.declaration spec.kind spec.range)).map (·, id)).toList l₃) :
    Records row loose l (as ++ spec.sites) [id] l₃ := by
  refine h.wrap hmade (fun site hsite => ?_) hentered
  obtain ⟨offset, -, rfl⟩ := Option.map_eq_some_iff.1 hsite
  exact ⟨rfl, hmade.becomes rfl rfl fun _ hrole => SiteRole.noConfusion hrole⟩

end Records

theorem leaf_records (ho : row.Ordered) (h : Drafted row l loose)
    (hangled : kind.isAngled = false) :
    Ensures (leaf kind range) l fun id l' => Records row loose l [] [id] l' := by
  have hnone : Records row loose l [] [] l := ⟨h, .idle (.refl l)⟩
  have hleaf : Ensures (leaf kind range) l fun id l' => Made row loose l kind range id l' :=
    nodeOver_ensures ho (h : Drafted row l ([] ++ loose))
  refine hleaf.mono fun id l' hmade => ?_
  have hwrapped := hnone.wrap_plain hmade
  simpa [angledSites, hangled] using hwrapped

mutual

theorem lay_records (ho : row.Ordered) :
    ∀ (shape : Shape) {l : Layout} {loose : List NodeId}, Drafted row l loose →
      Ensures (lay shape) l fun ids l' => Records row loose l shape.sites ids l'
  | .ident range use, l, loose, h => by
    simp only [lay, Shape.sites]
    have hnone : Records row loose l [] [] l := ⟨h, .idle (.refl l)⟩
    refine (leaf_ensures ho h).bind fun id l₁ ⟨hmade, hleading⟩ => ?_
    cases use with
    | none => exact .pure (hnone.wrap_plain hmade)
    | some offset =>
      have hsite : (Site.reference range offset).role = .uses offset := rfl
      refine (referAt_enters hsite).bind fun _ l₂ h₂ => .pure ?_
      have hbecomes : Becomes row l₁ (.reference range offset) id :=
        hmade.becomes rfl rfl fun _ _ => hleading
      exact hnone.wrap_named hmade rfl hbecomes h₂
  | .node spec children, l, loose, h => by
    simp only [lay, Shape.sites]
    refine (checkWord_ensures spec).bind fun _ l₁ hl => ?_
    subst hl
    refine (layAll_records ho children h).bind fun ids l₁ h₁ => ?_
    refine (nodeOver_ensures ho h₁.drafted).bind fun id l₂ h₂ => ?_
    exact (declareIf_enters spec.declares spec.kind spec.range).bind fun _ l₃ h₃ =>
      .pure (h₁.wrap_spec h₂ h₃)
  | .typed spec before typeShape type ellipsis after, l, loose, h => by
    simp only [lay, Shape.sites]
    refine (layAll_records ho before h).bind fun ids₁ l₁ hbefore => ?_
    have h₁ := hbefore.leading spec.kind
    refine (lay_records ho typeShape h₁.drafted).bind fun ids₂ l₂ h₂ => ?_
    have h₁₂ := h₁.append h₂
    refine (layAll_records ho after h₁₂.drafted).bind fun ids₃ l₃ h₃ => ?_
    have h₁₃ := h₁₂.append h₃
    refine (nodeOver_ensures ho h₁₃.drafted).bind fun id l₄ h₄ => ?_
    refine (setTypes_enters id ids₂ type ellipsis ids₃).bind fun _ l₅ h₅ => ?_
    refine (declareIf_enters spec.declares spec.kind spec.range).bind fun _ l₆ h₆ => ?_
    exact .pure (h₁₃.wrap_spec h₄ (h₅.trans h₆))
  | .clause kind word range types, l, loose, h => by
    simp only [lay, Shape.sites]
    refine (clauseRange_ensures kind.node word range).bind fun found l₁ hl => ?_
    subst hl
    refine (layAll_records ho types h).bind fun ids l₁ h₁ => ?_
    refine (nodeOver_ensures ho h₁.drafted).bind fun id l₂ h₂ => .pure ?_
    have hwrapped := h₁.wrap_plain h₂
    have hangled : angledSites kind.node found = [] := by cases kind <;> rfl
    rwa [hangled, List.append_nil] at hwrapped
  | .variables start terminated before typeShape type fragments, l, loose, h => by
    simp only [lay, Shape.sites]
    split
    · exact .pure ⟨h, .none (.refl l) (filter_vacancy _ _)⟩
    rename_i hne
    refine (layAll_records ho before h).bind fun ids₁ l₁ h₁ => ?_
    refine (lay_records ho typeShape h₁.drafted).bind fun ids₂ l₂ h₂ => ?_
    have h₁₂ := h₁.append h₂
    exact layFragments_records ho fragments h₁₂ fun hnil => absurd (hnil ▸ rfl) hne
  | .labeled range label body, l, loose, h => by
    simp only [lay, Shape.sites]
    refine (leaf_records ho h rfl).bind fun id l₁ h₁ => ?_
    have hopen : ∀ o : Occurrences, o.Agrees (o.enterLabel label.text).2 := fun _ => ⟨rfl, rfl, rfl⟩
    refine (record_idle hopen).bind fun _ l₂ h₂ => ?_
    have h₁₂ := h₁.idle h₂
    refine (layAll_records ho body h₁₂.drafted).bind fun ids l₃ h₃ => ?_
    have h₁₃ := h₁₂.append h₃
    refine (nodeOver_ensures ho h₁₃.drafted).bind fun labeled l₄ h₄ => ?_
    refine (record_idle (exitLabel_agrees labeled)).bind fun _ l₅ h₅ => .pure ?_
    have hwrapped := (h₁₃.wrap_plain h₄).idle h₅
    simpa [angledSites, NodeKind.isAngled] using hwrapped
  | .jump kind range none, l, loose, h => by
    simp only [lay, Shape.sites]
    have hnone : Records row loose l [] [] l := ⟨h, .idle (.refl l)⟩
    exact (nodeOver_ensures ho hnone.drafted).bind fun id l₁ h₁ => .pure (hnone.wrap_plain h₁)
  | .jump kind range (some label), l, loose, h => by
    simp only [lay, Shape.sites]
    refine (leaf_records ho h rfl).bind fun id l₁ h₁ => ?_
    refine (record_idle (resolveLabel_agrees label.text id)).bind fun _ l₂ h₂ => ?_
    have h₁₂ := h₁.idle h₂
    exact (nodeOver_ensures ho h₁₂.drafted).bind fun jump l₃ h₃ => .pure (h₁₂.wrap_plain h₃)
  | .body inside, l, loose, h => by
    simp only [lay, Shape.sites]
    refine inBody_ensures (fun l₁ h₁ => ?_) fun ids l₁ l₂ h₁ h₂ => h₁.idle h₂
    exact (layAll_records ho inside (h.alike h₁.toAlike)).mono fun ids l₂ h₂ =>
      ⟨h₂.drafted, (Recorded.idle h₁).append h₂.recorded⟩

/-- Shapes that are laid record their sites. -/
theorem layAll_records (ho : row.Ordered) :
    ∀ (shapes : List Shape) {l : Layout} {loose : List NodeId}, Drafted row l loose →
      Ensures (layAll shapes) l fun ids l' => Records row loose l (shapeSites shapes) ids l'
  | [], l, loose, h => by
    simp only [layAll, shapeSites]
    exact .pure ⟨h, .idle (.refl l)⟩
  | s :: ss, l, loose, h => by
    simp only [layAll, shapeSites]
    refine (lay_records ho s h).bind fun ids₁ l₁ h₁ => ?_
    exact (layAll_records ho ss h₁.drafted).bind fun ids₂ l₂ h₂ => .pure (h₁.append h₂)

/-- The first of the variables takes in the nodes that were laid before them. -/
theorem layFragments_records (ho : row.Ordered) {terminated : Bool} {types : List NodeId}
    {type : TypeRef} :
    ∀ (fragments : List FragmentShape) {l₀ l : Layout} {loose before : List NodeId}
      {sites : List Site} {start : Nat}, Records row loose l₀ sites before l →
      (fragments = [] → before = []) →
      Ensures (layFragments terminated start types type before fragments) l fun ids l' =>
        Records row loose l₀ (sites ++ variableSites terminated start fragments) ids l'
  | [], l₀, l, loose, before, sites, start, h, hnil => by
    simp only [layFragments, variableSites, List.append_nil]
    rw [hnil rfl] at h
    exact .pure h
  | .mk range name inside :: fragments, l₀, l, loose, before, sites, start, h, _ => by
    simp only [layFragments, variableSites]
    refine (fragmentStop_ensures start range fragments.isEmpty terminated name.range.start
      h.drafted.row_eq).bind fun stop l₁ ⟨hl, hextent⟩ => ?_
    subst hl
    refine (leaf_records ho h.drafted rfl).bind fun id l₂ h₁ => ?_
    have h₀₁ := h.append h₁
    refine (layAll_records ho inside h₀₁.drafted).bind fun ids l₃ h₂ => ?_
    have h₀₂ := h₀₁.append h₂
    rw [List.append_nil, List.append_assoc before, List.singleton_append] at h₀₂
    refine (nodeOver_ensures ho h₀₂.drafted).bind fun decl l₄ h₃ => ?_
    refine (setTypes_enters decl types type none ids).bind fun _ l₅ h₄ => ?_
    have hrole : (Site.fragment ⟨start, range.stop⟩ (separatorOf fragments.isEmpty terminated)
        name.range.start).role = .declares name.range.start := rfl
    refine (declareAt_enters hrole).bind fun _ l₆ h₅ => ?_
    have hbecomes := h₃.becomes rfl hextent fun _ hrole => SiteRole.noConfusion hrole
    have h₀₅ := h₀₂.wrap_named h₃ rfl hbecomes (h₄.trans h₅)
    have hnone : Records row (decl :: loose) l₆ [] [] l₆ := ⟨h₀₅.drafted, .idle (.refl l₆)⟩
    have hnext : ∀ f fs, fragments = f :: fs → nextStart stop fragments =
        nextStart range.stop fragments := by
      rintro ⟨r, n, i⟩ fs rfl
      rfl
    have hothers : Ensures (layFragments terminated (nextStart stop fragments) types type []
        fragments) l₆ fun ids l' => Records row (decl :: loose) l₆
          (variableSites terminated (nextStart range.stop fragments) fragments) ids l' := by
      cases fragments with
      | nil =>
        simp only [layFragments, variableSites]
        exact .pure hnone
      | cons f fs =>
        rw [hnext f fs rfl]
        exact layFragments_records ho (f :: fs) hnone fun hnil => by cases hnil
    refine hothers.bind fun ids' l₇ h₆ => .pure ?_
    have hall := h₀₅.append h₆
    simpa [angledSites, NodeKind.isAngled, List.append_assoc] using hall

end

end Layout

end JavaAnalysis
