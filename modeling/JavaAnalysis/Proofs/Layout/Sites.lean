import JavaAnalysis.Proofs.Layout.Unit
import JavaAnalysis.Proofs.Sites.OfAst

/-!
# The sites of a file in its tree

Each name that a file declares or uses has a node of its own in the tree of the file, these nodes
are entered one after the other, and each list in angle brackets that the tree has is one that the
file has. Main statement: `tree_sites`.
-/

set_option autoImplicit false
set_option linter.dupNamespace false

namespace JavaAnalysis

/-- The node is over the tokens of the site. -/
structure SyntaxTree.StandsFor (t : SyntaxTree) (id : NodeId) (site : Site) : Prop where
  lt_size : id.index < t.nodes.size
  kind_eq : t.kind id = site.kind
  covers : ∃ range, site.extent? t.row = some range ∧
    t.row.span? range = some (t.firstToken id, t.lastToken id)
  /-- An identifier that uses a name starts with a token of its own. -/
  leading : ∀ offset, site.role = .uses offset → t.firstToken id ∈ t.childTokens id

namespace Layout

open TreeDraft Ast SyntaxTree

variable {row : TokenRow} {l l' : Layout} {sites : List Site} {root id : NodeId} {text : String}
  {t : SyntaxTree}

/-- The first and the last of the tokens from one number to another. -/
theorem ends_range' {a b : Nat} (hle : a ≤ b) :
    ((List.range' a (b + 1 - a)).map TokenId.mk).head? = some ⟨a⟩ ∧
      ((List.range' a (b + 1 - a)).map TokenId.mk).getLast? = some ⟨b⟩ := by
  obtain ⟨n, rfl⟩ := Nat.exists_eq_add_of_le hle
  have hcount : a + n + 1 - a = n + 1 := by omega
  rw [hcount]
  refine ⟨by rw [List.range'_succ]; rfl, ?_⟩
  rw [List.range'_concat, List.map_append, List.getLast?_append]
  simp

/-- The tokens below a node are those between its ends. -/
theorem Rooted.leaves_range' (h : Rooted row l sites root l')
    (hs : Sound row l'.draft root) (hid : id.index < l'.spans.size) :
    l'.draft.leaves (.node id) = (List.range' (l'.spanOf id).1.index
      ((l'.spanOf id).2.index + 1 - (l'.spanOf id).1.index)).map TokenId.mk ∧
    (l'.spanOf id).1.index ≤ (l'.spanOf id).2.index := by
  by_cases hroot : id = root
  · subst hroot
    have hpos : row.tokens.size ≠ 0 := by
      intro hzero
      exact hs.tokens.tokenIdsOf_ne_nil (by simp [tokenIdsOf, hzero])
    have hcount : row.final.index + 1 - 0 = row.tokens.size := by
      simp only [TokenRow.final]
      omega
    rw [h.root_span, hs.leaves, tokenIdsOf, List.range_eq_range']
    simp only [hcount, Nat.zero_le, and_self]
  · exact h.leaves_eq id hid hroot

/-- In a finished tree the nodes have the ends that they were made with. -/
theorem Rooted.ends_eq (h : Rooted row l sites root l')
    (ht : ofDraft text row l'.draft root = .ok t) (hid : id.index < l'.spans.size) :
    t.firstToken id = (l'.spanOf id).1 ∧ t.lastToken id = (l'.spanOf id).2 := by
  obtain ⟨hleaves, hle⟩ := h.leaves_range' (sound_of_ofDraft h.bottomUp ht) hid
  obtain ⟨hhead, hlast⟩ := ends_range' hle
  have hmem : id ∈ l'.draft.ids := mem_ids.2 (h.size_eq ▸ hid)
  obtain ⟨-, ends, hends, owners, -, links, -, os, -, -, rfl⟩ := ofDraft_eq_ok.1 ht
  obtain ⟨hhead', hlast'⟩ := endsAt_node h.bottomUp hends hmem
  rw [hleaves] at hhead' hlast'
  rw [firstToken, lastToken, node_finished (mem_ids.1 hmem)]
  exact ⟨Option.some.inj (hhead'.symm.trans hhead), Option.some.inj (hlast'.symm.trans hlast)⟩

/-- What a site has become while the file was laid is over its tokens in the finished tree. -/
theorem Rooted.standsFor (h : Rooted row l sites root l')
    (ht : ofDraft text row l'.draft root = .ok t) {site : Site} (hbecomes : Becomes row l' site id) :
    t.StandsFor id site := by
  have hid := hbecomes.lt_size
  obtain ⟨hfirst, hlast⟩ := h.ends_eq ht hid
  obtain ⟨-, ends, -, owners, -, links, -, os, -, -, rfl⟩ := ofDraft_eq_ok.1 ht
  have hsize : id.index < l'.draft.nodes.size := h.size_eq ▸ hid
  refine ⟨?_, ?_, ?_, fun offset hrole => ?_⟩
  · simpa [finished] using hsize
  · rw [SyntaxTree.kind, node_finished hsize]
    exact hbecomes.kind_eq
  · rw [hfirst, hlast]
    exact hbecomes.covers
  · rw [hfirst, childTokens, childElements_finished, List.mem_filterMap]
    exact ⟨_, hbecomes.leading offset hrole, rfl⟩

/-- The tree of a file is finished from what was laid of its shapes. -/
theorem tree_rooted (ho : row.Ordered) (htokens : TokensInOrder row) {unit : CompilationUnit}
    {boundAt? : Nat → Option BindingId} {length : Nat} (hrange : unit.range = .upTo length)
    (hshapes : ∀ s ∈ unit.shapes, EndsBy length s) {o : Occurrences}
    (h : tree text row boundAt? unit = .ok (t, o)) :
    ∃ root l, Rooted row (.start row boundAt?) unit.sites root l ∧
      ofDraft text row l.draft root = .ok t ∧ l.occurrences = o := by
  obtain ⟨root, l, hrun, ht, ho'⟩ := tree_eq_ok.1 h
  have hrooted := layUnit_ensures ho htokens (drafted_start row boundAt?) hrange hshapes root l hrun
  rw [unit.sites_shapes] at hrooted
  exact ⟨root, l, hrooted, ht, ho'⟩

/--
In the tree of a file, whatever row of tokens it is over, each name that is declared or used has a
node of its own. These nodes were entered one after the other, and nothing else was. A node of a
list in angle brackets is over the tokens of such a list of the file. No two nodes share a token.
-/
theorem tree_sites (ho : row.Ordered) (htokens : TokensInOrder row) {unit : CompilationUnit}
    {boundAt? : Nat → Option BindingId} {length : Nat} (hrange : unit.range = .upTo length)
    (hshapes : ∀ s ∈ unit.shapes, EndsBy length s) {o : Occurrences}
    (h : tree text row boundAt? unit = .ok (t, o)) :
    t.row = row ∧
    (∃ ps : List (Site × NodeId), ps.map (·.1) = unit.sites.filter Site.isNamed ∧
      (∀ p ∈ ps, t.StandsFor p.2 p.1) ∧ (ps.map fun p => p.2.index).Pairwise (· < ·) ∧
      (Occurrences.empty.enterAll boundAt? ps).Agrees o) ∧
    (∀ id, id.index < t.nodes.size → (t.kind id).isAngled = true →
      ∃ site ∈ unit.sites, (site.role = .encloses ∧ site.separator = none) ∧
        t.StandsFor id site) ∧
    ∀ id id' token, token ∈ t.childTokens id → token ∈ t.childTokens id' → id = id' := by
  have hrow := (over_of_tree h).1
  obtain ⟨root, l, hrooted, ht, rfl⟩ := tree_rooted ho htokens hrange hshapes h
  obtain ⟨ps, hps, hnamed⟩ := hrooted.recorded.entered
  refine ⟨hrow, ⟨ps, hnamed, fun p hp => hrooted.standsFor ht (hps.becomes p hp).2,
    hps.ascending, hps.occurrences⟩, fun id hid hkind => ?_,
    fun _ _ _ hid hid' => eq_of_mem_childTokens hrooted.bottomUp ht hid hid'⟩
  have hsize : id.index < l.draft.nodes.size ∧ (l.draft.node id).kind.isAngled = true := by
    obtain ⟨-, ends, -, owners, -, links, -, os, -, -, rfl⟩ := ofDraft_eq_ok.1 ht
    have hlt : id.index < l.draft.nodes.size := by simpa [finished] using hid
    rw [SyntaxTree.kind, node_finished hlt] at hkind
    exact ⟨hlt, hkind⟩
  obtain ⟨site, hsite, hrole, hbecomes⟩ := hrooted.recorded.angled id (Nat.zero_le _)
    (hrooted.size_eq ▸ hsize.1) hsize.2
  exact ⟨site, hsite, hrole, hrooted.standsFor ht hbecomes⟩

end Layout

end JavaAnalysis
