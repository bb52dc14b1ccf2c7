import JavaAnalysis.Proofs.Binding.Table
import JavaAnalysis.Proofs.Layout.Sites
import JavaAnalysis.Proofs.Resolve.Distinct
import JavaAnalysis.Proofs.SourceFile.Foreign
import JavaAnalysis.Semantics.Model

/-!
# The semantic model of entered sites

Where the nodes of sites differ, and no two declarations share a binding, the semantic model has all
that was entered, each entry once, with usages in the order of the text.
Main statement: `records_ofOccurrences`.
-/

set_option autoImplicit false
set_option linter.dupNamespace false

namespace JavaAnalysis

open Occurrences

namespace SemanticModel

variable {t : SyntaxTree} {boundAt? : Nat → Option BindingId} {ps : List (Site × NodeId)}
  {o : Occurrences} {b : BindingId} {n : NodeId}

/-- The model has just the given nodes, each as what the name of its site is bound to. -/
structure Records (m : SemanticModel) (t : SyntaxTree) (boundAt? : Nat → Option BindingId)
    (ps : List (Site × NodeId)) : Prop where
  declaration?_iff : ∀ b n, m.declaration? b = some n ↔
    ∃ p ∈ ps, p.1.declares? boundAt? = some b ∧ p.2 = n
  mem_usages : ∀ b n, n ∈ m.usages b ↔ ∃ p ∈ ps, p.1.uses? boundAt? = some b ∧ p.2 = n
  /-- No node is used twice, and usages follow each other as in the text. -/
  ascending : ∀ b, (m.usages b).Pairwise fun n n' => (t.range n).start < (t.range n').start
  bindingOf?_iff : ∀ b n, m.bindingOf? n = some b ↔
    ∃ p ∈ ps, p.1.bound? boundAt? = some b ∧ p.2 = n

theorem usages_ofOccurrences (t : SyntaxTree) (bindings : Bindings) (o : Occurrences)
    (b : BindingId) :
    (ofOccurrences t bindings o).usages b = inTextOrder t (o.usages.getD b []) := by
  rw [usages, ofOccurrences, Std.HashMap.getD_map, Std.HashMap.getD_eq_getD_getElem?]
  cases o.usages[b]? with
  | some nodes => rfl
  | none => simp [inTextOrder]

theorem mem_inTextOrder {nodes : List NodeId} : n ∈ inTextOrder t nodes ↔ n ∈ nodes := by
  rw [inTextOrder, List.mem_mergeSort, List.mem_reverse]

/-- Different nodes that start at different places are put in strict order. -/
theorem ascending_inTextOrder {nodes : List NodeId} (hnodup : nodes.Nodup)
    (hstarts : ∀ n ∈ nodes, ∀ n' ∈ nodes, (t.range n).start = (t.range n').start → n = n') :
    (inTextOrder t nodes).Pairwise fun n n' => (t.range n).start < (t.range n').start := by
  have hsorted : (inTextOrder t nodes).Pairwise fun n n' =>
      (t.range n).start ≤ (t.range n').start := by
    have hle := @List.pairwise_mergeSort _
      (fun a b => decide ((t.range a).start ≤ (t.range b).start))
      (fun a b c hab hbc => by
        simp only [decide_eq_true_eq] at hab hbc ⊢
        exact Nat.le_trans hab hbc)
      (fun a b => by simpa using Nat.le_total _ _) nodes.reverse
    exact hle.imp fun h => by simpa using h
  have hdistinct : (inTextOrder t nodes).Nodup :=
    (List.mergeSort_perm nodes.reverse _).nodup_iff.2 (List.nodup_reverse.2 hnodup)
  refine (hsorted.and hdistinct).imp_of_mem fun hn hn' ⟨hle, hne⟩ => ?_
  refine Nat.lt_of_le_of_ne hle fun heq => hne ?_
  exact hstarts _ (mem_inTextOrder.1 hn) _ (mem_inTextOrder.1 hn') heq

theorem records_ofOccurrences {bindings : Bindings}
    (hagrees : (Occurrences.empty.enterAll boundAt? ps).Agrees o) (hnodup : (ps.map (·.2)).Nodup)
    (hdeclared : ∀ p ∈ ps, ∀ q ∈ ps, ∀ b, p.1.declares? boundAt? = some b →
      q.1.declares? boundAt? = some b → p = q)
    (hstarts : ∀ p ∈ ps, ∀ q ∈ ps, ∀ b, p.1.uses? boundAt? = some b → q.1.uses? boundAt? = some b →
      (t.range p.2).start = (t.range q.2).start → p.2 = q.2) :
    (ofOccurrences t bindings o).Records t boundAt? ps := by
  have hfree : ∀ q ∈ ps, Occurrences.empty.bindingAt[q.2]? = none := fun q _ => by
    simp [Occurrences.empty]
  have husages : ∀ b, o.usages.getD b [] =
      ((ps.filter fun q => q.1.uses? boundAt? == some b).map (·.2)).reverse := fun b => by
    rw [hagrees.usages_eq, usages_enterAll hfree hnodup]
    simp [Occurrences.empty]
  have hmem : ∀ b n, n ∈ o.usages.getD b [] ↔
      ∃ p ∈ ps, p.1.uses? boundAt? = some b ∧ p.2 = n := fun b n => by
    rw [husages]
    simp [and_assoc]
  refine ⟨fun b n => ?_, fun b n => ?_, fun b => ?_, fun b n => ?_⟩
  · rw [declaration?, ofOccurrences, hagrees.declarations_eq, declarations_enterAll hfree hnodup]
    have hnone : Occurrences.empty.declarations[b]? = none := by simp [Occurrences.empty]
    rw [hnone, Option.none_or, Option.map_eq_some_iff]
    constructor
    · rintro ⟨p, hp, rfl⟩
      exact ⟨p, List.mem_of_find?_eq_some hp, by simpa using List.find?_some hp, rfl⟩
    · rintro ⟨p, hp, hb, rfl⟩
      cases hfind : ps.find? fun q => q.1.declares? boundAt? == some b with
      | none =>
        have hnot := List.find?_eq_none.1 hfind p hp
        simp [hb] at hnot
      | some q =>
        have hq : q.1.declares? boundAt? = some b := by simpa using List.find?_some hfind
        exact ⟨q, rfl, by rw [hdeclared q (List.mem_of_find?_eq_some hfind) p hp b hq hb]⟩
  · rw [usages_ofOccurrences, mem_inTextOrder, hmem]
  · rw [usages_ofOccurrences]
    refine ascending_inTextOrder ?_ fun n hn n' hn' heq => ?_
    · rw [husages, List.nodup_reverse]
      exact hnodup.sublist (List.filter_sublist.map _)
    · obtain ⟨p, hp, hpb, rfl⟩ := (hmem b n).1 hn
      obtain ⟨q, hq, hqb, rfl⟩ := (hmem b n').1 hn'
      exact hstarts p hp q hq b hpb hqb heq
  · rw [bindingOf?, ofOccurrences, hagrees.bindingAt_eq, bindingAt_enterAll hfree hnodup]
    simp [Occurrences.empty, and_comm]

end SemanticModel

end JavaAnalysis

/-!
## Declarations and usages in a file

Each name that a file declares or uses has a lexeme and a node of its own. So the semantic model of
the file loses none of them: a binding is declared by the node of its declaration and by no other,
and it is used by the identifiers that the binder has bound to it.
Main statement: `ofInput_occurrences`.
-/

namespace JavaAnalysis

open Ast Lexeme TokenRow SyntaxTree

namespace TokenRow

variable {row : TokenRow}

/-- No two lexemes of a row start together. -/
theorem Ordered.nodup_starts (ho : row.Ordered) :
    ((bare row.tokens.toList).map Lexeme.start).Nodup := by
  rw [bare, List.map_map, List.Nodup, List.pairwise_iff_getElem]
  intro i j hi hj hlt
  have htoken : ∀ k (hk : k < row.tokens.size), row.token ⟨k⟩ = row.tokens[k] := fun k hk => by
    simp [TokenRow.token, hk]
  simp only [List.length_map, Array.length_toList] at hi hj
  simp only [List.getElem_map, Function.comp, Array.getElem_toList]
  rw [← htoken i hi, ← htoken j hj]
  exact Nat.ne_of_lt (ho.start_lt hlt hj)

end TokenRow

namespace Parser

/-- Each name that is declared or used starts at an offset of its own. -/
theorem run_nodup_keys {level : LanguageLevel} {text : String} {lexemes : List Lexeme}
    {unit : CompilationUnit} {t : State} (hscan : scan level text = .ok lexemes)
    (hrun : run level lexemes = .ok (unit, t)) : (keys unit.sites).Nodup := by
  have hs := significant_of_scan hscan
  have hstarts := (carries_ofLexemes (closers (shapeSites unit.shapes)) hscan).ordered.nodup_starts
  rw [ofLexemes, List.toList_toArray, bare_attachComments, ← run_lexemes hs hrun] at hstarts
  obtain ⟨starts, hperm, hsub⟩ := run_keys hs hrun
  rw [← unit.sites_shapes]
  exact hperm.nodup_iff.1 (hstarts.sublist hsub)

end Parser

namespace ParsedUnit

variable (input : SourceInput)

theorem nodup_keys : (Parser.keys (ofInput input).unit.sites).Nodup := by
  rcases ofInput_cases input with ⟨lexemes, unit, t, hscan, hrun, hunit, -⟩ |
    ⟨length, problem, hrejected⟩
  · rw [hunit]
    exact Parser.run_nodup_keys hscan hrun
  · rw [hrejected]
    exact List.nodup_nil

/-- The names of a file are told apart by where they start. -/
theorem nodup_key? :
    (((ofInput input).unit.sites.filter Site.isNamed).map Site.key?).Nodup := by
  have hkeys : ∀ sites : List Site,
      (sites.filter Site.isNamed).map Site.key? = (Parser.keys sites).map some := by
    intro sites
    induction sites with
    | nil => rfl
    | cons site sites ih =>
      cases hkey : site.key? with
      | none =>
        have hnamed : site.isNamed = false := by rw [Site.isNamed, hkey]; rfl
        rw [List.filter_cons_of_neg (by simp [hnamed]), ih]
        simp [Parser.keys, hkey]
      | some offset =>
        have hnamed : site.isNamed = true := by rw [Site.isNamed, hkey]; rfl
        rw [List.filter_cons_of_pos hnamed, List.map_cons, ih]
        simp [Parser.keys, hkey]
  rw [hkeys]
  exact (nodup_keys input).map fun _ _ h => Option.some.inj h

/-- Two sites of a file at which one name stands are the same. -/
theorem eq_of_key? {s s' : Site} {offset : Nat} (hs : s ∈ (ofInput input).unit.sites)
    (hs' : s' ∈ (ofInput input).unit.sites) (h : s.key? = some offset)
    (h' : s'.key? = some offset) : s = s' := by
  have hnamed : ∀ {x : Site}, x ∈ (ofInput input).unit.sites → x.key? = some offset →
      x ∈ (ofInput input).unit.sites.filter Site.isNamed := fun hx hkey =>
    List.mem_filter.2 ⟨hx, by rw [Site.isNamed, hkey]; rfl⟩
  exact List.inj_on_of_nodup_map (nodup_key? input) (hnamed hs h) (hnamed hs' h')
    (h.trans h'.symm)

/-- Where the sites of a file have names. -/
def places : Binder.Places where
  used o := ∃ site ∈ (ofInput input).unit.sites, site.used? = some o
  declared o := ∃ site ∈ (ofInput input).unit.sites, site.declared? = some o

variable {input}

theorem covers_places {lexemes : List Lexeme} {unit : CompilationUnit} {t : Parser.State}
    (hscan : scan input.level input.text = .ok lexemes)
    (hrun : Parser.run input.level lexemes = .ok (unit, t)) (hunit : (ofInput input).unit = unit) :
    Binder.Covers (places input) unit.sites := by
  intro site hsite
  have hbacked := Parser.run_backed (significant_of_scan hscan) hrun
    (unit.sites_shapes.symm ▸ hsite)
  split
  · rename_i offset hrole
    exact ⟨site, hunit.symm ▸ hsite, by rw [Site.used?, hrole]⟩
  · rename_i offset hrole
    exact ⟨site, hunit.symm ▸ hsite, by rw [Site.declared?, hrole]⟩
  · rename_i hrole
    rwa [Parser.Backed, hrole] at hbacked
  · trivial

/-- A declared name is no use: no other site has its offset. -/
theorem not_used_of_declared? {site : Site} {o : Nat} (hsite : site ∈ (ofInput input).unit.sites)
    (h : site.declared? = some o) : ¬ (places input).used o := by
  rintro ⟨other, hother, hused⟩
  have heq := eq_of_key? input hsite hother (Site.key?_of_declared? h) (Site.key?_of_used? hused)
  rw [← heq, Site.used?_of_declared? h] at hused
  cases hused

/-- Distinct declarations of a file are bound to different things. -/
theorem eq_of_declares? {s s' : Site} {b : BindingId} (hs : s ∈ (ofInput input).unit.sites)
    (hs' : s' ∈ (ofInput input).unit.sites)
    (h : s.declares? (ofInput input).resolution.boundAt? = some b)
    (h' : s'.declares? (ofInput input).resolution.boundAt? = some b) : s = s' := by
  obtain ⟨o, ho, hb⟩ := Option.bind_eq_some_iff.1 h
  obtain ⟨o', ho', hb'⟩ := Option.bind_eq_some_iff.1 h'
  rcases ofInput_cases input with ⟨lexemes, unit, t, hscan, hrun, hunit, hresolution⟩ |
    ⟨length, problem, hrejected⟩
  · rw [hresolution] at hb hb'
    have heq := Resolution.boundAt?_injective (covers_places hscan hrun hunit)
      (not_used_of_declared? hs ho) (not_used_of_declared? hs' ho') hb hb'
    subst heq
    exact eq_of_key? input hs hs' (Site.key?_of_declared? ho) (Site.key?_of_declared? ho')
  · rw [hrejected] at hs
    cases hs

/-- Nothing is bound but the names at the sites of a file. -/
theorem exists_site_of_boundAt? {o : Nat} {b : BindingId}
    (h : (ofInput input).resolution.boundAt? o = some b) :
    ∃ site ∈ (ofInput input).unit.sites, site.key? = some o := by
  rcases ofInput_cases input with ⟨lexemes, unit, t, hscan, hrun, hunit, hresolution⟩ |
    ⟨length, problem, hrejected⟩
  · rw [hresolution] at h
    rcases Resolution.named_of_boundAt? (covers_places hscan hrun hunit) h with
      ⟨site, hsite, hused⟩ | ⟨site, hsite, hdeclared⟩
    · exact ⟨site, hsite, Site.key?_of_used? hused⟩
    · exact ⟨site, hsite, Site.key?_of_declared? hdeclared⟩
  · rw [hrejected] at h
    simp [rejected, Resolution.blank, Resolution.boundAt?] at h

end ParsedUnit

/-- Nodes over sites that start together start with one token. -/
theorem SyntaxTree.StandsFor.firstToken_eq {t : SyntaxTree} {id id' : NodeId} {site site' : Site}
    (h : t.StandsFor id site) (ho : t.row.Ordered) (h' : t.StandsFor id' site')
    (heq : (t.range id).start = (t.range id').start) : t.firstToken id = t.firstToken id' := by
  obtain ⟨range, -, hspan⟩ := h.covers
  obtain ⟨range', -, hspan'⟩ := h'.covers
  have hspans := ho.span?_eq_some hspan
  have hspans' := ho.span?_eq_some hspan'
  have hsize := ho.size
  have hlt : (t.firstToken id).index < t.row.tokens.size := by
    have := hspans.le
    have := hspans.lt
    omega
  have hlt' : (t.firstToken id').index < t.row.tokens.size := by
    have := hspans'.le
    have := hspans'.lt
    omega
  exact congrArg TokenId.mk (ho.start_inj hlt hlt' heq)

namespace SourceFile

variable {input : SourceInput} {policy : SyntaxPolicy} {f : SourceFile}

/--
The nodes of the names in a file: each name has one of its own, no two of them declare the same, and
the semantic model has just what they declare and use.
-/
theorem exists_records (h : ofInput input policy = .ok f) :
    ∃ nodes : List (Site × NodeId),
      nodes.map (·.1) = (ParsedUnit.ofInput input).unit.sites.filter Site.isNamed ∧
      (nodes.map (·.2)).Nodup ∧ (∀ p ∈ nodes, f.tree.StandsFor p.2 p.1) ∧
      (∀ p ∈ nodes, ∀ q ∈ nodes, ∀ b,
        p.1.declares? (ParsedUnit.ofInput input).resolution.boundAt? = some b →
        q.1.declares? (ParsedUnit.ofInput input).resolution.boundAt? = some b → p = q) ∧
      f.semantic.Records f.tree (ParsedUnit.ofInput input).resolution.boundAt? nodes := by
  obtain ⟨lexemes, o, hscan, htree, hsemantic⟩ := tree_of_ofInput h
  obtain ⟨length, hrange, hshapes, -⟩ := shapes_ofInput input
  have hc := carries_ofLexemes (ParsedUnit.ofInput input).unit.splits hscan
  have htokens := Layout.tokensInOrder hc (significant_of_scan hscan)
  obtain ⟨hrow, ⟨nodes, hsites, hstands, hascending, hagrees⟩, -, howners⟩ :=
    Layout.tree_sites hc.ordered htokens hrange hshapes htree
  have hmem : ∀ p ∈ nodes, p.1 ∈ (ParsedUnit.ofInput input).unit.sites := fun p hp =>
    (List.mem_filter.1 (hsites ▸ List.mem_map_of_mem hp)).1
  have hnodup : (nodes.map (·.2)).Nodup :=
    (List.pairwise_map.1 hascending).imp (fun hlt heq => Nat.ne_of_lt hlt (congrArg _ heq))
      |> List.pairwise_map.2
  have hsame : ∀ p ∈ nodes, ∀ q ∈ nodes, p.1.key? = q.1.key? → p = q := by
    have hkeys : (nodes.map fun p => p.1.key?).Nodup := by
      have hnodup := ParsedUnit.nodup_key? input
      rwa [← hsites, List.map_map] at hnodup
    exact fun p hp q hq heq => List.inj_on_of_nodup_map hkeys hp hq heq
  have hdeclared : ∀ p ∈ nodes, ∀ q ∈ nodes, ∀ b,
      p.1.declares? (ParsedUnit.ofInput input).resolution.boundAt? = some b →
      q.1.declares? (ParsedUnit.ofInput input).resolution.boundAt? = some b → p = q :=
    fun p hp q hq b hpb hqb => hsame p hp q hq
      (congrArg _ (ParsedUnit.eq_of_declares? (hmem p hp) (hmem q hq) hpb hqb))
  -- Usages that start together start with one token, which only one node has as a child.
  have hstarts : ∀ p ∈ nodes, ∀ q ∈ nodes, ∀ b,
      p.1.uses? (ParsedUnit.ofInput input).resolution.boundAt? = some b →
      q.1.uses? (ParsedUnit.ofInput input).resolution.boundAt? = some b →
      (f.tree.range p.2).start = (f.tree.range q.2).start → p.2 = q.2 := by
    intro p hp q hq b hpb hqb heq
    have hfirst := (hstands p hp).firstToken_eq (hrow ▸ hc.ordered) (hstands q hq) heq
    obtain ⟨offset, hused, -⟩ := Option.bind_eq_some_iff.1 hpb
    obtain ⟨offset', hused', -⟩ := Option.bind_eq_some_iff.1 hqb
    have hleading := (hstands p hp).leading offset (Site.role_of_used? hused)
    have hleading' := (hstands q hq).leading offset' (Site.role_of_used? hused')
    exact howners _ _ _ hleading (hfirst ▸ hleading')
  refine ⟨nodes, hsites, hnodup, hstands, hdeclared, ?_⟩
  rw [hsemantic]
  exact SemanticModel.records_ofOccurrences hagrees hnodup hdeclared hstarts

/--
In the semantic model of a file nothing is lost or entered twice. Each name that is declared or used
has a node of its own, over the tokens that it should be over, and nothing else is bound. A binding
is declared by the node of the one declaration that carries it. Its usages are the identifiers of
just the names that use it, in the order of the text. A node stands for a binding just if its name
declares or uses it.
-/
theorem ofInput_occurrences (h : ofInput input policy = .ok f) :
    ∃ nodes : List (Site × NodeId),
      nodes.map (·.1) = (ParsedUnit.ofInput input).unit.sites.filter Site.isNamed ∧
      (nodes.map (·.2)).Nodup ∧ (∀ p ∈ nodes, f.tree.StandsFor p.2 p.1) ∧
      (∀ o b, (ParsedUnit.ofInput input).resolution.boundAt? o = some b →
        ∃ p ∈ nodes, p.1.key? = some o) ∧
      (∀ p ∈ nodes, ∀ q ∈ nodes, ∀ b,
        p.1.declares? (ParsedUnit.ofInput input).resolution.boundAt? = some b →
        q.1.declares? (ParsedUnit.ofInput input).resolution.boundAt? = some b → p = q) ∧
      f.semantic.Records f.tree (ParsedUnit.ofInput input).resolution.boundAt? nodes ∧
      ∀ b, ∀ n ∈ f.semantic.usages b, f.tree.kind n = .identifier := by
  obtain ⟨nodes, hsites, hnodup, hstands, hdeclared, hrecords⟩ := exists_records h
  refine ⟨nodes, hsites, hnodup, hstands, fun o b hbound => ?_, hdeclared, hrecords,
    fun b n hn => ?_⟩
  · obtain ⟨site, hsite, hkey⟩ := ParsedUnit.exists_site_of_boundAt? hbound
    have hnamed : site ∈ nodes.map (·.1) :=
      hsites ▸ List.mem_filter.2 ⟨hsite, by rw [Site.isNamed, hkey]; rfl⟩
    obtain ⟨p, hp, rfl⟩ := List.mem_map.1 hnamed
    exact ⟨p, hp, hkey⟩
  · obtain ⟨p, hp, huses, rfl⟩ := (hrecords.mem_usages b n).1 hn
    obtain ⟨offset, hused, -⟩ := Option.bind_eq_some_iff.1 huses
    have hnamed : p.1 ∈ (ParsedUnit.ofInput input).unit.sites.filter Site.isNamed :=
      hsites ▸ List.mem_map_of_mem hp
    have hsite := (List.mem_filter.1 hnamed).1
    rw [← (ParsedUnit.ofInput input).unit.sites_shapes] at hsite
    rw [(hstands p hp).kind_eq]
    exact shapes_usedByIdentifiers _ _ hsite offset (Site.role_of_used? hused)

/-- A field that another one uses. -/
def twoFields : SourceInput := ⟨"A.java", "class A{int x=1;int y=x;}", .standard⟩

/-- The type and its fields are declared, and the use of the first of them is an identifier. -/
theorem ofInput_occurrences_twoFields : ∃ f nodes, ofInput twoFields ⟨ProblemId.all⟩ = .ok f ∧
    nodes.map (fun p : Site × NodeId => (p.1.declared?, p.1.used?)) =
      [(some 12, none), (none, some 22), (some 20, none), (some 6, none)] ∧
    f.semantic.Records f.tree (ParsedUnit.ofInput twoFields).resolution.boundAt? nodes ∧
    (ParsedUnit.ofInput twoFields).resolution.boundAt? 22 =
      (ParsedUnit.ofInput twoFields).resolution.boundAt? 12 := by
  have hfacts : (scan twoFields.level twoFields.text).toOption.isSome ∧
      ((ParsedUnit.ofInput twoFields).unit.sites.filter Site.isNamed).map
        (fun site => (site.declared?, site.used?)) =
          [(some 12, none), (none, some 22), (some 20, none), (some 6, none)] ∧
      (ParsedUnit.ofInput twoFields).resolution.boundAt? 22 =
        (ParsedUnit.ofInput twoFields).resolution.boundAt? 12 := by
    -- The name is looked up among the rows of the table, which are read as a list.
    delta ParsedUnit.ofInput ParsedUnit.ofText Resolution.ofUnit Binder.resolveUnit
      Binder.resolveTypeBodies Binder.resolveTypeBodies._f Binder.resolveTypeBody
      Binder.resolveExpr._f Binder.resolveName Binder.resolveSimpleName Binder.lookupVariable
      Binder.variableIn? Bindings.findMember? Bindings.supertypes
    rw [Bindings.links_eq_foldl, Bindings.members_eq_foldr]
    decide +kernel
  obtain ⟨hcut, hnamed, hbound⟩ := hfacts
  obtain ⟨lexemes, hscan⟩ := Option.isSome_iff_exists.1 hcut
  rw [toOption_eq_some] at hscan
  obtain ⟨f, hf⟩ := exists_ofInput_of_tolerant hscan
  obtain ⟨nodes, hsites, -, -, -, -, hrecords, -⟩ := ofInput_occurrences hf
  refine ⟨f, nodes, hf, ?_, hrecords, hbound⟩
  have hnames : nodes.map (fun p : Site × NodeId => (p.1.declared?, p.1.used?)) =
      (nodes.map (·.1)).map fun site => (site.declared?, site.used?) := by
    rw [List.map_map]
    rfl
  rw [hnames, hsites, hnamed]

end SourceFile

end JavaAnalysis
