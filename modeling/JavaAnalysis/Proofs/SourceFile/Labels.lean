import JavaAnalysis.Proofs.Layout.FencedAst
import JavaAnalysis.Proofs.Layout.Jumps
import JavaAnalysis.Proofs.SourceFile.EnteredNames
import JavaAnalysis.Proofs.SourceFile.Foreign

/-!
# Labels and jumps in a file

The labels of a file are entered while its nodes are built, those that are open on a stack. What
comes of this is what the finished tree tells: a jump goes to the first statement with its label on
the way up, and nowhere if the way leaves a body before. Main statement: `ofInput_labels`.
-/

set_option autoImplicit false
set_option linter.dupNamespace false

namespace JavaAnalysis

open Ast Lexeme TokenRow SyntaxTree

/-- The labels of the model are those of the tree, and so are the jumps to them. -/
structure SemanticModel.LabelsOf (m : SemanticModel) (t : SyntaxTree) : Prop where
  /-- No label was left open. -/
  active_eq : m.labels.active = []
  /-- Each statement with a label is the declaration of one label, and no label has another one. -/
  declarations_perm :
    (m.labels.all.toList.map (·.declaration)).Perm (t.labeledStatements.map some)
  declares : ∀ s ∈ t.labeledStatements, ∃ label ∈ m.labels.all, m.labelOf? s = some label ∧
    label.declaration = some s ∧ t.HasLabel s label.name
  /-- Each name in a jump occurs once, as a usage of one label or as unresolved. -/
  usages_perm :
    (m.labels.unresolved ++ m.labels.all.toList.flatMap (·.usages)).Perm t.jumpNames
  /-- A jump goes to the label of the statement that it reaches in the tree. -/
  resolves : ∀ u ∈ t.jumpNames, ∃ name, t.spelling? u = some name ∧
    (∀ s, t.Reaches name u s ↔ ∃ label ∈ m.labels.all, m.labelOf? u = some label ∧
      label.declaration = some s ∧ u ∈ label.usages) ∧
    (u ∈ m.labels.unresolved ↔ ∀ s, ¬ t.Reaches name u s) ∧
    (u ∈ m.labels.unresolved ↔ m.labelOf? u = none)

/-- The label that the part declares, if no jump inside goes to it. -/
def Ast.Part.unusedLabels : Part → List Problem
  | .stmt (.labeled _ label body) => (Resolution.unusedLabel? label body).toList
  | _ => []

namespace Resolution

variable (r : Resolution)

theorem filter_unusedLabel_of_unused {ps : List Problem}
    (h : ∀ p ∈ ps, p.id.IsUnusedDeclaration ∧ r.Warned p) :
    ps.filter (·.id == .unusedLabel) = [] := by
  refine List.filter_eq_nil_iff.2 fun p hp hid => ?_
  have hunused := (h p hp).1
  rw [eq_of_beq hid] at hunused
  exact hunused

theorem filter_unusedLabel_deadBranch? (value : LiteralKind) (cond : Expr) (branch : Stmt) :
    (deadBranch? value cond branch).toList.filter (·.id == .unusedLabel) = [] := by
  unfold deadBranch?
  split
  · split <;> rfl
  · rfl

/-- Which labels of a part are reported does not depend on what its names are bound to. -/
theorem filter_unusedLabel_unnecessaryIn (part : Part) :
    (r.unnecessaryIn part).filter (·.id == .unusedLabel) = part.unusedLabels := by
  cases part with
  | member m => exact r.filter_unusedLabel_of_unused fun _ => unused_of_mem_unusedMembers
  | stmt s =>
    cases s with
    | localVar decl => exact r.filter_unusedLabel_of_unused fun _ => unused_of_mem_unusedLocals
    | forEach _ decl _ _ =>
      exact r.filter_unusedLabel_of_unused fun _ => unused_of_mem_unusedLocals
    | forLoop _ init _ _ _ =>
      cases init with
      | decl decl => exact r.filter_unusedLabel_of_unused fun _ => unused_of_mem_unusedLocals
      | _ => rfl
    | labeled _ label body =>
      show (unusedLabel? label body).toList.filter _ = (unusedLabel? label body).toList
      unfold unusedLabel?
      split <;> rfl
    | ifThen _ cond body => exact filter_unusedLabel_deadBranch? .false cond body
    | ifThenElse _ cond body alternative =>
      refine (List.filter_append ..).trans ?_
      rw [filter_unusedLabel_deadBranch?, filter_unusedLabel_deadBranch?]
      rfl
    | _ => rfl
  | expr e =>
    show (r.redundantCast? e).toList.filter _ = []
    unfold redundantCast?
    split
    · rfl
    · dsimp only
      split <;> rfl
    · rfl
  | _ => rfl

theorem filter_unusedLabel_unusedImports (imports : List ImportDecl) :
    (r.unusedImports imports).filter (·.id == .unusedLabel) = [] := by
  refine List.filter_eq_nil_iff.2 fun p hp hid => ?_
  obtain ⟨⟨i, used⟩, -, hp⟩ := List.mem_filterMap.1 hp
  cases used with
  | true => cases hp
  | false =>
    cases hp
    cases hid

theorem filter_unusedLabel_unnecessary (unit : CompilationUnit) :
    ((r.unnecessary unit).filter (·.id == .unusedLabel)).Perm
      ((Outline.partsOf unit.outlines).flatMap Part.unusedLabels) := by
  refine ((List.mergeSort_perm _ _).filter _).trans ?_
  rw [List.filter_append, filter_unusedLabel_unusedImports, List.nil_append, List.filter_flatMap]
  simp only [filter_unusedLabel_unnecessaryIn]
  exact .refl _

/-- Nothing that is found when names are bound is about a label. -/
theorem filter_unusedLabel_problems (unit : CompilationUnit) :
    (ofUnit unit).problems.filter (·.id == .unusedLabel) = [] := by
  refine List.filter_eq_nil_iff.2 fun p hp hid => ?_
  have hblames := blames_of_mem hp
  rw [Binder.Blames, eq_of_beq hid] at hblames
  rcases hblames with (h | h | h) | ⟨h | h, -⟩ <;> cases h

end Resolution

/-- The labels that are reported in a file are those to which no jump goes. -/
theorem ParsedUnit.unusedLabels_perm (input : SourceInput) :
    ((ofInput input).problems.filter (·.id == .unusedLabel)).Perm
      ((Outline.partsOf (ofInput input).unit.outlines).flatMap Part.unusedLabels) := by
  unfold ofInput ofText
  split
  · exact .refl _
  dsimp only
  split
  · exact .refl _
  · rw [List.filter_append, Resolution.filter_unusedLabel_problems, List.nil_append]
    exact Resolution.filter_unusedLabel_unnecessary _ _

namespace Layout

open Labels

variable {t : SyntaxTree} {row : TokenRow} {boundAt? : Nat → Option BindingId} {l : Layout}
  {ls : List (NodeId × String)} {js : List JumpGoal}

namespace Tracked

/-- The nodes in jumps that were met while a whole file was laid are those of its tree. -/
theorem jumps_perm (h : Tracked t .compilationUnit (.start row boundAt?) [] ls js l)
    (hformed : t.Formed) (hsize : t.nodes.size = l.spans.size) :
    (js.map (·.1)).Perm t.jumpNames := by
  refine (List.perm_ext_iff_of_nodup h.nodup_jumps nodup_jumpNames).2 fun u => ?_
  rw [mem_jumpNames, hsize]
  constructor
  · intro hu
    obtain ⟨j, hj, rfl⟩ := List.mem_map.1 hu
    obtain ⟨hbetween, hjump, -⟩ := h.jumps j hj
    exact ⟨hbetween.2, hjump⟩
  · rintro ⟨-, hjump⟩
    simp only [isJumpName, Bool.and_eq_true, beq_iff_eq, Option.any_eq_true] at hjump
    obtain ⟨hident, p, hparent, hjump⟩ := hjump
    have hchild : .node u ∈ t.childElements p :=
      List.mem_of_getElem? ((hformed.slot_iff p _ u).2 ⟨hparent, rfl⟩)
    exact h.all_jumps p ⟨Nat.zero_le _, hsize ▸ hformed.lt_size p _ hchild⟩ hjump u hchild hident

theorem labels_perm (h : Tracked t .compilationUnit (.start row boundAt?) [] ls js l)
    (hsize : t.nodes.size = l.spans.size) : (ls.map (·.1)).Perm t.labeledStatements := by
  refine (List.perm_ext_iff_of_nodup h.nodup_labels nodup_labeledStatements).2 fun s => ?_
  rw [mem_labeledStatements, hsize]
  constructor
  · intro hs
    obtain ⟨q, hq, rfl⟩ := List.mem_map.1 hs
    obtain ⟨k, hk⟩ := List.getElem?_of_mem hq
    obtain ⟨hbetween, hlabel, -⟩ := h.labels k q hk
    exact ⟨hbetween.2, hlabel.1⟩
  · exact fun ⟨hlt, hkind⟩ => h.all_labels s ⟨Nat.zero_le _, hlt⟩ hkind

theorem declares (h : Tracked t .compilationUnit (.start row boundAt?) [] ls js l)
    (hsize : t.nodes.size = l.spans.size) (bindings : Bindings) {s : NodeId}
    (hs : s ∈ t.labeledStatements) : ∃ label ∈ l.occurrences.labels.all,
      (SemanticModel.ofOccurrences t bindings l.occurrences).labelOf? s = some label ∧
        label.declaration = some s ∧ t.HasLabel s label.name := by
  have hleads : Leads .empty ls js l.occurrences.labels := h.leads
  obtain ⟨q, hq, rfl⟩ := List.mem_map.1 ((h.labels_perm hsize).mem_iff.2 hs)
  obtain ⟨k, hk⟩ := List.getElem?_of_mem hq
  obtain ⟨-, hlabel, hat⟩ := h.labels k q hk
  rw [show (Layout.start row boundAt?).occurrences.labels.all.size = 0 from rfl, Nat.zero_add] at hat
  have hlt : k < l.occurrences.labels.all.size :=
    hleads.all_size ▸ (List.getElem?_eq_some_iff.1 hk).1
  refine ⟨l.occurrences.labels.get ⟨k⟩, get_mem hlt, ?_, ?_, ?_⟩
  · simp [SemanticModel.labelOf?, SemanticModel.ofOccurrences, hat]
  · rw [hleads.get_eq hk]
  · rw [hleads.get_eq hk]
    exact hlabel

theorem resolves (h : Tracked t .compilationUnit (.start row boundAt?) [] ls js l)
    (bindings : Bindings) {j : JumpGoal} (hj : j ∈ js) :
    ∃ name, t.spelling? j.1 = some name ∧
      (∀ s, t.Reaches name j.1 s ↔ ∃ label ∈ l.occurrences.labels.all,
        (SemanticModel.ofOccurrences t bindings l.occurrences).labelOf? j.1 = some label ∧
          label.declaration = some s ∧ j.1 ∈ label.usages) ∧
      (j.1 ∈ l.occurrences.labels.unresolved ↔ ∀ s, ¬ t.Reaches name j.1 s) ∧
      (j.1 ∈ l.occurrences.labels.unresolved ↔
        (SemanticModel.ofOccurrences t bindings l.occurrences).labelOf? j.1 = none) := by
  have hleads : Leads .empty ls js l.occurrences.labels := h.leads
  have hunresolved := hleads.mem_unresolved h.nodup_jumps hj
  obtain ⟨-, -, hat, name, hname, hend⟩ := h.jumps j hj
  have hlabelOf : (SemanticModel.ofOccurrences t bindings l.occurrences).labelOf? j.1 =
      j.2.map l.occurrences.labels.get := by
    rw [← hat]
    rfl
  have hreaches : ∀ x, t.Reaches name j.1 x ↔
      ∃ id, j.2 = some id ∧ (l.occurrences.labels.get id).declaration = some x := by
    cases hend with
    | closed _ hreaches => exact hreaches
    | loose r hr => cases hr
  refine ⟨name, hname, fun s => (hreaches s).trans ?_, hunresolved.trans ?_, hunresolved.trans ?_⟩
  · rw [hlabelOf]
    constructor
    · rintro ⟨id, hid, hdeclared⟩
      obtain ⟨hmem, husage, -⟩ := hleads.exists_goal hj hid
      exact ⟨_, hmem, by rw [hid]; rfl, hdeclared, husage⟩
    · rintro ⟨label, -, hlabel, hdeclared, -⟩
      obtain ⟨id, hid, rfl⟩ := Option.map_eq_some_iff.1 hlabel
      exact ⟨id, hid, hdeclared⟩
  · simp only [hreaches]
    constructor
    · rintro hnone s ⟨id, hid, -⟩
      rw [hnone] at hid
      cases hid
    · intro hno
      cases hid : j.2 with
      | none => rfl
      | some id =>
        obtain ⟨-, -, node, hdeclared⟩ := hleads.exists_goal hj hid
        exact absurd ⟨id, hid, hdeclared⟩ (hno node)
  · rw [hlabelOf, Option.map_eq_none_iff]

/-- A whole file was laid below the root of the tree. -/
theorem labelsOf (h : Tracked t .compilationUnit (.start row boundAt?) [] ls js l)
    (hformed : t.Formed) (hsize : t.nodes.size = l.spans.size) (bindings : Bindings) :
    (SemanticModel.ofOccurrences t bindings l.occurrences).LabelsOf t := by
  have hleads : Leads .empty ls js l.occurrences.labels := h.leads
  have hjumps := h.jumps_perm hformed hsize
  refine ⟨hleads.active_eq, ?_, fun s hs => h.declares hsize bindings hs,
    (hleads.usages_perm h.nodup_jumps).trans hjumps, fun u hu => ?_⟩
  · have hdeclarations := hleads.declarations
    exact hdeclarations ▸ (h.labels_perm hsize).map some
  · obtain ⟨j, hj, rfl⟩ := List.mem_map.1 (hjumps.mem_iff.2 hu)
    exact h.resolves bindings hj

end Tracked

end Layout

namespace SourceFile

variable {input : SourceInput} {policy : SyntaxPolicy} {f : SourceFile}

/-- In a file that has a tree, labels are resolved as the tree tells. -/
theorem ofInput_labels (h : ofInput input policy = .ok f) : f.semantic.LabelsOf f.tree := by
  obtain ⟨lexemes, o, hscan, htree, hsemantic⟩ := tree_of_ofInput h
  obtain ⟨length, hrange, hshapes, -⟩ := shapes_ofInput input
  obtain ⟨length', final, hrange', hplaced, -⟩ := placed_ofInput hscan
  have hlength : length' = length := congrArg TextRange.stop (hrange'.symm.trans hrange)
  subst hlength
  have hc := carries_ofLexemes (ParsedUnit.ofInput input).unit.splits hscan
  have htokens := Layout.tokensInOrder hc (significant_of_scan hscan)
  obtain ⟨root, l, hrun, hdraft, rfl⟩ := Layout.tree_eq_ok.1 htree
  have hrooted := Layout.layUnit_ensures hc.ordered htokens (Layout.drafted_start _ _) hrange
    hshapes root l hrun
  have hformed := formed_of_ofDraft hrooted.bottomUp hdraft
  have hroot : f.tree.root = root := by
    obtain ⟨-, ends, -, owners, -, links, -, os, -, -, heq⟩ := ofDraft_eq_ok.1 hdraft
    rw [heq]
    rfl
  have hnodes : f.tree.nodes.size = l.spans.size := by
    obtain ⟨-, ends, -, owners, -, links, -, os, -, -, heq⟩ := ofDraft_eq_ok.1 hdraft
    rw [heq, hrooted.size_eq]
    simp [finished]
  obtain ⟨ls, js, htracked⟩ := Layout.layUnit_tracks hc.ordered hc f.tree hrange hshapes hplaced
    (ParsedUnit.ofInput input).unit.fenced root l hrun
    (Layout.shows_of_ofDraft hrooted.bottomUp hrooted.size_eq hdraft)
    (hroot ▸ hformed.parent?_root)
  rw [hsemantic]
  exact htracked.labelsOf hformed hnodes _

/-- Two statements with the same label; the jump inside the first one stands in a lambda. -/
def sameLabels : SourceInput :=
  ⟨"A.java", "class A\x7b\x7ba:f(()->\x7bbreak a;\x7d);a:break a;\x7d\x7d", .standard⟩

/-- The labels are those of the tree, and no jump goes to the first of them. -/
theorem ofInput_labels_sameLabels : ∃ f, ofInput sameLabels ⟨ProblemId.all⟩ = .ok f ∧
    f.semantic.LabelsOf f.tree ∧
    ((ParsedUnit.ofInput sameLabels).problems.filter (·.id == .unusedLabel)).map (·.range) =
      [⟨9, 10⟩] := by
  have hfacts : (scan sameLabels.level sameLabels.text).toOption.isSome ∧
      ((Outline.partsOf (ParsedUnit.ofInput sameLabels).unit.outlines).flatMap
        Part.unusedLabels).map (·.range) = [⟨9, 10⟩] := by decide +kernel
  obtain ⟨hcut, hreported⟩ := hfacts
  obtain ⟨lexemes, hscan⟩ := Option.isSome_iff_exists.1 hcut
  rw [toOption_eq_some] at hscan
  obtain ⟨f, hf⟩ := exists_ofInput_of_tolerant hscan
  have hperm := (ParsedUnit.unusedLabels_perm sameLabels).map (·.range)
  rw [hreported] at hperm
  exact ⟨f, hf, ofInput_labels hf, List.perm_singleton.1 hperm⟩

end SourceFile

end JavaAnalysis
