import JavaAnalysis.Proofs.Sites.Shape
import JavaAnalysis.Semantics.Occurrences

/-!
# Entering sites

The nodes of sites are entered one after the other as declarations and usages of what their names
are bound to. Nodes that differ from each other are entered without loss: each stands for what its
name is bound to, the first declaration of a binding is its declaration, and its usages are just the
nodes of the names that use it.
Main statements: `bindingAt_enterAll`, `declarations_enterAll`, `usages_enterAll`.
-/

set_option autoImplicit false
set_option linter.dupNamespace false

namespace JavaAnalysis

/-- What the name of a site is bound to. -/
def Site.bound? (boundAt? : Nat → Option BindingId) (site : Site) : Option BindingId :=
  site.key?.bind boundAt?

/-- What the name is bound to that a site declares. -/
def Site.declares? (boundAt? : Nat → Option BindingId) (site : Site) : Option BindingId :=
  site.declared?.bind boundAt?

/-- What the name is bound to that a site uses. -/
def Site.uses? (boundAt? : Nat → Option BindingId) (site : Site) : Option BindingId :=
  site.used?.bind boundAt?

namespace Occurrences

variable {boundAt? : Nat → Option BindingId} {o o' o'' : Occurrences} {p : Site × NodeId}
  {ps : List (Site × NodeId)} {b : BindingId} {n : NodeId}

/-- The same bindings occur at the same nodes; labels may differ. -/
structure Agrees (o o' : Occurrences) : Prop where
  declarations_eq : o'.declarations = o.declarations
  usages_eq : o'.usages = o.usages
  bindingAt_eq : o'.bindingAt = o.bindingAt

/-- Enters the node of a site. -/
def enter (boundAt? : Nat → Option BindingId) (o : Occurrences) (p : Site × NodeId) :
    Occurrences :=
  match p.1.declares? boundAt? with
  | some id => o.declare id p.2
  | none =>
    match p.1.uses? boundAt? with
    | some id => o.refer id p.2
    | none => o

/-- Enters the nodes of sites one after the other. -/
def enterAll (boundAt? : Nat → Option BindingId) (o : Occurrences) (ps : List (Site × NodeId)) :
    Occurrences :=
  ps.foldl (enter boundAt?) o

namespace Agrees

theorem refl (o : Occurrences) : Agrees o o := ⟨rfl, rfl, rfl⟩

theorem trans (h : Agrees o o') (h' : Agrees o' o'') : Agrees o o'' :=
  ⟨h'.declarations_eq.trans h.declarations_eq, h'.usages_eq.trans h.usages_eq,
    h'.bindingAt_eq.trans h.bindingAt_eq⟩

theorem declare (h : Agrees o o') (id : BindingId) (node : NodeId) :
    Agrees (o.declare id node) (o'.declare id node) := by
  obtain ⟨hdeclarations, husages, hbinding⟩ := h
  unfold Occurrences.declare claim?
  rw [hbinding]
  cases o.bindingAt.contains node with
  | true => exact ⟨hdeclarations, husages, hbinding⟩
  | false => exact ⟨congrArg (·.insertIfNew id node) hdeclarations, husages, rfl⟩

theorem refer (h : Agrees o o') (id : BindingId) (node : NodeId) :
    Agrees (o.refer id node) (o'.refer id node) := by
  obtain ⟨hdeclarations, husages, hbinding⟩ := h
  unfold Occurrences.refer claim?
  rw [hbinding]
  cases o.bindingAt.contains node with
  | true => exact ⟨hdeclarations, husages, hbinding⟩
  | false =>
    exact ⟨hdeclarations, congrArg (fun m => m.insert id (node :: m.getD id [])) husages, rfl⟩

theorem enter (h : Agrees o o') (p : Site × NodeId) :
    Agrees (o.enter boundAt? p) (o'.enter boundAt? p) := by
  unfold Occurrences.enter
  split
  · exact h.declare _ _
  · split
    · exact h.refer _ _
    · exact h

theorem enterAll (h : Agrees o o') (ps : List (Site × NodeId)) :
    Agrees (o.enterAll boundAt? ps) (o'.enterAll boundAt? ps) := by
  induction ps generalizing o o' with
  | nil => exact h
  | cons p ps ih => exact ih (h.enter p)

end Agrees

theorem enterAll_append (o : Occurrences) (ps qs : List (Site × NodeId)) :
    o.enterAll boundAt? (ps ++ qs) = (o.enterAll boundAt? ps).enterAll boundAt? qs :=
  List.foldl_append

/-! ## One site -/

theorem bound?_of_declares? {site : Site} (h : site.declares? boundAt? = some b) :
    site.bound? boundAt? = some b := by
  obtain ⟨kind, range, separator, role⟩ := site
  cases role with
  | declares offset => exact h
  | uses offset => cases h
  | encloses => cases h
  | vacant => cases h

theorem uses?_of_declares? {site : Site} (h : site.declares? boundAt? = some b) :
    site.uses? boundAt? = none := by
  obtain ⟨kind, range, separator, role⟩ := site
  cases role with
  | declares offset => rfl
  | uses offset => cases h
  | encloses => cases h
  | vacant => cases h

theorem bound?_of_not_declares? {site : Site} (h : site.declares? boundAt? = none) :
    site.bound? boundAt? = site.uses? boundAt? := by
  obtain ⟨kind, range, separator, role⟩ := site
  cases role with
  | declares offset => exact h
  | uses offset => rfl
  | encloses => rfl
  | vacant => rfl

/-- A node that stands for nothing yet is entered. -/
theorem declare_of_free (hfree : o.bindingAt[n]? = none) :
    o.declare b n = { o with
      bindingAt := o.bindingAt.insert n b, declarations := o.declarations.insertIfNew b n } := by
  have hfree' : o.bindingAt.contains n = false := by
    rw [Std.HashMap.contains_eq_isSome_getElem?, hfree]
    rfl
  simp only [declare, claim?, hfree', Bool.false_eq_true, if_false]

theorem refer_of_free (hfree : o.bindingAt[n]? = none) :
    o.refer b n = { o with
      bindingAt := o.bindingAt.insert n b
      usages := o.usages.insert b (n :: o.usages.getD b []) } := by
  have hfree' : o.bindingAt.contains n = false := by
    rw [Std.HashMap.contains_eq_isSome_getElem?, hfree]
    rfl
  simp only [refer, claim?, hfree', Bool.false_eq_true, if_false]

theorem bindingAt_enter (hfree : o.bindingAt[p.2]? = none) :
    (o.enter boundAt? p).bindingAt[n]? =
      if p.2 = n then p.1.bound? boundAt? else o.bindingAt[n]? := by
  unfold enter
  cases hdeclares : p.1.declares? boundAt? with
  | some id =>
    simp only [declare_of_free hfree, bound?_of_declares? hdeclares]
    simp [Std.HashMap.getElem?_insert]
  | none =>
    rw [bound?_of_not_declares? hdeclares]
    cases p.1.uses? boundAt? with
    | some id =>
      simp only [refer_of_free hfree]
      simp [Std.HashMap.getElem?_insert]
    | none =>
      by_cases hn : p.2 = n
      · rw [if_pos hn, ← hn]
        exact hfree
      · rw [if_neg hn]

theorem declarations_enter (hfree : o.bindingAt[p.2]? = none) :
    (o.enter boundAt? p).declarations[b]? =
      (o.declarations[b]?).or (if p.1.declares? boundAt? = some b then some p.2 else none) := by
  unfold enter
  cases hdeclares : p.1.declares? boundAt? with
  | some id =>
    simp only [declare_of_free hfree, Std.HashMap.getElem?_insertIfNew]
    by_cases hid : id = b
    · subst hid
      cases hold : o.declarations[id]? with
      | none =>
        have hmem : ¬ id ∈ o.declarations := by
          simp [Std.HashMap.mem_iff_isSome_getElem?, hold]
        simp [hmem]
      | some m =>
        have hmem : id ∈ o.declarations := by simp [Std.HashMap.mem_iff_isSome_getElem?, hold]
        simp [hmem]
    · simp [hid]
  | none =>
    cases p.1.uses? boundAt? with
    | some id => simp [refer_of_free hfree]
    | none => simp

theorem usages_enter (hfree : o.bindingAt[p.2]? = none) :
    (o.enter boundAt? p).usages.getD b [] =
      (if p.1.uses? boundAt? = some b then [p.2] else []) ++ o.usages.getD b [] := by
  unfold enter
  cases hdeclares : p.1.declares? boundAt? with
  | some id =>
    rw [uses?_of_declares? hdeclares]
    simp [declare_of_free hfree]
  | none =>
    cases p.1.uses? boundAt? with
    | some id =>
      simp only [refer_of_free hfree, Std.HashMap.getD_insert, Option.some.injEq]
      by_cases hid : id = b
      · simp [hid]
      · simp [hid]
    | none => simp

/-! ## Sites one after the other -/

/-- Entering a node leaves other nodes free. -/
theorem free_enter (hfree : ∀ q ∈ p :: ps, o.bindingAt[q.2]? = none)
    (hnodup : ((p :: ps).map (·.2)).Nodup) :
    ∀ q ∈ ps, (o.enter boundAt? p).bindingAt[q.2]? = none := by
  intro q hq
  have hne : p.2 ≠ q.2 := by
    intro heq
    exact (List.nodup_cons.1 hnodup).1 (List.mem_map.2 ⟨q, hq, heq.symm⟩)
  rw [bindingAt_enter (hfree p List.mem_cons_self), if_neg hne]
  exact hfree q (List.mem_cons_of_mem _ hq)

/-- Different nodes are entered as what their names are bound to. -/
theorem bindingAt_enterAll (hfree : ∀ q ∈ ps, o.bindingAt[q.2]? = none)
    (hnodup : (ps.map (·.2)).Nodup) :
    (o.enterAll boundAt? ps).bindingAt[n]? = some b ↔
      o.bindingAt[n]? = some b ∨ ∃ q ∈ ps, q.2 = n ∧ q.1.bound? boundAt? = some b := by
  induction ps generalizing o with
  | nil => simp [enterAll]
  | cons p ps ih =>
    have hp := hfree p List.mem_cons_self
    have hcons : o.enterAll boundAt? (p :: ps) = (o.enter boundAt? p).enterAll boundAt? ps := rfl
    rw [hcons, ih (free_enter hfree hnodup) (List.nodup_cons.1 hnodup).2, bindingAt_enter hp]
    simp only [List.exists_mem_cons_iff]
    by_cases hn : p.2 = n
    · subst hn
      simp [hp]
    · simp [hn]

/-- The first declaration of a binding is entered. -/
theorem declarations_enterAll (hfree : ∀ q ∈ ps, o.bindingAt[q.2]? = none)
    (hnodup : (ps.map (·.2)).Nodup) :
    (o.enterAll boundAt? ps).declarations[b]? =
      (o.declarations[b]?).or
        ((ps.find? fun q => q.1.declares? boundAt? == some b).map (·.2)) := by
  induction ps generalizing o with
  | nil => simp [enterAll]
  | cons p ps ih =>
    have hp := hfree p List.mem_cons_self
    have hcons : o.enterAll boundAt? (p :: ps) = (o.enter boundAt? p).enterAll boundAt? ps := rfl
    rw [hcons, ih (free_enter hfree hnodup) (List.nodup_cons.1 hnodup).2, declarations_enter hp, Option.or_assoc, List.find?_cons]
    by_cases hb : p.1.declares? boundAt? = some b
    · simp [hb]
    · simp [hb, beq_false_of_ne hb]

/-- All usages of a binding are entered, the latest first. -/
theorem usages_enterAll (hfree : ∀ q ∈ ps, o.bindingAt[q.2]? = none)
    (hnodup : (ps.map (·.2)).Nodup) :
    (o.enterAll boundAt? ps).usages.getD b [] =
      ((ps.filter fun q => q.1.uses? boundAt? == some b).map (·.2)).reverse ++
        o.usages.getD b [] := by
  induction ps generalizing o with
  | nil => simp [enterAll]
  | cons p ps ih =>
    have hp := hfree p List.mem_cons_self
    have hcons : o.enterAll boundAt? (p :: ps) = (o.enter boundAt? p).enterAll boundAt? ps := rfl
    rw [hcons, ih (free_enter hfree hnodup) (List.nodup_cons.1 hnodup).2, usages_enter hp, List.filter_cons]
    by_cases hb : p.1.uses? boundAt? = some b
    · simp [hb]
    · simp [hb]

end Occurrences

end JavaAnalysis
