import JavaAnalysis.Proofs.Semantics.Jumps

/-!
# Labels in nested bodies

The labels of a file are entered, closed and named in jumps while bodies of classes and lambdas are
entered and left in between. The labels that a body hides are kept by whoever enters it, and given
back when it is left, the body that was entered last first. What is open at any time is told by a
stack of stacks: the labels of each body that is not left yet, those of the innermost body in front.
Main statement: `LabelWalk.run_nested`.
-/

set_option autoImplicit false
set_option linter.dupNamespace false

namespace JavaAnalysis

/-- What may be done with the labels of a file. -/
inductive LabelStep where
  | enter (name : String)
  | exit (declaration : NodeId)
  | resolve (name : String) (usage : NodeId)
  | enterBody
  | exitBody
deriving DecidableEq, Repr

/-- The node of the name in a jump, if the step is one. -/
def LabelStep.usage? : LabelStep → Option NodeId
  | resolve _ usage => some usage
  | _ => none

/-! ## Runs of the labels -/

/-- The labels of a file, and those that bodies have hidden, the innermost body first. -/
structure LabelWalk where
  labels : Labels
  hidden : List (List LabelId)

namespace LabelWalk

def start : LabelWalk := ⟨.empty, []⟩

/-- What was hidden last is given back first. -/
def step (w : LabelWalk) : LabelStep → Option LabelWalk
  | .enter name => some { w with labels := (w.labels.enter name).2 }
  | .exit declaration => some { w with labels := (w.labels.exit declaration).2 }
  | .resolve name usage => some { w with labels := (w.labels.resolve name usage).2 }
  | .enterBody => some ⟨w.labels.enterBody.2, w.labels.enterBody.1 :: w.hidden⟩
  | .exitBody =>
    match w.hidden with
    | [] => none
    | outer :: hidden => some ⟨w.labels.exitBody outer, hidden⟩

def run (w : LabelWalk) : List LabelStep → Option LabelWalk
  | [] => some w
  | s :: ss => (w.step s).bind fun w => w.run ss

/-- The jump of a step, if it is one, with the label that it is resolved to. -/
def jump (w : LabelWalk) : LabelStep → List JumpGoal
  | .resolve name usage => [(usage, (w.labels.resolve name usage).1)]
  | _ => []

/-- The jumps among the steps of a run. -/
def jumps (w : LabelWalk) : List LabelStep → List JumpGoal
  | [] => []
  | s :: ss => w.jump s ++ match w.step s with
    | some w => w.jumps ss
    | none => []

end LabelWalk

/-! ## Nested bodies -/

/-- A label that is open. -/
structure OpenLabel where
  id : LabelId
  name : String
deriving DecidableEq, Repr

/-- The open labels of nested bodies; in each body the label that was entered last comes first. -/
structure LabelNest where
  /-- How many labels were entered so far, which are numbered in this order. -/
  entered : Nat
  here : List OpenLabel
  /-- The labels of the bodies around the innermost one, from the inside out. -/
  around : List (List OpenLabel)
deriving DecidableEq, Repr

namespace LabelNest

def outermost : LabelNest := ⟨0, [], []⟩

/-- A body is left only when its labels are closed. -/
def step (n : LabelNest) : LabelStep → Option LabelNest
  | .enter name => some { n with entered := n.entered + 1, here := ⟨⟨n.entered⟩, name⟩ :: n.here }
  | .exit _ => some { n with here := n.here.tail }
  | .resolve _ _ => some n
  | .enterBody => some { n with here := [], around := n.here :: n.around }
  | .exitBody =>
    match n.here, n.around with
    | [], outer :: around => some { n with here := outer, around }
    | _, _ => none

def run (n : LabelNest) : List LabelStep → Option LabelNest
  | [] => some n
  | s :: ss => (n.step s).bind fun n => n.run ss

/-- The label was entered last among the open labels of the innermost body that have the name. -/
def Latest (n : LabelNest) (name : String) (id : LabelId) : Prop :=
  ⟨id, name⟩ ∈ n.here ∧ ∀ l ∈ n.here, l.name = name → l.id.index ≤ id.index

/-- The open labels of all bodies, from the inside out. -/
def all (n : LabelNest) : List OpenLabel := n.here ++ n.around.flatten

/-- The labels that were entered later stand further inside. -/
def Ordered (n : LabelNest) : Prop :=
  (∀ l ∈ n.all, l.id.index < n.entered) ∧
    n.all.Pairwise fun l l' => l'.id.index < l.id.index

end LabelNest

namespace LabelNest

variable {n n' : LabelNest} {name : String} {id : LabelId}

theorem latest_inj {id' : LabelId} (h : n.Latest name id) (h' : n.Latest name id') : id = id' := by
  have hle := h'.2 _ h.1 rfl
  have hge := h.2 _ h'.1 rfl
  exact congrArg LabelId.mk (Nat.le_antisymm hle hge)

/-- The first open label of a name is the one that was entered last. -/
theorem Ordered.latest_of_find? (hn : n.Ordered) {l : OpenLabel}
    (h : n.here.find? (fun l => l.name == name) = some l) : n.Latest name l.id := by
  obtain ⟨hname, front, rest, hhere, hfront⟩ := List.find?_eq_some_iff_append.1 h
  have hname : l.name = name := by simpa using hname
  have hsorted : (front ++ l :: rest).Pairwise fun l l' => l'.id.index < l.id.index :=
    hhere ▸ (List.pairwise_append.1 hn.2).1
  constructor
  · rw [hhere, ← hname]
    exact List.mem_append_right _ List.mem_cons_self
  · intro l' hmem hname'
    rw [hhere, List.mem_append, List.mem_cons] at hmem
    rcases hmem with hmem | rfl | hmem
    · have hother := hfront l' hmem
      simp [hname'] at hother
    · exact Nat.le_refl _
    · have hlt := (List.pairwise_cons.1 (List.pairwise_append.1 hsorted).2.1).1 l' hmem
      exact Nat.le_of_lt hlt

theorem Ordered.find?_eq_some_iff (hn : n.Ordered) :
    (n.here.find? fun l => l.name == name).map (·.id) = some id ↔ n.Latest name id := by
  constructor
  · intro h
    obtain ⟨l, hfind, rfl⟩ := Option.map_eq_some_iff.1 h
    exact hn.latest_of_find? hfind
  · intro h
    have hsome : (n.here.find? fun l => l.name == name).isSome :=
      List.find?_isSome.2 ⟨_, h.1, by simp⟩
    obtain ⟨l, hfind⟩ := Option.isSome_iff_exists.1 hsome
    rw [hfind, Option.map_some, latest_inj (hn.latest_of_find? hfind) h]

theorem Ordered.enter (hn : n.Ordered) (name : String) :
    Ordered { n with entered := n.entered + 1, here := ⟨⟨n.entered⟩, name⟩ :: n.here } := by
  obtain ⟨hlt, hsorted⟩ := hn
  constructor
  · intro l hmem
    rcases List.mem_cons.1 hmem with rfl | hmem
    · exact Nat.lt_succ_self _
    · exact Nat.lt_succ_of_lt (hlt l hmem)
  · exact List.pairwise_cons.2 ⟨hlt, hsorted⟩

/-- Open labels may be left out. -/
theorem Ordered.sublist (hn : n.Ordered) (hentered : n'.entered = n.entered)
    (h : n'.all.Sublist n.all) : n'.Ordered := by
  constructor
  · intro l hmem
    rw [hentered]
    exact hn.1 l (h.subset hmem)
  · exact hn.2.sublist h

end LabelNest

/-! ## The labels of a run in nested bodies -/

/-- The labels are open and hidden as those of the nested bodies. -/
structure LabelWalk.Holds (w : LabelWalk) (n : LabelNest) : Prop where
  size_eq : w.labels.all.size = n.entered
  active_eq : w.labels.active = n.here.map (·.id)
  hidden_eq : w.hidden = n.around.map fun body => body.map (·.id)
  names : ∀ l ∈ n.all, (w.labels.get l.id).name = l.name
  ordered : n.Ordered

/-- The usages of all labels are the jumps. -/
structure Labels.Counts (s : Labels) (js : List JumpGoal) : Prop where
  usages : ∀ id, (s.get id).usages = namesTo js (some id)
  unresolved : s.unresolved = namesTo js none

namespace Labels

variable {s : Labels} {id : LabelId} {js : List JumpGoal}

theorem get_of_size_le (h : s.all.size ≤ id.index) : s.get id = default := by
  simp [get, Array.getD_eq_getD_getElem?, h]

theorem Counts.enter (h : s.Counts js) (name : String) : (s.enter name).2.Counts js := by
  constructor
  · intro id
    rw [← h.usages id]
    rcases Nat.lt_trichotomy id.index s.all.size with hlt | heq | hlt
    · rw [show (s.enter name).2.get id = s.get id from get_push_lt hlt]
    · have hnew : s.get id = default := get_of_size_le (Nat.le_of_eq heq.symm)
      rw [hnew, show id = ⟨s.all.size⟩ from congrArg LabelId.mk heq, get_enter]
      rfl
    · have hsize : (s.enter name).2.all.size ≤ id.index := by
        rw [Labels.enter, Array.size_push]
        exact hlt
      rw [get_of_size_le (Nat.le_of_lt hlt), get_of_size_le hsize]
  · exact h.unresolved

theorem Counts.exit (h : s.Counts js) (hs : s.Valid) (node : NodeId) :
    (s.exit node).2.Counts js := by
  cases hactive : s.active with
  | nil =>
    unfold Labels.exit
    rw [hactive]
    exact h
  | cons goal rest =>
    have hlt : goal.index < s.all.size := hs goal (hactive ▸ List.mem_cons_self)
    constructor
    · intro id
      rw [get_exit hactive hlt, ← h.usages id]
      split <;> rfl
    · unfold Labels.exit
      rw [hactive]
      exact h.unresolved

/-- A jump is one more usage of the label that it is resolved to, and of no other. -/
theorem Counts.resolve (h : s.Counts js) (hs : s.Valid) (name : String) (usage : NodeId) :
    (s.resolve name usage).2.Counts (js ++ [(usage, (s.resolve name usage).1)]) := by
  obtain ⟨hleads, hgoal⟩ := leads_resolve hs name usage
  rw [hgoal]
  constructor
  · intro id
    rw [namesTo_append, ← h.usages id]
    by_cases hlt : id.index < s.all.size
    · rw [hleads.old id hlt]
    · have hle : s.all.size ≤ id.index := Nat.le_of_not_lt hlt
      have hnone : namesTo [(usage, s.find? name)] (some id) = [] := by
        apply namesTo_eq_nil
        intro j hj heq
        rw [List.mem_singleton.1 hj] at heq
        exact hlt (index_lt_of_find? hs heq)
      have hsize : (s.resolve name usage).2.all.size ≤ id.index := by
        rw [hleads.size_eq]
        exact hle
      rw [hnone, List.append_nil, get_of_size_le hle, get_of_size_le hsize]
  · rw [hleads.unresolved_eq, h.unresolved, namesTo_append]

end Labels

namespace LabelWalk

variable {w w' : LabelWalk} {n n' : LabelNest} {s : LabelStep} {steps : List LabelStep}
  {js : List JumpGoal}

namespace Holds

theorem valid (h : w.Holds n) : w.labels.Valid := by
  intro id hid
  rw [h.active_eq] at hid
  obtain ⟨l, hl, rfl⟩ := List.mem_map.1 hid
  rw [h.size_eq]
  exact h.ordered.1 l (List.mem_append_left _ hl)

theorem find?_eq (h : w.Holds n) (name : String) :
    w.labels.find? name = (n.here.find? fun l => l.name == name).map (·.id) := by
  unfold Labels.find?
  rw [h.active_eq, List.find?_map]
  congr 1
  apply List.find?_congr
  intro l hl
  simp [h.names l (List.mem_append_left _ hl)]

/-- A jump gets the label of its name that was entered last in the innermost body. -/
theorem resolve_eq_some_iff (h : w.Holds n) (name : String) (usage : NodeId) (id : LabelId) :
    (w.labels.resolve name usage).1 = some id ↔ n.Latest name id := by
  rw [(Labels.leads_resolve h.valid name usage).2, h.find?_eq, h.ordered.find?_eq_some_iff]

theorem resolve_eq_none_iff (h : w.Holds n) (name : String) (usage : NodeId) :
    (w.labels.resolve name usage).1 = none ↔ ∀ l ∈ n.here, l.name ≠ name := by
  rw [(Labels.leads_resolve h.valid name usage).2, h.find?_eq]
  simp

theorem enter (h : w.Holds n) (name : String) : Holds { w with labels := (w.labels.enter name).2 }
    { n with entered := n.entered + 1, here := ⟨⟨n.entered⟩, name⟩ :: n.here } where
  size_eq := by simp [Labels.enter, h.size_eq]
  active_eq := by simp [Labels.enter, h.active_eq, h.size_eq]
  hidden_eq := h.hidden_eq
  names := by
    intro l hmem
    rcases List.mem_cons.1 hmem with rfl | hmem
    · simp only [← h.size_eq, Labels.get_enter]
    · have hlt : l.id.index < w.labels.all.size := h.size_eq ▸ h.ordered.1 l hmem
      rw [← h.names l hmem]
      exact congrArg Label.name (Labels.get_push_lt hlt)
  ordered := h.ordered.enter name

theorem exit (h : w.Holds n) (node : NodeId) :
    Holds { w with labels := (w.labels.exit node).2 } { n with here := n.here.tail } := by
  have hsub : (LabelNest.all { n with here := n.here.tail }).Sublist n.all :=
    (List.tail_sublist _).append (List.Sublist.refl _)
  have hordered : LabelNest.Ordered { n with here := n.here.tail } := h.ordered.sublist rfl hsub
  cases hhere : n.here with
  | nil =>
    have hactive : w.labels.active = [] := by rw [h.active_eq, hhere, List.map_nil]
    have hexit : (w.labels.exit node).2 = w.labels := by
      unfold Labels.exit
      rw [hactive]
    rw [hexit]
    rw [List.tail_nil, ← hhere]
    exact h
  | cons l rest =>
    have hactive : w.labels.active = l.id :: rest.map (·.id) := by
      rw [h.active_eq, hhere, List.map_cons]
    have hlt : l.id.index < w.labels.all.size := h.valid _ (hactive ▸ List.mem_cons_self)
    rw [hhere] at hsub hordered
    refine ⟨?_, ?_, h.hidden_eq, ?_, hordered⟩
    · rw [← h.size_eq]
      simp [Labels.exit, hactive]
    · simp [Labels.exit, hactive]
    · intro l' hmem
      have hname := h.names l' (hsub.subset hmem)
      simp only [Labels.get_exit hactive hlt]
      split <;> exact hname

theorem resolve (h : w.Holds n) (name : String) (usage : NodeId) :
    Holds { w with labels := (w.labels.resolve name usage).2 } n := by
  have hleads := (Labels.leads_resolve h.valid name usage).1
  refine ⟨?_, ?_, h.hidden_eq, ?_, h.ordered⟩
  · exact hleads.size_eq.trans h.size_eq
  · exact hleads.active_eq.trans h.active_eq
  · intro l hmem
    have hlt : l.id.index < w.labels.all.size := h.size_eq ▸ h.ordered.1 l hmem
    rw [hleads.old l.id hlt]
    exact h.names l hmem

theorem enterBody (h : w.Holds n) :
    Holds ⟨w.labels.enterBody.2, w.labels.enterBody.1 :: w.hidden⟩
      { n with here := [], around := n.here :: n.around } where
  size_eq := h.size_eq
  active_eq := rfl
  hidden_eq := by rw [Labels.enterBody, h.active_eq, h.hidden_eq, List.map_cons]
  names := h.names
  ordered := h.ordered

theorem exitBody (h : w.Holds n) {outer : List OpenLabel} {around : List (List OpenLabel)}
    (hhere : n.here = []) (haround : n.around = outer :: around) :
    Holds ⟨w.labels.exitBody (outer.map (·.id)), around.map fun body => body.map (·.id)⟩
      { n with here := outer, around } := by
  have hall : LabelNest.all { n with here := outer, around } = n.all := by
    simp [LabelNest.all, hhere, haround]
  refine ⟨h.size_eq, rfl, rfl, ?_, h.ordered.sublist rfl (hall ▸ List.Sublist.refl _)⟩
  intro l hmem
  exact h.names l (hall ▸ hmem)

end Holds

/-- Closing a label closes the one that was entered last in the innermost body, and no hidden one. -/
def ClosesLast (w : LabelWalk) (n : LabelNest) : Prop :=
  ∀ node, match n.here with
    | [] => w.labels.exit node = (none, w.labels)
    | l :: rest =>
      (w.labels.exit node).1 = some l.id ∧
      (w.labels.exit node).2.active = rest.map (·.id) ∧
      (∀ id, (w.labels.exit node).2.get id =
        if l.id = id then { w.labels.get id with declaration := some node } else w.labels.get id) ∧
      (∀ l' ∈ rest, l'.id.index < l.id.index) ∧
      ∀ body ∈ w.hidden, l.id ∉ body

theorem Holds.closesLast (h : w.Holds n) : w.ClosesLast n := by
  intro node
  cases hhere : n.here with
  | nil =>
    have hactive : w.labels.active = [] := by rw [h.active_eq, hhere, List.map_nil]
    simp only [Labels.exit, hactive]
  | cons l rest =>
    have hactive : w.labels.active = l.id :: rest.map (·.id) := by
      rw [h.active_eq, hhere, List.map_cons]
    have hlt : l.id.index < w.labels.all.size := h.valid _ (hactive ▸ List.mem_cons_self)
    have hlater : ∀ l' ∈ rest ++ n.around.flatten, l'.id.index < l.id.index := by
      have hsorted := h.ordered.2
      rw [LabelNest.all, hhere, List.cons_append] at hsorted
      exact (List.pairwise_cons.1 hsorted).1
    refine ⟨?_, ?_, Labels.get_exit hactive hlt node, ?_, ?_⟩
    · simp only [Labels.exit, hactive]
    · simp only [Labels.exit, hactive]
    · intro l' hl'
      exact hlater l' (List.mem_append_left _ hl')
    · intro body hbody hmem
      rw [h.hidden_eq] at hbody
      obtain ⟨labels, hlabels, rfl⟩ := List.mem_map.1 hbody
      obtain ⟨l', hl', heq⟩ := List.mem_map.1 hmem
      have hlt' := hlater l' (List.mem_append_right _ (List.mem_flatten.2 ⟨labels, hlabels, hl'⟩))
      rw [heq] at hlt'
      exact Nat.lt_irrefl _ hlt'

theorem jumps_cons (h : w.step s = some w') (ss : List LabelStep) :
    w.jumps (s :: ss) = w.jump s ++ w'.jumps ss := by
  simp only [jumps, h]

/-- A step that the nested bodies allow goes through, and its jump is counted. -/
theorem Holds.step (h : w.Holds n) (hcounts : w.labels.Counts js) (hstep : n.step s = some n') :
    ∃ w', w.step s = some w' ∧ w'.Holds n' ∧ w'.labels.Counts (js ++ w.jump s) := by
  cases s with
  | enter name =>
    cases hstep
    refine ⟨_, rfl, h.enter name, ?_⟩
    simpa [jump] using hcounts.enter name
  | exit declaration =>
    cases hstep
    refine ⟨_, rfl, h.exit declaration, ?_⟩
    simpa [jump] using hcounts.exit h.valid declaration
  | resolve name usage =>
    cases hstep
    exact ⟨_, rfl, h.resolve name usage, hcounts.resolve h.valid name usage⟩
  | enterBody =>
    cases hstep
    refine ⟨_, rfl, h.enterBody, ?_⟩
    simp only [jump, List.append_nil]
    exact ⟨hcounts.usages, hcounts.unresolved⟩
  | exitBody =>
    simp only [LabelNest.step] at hstep
    split at hstep
    · rename_i outer around hhere haround
      cases hstep
      have hhidden := h.hidden_eq
      rw [haround, List.map_cons] at hhidden
      refine ⟨_, by simp only [LabelWalk.step, hhidden], h.exitBody hhere haround, ?_⟩
      simp only [jump, List.append_nil]
      exact ⟨hcounts.usages, hcounts.unresolved⟩
    · cases hstep

/-- So does every run that the nested bodies allow. -/
theorem Holds.run (h : w.Holds n) (hcounts : w.labels.Counts js) (hrun : n.run steps = some n') :
    ∃ w', w.run steps = some w' ∧ w'.Holds n' ∧ w'.labels.Counts (js ++ w.jumps steps) := by
  induction steps generalizing w n js with
  | nil =>
    cases hrun
    exact ⟨w, rfl, h, by simpa [jumps] using hcounts⟩
  | cons s ss ih =>
    obtain ⟨next, hnext, hrest⟩ := Option.bind_eq_some_iff.1 hrun
    obtain ⟨w₁, hw₁, hholds₁, hcounts₁⟩ := h.step hcounts hnext
    obtain ⟨w₂, hw₂, hholds₂, hcounts₂⟩ := ih hholds₁ hcounts₁ hrest
    refine ⟨w₂, ?_, hholds₂, ?_⟩
    · rw [LabelWalk.run, hw₁]
      exact hw₂
    · rwa [jumps_cons hw₁, ← List.append_assoc]

/-- Each jump of a run is resolved once, in the order of the run. -/
theorem jumps_map_fst (h : w.run steps = some w') :
    (w.jumps steps).map (·.1) = steps.filterMap LabelStep.usage? := by
  induction steps generalizing w with
  | nil => rfl
  | cons s ss ih =>
    obtain ⟨next, hnext, hrest⟩ := Option.bind_eq_some_iff.1 h
    rw [jumps_cons hnext, List.map_append, ih hrest]
    cases s <;> rfl

theorem run_append {steps' : List LabelStep} :
    w.run (steps ++ steps') = (w.run steps).bind fun w => w.run steps' := by
  induction steps generalizing w with
  | nil => rfl
  | cons s ss ih =>
    simp only [List.cons_append, run, Option.bind_assoc]
    congr
    funext w
    exact ih

end LabelWalk

/-! ## Bodies that are left again -/

/-- Every body that is entered on the way is left again. -/
inductive LabelStep.Balanced : List LabelStep → Prop
  | nil : Balanced []
  | step {s : LabelStep} {ss : List LabelStep} (henter : s ≠ .enterBody) (hexit : s ≠ .exitBody) :
    Balanced ss → Balanced (s :: ss)
  | body {inside ss : List LabelStep} :
    Balanced inside → Balanced ss → Balanced (.enterBody :: inside ++ .exitBody :: ss)

namespace LabelWalk

variable {w w' : LabelWalk} {inside : List LabelStep}

/-- What is hidden is not touched by a step that enters and leaves no body. -/
theorem hidden_step {s : LabelStep} (h : w.step s = some w') (henter : s ≠ .enterBody)
    (hexit : s ≠ .exitBody) : w'.hidden = w.hidden := by
  cases s with
  | enter => cases h; rfl
  | exit => cases h; rfl
  | resolve => cases h; rfl
  | enterBody => contradiction
  | exitBody => contradiction

theorem exitBody_of_hidden {outer : List LabelId} {hidden : List (List LabelId)}
    (hw : w.hidden = outer :: hidden) (h : w.step .exitBody = some w') :
    w'.labels.active = outer ∧ w'.hidden = hidden := by
  simp only [step, hw, Option.some.injEq] at h
  subst h
  exact ⟨rfl, rfl⟩

/-- A run through a body and on, cut where the body begins and where it ends. -/
theorem run_body_cases {ss : List LabelStep}
    (h : w.run (.enterBody :: inside ++ .exitBody :: ss) = some w') :
    ∃ w₁ w₂, run ⟨w.labels.enterBody.2, w.labels.active :: w.hidden⟩ inside = some w₁ ∧
      w₁.step .exitBody = some w₂ ∧ w₂.run ss = some w' := by
  obtain ⟨w₀, hw₀, h⟩ := Option.bind_eq_some_iff.1 h
  cases hw₀
  obtain ⟨w₁, hw₁, h⟩ := Option.bind_eq_some_iff.1 (run_append.symm.trans h)
  obtain ⟨w₂, hw₂, h⟩ := Option.bind_eq_some_iff.1 h
  exact ⟨w₁, w₂, hw₁, hw₂, h⟩

theorem hidden_run (hinside : LabelStep.Balanced inside) (h : w.run inside = some w') :
    w'.hidden = w.hidden := by
  induction hinside generalizing w w' with
  | nil => cases h; rfl
  | step henter hexit _ ih =>
    obtain ⟨next, hnext, hrest⟩ := Option.bind_eq_some_iff.1 h
    rw [ih hrest, hidden_step hnext henter hexit]
  | body _ _ ih ih' =>
    obtain ⟨w₁, w₂, hw₁, hw₂, hrest⟩ := run_body_cases h
    rw [ih' hrest, (exitBody_of_hidden (ih hw₁) hw₂).2]

/-- The end of a body restores what was open and hidden in front of the body. -/
theorem run_body (hinside : LabelStep.Balanced inside)
    (h : w.run (.enterBody :: inside ++ [.exitBody]) = some w') :
    w'.labels.active = w.labels.active ∧ w'.hidden = w.hidden := by
  obtain ⟨w₁, w₂, hw₁, hw₂, hrest⟩ := run_body_cases h
  cases hrest
  exact exitBody_of_hidden (hidden_run hinside hw₁) hw₂

theorem holds_start : start.Holds .outermost where
  size_eq := rfl
  active_eq := rfl
  hidden_eq := rfl
  names := List.forall_mem_nil _
  ordered := ⟨List.forall_mem_nil _, .nil⟩

theorem counts_start : start.labels.Counts [] where
  usages id := by
    rw [Labels.get_of_size_le (s := start.labels) (Nat.zero_le id.index)]
    rfl
  unresolved := rfl

/--
The labels of a run in nested bodies. A jump gets the label of its name that was entered last in the
innermost body and is still open there, if there is one, and is counted once, as a usage of this
label or as unresolved, in the order of the run. Closing a label closes the one that was entered
last in the innermost body, and no label that a body hides. The end of a body restores the labels
that were open in front of it.
-/
theorem run_nested {steps : List LabelStep} {n : LabelNest}
    (h : LabelNest.outermost.run steps = some n) :
    ∃ w, start.run steps = some w ∧
      w.labels.active = n.here.map (·.id) ∧
      w.hidden = n.around.map (fun body => body.map (·.id)) ∧
      (∀ name usage id, (w.labels.resolve name usage).1 = some id ↔ n.Latest name id) ∧
      (∀ name usage,
        (w.labels.resolve name usage).1 = none ↔ ∀ l ∈ n.here, l.name ≠ name) ∧
      (start.jumps steps).map (·.1) = steps.filterMap LabelStep.usage? ∧
      (∀ id, (w.labels.get id).usages = Labels.namesTo (start.jumps steps) (some id)) ∧
      w.labels.unresolved = Labels.namesTo (start.jumps steps) none ∧
      w.ClosesLast n ∧
      ∀ before inside v, steps = before ++ (.enterBody :: inside ++ [.exitBody]) →
        LabelStep.Balanced inside → start.run before = some v →
        w.labels.active = v.labels.active ∧ w.hidden = v.hidden := by
  obtain ⟨w, hrun, hholds, hcounts⟩ := holds_start.run counts_start h
  rw [List.nil_append] at hcounts
  refine ⟨w, hrun, hholds.active_eq, hholds.hidden_eq, hholds.resolve_eq_some_iff,
    hholds.resolve_eq_none_iff, jumps_map_fst hrun, hcounts.usages, hcounts.unresolved,
    hholds.closesLast, ?_⟩
  intro before inside v hsteps hinside hbefore
  rw [hsteps, run_append, hbefore] at hrun
  exact run_body hinside hrun

/-- A label is hidden in a body that uses its name for a label of its own. -/
theorem run_nested_body :
    let steps := [.enter "a", .enterBody, .enter "a", .resolve "a" ⟨0⟩, .exit ⟨1⟩,
      .resolve "a" ⟨2⟩, .exitBody]
    ∃ n w, LabelNest.outermost.run steps = some n ∧ start.run steps = some w ∧
      w.labels.active = n.here.map (·.id) ∧ n.here = [⟨⟨0⟩, "a"⟩] ∧
      (w.labels.get ⟨1⟩).usages = [⟨0⟩] ∧ w.labels.unresolved = [⟨2⟩] := by
  intro steps
  have hsteps : LabelNest.outermost.run steps = some ⟨2, [⟨⟨0⟩, "a"⟩], []⟩ := by decide
  obtain ⟨w, hrun, hactive, -, -, -, -, husages, hunresolved, -⟩ := run_nested hsteps
  refine ⟨_, w, hsteps, hrun, hactive, rfl, ?_, ?_⟩
  · rw [husages]
    decide
  · rw [hunresolved]
    decide

end LabelWalk

end JavaAnalysis
