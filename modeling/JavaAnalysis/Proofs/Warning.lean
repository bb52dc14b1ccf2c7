import JavaAnalysis.Proofs.Tree.Preorder
import JavaAnalysis.Warning
import Mathlib.Data.List.Sort
import Mathlib.Data.List.TakeDrop
import Mathlib.Data.List.TakeWhile

/-!
# The nodes that warnings belong to

All warnings of a file find their nodes in one walk through its tree. Each finds the node that it
would find if it were the only one: the narrowest of the nodes that fit it. A warning leaves the
queue early only where no node that is still to come can be around its range, for no node starts
before an earlier one. Main statement: `ofProblems_attached`.
-/

set_option autoImplicit false
set_option linter.dupNamespace false

namespace JavaAnalysis

namespace Warning

/-- The node of the tree is around the range, and its kind is one that the category admits. -/
structure Fits (t : SyntaxTree) (category : WarningCategory) (range : TextRange) (n : NodeId) :
    Prop where
  lt_size : n.index < t.nodes.size
  contains : (t.range n).contains range = true
  admits : category.admits (t.kind n) = true

/--
The node is the narrowest that fits. Of several, it is the outermost if they are over just the
range, and the last that a walk meets if they are not.
-/
structure Attaches (t : SyntaxTree) (category : WarningCategory) (range : TextRange) (n : NodeId) :
    Prop where
  fits : Fits t category range n
  narrowest : ∀ m, Fits t category range m → (t.range n).length ≤ (t.range m).length
  outermost : t.range n = range → ∀ m, Fits t category range m →
    (t.range m).length = (t.range n).length → t.preorder.idxOf n ≤ t.preorder.idxOf m
  last : t.range n ≠ range → ∀ m, Fits t category range m →
    (t.range m).length = (t.range n).length → t.preorder.idxOf m ≤ t.preorder.idxOf n

end Warning

namespace Candidate

variable {t : SyntaxTree} {c : Candidate} {n : NodeId} {ns : List NodeId}

/-- The warning after one node after the other, if it is the only one. -/
def alone (t : SyntaxTree) : Candidate → List NodeId → Candidate
  | c, [] => c
  | c, n :: ns => if c.isSettledBy t n then c.visit t n else alone t (c.visit t n) ns

@[simp]
theorem range_visit (t : SyntaxTree) (n : NodeId) (c : Candidate) : (c.visit t n).range = c.range :=
  by unfold visit; split <;> rfl

@[simp]
theorem number_visit (t : SyntaxTree) (n : NodeId) (c : Candidate) :
    (c.visit t n).number = c.number := by unfold visit; split <;> rfl

@[simp]
theorem category_visit (t : SyntaxTree) (n : NodeId) (c : Candidate) :
    (c.visit t n).category = c.category := by unfold visit; split <;> rfl

@[simp]
theorem message_visit (t : SyntaxTree) (n : NodeId) (c : Candidate) :
    (c.visit t n).message = c.message := by unfold visit; split <;> rfl

@[simp]
theorem fits_visit (t : SyntaxTree) (n m : NodeId) (c : Candidate) :
    (c.visit t n).fits t m = c.fits t m := by simp [fits]

@[simp]
theorem isSettledBy_visit (t : SyntaxTree) (n m : NodeId) (c : Candidate) :
    (c.visit t n).isSettledBy t m = c.isSettledBy t m := by simp [isSettledBy]

/-- Looking for a node changes nothing but the node. -/
theorem alone_eq (t : SyntaxTree) (c : Candidate) (ns : List NodeId) :
    alone t c ns = { c with best := (alone t c ns).best } := by
  have hvisit : ∀ (c : Candidate) n, c.visit t n = { c with best := (c.visit t n).best } := by
    intro c n
    unfold visit
    split <;> rfl
  induction ns generalizing c with
  | nil => rfl
  | cons n ns ih =>
    rw [alone]
    split
    · exact hvisit c n
    · rw [ih (c.visit t n), hvisit c n]

theorem visit_of_not_fits (h : c.fits t n = false) : c.visit t n = c := by
  unfold visit
  rw [h]
  rfl

/-- Nodes that do not fit make no difference. -/
theorem alone_of_not_fits (h : ∀ n ∈ ns, c.fits t n = false) : alone t c ns = c := by
  induction ns with
  | nil => rfl
  | cons n ns ih =>
    have hn := h n List.mem_cons_self
    have hsettled : c.isSettledBy t n = false := by rw [isSettledBy, hn]; rfl
    rw [alone, hsettled, visit_of_not_fits hn]
    exact ih fun m hm => h m (List.mem_cons_of_mem _ hm)

theorem not_fits_of_start_lt (h : c.range.start < (t.range n).start) : c.fits t n = false := by
  rw [fits, Bool.and_eq_false_iff]
  left
  rw [Bool.eq_false_iff, ne_eq, TextRange.contains_iff]
  omega

theorem not_fits_of_stop_lt (hordered : c.range.start ≤ c.range.stop)
    (h : (t.range n).stop < c.range.start) : c.fits t n = false := by
  rw [fits, Bool.and_eq_false_iff]
  left
  rw [Bool.eq_false_iff, ne_eq, TextRange.contains_iff]
  omega

theorem le_of_range_number {a b a' b' : Candidate} (hrange : a'.range = a.range)
    (hnumber : a'.number = a.number) (hrange' : b'.range = b.range)
    (hnumber' : b'.number = b.number) : le a' b' = le a b := by
  simp only [le, hrange, hnumber, hrange', hnumber']

theorem start_le_of_le {a b : Candidate} (h : le a b = true) : a.range.start ≤ b.range.start := by
  simp only [le, Bool.or_eq_true, Bool.and_eq_true, decide_eq_true_eq] at h
  omega

theorem le_trans (a b c : Candidate) (hab : le a b = true) (hbc : le b c = true) :
    le a c = true := by
  simp only [le, Bool.or_eq_true, Bool.and_eq_true, decide_eq_true_eq] at *
  omega

theorem le_total (a b : Candidate) : (le a b || le b a) = true := by
  simp only [le, Bool.or_eq_true, Bool.and_eq_true, decide_eq_true_eq]
  omega

end Candidate

/-! ## One walk for all warnings -/

namespace Pending

open Candidate

variable {t : SyntaxTree} {p : Pending} {n : NodeId} {ns : List NodeId}

/-- Of pending warnings in order, those in front that start before an offset are all that do. -/
theorem start_of_mem_dropWhile {queue : List Candidate} {lt : Candidate → Bool}
    (hsorted : queue.Pairwise fun a b => Candidate.le a b = true)
    (hlt : ∀ a b : Candidate, a.range.start ≤ b.range.start → lt b = true → lt a = true)
    {c : Candidate} (hc : c ∈ queue.dropWhile lt) : lt c = false := by
  cases hrest : queue.dropWhile lt with
  | nil =>
    rw [hrest] at hc
    cases hc
  | cons d rest =>
    have hd : lt d = false := by
      have := List.head?_dropWhile_not lt queue
      simpa [hrest] using this
    rw [hrest] at hc
    have hsuffix : (d :: rest).Sublist queue := hrest ▸ List.dropWhile_sublist lt
    rcases List.mem_cons.1 hc with rfl | hc
    · exact hd
    · have hle := (List.pairwise_cons.1 (hsorted.sublist hsuffix)).1 c hc
      by_contra hne
      rw [hlt d c (start_le_of_le hle) (by simpa using hne)] at hd
      cases hd

/-- Going on alone where it is not settled: what a walk makes of a warning that met its node. -/
theorem map_settled_perm (settled : Candidate → Bool) (goOn : Candidate → Candidate)
    (cs : List Candidate) :
    (cs.map fun c => if settled c then c else goOn c).Perm
      (cs.filter settled ++ (cs.filter (not ∘ settled)).map goOn) := by
  induction cs with
  | nil => exact .nil
  | cons c cs ih =>
    cases hc : settled c with
    | true => simpa [hc] using ih
    | false =>
      simp only [List.map_cons, hc, Bool.false_eq_true, if_false, List.filter_cons,
        Function.comp_apply, Bool.not_false, if_true]
      exact (List.Perm.cons _ ih).trans List.perm_middle.symm

/--
One node makes of each pending warning what it would make of it alone, and leaves the others in
order.
-/
theorem step_spec (hsorted : p.queue.Pairwise fun a b => Candidate.le a b = true)
    (hordered : ∀ c ∈ p.queue, c.range.start ≤ c.range.stop)
    (hstarts : ∀ m ∈ ns, (t.range n).start ≤ (t.range m).start) :
    (p.step t n).queue.Pairwise (fun a b => Candidate.le a b = true) ∧
    (∀ c ∈ (p.step t n).queue, c.range.start ≤ c.range.stop) ∧
    ((p.step t n).queue.map (fun c => alone t c ns) ++ (p.step t n).settled).Perm
      (p.queue.map (fun c => alone t c (n :: ns)) ++ p.settled) := by
  obtain ⟨queue, settled⟩ := p
  simp only at hsorted hordered
  simp only [step, List.span_eq_takeWhile_dropWhile, List.partition_eq_filter_filter]
  -- The warnings that start before the node, those that start inside it, and those behind it.
  generalize hpassed : queue.takeWhile (fun c => decide (c.range.start < (t.range n).start)) = passed
  generalize hrest : queue.dropWhile (fun c => decide (c.range.start < (t.range n).start)) = rest
  generalize hnear : rest.takeWhile (fun c => decide (c.range.start ≤ (t.range n).stop)) = near
  generalize hfar : rest.dropWhile (fun c => decide (c.range.start ≤ (t.range n).stop)) = far
  have hqueue : queue = passed ++ (near ++ far) := by
    rw [← hnear, ← hfar, List.takeWhile_append_dropWhile, ← hpassed, ← hrest,
      List.takeWhile_append_dropWhile]
  have hpast : ∀ c ∈ passed, ∀ m ∈ n :: ns, c.fits t m = false := by
    intro c hc m hm
    have hlt := List.mem_takeWhile_imp (hpassed ▸ hc)
    rw [decide_eq_true_eq] at hlt
    rcases List.mem_cons.1 hm with rfl | hm
    · exact not_fits_of_start_lt hlt
    · exact not_fits_of_start_lt (Nat.lt_of_lt_of_le hlt (hstarts m hm))
  have hbehind : ∀ c ∈ far, c.fits t n = false := by
    intro c hc
    have hrestSorted : rest.Pairwise fun a b => Candidate.le a b = true :=
      hrest ▸ hsorted.sublist (List.dropWhile_sublist _)
    have hlt := start_of_mem_dropWhile hrestSorted (fun a b hab hb => by
      rw [decide_eq_true_eq] at hb ⊢
      exact Nat.le_trans hab hb) (hfar ▸ hc)
    rw [decide_eq_false_iff_not, Nat.not_le] at hlt
    exact not_fits_of_stop_lt (hordered c (by simp [hqueue, hc])) hlt
  have hvisited : queue.map (Candidate.visit t n) =
      passed ++ (near.map (Candidate.visit t n) ++ far) := by
    rw [hqueue, List.map_append, List.map_append]
    rw [List.map_congr_left fun c hc => visit_of_not_fits (hpast c hc n List.mem_cons_self),
      List.map_congr_left fun c hc => visit_of_not_fits (hbehind c hc)]
    simp
  have hsublist : ((near.map (Candidate.visit t n)).filter (not ∘ Candidate.isSettledBy t n) ++
      far).Sublist (queue.map (Candidate.visit t n)) := by
    rw [hvisited]
    exact (List.filter_sublist.append_right far).trans (List.sublist_append_right _ _)
  refine ⟨?_, ?_, ?_⟩
  · refine List.Pairwise.sublist hsublist (List.pairwise_map.2 (hsorted.imp fun {a b} hab => ?_))
    rwa [le_of_range_number (range_visit t n a) (number_visit t n a) (range_visit t n b)
      (number_visit t n b)]
  · intro c hc
    obtain ⟨d, hd, rfl⟩ := List.mem_map.1 (hsublist.subset hc)
    simpa using hordered d hd
  · have halone : queue.map (fun c => alone t c (n :: ns)) =
        (queue.map (Candidate.visit t n)).map fun c =>
          if c.isSettledBy t n then c else alone t c ns := by
      simp only [List.map_map]
      refine List.map_congr_left fun c _ => ?_
      simp [alone]
    have hpassedAlone : ∀ c ∈ passed, (if c.isSettledBy t n then c else alone t c ns) = c := by
      intro c hc
      rw [alone_of_not_fits fun m hm => hpast c hc m (List.mem_cons_of_mem _ hm), ite_self]
    have hfarAlone : ∀ c ∈ far, (if c.isSettledBy t n then c else alone t c ns) = alone t c ns := by
      intro c hc
      simp [isSettledBy, hbehind c hc]
    have hnearAlone := map_settled_perm (isSettledBy t n) (fun c => alone t c ns)
      (near.map (Candidate.visit t n))
    rw [halone, hvisited, List.map_append, List.map_append, List.map_append,
      List.map_congr_left hpassedAlone, List.map_congr_left hfarAlone, List.map_id']
    refine List.perm_iff_count.2 fun a => ?_
    have hcount := List.perm_iff_count.1 hnearAlone a
    simp only [List.count_append] at hcount ⊢
    omega

/-- A walk makes of each pending warning what it would make of it alone. -/
theorem walk_perm (p : Pending) (hsorted : p.queue.Pairwise fun a b => Candidate.le a b = true)
    (hordered : ∀ c ∈ p.queue, c.range.start ≤ c.range.stop)
    (hstarts : ns.Pairwise fun a b => (t.range a).start ≤ (t.range b).start) :
    ((p.walk t ns).queue ++ (p.walk t ns).settled).Perm
      (p.queue.map (fun c => alone t c ns) ++ p.settled) := by
  induction ns generalizing p with
  | nil => simp [walk, alone]
  | cons n ns ih =>
    obtain ⟨hfirst, hrest⟩ := List.pairwise_cons.1 hstarts
    rw [walk]
    split
    next hempty => simp [List.isEmpty_iff.1 hempty]
    next =>
      obtain ⟨hsorted', hordered', hperm⟩ := step_spec hsorted hordered hfirst
      exact (ih (p.step t n) hsorted' hordered' hrest).trans hperm

end Pending

/-! ## The node of one warning -/

namespace Candidate

variable {t : SyntaxTree} {c : Candidate} {n m : NodeId} {seen ns : List NodeId}

theorem fits_iff (hn : n.index < t.nodes.size) :
    c.fits t n = true ↔ Warning.Fits t c.category c.range n := by
  rw [fits, Bool.and_eq_true]
  exact ⟨fun h => ⟨hn, h.1, h.2⟩, fun h => ⟨h.contains, h.admits⟩⟩

/-- A node around a range that is as narrow as the range is over just the range. -/
theorem range_eq_of_length (hordered : c.range.start ≤ c.range.stop)
    (hcontains : (t.range n).contains c.range = true)
    (hlength : (t.range n).length ≤ c.range.length) : t.range n = c.range := by
  rw [TextRange.contains_iff] at hcontains
  simp only [TextRange.length] at hlength
  rw [TextRange.mk.injEq (t.range n).start (t.range n).stop c.range.start c.range.stop]
  omega

theorem idxOf_lt_of_split (hnodup : t.preorder.Nodup) (hsplit : t.preorder = seen ++ n :: ns)
    (hm : m ∈ seen) : t.preorder.idxOf m < t.preorder.idxOf n := by
  rw [hsplit] at hnodup ⊢
  have hn : n ∉ seen := fun hmem =>
    (List.nodup_append.1 hnodup).2.2 n hmem n List.mem_cons_self rfl
  rw [List.idxOf_append_of_mem hm, List.idxOf_append_of_notMem hn, List.idxOf_cons_self]
  have hlt := List.idxOf_lt_length_of_mem hm
  omega

/-- What the node so far has to do with the nodes met so far. -/
structure Explored (t : SyntaxTree) (c : Candidate) (seen : List NodeId) : Prop where
  none : c.best = none → ∀ m ∈ seen, c.fits t m = false
  mem : ∀ n, c.best = some n → n ∈ seen ∧ c.fits t n = true
  narrowest : ∀ n, c.best = some n → ∀ m ∈ seen, c.fits t m = true →
    (t.range n).length ≤ (t.range m).length
  last : ∀ n, c.best = some n → ∀ m ∈ seen, c.fits t m = true →
    (t.range m).length = (t.range n).length → t.preorder.idxOf m ≤ t.preorder.idxOf n

theorem Explored.visit (h : Explored t c seen) (hnodup : t.preorder.Nodup)
    (hsplit : t.preorder = seen ++ n :: ns) : Explored t (c.visit t n) (seen ++ [n]) := by
  by_cases htakes : (c.fits t n && c.best.all fun b =>
      decide ((t.range n).length ≤ (t.range b).length)) = true
  · have hvisit : c.visit t n = { c with best := some n } := by rw [Candidate.visit, if_pos htakes]
    rw [Bool.and_eq_true, Option.all_eq_true_iff_get] at htakes
    have hle : ∀ m ∈ seen, c.fits t m = true → (t.range n).length ≤ (t.range m).length := by
      intro m hm hfits
      cases hbest : c.best with
      | none => simp [h.none hbest m hm] at hfits
      | some b =>
        have hb : (t.range n).length ≤ (t.range b).length := by simpa [hbest] using htakes.2
        exact Nat.le_trans hb (h.narrowest b hbest m hm hfits)
    rw [hvisit]
    refine ⟨nofun, ?_, ?_, ?_⟩
    · rintro _ ⟨⟩
      exact ⟨List.mem_append_right _ List.mem_cons_self, htakes.1⟩
    · rintro _ ⟨⟩ m hm hfits
      rcases List.mem_append.1 hm with hm | hm
      · exact hle m hm hfits
      · rw [List.mem_singleton.1 hm]
    · rintro _ ⟨⟩ m hm _ _
      rcases List.mem_append.1 hm with hm | hm
      · exact Nat.le_of_lt (idxOf_lt_of_split hnodup hsplit hm)
      · rw [List.mem_singleton.1 hm]
  · have hvisit : c.visit t n = c := by rw [Candidate.visit, if_neg htakes]
    rw [hvisit]
    -- The node does not fit, or a narrower one was found before.
    have hwider : ∀ b, c.best = some b → c.fits t n = true →
        (t.range b).length < (t.range n).length := by
      intro b hbest hfits
      simp only [hbest, hfits, Option.all_some, Bool.true_and, decide_eq_true_eq] at htakes
      omega
    refine ⟨fun hbest m hm => ?_, fun b hbest => ?_, fun b hbest m hm hfits => ?_,
      fun b hbest m hm hfits hlength => ?_⟩
    · rcases List.mem_append.1 hm with hm | hm
      · exact h.none hbest m hm
      · rw [List.mem_singleton.1 hm]
        simpa [hbest] using htakes
    · exact ⟨List.mem_append_left _ (h.mem b hbest).1, (h.mem b hbest).2⟩
    · rcases List.mem_append.1 hm with hm | hm
      · exact h.narrowest b hbest m hm hfits
      · rw [List.mem_singleton.1 hm] at hfits ⊢
        exact Nat.le_of_lt (hwider b hbest hfits)
    · rcases List.mem_append.1 hm with hm | hm
      · exact h.last b hbest m hm hfits hlength
      · rw [List.mem_singleton.1 hm] at hfits hlength
        have hlt := hwider b hbest hfits
        omega

/-- A node over just the range is taken. -/
theorem Explored.visit_of_isSettledBy (h : Explored t c seen)
    (hordered : c.range.start ≤ c.range.stop) (hn : c.isSettledBy t n = true) :
    c.visit t n = { c with best := some n } := by
  rw [isSettledBy, Bool.and_eq_true, beq_iff_eq] at hn
  rw [Candidate.visit, if_pos]
  rw [Bool.and_eq_true]
  refine ⟨hn.1, ?_⟩
  cases hbest : c.best with
  | none => rfl
  | some b =>
    have hfits := (h.mem b hbest).2
    rw [fits, Bool.and_eq_true, TextRange.contains_iff] at hfits
    simp only [Option.all_some, decide_eq_true_eq, hn.2, TextRange.length]
    omega

/-- A walk from behind the nodes met so far on finds the node that the warning belongs to. -/
theorem alone_spec (ht : t.Formed) (hordered : c.range.start ≤ c.range.stop)
    (hsplit : t.preorder = seen ++ ns) (h : Explored t c seen)
    (hunsettled : ∀ m ∈ seen, c.isSettledBy t m = false) :
    ((alone t c ns).best = none → ∀ m, ¬ Warning.Fits t c.category c.range m) ∧
    ∀ n, (alone t c ns).best = some n → Warning.Attaches t c.category c.range n := by
  have hfits : ∀ {m}, Warning.Fits t c.category c.range m → c.fits t m = true :=
    fun h => (fits_iff h.lt_size).2 h
  induction ns generalizing c seen with
  | nil =>
    rw [List.append_nil] at hsplit
    rw [alone]
    have hseen : ∀ {m}, Warning.Fits t c.category c.range m → m ∈ seen := fun h =>
      hsplit ▸ ht.mem_preorder.2 h.lt_size
    refine ⟨fun hbest m hm => ?_, fun n hbest => ?_⟩
    · have hnot := h.none hbest m (hseen hm)
      rw [hfits hm] at hnot
      cases hnot
    · obtain ⟨hmem, hn⟩ := h.mem n hbest
      have hn' := (fits_iff (ht.mem_preorder.1 (hsplit ▸ hmem))).1 hn
      refine ⟨hn', fun m hm => h.narrowest n hbest m (hseen hm) (hfits hm), fun hexact => ?_,
        fun _ m hm hlength => h.last n hbest m (hseen hm) (hfits hm) hlength⟩
      have hsettled := hunsettled n hmem
      rw [isSettledBy, hn, hexact] at hsettled
      simp at hsettled
  | cons n ns ih =>
    rw [alone]
    cases hsettled : c.isSettledBy t n with
    | false =>
      have hsplit' : t.preorder = (seen ++ [n]) ++ ns := by rw [hsplit]; simp
      have hstep := ih (c := c.visit t n) (by simpa using hordered) hsplit'
        (h.visit ht.nodup_preorder hsplit) (fun m hm => ?_) (fun h => by simpa using hfits (by simpa using h))
      · simpa using hstep
      · rw [isSettledBy_visit]
        rcases List.mem_append.1 hm with hm | hm
        · exact hunsettled m hm
        · rw [List.mem_singleton.1 hm]
          exact hsettled
    | true =>
      rw [if_pos rfl, h.visit_of_isSettledBy hordered hsettled]
      refine ⟨nofun, ?_⟩
      rintro _ ⟨⟩
      have hn : n.index < t.nodes.size := ht.mem_preorder.1 (by rw [hsplit]; simp)
      rw [isSettledBy, Bool.and_eq_true, beq_iff_eq] at hsettled
      refine ⟨(fits_iff hn).1 hsettled.1, fun m hm => ?_, fun _ m hm hlength => ?_,
        fun hne => absurd hsettled.2 hne⟩
      · have hcontains := hm.contains
        rw [TextRange.contains_iff] at hcontains
        simp only [hsettled.2, TextRange.length]
        omega
      · -- The other node is over just the range too, so it was not met before.
        have hexact := range_eq_of_length hordered hm.contains (by rw [hlength, hsettled.2])
        have hnew : m ∉ seen := fun hmem => by
          have hnot := hunsettled m hmem
          rw [isSettledBy, hfits hm, hexact] at hnot
          simp at hnot
        have hnnew : n ∉ seen := fun hmem =>
          (List.nodup_append.1 (hsplit ▸ ht.nodup_preorder)).2.2 n hmem n List.mem_cons_self rfl
        rw [hsplit, List.idxOf_append_of_notMem hnew, List.idxOf_append_of_notMem hnnew,
          List.idxOf_cons_self]
        omega

end Candidate

/-! ## The warnings in the order of the file -/

namespace Warning

variable {t : SyntaxTree} {p : Problem} {problems : List Problem}

/-- The node for the warning that a problem is, if it is the only one. -/
def attach (t : SyntaxTree) (p : Problem) : Option Warning :=
  (Candidate.ofProblem? 0 p).bind fun c => (c.alone t t.preorder).attached?

theorem ofProblem?_eq (number : Nat) (p : Problem) :
    Candidate.ofProblem? number p =
      (Candidate.ofProblem? 0 p).map fun c => { c with number := number } := by
  unfold Candidate.ofProblem?
  cases WarningCategory.ofProblem? p.id with
  | none => rfl
  | some category =>
    simp only [Option.bind_eq_bind, Option.bind_some]
    split <;> rfl

/-- The place of a warning has no influence on its node. -/
theorem best_alone_renumber (c : Candidate) (number : Nat) (ns : List NodeId) :
    (Candidate.alone t { c with number := number } ns).best = (c.alone t ns).best := by
  have hvisit : ∀ (c : Candidate) n,
      Candidate.visit t n { c with number := number } = { c.visit t n with number := number } := by
    intro c n
    have hfits : Candidate.fits t { c with number := number } n = c.fits t n := rfl
    unfold Candidate.visit
    rw [hfits]
    split <;> rfl
  have hsettled : ∀ (c : Candidate) n,
      Candidate.isSettledBy t n { c with number := number } = c.isSettledBy t n := fun _ _ => rfl
  induction ns generalizing c with
  | nil => rfl
  | cons n ns ih =>
    rw [Candidate.alone, Candidate.alone, hsettled, hvisit]
    split
    · rfl
    · exact ih _

theorem attached?_alone (number : Nat) (p : Problem) :
    ((Candidate.ofProblem? number p).bind fun c => (c.alone t t.preorder).attached?) =
      attach t p := by
  rw [attach, ofProblem?_eq number]
  cases Candidate.ofProblem? 0 p with
  | none => rfl
  | some c =>
    simp only [Option.map_some, Option.bind_some]
    rw [Candidate.alone_eq, Candidate.alone_eq t c, Candidate.attached?, Candidate.attached?,
      best_alone_renumber]

theorem number_of_ofProblem? {number : Nat} {c : Candidate}
    (h : Candidate.ofProblem? number p = some c) : c.number = number ∧ c.range = p.range := by
  unfold Candidate.ofProblem? at h
  obtain ⟨category, -, h⟩ := Option.bind_eq_some_iff.1 h
  split at h
  · cases h
    exact ⟨rfl, rfl⟩
  · cases h

/-- Warnings are numbered in their order. -/
theorem candidates_numbers (problems : List Problem) :
    (candidates problems).Pairwise fun a b => a.number < b.number := by
  refine List.pairwise_filterMap.2 (List.pairwise_iff_getElem.2 fun i j hi hj hij a ha b hb => ?_)
  simp only [List.getElem_zipIdx] at ha hb
  rw [(number_of_ofProblem? ha).1, (number_of_ofProblem? hb).1]
  omega

theorem candidates_ordered (h : ∀ p ∈ problems, p.range.start ≤ p.range.stop) :
    ∀ c ∈ candidates problems, c.range.start ≤ c.range.stop := by
  intro c hc
  obtain ⟨⟨p, number⟩, hp, hc⟩ := List.mem_filterMap.1 hc
  rw [(number_of_ofProblem? hc).2]
  exact h p (List.fst_mem_of_mem_zipIdx hp)

/-- Every warning gets the node that it would get if it were the only one. -/
theorem ofProblems_eq (ht : t.Formed) (h : ∀ p ∈ problems, p.range.start ≤ p.range.stop) :
    ofProblems t problems = problems.filterMap (attach t) := by
  have hqueue : ((candidates problems).mergeSort Candidate.le).Perm (candidates problems) :=
    List.mergeSort_perm _ _
  have hwalk := Pending.walk_perm ⟨(candidates problems).mergeSort Candidate.le, []⟩
    (List.pairwise_mergeSort Candidate.le_trans Candidate.le_total _)
    (fun c hc => candidates_ordered h c (hqueue.mem_iff.1 hc)) ht.preorder_starts
  rw [List.append_nil] at hwalk
  generalize hfinal : Pending.walk t ⟨(candidates problems).mergeSort Candidate.le, []⟩ t.preorder =
    final at hwalk
  have hnumbers : ((candidates problems).map fun c => c.alone t t.preorder).Pairwise
      fun a b => a.number < b.number := by
    refine List.pairwise_map.2 ((candidates_numbers problems).imp fun {a b} hab => ?_)
    rwa [Candidate.alone_eq, Candidate.alone_eq t b]
  -- Both lists are in the order of the numbers, and no number occurs twice.
  have hinOrder : final.inOrder = (candidates problems).map fun c => c.alone t t.preorder := by
    have hperm := (List.mergeSort_perm (final.queue ++ final.settled)
      (fun a b => decide (a.number ≤ b.number))).trans (hwalk.trans (hqueue.map _))
    refine List.Perm.eq_of_pairwise (fun a b ha hb hab hba => ?_)
      (List.pairwise_mergeSort (by simp only [decide_eq_true_eq]; omega)
        (by simp only [Bool.or_eq_true, decide_eq_true_eq]; omega) _)
      (hnumbers.imp fun {a b} hab => decide_eq_true (Nat.le_of_lt hab)) hperm
    have hnodup : (((candidates problems).map fun c => c.alone t t.preorder).map
        Candidate.number).Nodup :=
      List.pairwise_map.2 (hnumbers.imp fun {a b} hab => Nat.ne_of_lt hab)
    rw [decide_eq_true_eq] at hab hba
    exact List.inj_on_of_nodup_map hnodup (hperm.mem_iff.1 ha) hb (Nat.le_antisymm hab hba)
  rw [ofProblems, hfinal, hinOrder, candidates, List.filterMap_map, List.filterMap_filterMap]
  have hfst : problems = problems.zipIdx.map Prod.fst := by simp
  conv_rhs => rw [hfst, List.filterMap_map]
  refine List.filterMap_congr fun ⟨p, number⟩ _ => ?_
  exact attached?_alone number p

/-- At most one node is the narrowest that fits, the outermost or the last of several. -/
theorem Attaches.unique (ht : t.Formed) {category : WarningCategory} {range : TextRange}
    {n m : NodeId} (hn : Attaches t category range n) (hm : Attaches t category range m)
    (hordered : range.start ≤ range.stop) : n = m := by
  have hlength : (t.range n).length = (t.range m).length :=
    Nat.le_antisymm (hn.narrowest m hm.fits) (hm.narrowest n hn.fits)
  have hmem : ∀ {k}, Attaches t category range k → k ∈ t.preorder := fun h =>
    ht.mem_preorder.2 h.fits.lt_size
  have hcontainsn := hn.fits.contains
  have hcontainsm := hm.fits.contains
  rw [TextRange.contains_iff] at hcontainsn hcontainsm
  have hboth : t.range n = range ↔ t.range m = range := by
    have hends : ∀ a b : TextRange, a = b ↔ a.start = b.start ∧ a.stop = b.stop := by
      intro a b
      cases a
      cases b
      simp
    rw [hends, hends]
    simp only [TextRange.length] at hlength
    omega
  refine (List.idxOf_inj (hmem hn)).1 ?_
  by_cases hexact : t.range n = range
  · exact Nat.le_antisymm (hn.outermost hexact m hm.fits hlength.symm)
      (hm.outermost (hboth.1 hexact) n hn.fits hlength)
  · exact Nat.le_antisymm (hm.last (fun h => hexact (hboth.2 h)) n hn.fits hlength)
      (hn.last hexact m hm.fits hlength.symm)

theorem ofProblem?_zero_eq_some {c : Candidate} : Candidate.ofProblem? 0 p = some c ↔
    p.severity = .warning ∧ ∃ category, WarningCategory.ofProblem? p.id = some category ∧
      c = ⟨0, p.message, category, p.range, none⟩ := by
  unfold Candidate.ofProblem?
  cases WarningCategory.ofProblem? p.id with
  | none => simp
  | some category =>
    by_cases hp : p.severity = .warning <;> simp [hp, eq_comm]

/-- A warning alone finds the node that it belongs to, and is dropped if there is none. -/
theorem attach_spec (ht : t.Formed) (hordered : p.range.start ≤ p.range.stop) :
    (∀ w, attach t p = some w ↔ p.severity = .warning ∧
      WarningCategory.ofProblem? p.id = some w.category ∧ w.message = p.message ∧
      w.range = p.range ∧ Attaches t w.category p.range w.attached) ∧
    (attach t p = none ↔ ∀ category, p.severity = .warning →
      WarningCategory.ofProblem? p.id = some category → ∀ n, ¬ Fits t category p.range n) := by
  cases hcandidate : Candidate.ofProblem? 0 p with
  | none =>
    have hnot : ∀ category, p.severity = .warning →
        WarningCategory.ofProblem? p.id ≠ some category := by
      intro category hp hcategory
      rw [ofProblem?_zero_eq_some.2 ⟨hp, category, hcategory, rfl⟩] at hcandidate
      cases hcandidate
    rw [attach, hcandidate]
    exact ⟨fun w => ⟨nofun, fun h => absurd h.2.1 (hnot _ h.1)⟩,
      fun _ category hp hcategory => absurd hcategory (hnot _ hp), fun _ => rfl⟩
  | some c =>
    obtain ⟨hp, category, hcategory, rfl⟩ := ofProblem?_zero_eq_some.1 hcandidate
    have hsplit : t.preorder = [] ++ t.preorder := rfl
    have hexplored : Candidate.Explored t ⟨0, p.message, category, p.range, none⟩ [] :=
      ⟨nofun, nofun, nofun, nofun⟩
    obtain ⟨hnone, hsome⟩ := Candidate.alone_spec ht hordered hsplit hexplored nofun
    rw [attach, hcandidate, Option.bind_some, Candidate.alone_eq, Candidate.attached?]
    cases hbest : (Candidate.alone t ⟨0, p.message, category, p.range, none⟩ t.preorder).best with
    | none =>
      refine ⟨fun w => ⟨nofun, fun h => ?_⟩, fun _ category' _ hcategory' n hn => ?_, fun _ => rfl⟩
      · obtain ⟨-, hw, -, -, hattaches⟩ := h
        cases hcategory.symm.trans hw
        exact absurd hattaches.fits (hnone hbest _)
      · cases hcategory.symm.trans hcategory'
        exact hnone hbest n hn
    | some n =>
      have hattaches := hsome n hbest
      refine ⟨fun w => ⟨?_, fun h => ?_⟩, nofun, fun h => ?_⟩
      · rintro ⟨⟩
        exact ⟨hp, hcategory, rfl, rfl, hattaches⟩
      · obtain ⟨message, category', range, m⟩ := w
        obtain ⟨-, hw, rfl, rfl, hm⟩ := h
        cases hcategory.symm.trans hw
        cases hattaches.unique ht hm hordered
        rfl
      · exact absurd hattaches.fits (h category hp hcategory n)

/--
The warnings among the problems of a file are attached one by one: what becomes of one problem does
not depend on the others. A warning belongs to the narrowest node that fits it, and is dropped just
if there is none.
-/
theorem ofProblems_attached {text : String} {row : TokenRow} {d : TreeDraft} {root : NodeId}
    (hbottom : d.BottomUp row) (ht : SyntaxTree.ofDraft text row d root = .ok t) :
    ∃ attach : Problem → Option Warning,
      (∀ problems : List Problem, (∀ p ∈ problems, p.range.start ≤ p.range.stop) →
        ofProblems t problems = problems.filterMap attach) ∧
      ∀ p : Problem, p.range.start ≤ p.range.stop →
        (∀ w, attach p = some w ↔ p.severity = .warning ∧
          WarningCategory.ofProblem? p.id = some w.category ∧ w.message = p.message ∧
          w.range = p.range ∧ Attaches t w.category p.range w.attached) ∧
        (attach p = none ↔ ∀ category, p.severity = .warning →
          WarningCategory.ofProblem? p.id = some category → ∀ n, ¬ Fits t category p.range n) :=
  have hformed := SyntaxTree.formed_of_ofDraft hbottom ht
  ⟨attach t, fun _ h => ofProblems_eq hformed h, fun _ h => attach_spec hformed h⟩

/-- A name as the one import of a file. -/
def importDraft : TreeDraft :=
  (TreeDraft.empty.push .importDecl [.token ⟨0⟩]).push .compilationUnit [.node ⟨0⟩, .token ⟨1⟩]

def importTree :
    { t : SyntaxTree // SyntaxTree.ofDraft "x" SyntaxTree.nameRow importDraft ⟨1⟩ = .ok t } :=
  ⟨_, rfl⟩

def importProblem : Problem := ⟨.unusedImport, .unnecessaryCode, .warning, "unused", ⟨0, 1⟩⟩

theorem ofProblems_attached_import : importDraft.BottomUp SyntaxTree.nameRow ∧
    ofProblems importTree [importProblem] = [⟨"unused", .unusedImport, ⟨0, 1⟩, ⟨0⟩⟩] := by
  have hbottom : importDraft.BottomUp SyntaxTree.nameRow := by decide
  obtain ⟨attach, hall, hone⟩ := ofProblems_attached hbottom importTree.2
  -- The root of the tree is no import.
  have honly : ∀ m, Fits importTree .unusedImport ⟨0, 1⟩ m → m = ⟨0⟩ := by
    rintro ⟨_ | _ | i⟩ hm
    · rfl
    · exact absurd hm.admits (by decide +kernel)
    · have hsize : importTree.1.nodes.size = 2 := by decide +kernel
      have hlt := hm.lt_size
      simp only at hlt
      omega
  have hfits : Fits importTree .unusedImport ⟨0, 1⟩ ⟨0⟩ :=
    ⟨by decide +kernel, by decide +kernel, by decide +kernel⟩
  have hattached : attach importProblem = some ⟨"unused", .unusedImport, ⟨0, 1⟩, ⟨0⟩⟩ :=
    ((hone importProblem (by decide)).1 _).2 ⟨rfl, rfl, rfl, rfl, hfits,
      fun m hm => by rw [honly m hm], fun _ m hm _ => by rw [honly m hm],
      fun _ m hm _ => by rw [honly m hm]⟩
  refine ⟨hbottom, ?_⟩
  rw [hall _ (by decide), List.filterMap_cons, hattached]
  rfl

end Warning

end JavaAnalysis
