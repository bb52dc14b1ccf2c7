import JavaAnalysis.Semantics.Occurrences
import Mathlib.Data.List.Find
import Mathlib.Data.List.Nodup

/-!
# Labels and jumps, entered one after the other

What a part of a file leaves behind of its labels: the labels that were open are open again, those
of the part are closed behind them, and each jump is a usage of one label or is unresolved.
Main statements: `Leads.append`, `Leads.usages_perm`.
-/

set_option autoImplicit false
set_option linter.dupNamespace false

namespace JavaAnalysis

/-- The name of a label in a jump, and the label that it was resolved to. -/
abbrev JumpGoal := NodeId × Option LabelId

namespace Labels

variable {s s' s'' : Labels} {ls ls' : List (NodeId × String)} {js js' : List JumpGoal}
  {name : String} {node : NodeId} {id : LabelId}

/-- The jumps that were resolved to a label, or to none. -/
def namesTo (js : List JumpGoal) (goal : Option LabelId) : List NodeId :=
  (js.filter fun j => j.2 == goal).map (·.1)

/-- The labels that are open are labels of the file. -/
def Valid (s : Labels) : Prop := ∀ id ∈ s.active, id.index < s.all.size

/--
From the first labels to the second, the statements `ls` got their labels and the jumps `js` their
goals; no label was left open.
-/
structure Leads (s : Labels) (ls : List (NodeId × String)) (js : List JumpGoal) (s' : Labels) :
    Prop where
  active_eq : s'.active = s.active
  size_eq : s'.all.size = s.all.size + ls.length
  unresolved_eq : s'.unresolved = s.unresolved ++ namesTo js none
  goals : ∀ j ∈ js, ∀ id, j.2 = some id → id.index < s'.all.size
  old : ∀ id, id.index < s.all.size →
    s'.get id = { s.get id with usages := (s.get id).usages ++ namesTo js (some id) }
  new : ∀ k node name, ls[k]? = some (node, name) →
    s'.get ⟨s.all.size + k⟩ = ⟨name, some node, namesTo js (some ⟨s.all.size + k⟩)⟩

theorem namesTo_append (js js' : List JumpGoal) (goal : Option LabelId) :
    namesTo (js ++ js') goal = namesTo js goal ++ namesTo js' goal := by
  simp [namesTo]

theorem namesTo_eq_nil {goal : Option LabelId} (h : ∀ j ∈ js, j.2 ≠ goal) :
    namesTo js goal = [] := by
  simpa [namesTo, List.filter_eq_nil_iff] using fun node goal' hmem heq => h _ hmem heq

theorem mem_namesTo {goal : Option LabelId} : node ∈ namesTo js goal ↔ (node, goal) ∈ js := by
  simp [namesTo]

theorem get_push_lt {l : Label} (h : id.index < s.all.size) :
    ({ s with all := s.all.push l } : Labels).get id = s.get id := by
  simp [get, Array.getD_eq_getD_getElem?, Array.getElem?_push_lt, h]

/-- Changing a label leaves the others as they are. -/
theorem getD_modify (all : Array Label) (i j : Nat) (f : Label → Label) (h : i < all.size) :
    (all.modify i f).getD j default = if i = j then f (all.getD j default) else
      all.getD j default := by
  simp only [Array.getD_eq_getD_getElem?, Array.getElem?_modify]
  split
  · rename_i heq
    subst heq
    simp [h]
  · rfl

/-- A label that was just opened. -/
theorem get_enter (s : Labels) (name : String) :
    (s.enter name).2.get ⟨s.all.size⟩ = ⟨name, none, []⟩ := by
  simp [enter, get, Array.getD_eq_getD_getElem?]

/-! ## Single steps -/

theorem Leads.refl (s : Labels) : Leads s [] [] s :=
  ⟨rfl, rfl, by simp [namesTo], nofun, fun id _ => by simp [namesTo], nofun⟩

theorem Leads.valid (h : Leads s ls js s') (hs : s.Valid) : s'.Valid := by
  intro id hid
  rw [h.active_eq] at hid
  have hlt := hs id hid
  have hsize := h.size_eq
  omega

/-- What a name of a label stands for does not change behind a part of the file. -/
theorem Leads.find?_eq (h : Leads s ls js s') (hs : s.Valid) (name : String) :
    s'.find? name = s.find? name := by
  unfold find?
  rw [h.active_eq]
  refine List.find?_congr fun id hid => ?_
  rw [h.old id (hs id hid)]

theorem index_lt_of_find? (hs : s.Valid) (h : s.find? name = some id) : id.index < s.all.size :=
  hs id (List.mem_of_find?_eq_some h)

/-- A jump gets the innermost open label of its name. -/
theorem leads_resolve (hs : s.Valid) (name : String) (node : NodeId) :
    Leads s [] [(node, s.find? name)] (s.resolve name node).2 ∧
      (s.resolve name node).1 = s.find? name := by
  unfold resolve
  cases hfind : s.find? name with
  | none =>
    refine ⟨⟨rfl, rfl, by simp [namesTo], ?_, fun id _ => ?_, nofun⟩, rfl⟩
    · simp
    · simp [namesTo, get]
  | some goal =>
    have hlt := index_lt_of_find? hs hfind
    refine ⟨⟨rfl, by simp, by simp [namesTo], ?_, fun id hid => ?_, nofun⟩, rfl⟩
    · simpa using hlt
    · simp only [get, getD_modify _ _ _ _ hlt]
      split
      · rename_i heq
        have hid : goal = id := congrArg LabelId.mk heq
        simp [namesTo, hid]
      · rename_i hne
        have hid : goal ≠ id := fun heq => hne (congrArg LabelId.index heq)
        simp [namesTo, hid]

/-! ## Parts of a file -/

/-- One part of a file stands behind another one. -/
theorem Leads.append (h : Leads s ls js s') (h' : Leads s' ls' js' s'') :
    Leads s (ls ++ ls') (js ++ js') s'' := by
  have hsize := h.size_eq
  have hsize' := h'.size_eq
  refine ⟨h'.active_eq.trans h.active_eq, ?_, ?_, ?_, fun id hid => ?_, fun k node name hk => ?_⟩
  · rw [hsize', hsize, List.length_append, Nat.add_assoc]
  · rw [h'.unresolved_eq, h.unresolved_eq, namesTo_append, List.append_assoc]
  · rw [List.forall_mem_append]
    refine ⟨fun j hj id hid => ?_, h'.goals⟩
    have hlt := h.goals j hj id hid
    omega
  · rw [h'.old id (by omega), h.old id hid, namesTo_append, List.append_assoc]
  · rw [namesTo_append]
    by_cases hlt : k < ls.length
    · rw [List.getElem?_append_left hlt] at hk
      rw [h'.old _ (by simp only; omega), h.new k node name hk]
    · rw [List.getElem?_append_right (Nat.not_lt.1 hlt)] at hk
      have hnew := h'.new _ node name hk
      have hindex : s'.all.size + (k - ls.length) = s.all.size + k := by omega
      rw [hindex] at hnew
      have hnone : namesTo js (some ⟨s.all.size + k⟩) = [] := by
        refine namesTo_eq_nil fun j hj heq => ?_
        have hgoal := h.goals j hj _ heq
        simp only at hgoal
        omega
      rw [hnew, hnone, List.nil_append]

/-- Closing the innermost label changes no other. -/
theorem get_exit {rest : List LabelId} {goal : LabelId} (hactive : s.active = goal :: rest)
    (hlt : goal.index < s.all.size) (node : NodeId) (id : LabelId) : (s.exit node).2.get id =
      if goal = id then { s.get id with declaration := some node } else s.get id := by
  have hexit : (s.exit node).2.all =
      s.all.modify goal.index fun l => { l with declaration := some node } := by
    unfold exit
    rw [hactive]
  have hindex : goal.index = id.index ↔ goal = id := by
    cases goal
    cases id
    simp
  rw [get, hexit, getD_modify _ _ _ _ hlt]
  simp only [hindex]
  rfl

/-- A label that was opened in front of a part of the file is the innermost one behind it. -/
theorem Leads.innermost (h : Leads (s.enter name).2 ls js s') :
    s'.active = ⟨s.all.size⟩ :: s.active ∧ s.all.size < s'.all.size := by
  refine ⟨h.active_eq, ?_⟩
  rw [h.size_eq]
  simp [enter]
  omega

/-- A statement with a label, around a part of the file in which the label is open. -/
theorem Leads.labeled (h : Leads (s.enter name).2 ls js s') (node : NodeId) :
    Leads s ((node, name) :: ls) js (s'.exit node).2 ∧
      (s'.exit node).1 = some ⟨s.all.size⟩ := by
  obtain ⟨hactive, hlt⟩ := h.innermost
  have hsize := h.size_eq
  simp only [enter, Array.size_push] at hsize
  have hget := get_exit hactive hlt node
  have hexit : s'.exit node = (some ⟨s.all.size⟩, (s'.exit node).2) ∧
      (s'.exit node).2.all.size = s'.all.size ∧ (s'.exit node).2.active = s.active ∧
      (s'.exit node).2.unresolved = s'.unresolved := by
    unfold exit
    rw [hactive]
    exact ⟨rfl, Array.size_modify, rfl, rfl⟩
  obtain ⟨hsome, hsize', hactive', hunresolved⟩ := hexit
  refine ⟨⟨hactive', ?_, ?_, fun j hj id hid => ?_, fun id hid => ?_, fun k node' name' hk => ?_⟩,
    congrArg Prod.fst hsome⟩
  · rw [hsize', hsize, List.length_cons]
    omega
  · rw [hunresolved]
    exact h.unresolved_eq
  · rw [hsize']
    exact h.goals j hj id hid
  · have hne : (⟨s.all.size⟩ : LabelId) ≠ id := by
      rintro rfl
      exact Nat.lt_irrefl _ hid
    have hkept := h.old id (by simp only [enter, Array.size_push]; omega)
    rw [hget, if_neg hne, hkept, show (s.enter name).2.get id = s.get id from get_push_lt hid]
  · rw [hget]
    cases k with
    | zero =>
      cases hk
      have hkept := h.old ⟨s.all.size⟩ (by simp [enter])
      rw [get_enter] at hkept
      simp only [Nat.add_zero, if_true, hkept, List.nil_append]
    | succ k =>
      have hnew := h.new k node' name' hk
      have hindex : (s.enter name).2.all.size + k = s.all.size + (k + 1) := by
        simp only [enter, Array.size_push]
        omega
      rw [hindex] at hnew
      rw [if_neg (by simp), hnew]

/-- A body, in which the labels around it are not open. -/
theorem Leads.hidden (h : Leads s.enterBody.2 ls js s') : Leads s ls js (s'.exitBody s.active) :=
  ⟨rfl, h.size_eq, h.unresolved_eq, h.goals, h.old, h.new⟩

theorem valid_enter (hs : s.Valid) (name : String) : (s.enter name).2.Valid := by
  intro id hid
  simp only [enter, List.mem_cons, Array.size_push] at hid ⊢
  rcases hid with rfl | hid
  · exact Nat.lt_succ_self _
  · exact Nat.lt_succ_of_lt (hs id hid)

theorem find?_enter (hs : s.Valid) (name other : String) : (s.enter name).2.find? other =
    if name = other then some ⟨s.all.size⟩ else s.find? other := by
  have hactive : (s.enter name).2.active = ⟨s.all.size⟩ :: s.active := rfl
  unfold find?
  rw [hactive, List.find?_cons, get_enter]
  by_cases hname : name = other
  · simp [hname]
  · simp only [beq_eq_false_iff_ne.2 hname, if_neg hname]
    refine List.find?_congr fun id hid => ?_
    rw [show (s.enter name).2.get id = s.get id from get_push_lt (hs id hid)]

/-! ## Whole files -/

theorem get_mem (h : id.index < s.all.size) : s.get id ∈ s.all := by
  simp [get, Array.getD_eq_getD_getElem?, h]

theorem Leads.all_size (h : Leads .empty ls js s) : s.all.size = ls.length := by
  simpa [empty] using h.size_eq

/-- Behind a whole file, a statement has one label, and its usages are the jumps to it. -/
theorem Leads.get_eq (h : Leads .empty ls js s) {k : Nat} {q : NodeId × String}
    (hk : ls[k]? = some q) : s.get ⟨k⟩ = ⟨q.2, some q.1, namesTo js (some ⟨k⟩)⟩ := by
  have hnew := h.new k q.1 q.2 hk
  rwa [show empty.all.size = 0 from rfl, Nat.zero_add] at hnew

/-- Behind a whole file, a jump is unresolved if it has no goal. -/
theorem Leads.mem_unresolved (h : Leads .empty ls js s) (hnodup : (js.map (·.1)).Nodup)
    {j : JumpGoal} (hj : j ∈ js) : j.1 ∈ s.unresolved ↔ j.2 = none := by
  rw [h.unresolved_eq, show empty.unresolved = [] from rfl, List.nil_append, mem_namesTo]
  refine ⟨fun hnone => ?_, fun hnone => hnone ▸ hj⟩
  exact congrArg Prod.snd (List.inj_on_of_nodup_map hnodup hj hnone rfl)

/-- Behind a whole file, the goal of a jump is the label of a statement, with it as a usage. -/
theorem Leads.exists_goal (h : Leads .empty ls js s) {j : JumpGoal} (hj : j ∈ js)
    (hid : j.2 = some id) : s.get id ∈ s.all ∧ j.1 ∈ (s.get id).usages ∧
      ∃ node, (s.get id).declaration = some node := by
  have hlt := h.goals j hj id hid
  obtain ⟨q, hk⟩ : ∃ q, ls[id.index]? = some q :=
    ⟨_, List.getElem?_eq_getElem (h.all_size ▸ hlt)⟩
  have hget : s.get id = _ := h.get_eq hk
  refine ⟨get_mem hlt, ?_, _, by rw [hget]⟩
  rw [hget]
  exact mem_namesTo.2 (hid ▸ hj)

/-- Behind a whole file, its labels are those of its statements. -/
theorem Leads.all_eq (h : Leads .empty ls js s) :
    s.all.toList = ls.mapIdx fun k q => ⟨q.2, some q.1, namesTo js (some ⟨k⟩)⟩ := by
  refine List.ext_getElem (by simp [h.all_size]) fun k hk hk' => ?_
  simp only [Array.length_toList] at hk
  have hget := h.get_eq (List.getElem?_eq_getElem (h.all_size ▸ hk))
  simpa [get, Array.getD_eq_getD_getElem?, hk] using hget

theorem Leads.declarations (h : Leads .empty ls js s) :
    s.all.toList.map (·.declaration) = (ls.map (·.1)).map some := by
  rw [h.all_eq]
  exact List.ext_getElem (by simp) fun k _ _ => by simp

/-- Behind a whole file, each of its jumps is a usage of one label or is unresolved. -/
theorem Leads.usages_perm (h : Leads .empty ls js s) (hnodup : (js.map (·.1)).Nodup) :
    (s.unresolved ++ s.all.toList.flatMap (·.usages)).Perm (js.map (·.1)) := by
  have hunresolved : s.unresolved = namesTo js none := by simpa [empty] using h.unresolved_eq
  have husages : s.all.toList.flatMap (·.usages) =
      (List.range ls.length).flatMap fun k => namesTo js (some ⟨k⟩) := by
    rw [h.all_eq, List.flatMap_def, List.flatMap_def]
    exact congrArg List.flatten (List.ext_getElem (by simp) fun k _ _ => by simp)
  have hgoal : ∀ {x : NodeId} {goal goal' : Option LabelId}, (x, goal) ∈ js → (x, goal') ∈ js →
      goal = goal' := fun hx hx' => congrArg Prod.snd (List.inj_on_of_nodup_map hnodup hx hx' rfl)
  have hnodup' : ∀ goal, (namesTo js goal).Nodup := fun goal =>
    hnodup.sublist (List.filter_sublist.map _)
  rw [hunresolved, husages]
  refine (List.perm_ext_iff_of_nodup ?_ hnodup).2 fun x => ?_
  · refine List.nodup_append.2 ⟨hnodup' none, List.nodup_flatMap.2 ⟨fun k _ => hnodup' _, ?_⟩, ?_⟩
    · refine List.nodup_range.imp fun hne x hx hx' => hne ?_
      cases hgoal (mem_namesTo.1 hx) (mem_namesTo.1 hx')
      rfl
    · rintro x hx _ hx' rfl
      obtain ⟨k, -, hx'⟩ := List.mem_flatMap.1 hx'
      cases hgoal (mem_namesTo.1 hx) (mem_namesTo.1 hx')
  · simp only [List.mem_append, List.mem_flatMap, List.mem_range, mem_namesTo, List.mem_map]
    constructor
    · rintro (hx | ⟨k, -, hx⟩)
      · exact ⟨_, hx, rfl⟩
      · exact ⟨_, hx, rfl⟩
    · rintro ⟨⟨x, goal⟩, hx, rfl⟩
      cases goal with
      | none => exact .inl hx
      | some goal => exact .inr ⟨goal.index, h.all_size ▸ h.goals _ hx goal rfl, hx⟩

end Labels

end JavaAnalysis
