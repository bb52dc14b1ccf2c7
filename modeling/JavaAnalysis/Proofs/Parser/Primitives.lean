import JavaAnalysis.Proofs.Parser.Place

/-!
# Stepping over lexemes

What the primitives of the parser do to the place where it stands: a lexeme that no cut can touch is
taken as it is.
-/

set_option autoImplicit false
set_option linter.dupNamespace false

namespace JavaAnalysis

namespace Ensures

variable {σ ε α β : Type} {s : σ}

theorem ite {c : Prop} [Decidable c] {p q : StateT σ (Except ε) α} {post : α → σ → Prop}
    (hp : c → Ensures p s post) (hq : ¬ c → Ensures q s post) :
    Ensures (if c then p else q) s post := by
  split
  · rename_i h
    exact hp h
  · rename_i h
    exact hq h

/-- A step whose branches meet again in `k`, the first of them somewhere inside it. -/
theorem meet {c : Prop} [Decidable c] {p : StateT σ (Except ε) β} {q : StateT σ (Except ε) α}
    {k : α → StateT σ (Except ε) β} {post : β → σ → Prop} (mid : α → σ → Prop)
    (hk : ∀ a t, mid a t → Ensures (k a) t post) (hq : ¬ c → Ensures q s mid)
    (hp : c → (∀ a t, mid a t → Ensures (k a) t post) → Ensures p s post) :
    Ensures (if c then p else q >>= k) s post :=
  ite (fun hc => hp hc hk) fun hc => (hq hc).bind hk

end Ensures

namespace Parser

open Lexeme

variable {raw : List Lexeme} {s t u : State} {α β : Type} {kind : TokenKind} {post : β → State → Prop}

/-! ## Looking ahead -/

theorem startHere_bind {f : Nat → Parser β} (h : Ensures (f s.start) s post) :
    Ensures (startHere >>= f) s post := h

theorem isAt_bind {f : Bool → Parser β} (h : Ensures (f (s.kind 0 == kind)) s post) :
    Ensures (isAt kind >>= f) s post := h

theorem kindAt_bind {f : TokenKind → Parser β} {n : Nat} (h : Ensures (f (s.kind n)) s post) :
    Ensures (kindAt n >>= f) s post := h

theorem rangeFrom_bind {f : TextRange → Parser β} {start : Nat}
    (h : Ensures (f (s.rangeFrom start)) s post) : Ensures (rangeFrom start >>= f) s post := h

theorem supports_bind {f : Bool → Parser β} {feature : Feature}
    (h : Ensures (f (s.level.supports feature)) s post) :
      Ensures (supports feature >>= f) s post := h

theorem ifAt {p q : Parser β} (hp : s.kind 0 = kind → Ensures p s post)
    (hq : s.kind 0 ≠ kind → Ensures q s post) :
    Ensures (isAt kind >>= fun b => if b = true then p else q) s post := by
  refine isAt_bind (.ite (fun h => hp ?_) fun h => hq ?_)
  · exact beq_iff_eq.1 h
  · exact fun heq => h (beq_iff_eq.2 heq)

theorem fail_ensures {message : String} : Ensures (fail message : Parser β) s post := by
  intro _ _ h
  cases h

theorem expected_ensures {what : String} : Ensures (expected what : Parser β) s post := by
  unfold expected
  exact .get (.ite (fun _ => fail_ensures) fun _ => fail_ensures)

theorem exhausted_ensures : Ensures (exhausted : Parser β) s post := fail_ensures

/-- Something was taken, or the parser stands where it stood. -/
def Perhaps (s : State) (taken : State → α → Prop) : Option α → State → Prop
  | some v, t => taken t v
  | none, t => t = s

/-- A parser that is tried leaves the place as it is where it fails. -/
theorem attempt_ensures {p : Parser α} {taken : State → α → Prop}
    (h : Ensures p s fun v t => taken t v) : Ensures (attempt p) s (Perhaps s taken) := by
  intro o t hrun
  unfold attempt at hrun
  split at hrun
  · rename_i v u hp
    cases hrun
    exact h v t hp
  · cases hrun
    rfl

/-! ## Stepping over the next lexeme -/

/-- What stepping over the next lexeme does, whatever that lexeme is. -/
structure Advanced (raw : List Lexeme) (s t : State) : Prop where
  step : Step raw s t
  consumed_eq : t.consumed = s.lexeme 0 :: s.consumed
  stop_eq : t.previousStop = (s.lexeme 0).stop
  lexeme_eq : ∀ n, t.lexeme n = s.lexeme (n + 1)
  passed : (s.kind 0).isFirm = true → Passed raw s t (s.lexeme 0)

/-- Where the file does not end, there is a lexeme behind the next one. -/
theorem At.split (hs : Significant raw) (h : At raw s) (hkind : s.kind 0 ≠ .endOfFile) :
    ∃ before x next later y, raw = before ++ x :: next :: later ∧ s.rest = y :: next :: later ∧
      (∀ z ∈ before, z.stop ≤ s.previousStop) ∧ s.previousStop ≤ y.start ∧ y.stop = x.stop ∧
      x.stop ≤ next.start ∧ (y = x ∨ Rest x y) := by
  obtain ⟨before, x, after, y, hraw, hrest, hbefore, hle, hxy⟩ := h.place
  have hy : y.kind ≠ .endOfFile := by simpa [State.kind, State.lexeme, hrest] using hkind
  have hx : x.kind ≠ .endOfFile := by
    rcases hxy with rfl | hxy
    · exact hy
    · intro hend
      have hgt := hxy.operator
      rw [hend] at hgt
      cases hgt
  have hstop : y.stop = x.stop := by
    rcases hxy with rfl | hxy
    · rfl
    · exact hxy.stop_eq
  obtain ⟨init, last, hinit, hend, -⟩ := hs.final
  cases after with
  | nil =>
    have hlast := List.append_inj_right' (hraw.symm.trans hinit) rfl
    rw [List.singleton_inj] at hlast
    exact absurd (hlast ▸ hend.kind) hx
  | cons next later =>
    have hfollow := hs.follow
    rw [hraw] at hfollow
    have hnext := (List.pairwise_cons.1 (List.pairwise_append.1 hfollow).2.1).1 next
      List.mem_cons_self
    exact ⟨before, x, next, later, y, hraw, hrest, hbefore, hle, hstop, hnext, hxy⟩

theorem advance_eq {y : Lexeme} {ys : List Lexeme} (hrest : s.rest = y :: ys) :
    advance s = .ok (y.range,
      if y.kind = .endOfFile then s else { s with rest := ys, consumed := y :: s.consumed }) := by
  obtain ⟨level, rest, consumed, final, budget⟩ := s
  subst hrest
  show (do
    if y.kind ≠ .endOfFile then set (State.mk level ys (y :: consumed) final budget)
    return y.range : Parser TextRange) _ = _
  by_cases hkind : y.kind = .endOfFile
  · simp only [hkind, ne_eq, not_true_eq_false, if_false]
    rfl
  · simp only [ne_eq, hkind, not_false_eq_true, if_true]
    rfl

theorem advance_ensures (hs : Significant raw) (h : At raw s) (hkind : s.kind 0 ≠ .endOfFile) :
    Ensures advance s fun range t => range = (s.lexeme 0).range ∧ Advanced raw s t := by
  obtain ⟨before, x, next, later, y, hraw, hrest, hbefore, hle, hstop, hnext, hxy⟩ :=
    h.split hs hkind
  have hlexeme : s.lexeme 0 = y := by simp [State.lexeme, hrest]
  have hstart : s.start = y.start := by rw [State.start, hlexeme]
  have hwidth : y.start ≤ y.stop := Nat.le_add_right _ _
  have hy : y.kind ≠ .endOfFile := by simpa [State.kind, hlexeme] using hkind
  intro range t hrun
  rw [advance_eq hrest, if_neg hy] at hrun
  cases hrun
  have hat : At raw { s with rest := next :: later, consumed := y :: s.consumed } := by
    refine ⟨h.final, before ++ [x], next, later, next, by simp [hraw], rfl, fun z hz => ?_,
      ?_, .inl rfl⟩
    · show z.stop ≤ y.stop
      rcases List.mem_append.1 hz with hz | hz
      · have := hbefore z hz
        omega
      · rw [List.mem_singleton.1 hz, hstop]
    · show y.stop ≤ next.start
      omega
  have hlexemes : State.lexemes { s with rest := next :: later, consumed := y :: s.consumed } =
      s.lexemes := by
    simp [State.lexemes, hrest]
  have hprevious : s.previousStop ≤ y.stop := by omega
  refine ⟨by rw [hlexeme], ⟨⟨hat, ?_, hprevious⟩, ?_⟩, by rw [hlexeme], by rw [hlexeme]; rfl,
    fun n => ?_, fun hfirm => ?_⟩
  · show s.start ≤ next.start
    omega
  · exact .cons (x := y) rfl fun cuts hcut => hcut.mono hlexemes hprevious
  · simp [State.lexeme, hrest]
  · have hxy' : y = x := by
      refine hxy.resolve_right fun hxy => ?_
      rw [State.kind, hlexeme, isFirm_of_ofGtText? hxy.gtText] at hfirm
      cases hfirm
    subst hxy'
    have hfollow := hs.follow
    rw [hraw] at hfollow
    obtain ⟨-, hafter, hcross⟩ := List.pairwise_append.1 hfollow
    obtain ⟨hxafter, hafter⟩ := List.pairwise_cons.1 hafter
    rw [hlexeme]
    refine ⟨hat, rfl, hlexemes, by simp [hraw], by rwa [State.kind, hlexeme] at hfirm, hstart, rfl,
      fun z hz hlt => ?_,
      fun z hz hlt => ?_, hle⟩
    · rw [hraw] at hz
      rcases List.mem_append.1 hz with hz | hz
      · exact hbefore z hz
      · rcases List.mem_cons.1 hz with rfl | hz
        · omega
        · have := hxafter z hz
          omega
    · show next.start ≤ z.start
      rw [hraw] at hz
      rcases List.mem_append.1 hz with hz | hz
      · have hzx := hcross z hz y List.mem_cons_self
        have : z.start ≤ z.stop := Nat.le_add_right _ _
        omega
      · rcases List.mem_cons.1 hz with rfl | hz
        · omega
        · rcases List.mem_cons.1 hz with rfl | hz
          · exact Nat.le_refl _
          · have hznext := (List.pairwise_cons.1 hafter).1 z hz
            have : next.start ≤ next.stop := Nat.le_add_right _ _
            omega

/-- The end of the file is not stepped over. -/
theorem advance_step (hs : Significant raw) (h : At raw s) :
    Ensures advance s fun _ t => Step raw s t := by
  by_cases hkind : s.kind 0 = .endOfFile
  · intro range t hrun
    obtain ⟨before, x, after, y, -, hrest, -⟩ := h.place
    have hy : y.kind = .endOfFile := by simpa [State.kind, State.lexeme, hrest] using hkind
    rw [advance_eq hrest, if_pos hy] at hrun
    cases hrun
    exact .refl h
  · exact (advance_ensures hs h hkind).mono fun _ _ ht => ht.2.step

theorem ne_endOfFile_of_isFirm (hfirm : kind.isFirm = true) : kind ≠ .endOfFile := by
  rintro rfl
  cases hfirm

/-- Stepping over a lexeme that no cut can touch. -/
theorem advance_passed (hs : Significant raw) (h : At raw s) (hfirm : (s.kind 0).isFirm = true) :
    Ensures advance s fun range t => Passed raw s t (s.lexeme 0) ∧
      range = ⟨s.start, t.previousStop⟩ ∧ ∀ n, t.kind n = s.kind (n + 1) := by
  refine (advance_ensures hs h (ne_endOfFile_of_isFirm hfirm)).mono
    fun range t ⟨hrange, ht⟩ => ⟨ht.passed hfirm, ?_, fun n => ?_⟩
  · rw [hrange, ht.stop_eq]
    rfl
  · rw [State.kind, State.kind, ht.lexeme_eq]

theorem advance_took (hs : Significant raw) (h : At raw s) (hkind : s.kind 0 = kind)
    (hfirm : kind.isFirm = true) :
    Ensures advance s fun range t => Took raw s t kind ∧ range = ⟨s.start, t.previousStop⟩ ∧
      ∀ n, t.kind n = s.kind (n + 1) :=
  (advance_passed hs h (hkind ▸ hfirm)).mono fun _ _ ⟨ht, hrange, hnext⟩ =>
    ⟨⟨s.lexeme 0, ht, hkind⟩, hrange, hnext⟩

theorem expect_took (hs : Significant raw) (h : At raw s) (hfirm : kind.isFirm = true) :
    Ensures (expect kind) s fun range t => Took raw s t kind ∧ range =
      ⟨s.start, t.previousStop⟩ := by
  unfold expect
  refine ifAt (fun hkind => ?_) fun _ => expected_ensures
  exact (advance_took hs h hkind hfirm).mono fun range t ⟨ht, hrange, _⟩ => ⟨ht, hrange⟩

theorem expect_step (hs : Significant raw) (h : At raw s) :
    Ensures (expect kind) s fun _ t => Step raw s t := by
  unfold expect
  exact ifAt (fun _ => advance_step hs h) fun _ => expected_ensures

theorem eat_step (hs : Significant raw) (h : At raw s) :
    Ensures (eat kind) s fun b t => Step raw s t ∧ (b = false → t = s) := by
  unfold eat
  refine ifAt (fun _ => ?_) fun _ => .pure ⟨.refl h, fun _ => rfl⟩
  exact (advance_step hs h).bind fun _ t ht => .pure ⟨ht, nofun⟩

theorem eat_took (hs : Significant raw) (h : At raw s) (hfirm : kind.isFirm = true) :
    Ensures (eat kind) s fun b t =>
      b = true ∧ Took raw s t kind ∨ b = false ∧ s.kind 0 ≠ kind ∧ t = s := by
  unfold eat
  refine ifAt (fun hkind => ?_) fun hkind => .pure (.inr ⟨rfl, hkind, rfl⟩)
  exact (advance_took hs h hkind hfirm).bind fun _ t ⟨ht, _⟩ => .pure (.inl ⟨rfl, ht⟩)

theorem eat_reads (hs : Significant raw) (h : At raw s) (hfirm : kind.isFirm = true) :
    Ensures (eat kind) s fun _ t => Reads raw s t [] := by
  refine (eat_took hs h hfirm).mono ?_
  rintro b t (⟨-, ht⟩ | ⟨-, -, rfl⟩)
  · exact ht.takes.reads
  · exact .nil h

/-- Going on in one way if a lexeme of the kind is taken, and in another way if none stands here. -/
theorem ifEat {p q : Parser β} (hs : Significant raw) (h : At raw s) (hfirm : kind.isFirm = true)
    (hp : ∀ t, Took raw s t kind → Ensures p t post) (hq : s.kind 0 ≠ kind → Ensures q s post) :
    Ensures (eat kind >>= fun b => if b = true then p else q) s post := by
  refine (eat_took hs h hfirm).bind fun b t hb => ?_
  rcases hb with ⟨rfl, ht⟩ | ⟨rfl, hkind, rfl⟩
  · exact hp t ht
  · exact hq hkind

/-- The same where both ways meet again. -/
theorem ifEatJoin {p q : Parser α} {k : α → Parser β} (mid : α → State → Prop)
    (hs : Significant raw) (h : At raw s) (hfirm : kind.isFirm = true)
    (hp : ∀ t, Took raw s t kind → Ensures p t mid) (hq : s.kind 0 ≠ kind → Ensures q s mid)
    (hk : ∀ a t, mid a t → Ensures (k a) t post) :
    Ensures (eat kind >>= fun b => if b = true then p >>= k else q >>= k) s post :=
  ifEat hs h hfirm (fun t ht => (hp t ht).bind hk) fun hkind => (hq hkind).bind hk

/-- The same where the way behind the lexeme meets the other one somewhere inside it. -/
theorem ifEatMeet {p : Parser β} {q : Parser α} {k : α → Parser β} (mid : α → State → Prop)
    (hs : Significant raw) (h : At raw s) (hfirm : kind.isFirm = true)
    (hk : ∀ a t, mid a t → Ensures (k a) t post) (hq : s.kind 0 ≠ kind → Ensures q s mid)
    (hp : ∀ t, Took raw s t kind → (∀ a t, mid a t → Ensures (k a) t post) → Ensures p t post) :
    Ensures (eat kind >>= fun b => if b = true then p else q >>= k) s post :=
  ifEat hs h hfirm (fun t ht => hp t ht hk) fun hkind => (hq hkind).bind hk

theorem ifAtJoin {p q : Parser α} {k : α → Parser β} (mid : α → State → Prop)
    (hp : s.kind 0 = kind → Ensures p s mid) (hq : s.kind 0 ≠ kind → Ensures q s mid)
    (hk : ∀ a t, mid a t → Ensures (k a) t post) :
    Ensures (isAt kind >>= fun b => if b = true then p >>= k else q >>= k) s post :=
  ifAt (fun hkind => (hp hkind).bind hk) fun hkind => (hq hkind).bind hk

theorem iteJoin {c : Prop} [Decidable c] {p q : Parser α} {k : α → Parser β}
    (mid : α → State → Prop) (hp : c → Ensures p s mid) (hq : ¬ c → Ensures q s mid)
    (hk : ∀ a t, mid a t → Ensures (k a) t post) :
    Ensures (if c then p >>= k else q >>= k) s post :=
  .ite (fun hc => (hp hc).bind hk) fun hc => (hq hc).bind hk

/-! ## Names -/

/-- The parser has taken a name, which is an identifier or a word in the place of one. -/
structure Named (raw : List Lexeme) (s t : State) (n : Ast.Ident) : Prop where
  took : ∃ kind, Took raw s t kind
  range_eq : n.range = ⟨s.start, t.previousStop⟩
  spelled : Spelled raw n

namespace Named

variable {n : Ast.Ident}

theorem stop_eq (h : Named raw s t n) : n.range.stop = t.previousStop := by
  rw [h.range_eq]

theorem start_eq (h : Named raw s t n) : n.range.start = s.start := by
  rw [h.range_eq]

theorem step (h : Named raw s t n) : Step raw s t := by
  obtain ⟨kind, hkind⟩ := h.took
  exact hkind.step

theorem at_ (h : Named raw s t n) : At raw t := h.step.at_

/-- The name tells of the one site that stands where it starts. -/
theorem trail (h : Named raw s t n) {site : Site} (hkey : site.key? = some s.start) :
    Trail raw s t [site] := by
  obtain ⟨kind, hkind⟩ := h.took
  exact hkind.named hkey

/-- The name is left out. -/
theorem bare (h : Named raw s t n) : Takes raw s t [] := by
  obtain ⟨kind, hkind⟩ := h.took
  exact hkind.takes

/-- The name becomes an identifier that uses nothing but itself. -/
theorem takes (h : Named raw s t n) {use : Option Nat} (huse : ∀ o, use = some o → o = s.start) :
    Takes raw s t [.ident n.range use] := by
  obtain ⟨kind, hkind⟩ := h.took
  have hle := hkind.takes.le
  refine ⟨h.step.toMoved, hkind.anchored.any, .singleton ?_ hle, ?_, ?_⟩
  · simp only [Fits, Ranged, h.range_eq]
    exact ⟨Nat.le_refl _, Nat.le_refl _, hkind.anchored.any⟩
  · cases use with
    | none => simpa [Shape.sites] using h.step.trail
    | some o =>
      simp only [shapeSites_cons, shapeSites_nil, Shape.sites]
      exact h.trail (congrArg some (huse o rfl))
  · simp only [WellRanged, shapeRanges_cons, Shape.ranges, shapeRanges_nil, List.append_nil,
      List.forall_mem_singleton, h.range_eq]
    exact hle

theorem name (h : Named raw s t n) : Takes raw s t [.name n] := h.takes nofun

theorem nameUse (h : Named raw s t n) : Takes raw s t [.nameUse n] :=
  h.takes fun _ ho => (Option.some.inj ho).symm.trans h.start_eq

end Named

/-- What stands around a name tells of the declaration of the name as well. -/
theorem Named.declared {n : Ast.Ident} {v : State} {as bs : List Site} (h : Named raw t u n)
    (hbefore : Trail raw s t as) (hafter : Trail raw u v bs) (site : Site)
    (hkey : site.key? = some n.range.start) : Trail raw s v (as ++ bs ++ [site]) := by
  rw [h.start_eq] at hkey
  refine (hbefore.append ((h.trail hkey).append hafter)).perm ?_
  rw [List.append_assoc]
  exact List.perm_append_comm.append_left as

/-- A name and what stands around it become a node that declares the name. -/
theorem Named.declares {n : Ast.Ident} {v : State} {as bs : List Shape} {spec : NodeSpec}
    (h : Named raw t u n) (hbefore : Reads raw s t as) (hafter : Reads raw u v bs)
    (hrange : spec.range = ⟨s.start, v.previousStop⟩) (hword : spec.word = none)
    (hsites : spec.sites = [.declaration spec.kind spec.range n.range.start])
    (hgaps : ∀ r ∈ spec.gaps.ranges, r.start ≤ r.stop) :
    Takes raw s v [.node spec (as ++ .name n :: bs)] := by
  have hwhole := (h.name.append hafter).after hbefore
  refine .of_node hwhole.step hwhole.anchored hwhole.placed hrange (hword ▸ hwhole.anchored)
    ⟨?_, wellRanged_node.2 ⟨List.forall_mem_cons.2 ⟨?_, hgaps⟩, hwhole.traced.ranged⟩⟩
  · have hall := h.declared hbefore.traced.trail hafter.traced.trail
      (.declaration spec.kind spec.range n.range.start) rfl
    simpa [Shape.sites, hsites] using hall
  · rw [hrange]
    exact hwhole.le

/-- The same for a node that needs nothing else. -/
theorem Named.declaring {n : Ast.Ident} {v : State} {as bs : List Shape}
    (h : Named raw t u n) (hbefore : Reads raw s t as) (hafter : Reads raw u v bs)
    (kind : NodeKind) (hangled : kind.isAngled = false) :
    Takes raw s v [.node (.declaring kind (v.rangeFrom s.start) n.range.start)
      (as ++ .name n :: bs)] := by
  have hwhole := (h.name.append hafter).after hbefore
  rw [hwhole.rangeFrom_eq]
  refine h.declares hbefore hafter rfl rfl ?_ nofun
  simp [NodeSpec.sites, NodeSpec.declaring, NodeSpec.plain, angledSites, hangled]

theorem word_ensures (hs : Significant raw) (h : At raw s) (hkind : s.kind 0 = kind)
    (hfirm : kind.isFirm = true) : Ensures word s fun n t => Named raw s t n := by
  unfold word
  refine Ensures.get ?_
  refine (advance_passed hs h (hkind ▸ hfirm)).bind fun range t ⟨ht, hrange, _⟩ =>
    .pure ⟨⟨kind, s.lexeme 0, ht, hkind⟩, hrange, s.lexeme 0, ht.mem, ht.firm, ?_, rfl⟩
  show (⟨(s.lexeme 0).start, (s.lexeme 0).stop⟩ : TextRange) = range
  rw [hrange, ht.start_eq, ht.stop_eq]

theorem ident_ensures (hs : Significant raw) (h : At raw s) :
    Ensures ident s fun n t => Named raw s t n := by
  unfold ident
  exact ifAt (fun hkind => word_ensures hs h hkind rfl) fun _ => expected_ensures

end Parser

end JavaAnalysis
