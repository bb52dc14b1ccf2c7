/-!
# What runs of stateful steps ensure

Parsers and the steps that lay out trees are functions on a state that may fail. `Ensures` says what
is true of a run in case it does not fail, `Succeeds` that it does not fail as well, and `Fails` how it
may fail. All are shown for a step from what is shown for its parts, in the order in which these
run.
-/

set_option autoImplicit false

namespace JavaAnalysis

section

variable {ε α β : Type}

theorem bind_eq_ok {x : Except ε α} {f : α → Except ε β} {b : β} :
    (x >>= f) = .ok b ↔ ∃ a, x = .ok a ∧ f a = .ok b := by
  cases x with
  | error e => exact ⟨nofun, nofun⟩
  | ok a =>
    constructor
    · exact fun h => ⟨a, rfl, h⟩
    · rintro ⟨_, ha, h⟩
      cases ha
      exact h

theorem toOption_eq_some {x : Except ε α} {a : α} : x.toOption = some a ↔ x = .ok a := by
  cases x <;> simp [Except.toOption]

theorem map_eq_ok {x : Except ε α} {f : α → β} {b : β} :
    x.map f = .ok b ↔ ∃ a, x = .ok a ∧ f a = b := by
  cases x with
  | error e => exact ⟨nofun, nofun⟩
  | ok a =>
    constructor
    · exact fun h => ⟨a, rfl, Except.ok.inj h⟩
    · rintro ⟨_, ha, rfl⟩
      cases ha
      rfl

theorem check_eq_ok {x : Except ε Unit} {y : Except ε β} {b : β} :
    (do x; y) = .ok b ↔ x = .ok () ∧ y = .ok b := by
  rw [bind_eq_ok]
  constructor
  · exact fun ⟨_, hx, hy⟩ => ⟨hx, hy⟩
  · exact fun ⟨hx, hy⟩ => ⟨(), hx, hy⟩

end

section

variable {σ ε α β : Type} {p : StateT σ (Except ε) α} {f : α → StateT σ (Except ε) β} {s : σ}

/-- If the step does not fail, its result and the new state are as told. -/
def Ensures (p : StateT σ (Except ε) α) (s : σ) (post : α → σ → Prop) : Prop :=
  ∀ a s', p s = .ok (a, s') → post a s'

/-- The step does not fail, and its result and the new state are as told. -/
def Succeeds (p : StateT σ (Except ε) α) (s : σ) (post : α → σ → Prop) : Prop :=
  ∃ a s', p s = .ok (a, s') ∧ post a s'

/-- Wherever the step starts, it fails only as told. -/
def Fails (p : StateT σ (Except ε) α) (bad : ε → Prop) : Prop := ∀ s e, p s = .error e → bad e

theorem get_bind_run (f : σ → StateT σ (Except ε) α) (s : σ) :
    (MonadState.get >>= f : StateT σ (Except ε) α) s = f s s := rfl

theorem bind_run_eq_ok {b : β} {s' : σ} :
    (p >>= f) s = .ok (b, s') ↔ ∃ a t, p s = .ok (a, t) ∧ f a t = .ok (b, s') := by
  have hbind : (p >>= f) s = (p s >>= fun r => f r.1 r.2) := rfl
  rw [hbind, bind_eq_ok]
  constructor
  · exact fun ⟨⟨a, t⟩, hp, hf⟩ => ⟨a, t, hp, hf⟩
  · exact fun ⟨a, t, hp, hf⟩ => ⟨⟨a, t⟩, hp, hf⟩

namespace Ensures

theorem pure {post : α → σ → Prop} {a : α} (h : post a s) :
    Ensures (Pure.pure a : StateT σ (Except ε) α) s post := by
  intro b s' hrun
  cases hrun
  exact h

theorem bind {mid : α → σ → Prop} {post : β → σ → Prop} (hp : Ensures p s mid)
    (hf : ∀ a t, mid a t → Ensures (f a) t post) : Ensures (p >>= f) s post := by
  intro b s' hrun
  obtain ⟨a, t, hpa, hfb⟩ := bind_run_eq_ok.1 hrun
  exact hf a t (hp a t hpa) b s' hfb

theorem mono {mid post : α → σ → Prop} (hp : Ensures p s mid) (h : ∀ a t, mid a t → post a t) :
    Ensures p s post :=
  fun a t hrun => h a t (hp a t hrun)

theorem map {g : α → β} {mid : α → σ → Prop} {post : β → σ → Prop} (hp : Ensures p s mid)
    (h : ∀ a t, mid a t → post (g a) t) : Ensures (g <$> p) s post := by
  intro b s' hrun
  have hmap : (g <$> p) s = (p s >>= fun r => Except.ok (g r.1, r.2)) := by
    cases hps : p s with
    | error e => exact congrArg (Except.map _) hps
    | ok r => exact congrArg (Except.map _) hps
  rw [hmap, bind_eq_ok] at hrun
  obtain ⟨⟨a, t⟩, hpa, heq⟩ := hrun
  cases heq
  exact h a t (hp a t hpa)

/-- A step that reads the state. -/
theorem get {f : σ → StateT σ (Except ε) β} {post : β → σ → Prop} (h : Ensures (f s) s post) :
    Ensures (MonadState.get >>= f) s post := h

theorem throw {post : α → σ → Prop} {e : ε} :
    Ensures (throw e : StateT σ (Except ε) α) s post := nofun

theorem throw_bind {γ : Type} {q : γ → StateT σ (Except ε) α} {post : α → σ → Prop} {e : ε} :
    Ensures ((MonadExcept.throw e : StateT σ (Except ε) γ) >>= q) s post := nofun

theorem and {post also : α → σ → Prop} (h : Ensures p s post) (h' : Ensures p s also) :
    Ensures p s fun a t => post a t ∧ also a t :=
  fun a t hrun => ⟨h a t hrun, h' a t hrun⟩

end Ensures

namespace Succeeds

theorem pure {post : α → σ → Prop} {a : α} (h : post a s) :
    Succeeds (Pure.pure a : StateT σ (Except ε) α) s post :=
  ⟨a, s, rfl, h⟩

theorem bind {mid : α → σ → Prop} {post : β → σ → Prop} (hp : Succeeds p s mid)
    (hf : ∀ a t, mid a t → Succeeds (f a) t post) : Succeeds (p >>= f) s post := by
  obtain ⟨a, t, hpa, hmid⟩ := hp
  obtain ⟨b, s', hfb, hpost⟩ := hf a t hmid
  exact ⟨b, s', bind_run_eq_ok.2 ⟨a, t, hpa, hfb⟩, hpost⟩

theorem mono {mid post : α → σ → Prop} (hp : Succeeds p s mid) (h : ∀ a t, mid a t → post a t) :
    Succeeds p s post := by
  obtain ⟨a, t, hpa, hmid⟩ := hp
  exact ⟨a, t, hpa, h a t hmid⟩

theorem get {f : σ → StateT σ (Except ε) β} {post : β → σ → Prop} (h : Succeeds (f s) s post) :
    Succeeds (MonadState.get >>= f) s post := h

theorem ensures {post : α → σ → Prop} (hp : Succeeds p s post) : Ensures p s post := by
  obtain ⟨a, t, hpa, hpost⟩ := hp
  intro b s' hrun
  rw [hpa] at hrun
  cases hrun
  exact hpost

end Succeeds

namespace Fails

variable {bad : ε → Prop}

theorem pure {a : α} : Fails (Pure.pure a : StateT σ (Except ε) α) bad := nofun

theorem throw {e : ε} (h : bad e) : Fails (throw e : StateT σ (Except ε) α) bad := by
  rintro s _ ⟨⟩
  exact h

theorem bind (hp : Fails p bad) (hf : ∀ a, Fails (f a) bad) : Fails (p >>= f) bad := by
  intro s e hrun
  have hbind : (p >>= f) s = (p s >>= fun r => f r.1 r.2) := rfl
  cases hps : p s with
  | error e' =>
    rw [hbind, hps] at hrun
    cases hrun
    exact hp s e hps
  | ok r =>
    rw [hbind, hps] at hrun
    exact hf r.1 r.2 e hrun

theorem get {f : σ → StateT σ (Except ε) β} (h : ∀ s, Fails (f s) bad) :
    Fails (MonadState.get >>= f) bad :=
  fun s e hrun => h s s e hrun

/-- A step that never fails. -/
theorem total (h : ∀ s, ∃ r, p s = .ok r) : Fails p bad := by
  intro s e hrun
  obtain ⟨r, hr⟩ := h s
  rw [hr] at hrun
  cases hrun

end Fails

end

end JavaAnalysis
