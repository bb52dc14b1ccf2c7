import JavaAnalysis.Run

/-!
# What a run keeps

Every step of a run asks whether to stop, notes a request to stop, starts a file, or counts one.
`Keeps` says of these four what an invariant has to show of each; `Keeps.analyze` is the whole run.
The outcomes are those of the history: each file has the outcome of its last start.
-/

set_option autoImplicit false

namespace JavaAnalysis

/-- The outcome that the event gives the file numbered `i`. -/
def RunEvent.outcome? (i : Nat) : RunEvent → Option FileOutcome
  | .stop => none
  | .start j _ outcome => if j = i then some outcome else none

/-- The number of the file that is read alone. -/
def RunEvent.read? : RunEvent → Option Nat
  | .start i true _ => some i
  | _ => none

/-- The outcome of the last start of the file numbered `i`. -/
def lastOutcome? (i : Nat) (history : List RunEvent) : Option FileOutcome :=
  (history.filterMap (RunEvent.outcome? i)).getLast?

/-- The numbers of the files that were read alone. -/
def Progress.reads {σ : Type} (p : Progress σ) : List Nat := p.history.filterMap RunEvent.read?

theorem lastOutcome?_concat (i : Nat) (history : List RunEvent) (e : RunEvent) :
    lastOutcome? i (history ++ [e]) = (e.outcome? i).or (lastOutcome? i history) := by
  unfold lastOutcome?
  cases h : e.outcome? i <;> simp [h]

theorem lastOutcome?_stop {σ : Type} (j : Nat) (p : Progress σ) :
    lastOutcome? j p.stop.history = lastOutcome? j p.history :=
  lastOutcome?_concat j p.history .stop

theorem lastOutcome?_start {σ : Type} (j i : Nat) (alone : Bool) (outcome : FileOutcome)
    (p : Progress σ) :
    lastOutcome? j (p.happens (.start i alone outcome)).history =
      if i = j then some outcome else lastOutcome? j p.history := by
  refine (lastOutcome?_concat j p.history _).trans ?_
  by_cases hij : i = j <;> simp [RunEvent.outcome?, hij]

namespace Run

variable {σ α β : Type} {p : Progress σ}

theorem bind_apply (x : Step σ α) (g : α → Step σ β) : (x >>= g) p = g (x p).1 (x p).2 := rfl

/-- What asking whether to stop does. -/
inductive Asked (p : Progress σ) : Bool × Progress σ → Prop where
  | answered (n : Option Nat) : Asked p (p.cancelled, { p with stopAfter := n })
  | stopped : Asked p (true, { p.stop with stopAfter := none })

theorem asked (p : Progress σ) : Asked p (isCancelled p) := by
  obtain ⟨s, cancelled, stopAfter, history, reprocessed⟩ := p
  match stopAfter with
  | none => exact .answered none
  | some 0 => exact .stopped
  | some (n + 1) => exact .answered (some n)

theorem Asked.cancelled {r : Bool × Progress σ} (h : Asked p r) : r.2.cancelled = r.1 := by
  cases h <;> rfl

theorem Asked.slots {r : Bool × Progress σ} (h : Asked p r) (i : Nat) :
    lastOutcome? i r.2.history = lastOutcome? i p.history := by
  cases h with
  | answered n => rfl
  | stopped => exact lastOutcome?_stop i p

theorem inFrontEnd_apply (step : StateM σ α) (p : Progress σ) :
    inFrontEnd step p = ((step p.frontEnd).1, { p with frontEnd := (step p.frontEnd).2 }) := rfl

/-- Reads a file alone, which gives its outcome. -/
def visit (f : FrontEnd σ) (policy : SyntaxPolicy) (i : Nat) (input : SourceInput)
    (p : Progress σ) : FileOutcome × Progress σ :=
  let r := f.read input p.frontEnd
  let outcome := FileOutcome.ofReading policy input r.1.result
  let read := { p with frontEnd := r.2 }.happens (.start i true outcome)
  (outcome, if r.1.stops then read.stop else read)

theorem single_apply (f : FrontEnd σ) (policy : SyntaxPolicy) (i : Nat) (input : SourceInput)
    (p : Progress σ) :
    single f policy i input p =
      if (isCancelled p).1 then (none, (isCancelled p).2)
      else (some (visit f policy i input (isCancelled p).2).1,
        (visit f policy i input (isCancelled p).2).2) := by
  unfold single visit
  rw [bind_apply]
  cases (isCancelled p).1 with
  | true => rfl
  | false =>
    simp only [Bool.false_eq_true, if_false]
    rw [bind_apply, inFrontEnd_apply, bind_apply]
    cases (f.read input (isCancelled p).2.frontEnd).1.stops <;> rfl

theorem take_accept (policy : SyntaxPolicy) (inputs : List SourceInput) (slots : Slots) (i : Nat)
    (parsed : ParsedUnit) (p : Progress σ) :
    take policy inputs slots (.accept i parsed) p =
      if (isCancelled p).1 then (slots, (isCancelled p).2)
      else match inputs[i]? with
        | none => (slots, (isCancelled p).2)
        | some input =>
          let outcome := FileOutcome.ofReading policy input (.ok parsed)
          (slots.set i (some outcome), (isCancelled p).2.happens (.start i false outcome)) := by
  show (isCancelled >>= _) p = _
  rw [bind_apply]
  cases (isCancelled p).1 with
  | true => rfl
  | false => cases inputs[i]? <;> rfl

theorem readMissing_none (f : FrontEnd σ) (policy : SyntaxPolicy) (i : Nat) (input : SourceInput)
    (rest : List (SourceInput × Option FileOutcome)) (p : Progress σ) :
    readMissing f policy i ((input, none) :: rest) p =
      if (isCancelled p).1 then (none :: rest.map (·.2), (isCancelled p).2)
      else
        let counted := { (isCancelled p).2 with reprocessed := (isCancelled p).2.reprocessed + 1 }
        let first := single f policy i input counted
        let others := readMissing f policy (i + 1) rest first.2
        (first.1 :: others.1, others.2) := by
  show (isCancelled >>= _) p = _
  rw [bind_apply]
  cases (isCancelled p).1 <;> rfl

/--
What is shown of an invariant: asking, a request to stop, the two ways to start a file, and the count
keep it. No file is started once there is a request to stop.
-/
structure Keeps (f : FrontEnd σ) (policy : SyntaxPolicy) (inputs : List SourceInput)
    (events : List BatchEvent) (I : Progress σ → Prop) : Prop where
  asked : ∀ {p n}, I p → I { p with stopAfter := n }
  stopped : ∀ {p}, I p → I p.stop
  counted : ∀ {p}, I p → I { p with reprocessed := p.reprocessed + 1 }
  converted : ∀ {p i input parsed}, p.cancelled = false → inputs[i]? = some input →
    .accept i parsed ∈ events → I p →
    I (p.happens (.start i false (.ofReading policy input (.ok parsed))))
  read : ∀ {p i input}, p.cancelled = false → inputs[i]? = some input → I p →
    I ({ p with frontEnd := (f.read input p.frontEnd).2 }.happens
      (.start i true (.ofReading policy input (f.read input p.frontEnd).1.result)))

section

variable {f : FrontEnd σ} {policy : SyntaxPolicy} {inputs : List SourceInput}
  {events : List BatchEvent} {I : Progress σ → Prop}

namespace Keeps

variable (h : Keeps f policy inputs events I)

include h

theorem isCancelled (hp : I p) : I (isCancelled p).2 := by
  have hasked := Run.asked p
  generalize Run.isCancelled p = r at hasked ⊢
  cases hasked with
  | answered n => exact h.asked hp
  | stopped => exact h.asked (h.stopped hp)

theorem visit {i : Nat} {input : SourceInput} (hactive : p.cancelled = false)
    (hinput : inputs[i]? = some input) (hp : I p) : I (visit f policy i input p).2 := by
  have hread := h.read hactive hinput hp
  unfold Run.visit
  dsimp only
  split
  · exact h.stopped hread
  · exact hread

theorem single {i : Nat} {input : SourceInput} (hinput : inputs[i]? = some input) (hp : I p) :
    I (single f policy i input p).2 := by
  rw [single_apply]
  cases hasked : (Run.isCancelled p).1 with
  | true => exact h.isCancelled hp
  | false =>
    exact h.visit ((Run.asked p).cancelled.trans hasked) hinput (h.isCancelled hp)

theorem singles {rest : List SourceInput} {i : Nat}
    (hrest : ∀ k input, rest[k]? = some input → inputs[i + k]? = some input) (hp : I p) :
    I (singles f policy i rest p).2 := by
  induction rest generalizing i p with
  | nil => exact hp
  | cons input rest ih =>
    have hinput : inputs[i]? = some input := hrest 0 input rfl
    have htail : ∀ k x, rest[k]? = some x → inputs[i + 1 + k]? = some x := fun k x hx => by
      have := hrest (k + 1) x hx
      rwa [show i + (k + 1) = i + 1 + k by omega] at this
    exact ih htail (h.single hinput hp)

theorem take {slots : Slots} {e : BatchEvent} (he : e ∈ events) (hp : I p) :
    I (take policy inputs slots e p).2 := by
  cases e with
  | stop => exact h.stopped hp
  | accept i parsed =>
    have hasked := h.isCancelled hp
    rw [take_accept]
    cases hcancelled : (Run.isCancelled p).1 with
    | true => exact hasked
    | false =>
      cases hinput : inputs[i]? with
      | none => exact hasked
      | some input =>
        exact h.converted ((Run.asked p).cancelled.trans hcancelled) hinput he hasked

theorem takeAll (slots : Slots) {es : List BatchEvent} (hes : ∀ e ∈ es, e ∈ events) (hp : I p) :
    I (takeAll policy inputs slots es p).2 := by
  induction es generalizing slots p with
  | nil => exact hp
  | cons e es ih =>
    exact ih _ (fun x hx => hes x (List.mem_cons_of_mem _ hx))
      (h.take (hes e List.mem_cons_self) hp)

theorem readMissing {rest : List (SourceInput × Option FileOutcome)} {i : Nat}
    (hrest : ∀ k x, rest[k]? = some x → inputs[i + k]? = some x.1) (hp : I p) :
    I (readMissing f policy i rest p).2 := by
  induction rest generalizing i p with
  | nil => exact hp
  | cons x rest ih =>
    obtain ⟨input, slot⟩ := x
    have hinput : inputs[i]? = some input := hrest 0 (input, slot) rfl
    have htail : ∀ k x, rest[k]? = some x → inputs[i + 1 + k]? = some x.1 := fun k x hx => by
      have := hrest (k + 1) x hx
      rwa [show i + (k + 1) = i + 1 + k by omega] at this
    cases slot with
    | some outcome => exact ih htail hp
    | none =>
      have hasked := h.isCancelled hp
      rw [readMissing_none]
      cases (Run.isCancelled p).1 with
      | true => exact hasked
      | false => exact ih htail (h.single hinput (h.counted hasked))

end Keeps

end

/-- From the file numbered `i` on, the slots hold the outcomes of the last starts. -/
def Tells (history : List RunEvent) : Nat → Slots → Prop
  | _, [] => True
  | i, slot :: slots => slot = lastOutcome? i history ∧ Tells history (i + 1) slots

theorem Tells.congr {history history' : List RunEvent} {i : Nat} {slots : Slots}
    (hsame : ∀ j, i ≤ j → lastOutcome? j history' = lastOutcome? j history)
    (h : Tells history i slots) : Tells history' i slots := by
  induction slots generalizing i with
  | nil => trivial
  | cons slot slots ih =>
    exact ⟨h.1.trans (hsame i (Nat.le_refl i)).symm, ih (fun j hj => hsame j (by omega)) h.2⟩

theorem Tells.set {history : List RunEvent} {i : Nat} {slots : Slots} (h : Tells history i slots)
    (k : Nat) (alone : Bool) (outcome : FileOutcome) :
    Tells (history ++ [.start (i + k) alone outcome]) i (slots.set k (some outcome)) := by
  induction slots generalizing i k with
  | nil => trivial
  | cons slot slots ih =>
    cases k with
    | zero =>
      refine ⟨by simp [lastOutcome?_concat, RunEvent.outcome?], h.2.congr fun j hj => ?_⟩
      have hne : i ≠ j := by omega
      simp [lastOutcome?_concat, RunEvent.outcome?, hne]
    | succ k =>
      have htail := ih h.2 k
      rw [show i + 1 + k = i + (k + 1) by omega] at htail
      refine ⟨?_, htail⟩
      simp [lastOutcome?_concat, RunEvent.outcome?, h.1]

theorem tells_of_blank {history : List RunEvent} {i : Nat} {slots : Slots}
    (hslots : ∀ slot ∈ slots, slot = none) (hblank : ∀ j, lastOutcome? j history = none) :
    Tells history i slots := by
  induction slots generalizing i with
  | nil => trivial
  | cons slot slots ih =>
    exact ⟨(hslots slot List.mem_cons_self).trans (hblank i).symm,
      ih fun x hx => hslots x (List.mem_cons_of_mem _ hx)⟩

section

variable (f : FrontEnd σ) (policy : SyntaxPolicy)

theorem lastOutcome?_visit (i j : Nat) (input : SourceInput) (p : Progress σ) :
    lastOutcome? j (visit f policy i input p).2.history =
      if i = j then some (visit f policy i input p).1 else lastOutcome? j p.history := by
  unfold visit
  dsimp only
  split <;> by_cases hij : i = j <;>
    simp [lastOutcome?_stop, lastOutcome?_start, hij]

/-- Reading a file alone changes the outcome of no other file. -/
theorem lastOutcome?_single (i j : Nat) (input : SourceInput) (p : Progress σ) :
    lastOutcome? j (single f policy i input p).2.history =
      if i = j then (single f policy i input p).1.or (lastOutcome? j p.history)
      else lastOutcome? j p.history := by
  have hasked := (asked p).slots j
  rw [single_apply]
  cases (isCancelled p).1 with
  | true => simp [hasked]
  | false =>
    simp only [Bool.false_eq_true, if_false, lastOutcome?_visit, hasked]
    split <;> rfl

/-- Files from the one numbered `i` on are read alone, none of which had an outcome. -/
theorem singles_tells {rest : List SourceInput} {i : Nat} {p : Progress σ}
    (hblank : ∀ j, i ≤ j → lastOutcome? j p.history = none) :
    (∀ j < i, lastOutcome? j (singles f policy i rest p).2.history = lastOutcome? j p.history) ∧
      Tells (singles f policy i rest p).2.history i (singles f policy i rest p).1 := by
  induction rest generalizing i p with
  | nil => exact ⟨fun j hj => rfl, trivial⟩
  | cons input rest ih =>
    have hfirst := fun j => lastOutcome?_single f policy i j input p
    obtain ⟨hbefore, hrest⟩ := ih (i := i + 1) (p := (single f policy i input p).2)
      fun j hj => by rw [hfirst j, if_neg (by omega), hblank j (by omega)]
    refine ⟨fun j hj => ?_, ?_, hrest⟩
    · rw [← hbefore j (by omega) |>.trans ((hfirst j).trans (if_neg (by omega)))]
      rfl
    · have hown := (hbefore i (by omega)).trans ((hfirst i).trans (if_pos rfl))
      rw [hblank i (Nat.le_refl _), Option.or_none] at hown
      exact hown.symm

/-- Files that have an outcome keep it; the others get that of being read alone. -/
theorem readMissing_tells {rest : List (SourceInput × Option FileOutcome)} {i : Nat}
    {p : Progress σ} (h : Tells p.history i (rest.map (·.2))) :
    (∀ j < i, lastOutcome? j (readMissing f policy i rest p).2.history =
        lastOutcome? j p.history) ∧
      Tells (readMissing f policy i rest p).2.history i (readMissing f policy i rest p).1 := by
  induction rest generalizing i p with
  | nil => exact ⟨fun j hj => rfl, trivial⟩
  | cons x rest ih =>
    obtain ⟨input, slot⟩ := x
    cases slot with
    | some outcome =>
      obtain ⟨hbefore, hrest⟩ := ih h.2
      exact ⟨fun j hj => hbefore j (by omega), h.1.trans (hbefore i (by omega)).symm, hrest⟩
    | none =>
      have hasked := (asked p).slots
      rw [readMissing_none]
      cases (isCancelled p).1 with
      | true => exact ⟨fun j hj => hasked j, h.congr fun j hj => hasked j⟩
      | false =>
        simp only [Bool.false_eq_true, if_false]
        generalize hcounted : { (isCancelled p).2 with
          reprocessed := (isCancelled p).2.reprocessed + 1 } = counted
        have hsame : ∀ j, lastOutcome? j counted.history = lastOutcome? j p.history :=
          fun j => by rw [← hcounted]; exact hasked j
        have hfirst := fun j => lastOutcome?_single f policy i j input counted
        obtain ⟨hbefore, hrest⟩ := ih (i := i + 1) (p := (single f policy i input counted).2)
          (h.2.congr fun j hj => by rw [hfirst j, if_neg (by omega), hsame j])
        refine ⟨fun j hj => ?_, ?_, hrest⟩
        · rw [hbefore j (by omega), hfirst j, if_neg (by omega), hsame j]
        · have hown := (hbefore i (by omega)).trans ((hfirst i).trans (if_pos rfl))
          rw [hsame i, ← h.1, Option.or_none] at hown
          exact hown.symm

end

/-- The files that are handed over get their outcomes. -/
theorem take_tells (policy : SyntaxPolicy) (inputs : List SourceInput) (e : BatchEvent)
    {slots : Slots} (h : Tells p.history 0 slots) :
    Tells (take policy inputs slots e p).2.history 0 (take policy inputs slots e p).1 := by
  cases e with
  | stop => exact h.congr fun j _ => lastOutcome?_stop j p
  | accept i parsed =>
    have hasked := h.congr fun j _ => (asked p).slots j
    rw [take_accept]
    cases (isCancelled p).1 with
    | true => exact hasked
    | false =>
      cases inputs[i]? with
      | none => exact hasked
      | some input =>
        have hset := hasked.set i false (.ofReading policy input (.ok parsed))
        rwa [Nat.zero_add] at hset

theorem takeAll_tells (policy : SyntaxPolicy) (inputs : List SourceInput) (es : List BatchEvent)
    {slots : Slots} (h : Tells p.history 0 slots) :
    Tells (takeAll policy inputs slots es p).2.history 0
      (takeAll policy inputs slots es p).1 := by
  induction es generalizing slots p with
  | nil => exact h
  | cons e es ih => exact ih (take_tells policy inputs e h)

end Run

end JavaAnalysis
