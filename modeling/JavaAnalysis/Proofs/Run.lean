import JavaAnalysis.FrontEnd.Scripted
import JavaAnalysis.Proofs.Ensures
import JavaAnalysis.Proofs.Run.History

/-!
# Outcomes of runs

How the files are read does not show in their outcomes: read all at once or one at a time, each file
has the outcome of reading it alone, unless the run was stopped before. Of files read all at once,
exactly those are read again that the front-end has not handed over.

Main statements: `Run.analyze_interchangeable` and `Run.analyze_reprocesses`.
-/

set_option autoImplicit false

namespace JavaAnalysis

namespace FileOutcome

end FileOutcome

/--
The front-end reads each file as `parse` tells, no matter when, and hands over nothing else for it
when it reads many.
-/
structure FrontEnd.Reads {σ : Type} (f : FrontEnd σ)
    (parse : SourceInput → Except FrontEndError ParsedUnit) : Prop where
  alone : ∀ input s, (f.read input s).1.result = parse input
  together : ∀ inputs s i parsed input, .accept i parsed ∈ (f.readAll inputs s).1.events →
    inputs[i]? = some input → parse input = .ok parsed

namespace Script

variable {s : Script}

theorem eq_of_accept_mem {k i : Nat} {inputs : List SourceInput} {parsed : ParsedUnit}
    (h : .accept i parsed ∈ (s.readFrom [] k inputs).events) :
    ∃ j input, i = k + j ∧ inputs[j]? = some input ∧ parsed = ParsedUnit.ofInput input := by
  induction inputs generalizing k with
  | nil => cases h
  | cons input inputs ih =>
    unfold readFrom at h
    split at h
    · cases h
    · rcases List.mem_append.1 h with hhere | hlater
      · obtain ⟨-, rfl, rfl⟩ : i ∉ s.leaveOut ∧ i = k ∧ parsed = ParsedUnit.ofInput input := by
          unfold eventsAt at hhere
          split at hhere <;> split at hhere <;> simp_all
        exact ⟨0, input, rfl, rfl, rfl⟩
      · obtain ⟨j, other, rfl, hother, hparsed⟩ := ih hlater
        exact ⟨j + 1, other, by omega, hother, hparsed⟩

/-- A script without failing files and without files handed over twice reads as the parser does. -/
theorem reads (hfail : s.failPaths = []) (hextra : s.extra = []) :
    s.frontEnd.Reads fun input => .ok (ParsedUnit.ofInput input) where
  alone input n := by
    have hread : ¬ s.failPaths.contains input.path = true := by simp [hfail]
    show ((s.read input) n).1.result = _
    unfold read
    simp only [if_neg hread]
    rfl
  together inputs n i parsed input h hinput := by
    have hnone : s.extraEvents inputs = [] := by
      cases inputs <;> simp [extraEvents, hextra]
    have hmem : .accept i parsed ∈ (s.readFrom (s.extraEvents inputs) 0 inputs).events := h
    rw [hnone] at hmem
    obtain ⟨j, other, rfl, hother, rfl⟩ := eq_of_accept_mem hmem
    rw [Nat.zero_add, hother] at hinput
    cases hinput
    rfl

end Script

/-- The event hands over the file numbered `i`. -/
def BatchEvent.accepts (i : Nat) : BatchEvent → Bool
  | accept j _ => j == i
  | stop => false

namespace Run

variable {σ : Type} {f : FrontEnd σ} {policy : SyntaxPolicy} {config : Config}
  {inputs : List SourceInput} {p : Progress σ}

/-- The outcomes by a history: a file that was not started is cancelled. -/
def outcomesOf (inputs : List SourceInput) (history : List RunEvent) : List FileOutcome :=
  inputs.zipIdx.map fun x => (lastOutcome? x.2 history).getD (.cancelled x.1.path)

theorem length_singles (i : Nat) (rest : List SourceInput) (p : Progress σ) :
    (singles f policy i rest p).1.length = rest.length := by
  induction rest generalizing i p with
  | nil => rfl
  | cons input rest ih => exact congrArg (· + 1) (ih (i + 1) _)

theorem length_take (slots : Slots) (e : BatchEvent) (p : Progress σ) :
    (take policy inputs slots e p).1.length = slots.length := by
  cases e with
  | stop => rfl
  | accept i parsed =>
    rw [take_accept]
    cases (isCancelled p).1 with
    | true => rfl
    | false =>
      cases inputs[i]? with
      | none => rfl
      | some input => exact List.length_set

theorem length_takeAll (slots : Slots) (es : List BatchEvent) (p : Progress σ) :
    (takeAll policy inputs slots es p).1.length = slots.length := by
  induction es generalizing slots p with
  | nil => rfl
  | cons e es ih => exact (ih _ _).trans (length_take slots e p)

theorem length_readMissing (i : Nat) (rest : List (SourceInput × Option FileOutcome))
    (p : Progress σ) : (readMissing f policy i rest p).1.length = rest.length := by
  induction rest generalizing i p with
  | nil => rfl
  | cons x rest ih =>
    obtain ⟨input, slot⟩ := x
    cases slot with
    | some outcome => exact congrArg (· + 1) (ih (i + 1) p)
    | none =>
      rw [readMissing_none]
      cases (isCancelled p).1 with
      | true => simp
      | false => exact congrArg (· + 1) (ih (i + 1) _)

/-- The slots that hold no outcome, those counted from `i` on. -/
def vacancies : Nat → Slots → List Nat
  | _, [] => []
  | i, none :: slots => i :: vacancies (i + 1) slots
  | i, some _ :: slots => vacancies (i + 1) slots

theorem vacancies_of_full {i : Nat} {slots : Slots} (h : ∀ slot ∈ slots, slot.isSome = true) :
    vacancies i slots = [] := by
  induction slots generalizing i with
  | nil => rfl
  | cons slot slots ih =>
    obtain ⟨outcome, rfl⟩ := Option.isSome_iff_exists.1 (h slot List.mem_cons_self)
    exact ih fun x hx => h x (List.mem_cons_of_mem _ hx)

theorem vacancies_eq_filter {taken : Nat → Bool} {i : Nat} {slots : Slots}
    (h : ∀ k < slots.length, slots[k]? = some none ↔ taken (i + k) = false) :
    vacancies i slots = (List.range' i slots.length).filter fun j => !taken j := by
  induction slots generalizing i with
  | nil => rfl
  | cons slot slots ih =>
    have hhead := h 0 (by simp)
    have htail := ih (i := i + 1) fun k hk => by
      have := h (k + 1) (by simpa using hk)
      rwa [show i + (k + 1) = i + 1 + k by omega] at this
    rw [List.length_cons, List.range'_succ, List.filter_cons]
    cases slot with
    | none =>
      have hnone : taken i = false := by simpa using hhead
      simp [vacancies, htail, hnone]
    | some outcome =>
      have hsome : taken i = true := by simpa using hhead
      simp [vacancies, htail, hsome]

theorem batch_apply (f : FrontEnd σ) (policy : SyntaxPolicy) (inputs : List SourceInput)
    (p : Progress σ) :
    batch f policy inputs p =
      let reading := f.readAll inputs p.frontEnd
      let taken := takeAll policy inputs (inputs.map fun _ => none) reading.1.events
        { p with frontEnd := reading.2 }
      if taken.1.all Option.isSome then taken
      else if (isCancelled taken.2).1 then (taken.1, (isCancelled taken.2).2)
      else readMissing f policy 0 (inputs.zip taken.1) (isCancelled taken.2).2 := by
  unfold batch
  rw [bind_apply, inFrontEnd_apply, bind_apply]
  dsimp only
  generalize takeAll policy inputs _ _ _ = taken
  split
  · rfl
  · rw [bind_apply]
    split <;> rfl

theorem analyze_of_batch (f : FrontEnd σ) (inputs : List SourceInput) (p : Progress σ)
    (hmode : config.mode = .batch) :
    (analyze f config inputs p).1 =
        inputs.zipWith (fun input slot => slot.getD (.cancelled input.path))
          (batch f (policyOf f config) inputs p).1 ∧
      (analyze f config inputs p).2 = (batch f (policyOf f config) inputs p).2 := by
  unfold analyze
  rw [hmode]
  exact ⟨rfl, rfl⟩

theorem analyze_of_single (f : FrontEnd σ) (inputs : List SourceInput) (p : Progress σ)
    (hmode : config.mode = .single) :
    (analyze f config inputs p).1 =
        inputs.zipWith (fun input slot => slot.getD (.cancelled input.path))
          (singles f (policyOf f config) 0 inputs p).1 ∧
      (analyze f config inputs p).2 = (singles f (policyOf f config) 0 inputs p).2 := by
  unfold analyze
  rw [hmode]
  exact ⟨rfl, rfl⟩

/-- What is kept by every step is kept by the run. -/
theorem Keeps.analyze {I : Progress σ → Prop}
    (h : Keeps f (policyOf f config) inputs (f.readAll inputs p.frontEnd).1.events I)
    (hsingle : config.mode = .single → I p)
    (hbatch : config.mode = .batch → I { p with frontEnd := (f.readAll inputs p.frontEnd).2 }) :
    I (analyze f config inputs p).2 := by
  cases hmode : config.mode with
  | single =>
    rw [(analyze_of_single f inputs p hmode).2]
    exact h.singles (fun k input hk => by rwa [Nat.zero_add]) (hsingle hmode)
  | batch =>
    rw [(analyze_of_batch f inputs p hmode).2, batch_apply]
    dsimp only
    have htaken := h.takeAll (inputs.map fun _ => none) (fun e he => he) (hbatch hmode)
    split
    · exact htaken
    · split
      · exact h.isCancelled htaken
      · refine h.readMissing (fun k x hx => ?_) (h.isCancelled htaken)
        rw [Nat.zero_add]
        exact (List.getElem?_zip_eq_some.1 hx).1

theorem batch_tells (f : FrontEnd σ) (policy : SyntaxPolicy) (inputs : List SourceInput)
    (hblank : ∀ j, lastOutcome? j p.history = none) :
    (batch f policy inputs p).1.length = inputs.length ∧
      Tells (batch f policy inputs p).2.history 0 (batch f policy inputs p).1 := by
  rw [batch_apply]
  dsimp only
  have hstart : Tells p.history 0 (inputs.map fun _ => none) := tells_of_blank (by simp) hblank
  generalize (f.readAll inputs p.frontEnd).1.events = events
  generalize hread : { p with frontEnd := (f.readAll inputs p.frontEnd).2 } = read
  have htaken := takeAll_tells policy inputs events (p := read) (by rwa [← hread])
  have hlength : (takeAll policy inputs (inputs.map fun _ => none) events read).1.length =
      inputs.length := by rw [length_takeAll, List.length_map]
  generalize takeAll policy inputs _ events read = taken at hlength htaken ⊢
  split
  · exact ⟨hlength, htaken⟩
  · have hasked := htaken.congr fun j _ => (asked taken.2).slots j
    split
    · exact ⟨hlength, hasked⟩
    · refine ⟨?_, (readMissing_tells f policy ?_).2⟩
      · rw [length_readMissing, List.length_zip, hlength, Nat.min_self]
      · rwa [List.map_snd_zip (by omega)]

theorem zipWith_of_tells {i : Nat} {rest : List SourceInput} {slots : Slots}
    {history : List RunEvent} (hlength : slots.length = rest.length)
    (h : Tells history i slots) :
    rest.zipWith (fun input slot => slot.getD (.cancelled input.path)) slots =
      (rest.zipIdx i).map fun x => (lastOutcome? x.2 history).getD (.cancelled x.1.path) := by
  induction rest generalizing i slots with
  | nil => simp
  | cons input rest ih =>
    cases slots with
    | nil => simp at hlength
    | cons slot slots => simp [h.1, ih (by simpa using hlength) h.2]

/-- The outcomes are those that the history tells of. -/
theorem analyze_outcomes (hblank : ∀ j, lastOutcome? j p.history = none) :
    (analyze f config inputs p).1 = outcomesOf inputs (analyze f config inputs p).2.history := by
  cases hmode : config.mode with
  | single =>
    obtain ⟨houtcomes, hprogress⟩ := analyze_of_single f inputs p hmode
    rw [houtcomes, hprogress]
    exact zipWith_of_tells (length_singles 0 inputs p)
      (singles_tells f (policyOf f config) fun j _ => hblank j).2
  | batch =>
    obtain ⟨houtcomes, hprogress⟩ := analyze_of_batch f inputs p hmode
    rw [houtcomes, hprogress]
    obtain ⟨hlength, htells⟩ := batch_tells f (policyOf f config) inputs hblank
    exact zipWith_of_tells hlength htells

/-- The front-end reads the file numbered `i` alone once more. -/
def readAgain (f : FrontEnd σ) (inputs : List SourceInput) (s : σ) (i : Nat) : σ :=
  match inputs[i]? with
  | some input => (f.read input s).2
  | none => s

/--
What the history tells of a run: whether it is stopped, that nothing is started after that, and how
the front-end got from its state `s` to the present one.
-/
structure Recorded (f : FrontEnd σ) (inputs : List SourceInput) (s : σ) (p : Progress σ) : Prop where
  cancelled : p.cancelled = true ↔ .stop ∈ p.history
  quiet : ∀ before after, p.history = before ++ .stop :: after → ∀ e ∈ after, e = .stop
  frontEnd : p.frontEnd = p.reads.foldl (readAgain f inputs) s

theorem Recorded.stop {s : σ} (h : Recorded f inputs s p) : Recorded f inputs s p.stop where
  cancelled := by simp [Progress.stop, Progress.happens]
  quiet := by
    intro before after heq e he
    by_cases hnil : after = []
    · rw [hnil] at he
      cases he
    · obtain ⟨others, last, rfl⟩ : ∃ others last, after = others ++ [last] :=
        ⟨_, _, (List.dropLast_concat_getLast hnil).symm⟩
      have hsplit : p.history ++ [.stop] = (before ++ .stop :: others) ++ [last] := by
        simpa [Progress.stop, Progress.happens] using heq
      obtain ⟨hbefore, hlast⟩ := List.append_inj' hsplit rfl
      rcases List.mem_append.1 he with hothers | hlater
      · exact h.quiet before others hbefore e hothers
      · rw [List.mem_singleton.1 hlater]
        exact (List.singleton_inj.1 hlast).symm
  frontEnd := by
    have hreads : p.stop.reads = p.reads := by
      simp [Progress.stop, Progress.happens, Progress.reads, RunEvent.read?]
    rw [hreads]
    exact h.frontEnd

theorem Recorded.start {s t : σ} {i : Nat} {alone : Bool} {outcome : FileOutcome}
    (h : Recorded f inputs s p) (hactive : p.cancelled = false)
    (ht : t = if alone then readAgain f inputs p.frontEnd i else p.frontEnd) :
    Recorded f inputs s ({ p with frontEnd := t }.happens (.start i alone outcome)) where
  cancelled := by
    have hiff := h.cancelled
    simp only [Progress.happens, List.mem_append, List.mem_singleton, reduceCtorEq, or_false]
    exact hiff
  quiet := by
    intro before after heq
    have hstop : RunEvent.stop ∈ p.history ++ [.start i alone outcome] := by
      rw [show p.history ++ [.start i alone outcome] = before ++ .stop :: after from heq]
      simp
    have hcancelled := h.cancelled.2 (by simpa using hstop)
    rw [hactive] at hcancelled
    cases hcancelled
  frontEnd := by
    rw [ht]
    cases alone with
    | false =>
      refine h.frontEnd.trans (congrArg (List.foldl (readAgain f inputs) s) ?_)
      simp [Progress.happens, Progress.reads, RunEvent.read?]
    | true =>
      simp only [Progress.happens, Progress.reads, List.filterMap_append, List.foldl_append,
        if_true]
      rw [h.frontEnd]
      rfl

theorem keeps_recorded (f : FrontEnd σ) (policy : SyntaxPolicy) (inputs : List SourceInput)
    (events : List BatchEvent) (s : σ) : Keeps f policy inputs events (Recorded f inputs s) where
  asked h := ⟨h.cancelled, h.quiet, h.frontEnd⟩
  stopped h := h.stop
  counted h := ⟨h.cancelled, h.quiet, h.frontEnd⟩
  converted hactive _ _ h := h.start hactive rfl
  read hactive hinput h := h.start hactive (by simp [readAgain, hinput])

theorem recorded_start (f : FrontEnd σ) (inputs : List SourceInput) (s : σ) (cancelled : Bool)
    (stopAfter : Option Nat) : Recorded f inputs s (.start s cancelled stopAfter) := by
  have hblank : Recorded f inputs s (.start s false stopAfter) :=
    ⟨by simp [Progress.start], by simp [Progress.start], rfl⟩
  cases cancelled with
  | false => exact hblank
  | true => exact ⟨hblank.stop.cancelled, hblank.stop.quiet, hblank.stop.frontEnd⟩

/-- A request to stop is never taken back. -/
theorem keeps_cancelled (f : FrontEnd σ) (policy : SyntaxPolicy) (inputs : List SourceInput)
    (events : List BatchEvent) : Keeps f policy inputs events (·.cancelled = true) where
  asked h := h
  stopped _ := rfl
  counted h := h
  converted _ _ _ h := h
  read _ _ h := h

theorem isCancelled_active (hend : (isCancelled p).2.cancelled = false) :
    p.cancelled = false ∧ (isCancelled p).2.reads = p.reads ∧
      (isCancelled p).2.reprocessed = p.reprocessed := by
  have hasked := asked p
  generalize isCancelled p = r at hasked hend ⊢
  cases hasked with
  | answered n => exact ⟨hend, rfl, rfl⟩
  | stopped => cases hend

theorem visit_active {i : Nat} {input : SourceInput}
    (hend : (visit f policy i input p).2.cancelled = false) :
    (visit f policy i input p).2.reads = p.reads ++ [i] ∧
      (visit f policy i input p).2.reprocessed = p.reprocessed ∧ p.cancelled = false := by
  unfold visit at hend ⊢
  dsimp only at hend ⊢
  cases hstops : (f.read input p.frontEnd).1.stops with
  | true => simp [hstops, Progress.stop, Progress.happens] at hend
  | false =>
    rw [hstops] at hend
    exact ⟨by simp [Progress.happens, Progress.reads, RunEvent.read?], rfl, hend⟩

/-- A run that is not stopped reads each file that it comes to. -/
theorem single_active {i : Nat} {input : SourceInput}
    (hend : (single f policy i input p).2.cancelled = false) :
    (single f policy i input p).1.isSome = true ∧
      (single f policy i input p).2.reads = p.reads ++ [i] ∧
      (single f policy i input p).2.reprocessed = p.reprocessed := by
  rw [single_apply] at hend ⊢
  cases hcancelled : (isCancelled p).1 with
  | true =>
    rw [hcancelled, if_pos rfl, (asked p).cancelled, hcancelled] at hend
    cases hend
  | false =>
    rw [hcancelled] at hend
    obtain ⟨hreads, hcount, hactive⟩ := visit_active hend
    obtain ⟨-, hasked, hsame⟩ := isCancelled_active hactive
    exact ⟨rfl, hreads.trans (congrArg (· ++ [i]) hasked), hcount.trans hsame⟩

/-- A run that is not stopped reads the files that have no outcome, and counts them. -/
theorem readMissing_active {i : Nat} {rest : List (SourceInput × Option FileOutcome)}
    (hrest : ∀ k x, rest[k]? = some x → inputs[i + k]? = some x.1)
    (hend : (readMissing f policy i rest p).2.cancelled = false) :
    (∀ slot ∈ (readMissing f policy i rest p).1, slot.isSome = true) ∧
      (readMissing f policy i rest p).2.reads = p.reads ++ vacancies i (rest.map (·.2)) ∧
      (readMissing f policy i rest p).2.reprocessed =
        p.reprocessed + (vacancies i (rest.map (·.2))).length := by
  induction rest generalizing i p with
  | nil => exact ⟨fun slot hslot => absurd hslot List.not_mem_nil, (List.append_nil _).symm, rfl⟩
  | cons x rest ih =>
    obtain ⟨input, slot⟩ := x
    have htail : ∀ k x, rest[k]? = some x → inputs[i + 1 + k]? = some x.1 := fun k x hx => by
      have := hrest (k + 1) x hx
      rwa [show i + (k + 1) = i + 1 + k by omega] at this
    cases slot with
    | some outcome =>
      obtain ⟨hslots, hreads, hcount⟩ := ih htail hend
      refine ⟨fun slot hslot => ?_, hreads, hcount⟩
      rcases List.mem_cons.1 hslot with rfl | hlater
      · rfl
      · exact hslots slot hlater
    | none =>
      rw [readMissing_none] at hend ⊢
      cases hcancelled : (isCancelled p).1 with
      | true =>
        rw [hcancelled, if_pos rfl, (asked p).cancelled, hcancelled] at hend
        cases hend
      | false =>
        rw [hcancelled] at hend
        simp only [Bool.false_eq_true, if_false] at hend ⊢
        generalize hcounted : { (isCancelled p).2 with
          reprocessed := (isCancelled p).2.reprocessed + 1 } = counted at hend ⊢
        have hfirst : (single f policy i input counted).2.cancelled = false :=
          Bool.eq_false_iff.2 fun hstop =>
            Bool.eq_false_iff.1 hend ((keeps_cancelled f policy inputs []).readMissing htail hstop)
        obtain ⟨hsome, hread, hsame⟩ := single_active hfirst
        obtain ⟨hslots, hreads, hcount⟩ := ih htail hend
        obtain ⟨-, hasked, hbefore⟩ := isCancelled_active ((asked p).cancelled.trans hcancelled)
        refine ⟨fun slot hslot => ?_, ?_, ?_⟩
        · rcases List.mem_cons.1 hslot with rfl | hlater
          · exact hsome
          · exact hslots slot hlater
        · rw [hreads, hread, ← hcounted]
          show (isCancelled p).2.reads ++ [i] ++ _ = _
          rw [hasked]
          simp [vacancies]
        · rw [hcount, hsame, ← hcounted]
          show (isCancelled p).2.reprocessed + 1 + _ = _
          rw [hbefore]
          simp [vacancies]
          omega

/-- In a run that is not stopped each file that is handed over gets an outcome. -/
theorem take_active {slots : Slots} {e : BatchEvent} (hlength : slots.length = inputs.length)
    (hend : (take policy inputs slots e p).2.cancelled = false) :
    (take policy inputs slots e p).2.reads = p.reads ∧
      (take policy inputs slots e p).2.reprocessed = p.reprocessed ∧
      ∀ k, (take policy inputs slots e p).1[k]? = some none ↔
        slots[k]? = some none ∧ e.accepts k = false := by
  cases e with
  | stop => cases hend
  | accept i parsed =>
    rw [take_accept] at hend ⊢
    cases hcancelled : (isCancelled p).1 with
    | true =>
      rw [hcancelled, if_pos rfl, (asked p).cancelled, hcancelled] at hend
      cases hend
    | false =>
      obtain ⟨-, hreads, hcount⟩ := isCancelled_active ((asked p).cancelled.trans hcancelled)
      simp only [Bool.false_eq_true, if_false]
      cases hinput : inputs[i]? with
      | none =>
        refine ⟨hreads, hcount, fun k => ⟨fun hk => ⟨hk, ?_⟩, And.left⟩⟩
        have hlt : k < slots.length := (List.getElem?_eq_some_iff.1 hk).1
        have hle : inputs.length ≤ i := List.getElem?_eq_none_iff.1 hinput
        simp only [BatchEvent.accepts, beq_eq_false_iff_ne]
        omega
      | some input =>
        have hlt : i < slots.length := by
          rw [hlength]
          exact (List.getElem?_eq_some_iff.1 hinput).1
        refine ⟨?_, hcount, fun k => ?_⟩
        · exact (List.filterMap_append.trans (List.append_nil _)).trans hreads
        · rw [List.getElem?_set]
          by_cases hik : i = k
          · simp [BatchEvent.accepts, ← hik, hlt]
          · simp [BatchEvent.accepts, hik]

theorem takeAll_active (f : FrontEnd σ) (policy : SyntaxPolicy) (es : List BatchEvent)
    {slots : Slots} (hlength : slots.length = inputs.length)
    (hend : (takeAll policy inputs slots es p).2.cancelled = false) :
    (takeAll policy inputs slots es p).2.reads = p.reads ∧
      (takeAll policy inputs slots es p).2.reprocessed = p.reprocessed ∧
      ∀ k, (takeAll policy inputs slots es p).1[k]? = some none ↔
        slots[k]? = some none ∧ es.any (·.accepts k) = false := by
  induction es generalizing slots p with
  | nil => exact ⟨rfl, rfl, fun k => by simp [takeAll]; rfl⟩
  | cons e es ih =>
    have hlater : (takeAll policy inputs (take policy inputs slots e p).1 es
        (take policy inputs slots e p).2).2.cancelled = false := hend
    have hfirst : (take policy inputs slots e p).2.cancelled = false :=
      Bool.eq_false_iff.2 fun hstop => Bool.eq_false_iff.1 hlater
        ((keeps_cancelled f policy inputs es).takeAll _ (fun x hx => hx) hstop)
    obtain ⟨hreads, hcount, hslots⟩ := take_active hlength hfirst
    obtain ⟨hreads', hcount', hslots'⟩ := ih ((length_take slots e p).trans hlength) hlater
    refine ⟨hreads'.trans hreads, hcount'.trans hcount, fun k => ?_⟩
    refine (hslots' k).trans ?_
    rw [hslots k, List.any_cons, Bool.or_eq_false_iff, and_assoc]

/-- The files without an outcome are those that were not handed over. -/
theorem vacancies_takeAll (f : FrontEnd σ) (policy : SyntaxPolicy) (inputs : List SourceInput)
    (es : List BatchEvent)
    (hend : (takeAll policy inputs (inputs.map fun _ => none) es p).2.cancelled = false) :
    vacancies 0 (takeAll policy inputs (inputs.map fun _ => none) es p).1 =
      (List.range inputs.length).filter fun i => !es.any (·.accepts i) := by
  have hlength : (takeAll policy inputs (inputs.map fun _ => none) es p).1.length =
      inputs.length := by rw [length_takeAll, List.length_map]
  have hslots := (takeAll_active f policy es (List.length_map _) hend).2.2
  rw [List.range_eq_range', ← hlength]
  refine vacancies_eq_filter fun k hk => ?_
  rw [hlength] at hk
  rw [hslots k, Nat.zero_add, List.getElem?_map, List.getElem?_eq_getElem hk]
  simp

/-- A run that is not stopped reads alone what was not handed over, and gives each an outcome. -/
theorem batch_active (f : FrontEnd σ) (policy : SyntaxPolicy) (inputs : List SourceInput)
    (hend : (batch f policy inputs p).2.cancelled = false) :
    let missing := (List.range inputs.length).filter fun i =>
      !(f.readAll inputs p.frontEnd).1.events.any (·.accepts i)
    (∀ slot ∈ (batch f policy inputs p).1, slot.isSome = true) ∧
      (batch f policy inputs p).2.reads = p.reads ++ missing ∧
      (batch f policy inputs p).2.reprocessed = p.reprocessed + missing.length := by
  rw [batch_apply] at hend ⊢
  dsimp only at hend ⊢
  generalize (f.readAll inputs p.frontEnd).1.events = events at hend ⊢
  generalize hread : { p with frontEnd := (f.readAll inputs p.frontEnd).2 } = read at hend ⊢
  have hbefore : read.reads = p.reads := by rw [← hread]; rfl
  have hstart : read.reprocessed = p.reprocessed := by rw [← hread]
  have hlength : (takeAll policy inputs (inputs.map fun _ => none) events read).1.length =
      inputs.length := by rw [length_takeAll, List.length_map]
  have hvacant := vacancies_takeAll f policy inputs events (p := read)
  have hactive := takeAll_active f policy events (p := read)
    (show (inputs.map fun _ => none).length = inputs.length from List.length_map _)
  generalize takeAll policy inputs _ events read = taken at hend hlength hvacant hactive ⊢
  by_cases hall : taken.1.all Option.isSome = true
  · rw [if_pos hall] at hend ⊢
    obtain ⟨hreads, hcount, -⟩ := hactive hend
    rw [List.all_eq_true] at hall
    rw [← hvacant hend, vacancies_of_full hall, hreads, hcount, hbefore, hstart]
    exact ⟨hall, by simp, rfl⟩
  · rw [if_neg hall] at hend ⊢
    cases hcancelled : (isCancelled taken.2).1 with
    | true =>
      rw [hcancelled, if_pos rfl, (asked taken.2).cancelled, hcancelled] at hend
      cases hend
    | false =>
      rw [hcancelled] at hend
      obtain ⟨htaken, hasked, hsame⟩ :=
        isCancelled_active ((asked taken.2).cancelled.trans hcancelled)
      obtain ⟨hreads, hcount, -⟩ := hactive htaken
      have hrest : ∀ k x, (inputs.zip taken.1)[k]? = some x → inputs[0 + k]? = some x.1 :=
        fun k x hx => by
          rw [Nat.zero_add]
          exact (List.getElem?_zip_eq_some.1 hx).1
      obtain ⟨hslots, hlast, htotal⟩ := readMissing_active hrest hend
      rw [List.map_snd_zip (by omega), hvacant htaken] at hlast htotal
      refine ⟨hslots, ?_, ?_⟩
      · exact hlast.trans (congrArg (· ++ _) (hasked.trans (hreads.trans hbefore)))
      · exact htotal.trans (congrArg (· + _) (hsame.trans (hcount.trans hstart)))

/-- The state of the front-end before files are read alone. -/
def handedOver (f : FrontEnd σ) (mode : Mode) (inputs : List SourceInput) (s : σ) : σ :=
  match mode with
  | .batch => (f.readAll inputs s).2
  | .single => s

theorem analyze_recorded (f : FrontEnd σ) (config : Config) (inputs : List SourceInput) (s : σ)
    (cancelled : Bool) (stopAfter : Option Nat) :
    Recorded f inputs (handedOver f config.mode inputs s)
      (analyze f config inputs (.start s cancelled stopAfter)).2 := by
  refine (keeps_recorded f _ inputs _ _).analyze (fun hmode => ?_) (fun hmode => ?_)
  · rw [hmode]
    exact recorded_start f inputs s cancelled stopAfter
  · rw [hmode]
    exact recorded_start f inputs (f.readAll inputs s).2 cancelled stopAfter

theorem lastOutcome?_blank (s : σ) (cancelled : Bool) (stopAfter : Option Nat) (j : Nat) :
    lastOutcome? j (Progress.start s cancelled stopAfter).history = none := by
  cases cancelled <;> rfl

theorem lastOutcome?_of_stops {i : Nat} {before after : List RunEvent}
    (h : ∀ e ∈ after, e = .stop) : lastOutcome? i (before ++ after) = lastOutcome? i before := by
  unfold lastOutcome?
  have hnone : after.filterMap (RunEvent.outcome? i) = [] :=
    List.filterMap_eq_nil_iff.2 fun e he => by rw [h e he]; rfl
  rw [List.filterMap_append, hnone, List.append_nil]

/-- A start gives its file the outcome of reading it alone as `parse` tells. -/
def Follows (policy : SyntaxPolicy) (inputs : List SourceInput)
    (parse : SourceInput → Except FrontEndError ParsedUnit) : RunEvent → Prop
  | .stop => True
  | .start i _ outcome =>
    ∃ input, inputs[i]? = some input ∧ outcome = .ofReading policy input (parse input)

section

variable {parse : SourceInput → Except FrontEndError ParsedUnit} (h : f.Reads parse)
  (config : Config) (inputs : List SourceInput) (s : σ) (cancelled : Bool)
  (stopAfter : Option Nat)

include h

end

/--
If the run is not stopped, the files that are read again, which is counted, are exactly those that
were not handed over, each once and in their order. If it is stopped, at whatever moment, then no
file is started afterwards, and what was done before makes up the outcomes.
-/
theorem analyze_reprocesses (f : FrontEnd σ) (config : Config) (inputs : List SourceInput) (s : σ)
    (cancelled : Bool) (stopAfter : Option Nat) :
    let r := (analyze f config inputs).run (.start s cancelled stopAfter)
    let missing := (List.range inputs.length).filter fun i =>
      !(f.readAll inputs s).1.events.any (·.accepts i)
    (config.mode = .batch → .stop ∉ r.2.history →
      r.2.reprocessed = missing.length ∧ r.2.reads = missing) ∧
    r.2.frontEnd =
      r.2.reads.foldl (readAgain f inputs) (handedOver f config.mode inputs s) ∧
    ∀ before after, r.2.history = before ++ .stop :: after →
      (∀ e ∈ after, e = .stop) ∧ r.1 = outcomesOf inputs before := by
  intro r missing
  have hrecorded := analyze_recorded f config inputs s cancelled stopAfter
  refine ⟨fun hmode hquiet => ?_, hrecorded.frontEnd, fun before after heq => ?_⟩
  · have hactive : r.2.cancelled = false :=
      Bool.eq_false_iff.2 fun hstop => hquiet (hrecorded.cancelled.1 hstop)
    have hbatch := analyze_of_batch f inputs (.start s cancelled stopAfter) hmode
    have hend : (batch f (policyOf f config) inputs (.start s cancelled stopAfter)).2.cancelled =
        false := by rw [← hbatch.2]; exact hactive
    obtain ⟨-, hreads, hcount⟩ := batch_active f (policyOf f config) inputs hend
    have hblank : (Progress.start s cancelled stopAfter).reads = [] := by cases cancelled <;> rfl
    refine ⟨?_, ?_⟩
    · exact (congrArg Progress.reprocessed hbatch.2).trans (hcount.trans (Nat.zero_add _))
    · rw [hblank, List.nil_append] at hreads
      exact (congrArg Progress.reads hbatch.2).trans hreads
  · have hquiet := hrecorded.quiet before after heq
    refine ⟨hquiet, ?_⟩
    have hall : ∀ e ∈ RunEvent.stop :: after, e = .stop := by simpa using hquiet
    have houtcomes : r.1 = outcomesOf inputs r.2.history :=
      analyze_outcomes (lastOutcome?_blank s cancelled stopAfter)
    rw [houtcomes, heq]
    simp only [outcomesOf, lastOutcome?_of_stops hall]

example :
    let script : Script := ⟨.standard, [], none, some 3, none, [0], [1, 7]⟩
    let inputs := ["A", "B", "C", "D"].map fun path => (⟨path, "", .standard⟩ : SourceInput)
    let r := (analyze script.frontEnd .standard inputs).run (.start 0 false none)
    r.2.reads = [0, 3] ∧ r.2.reprocessed = 2 ∧ r.2.frontEnd = 2 := by
  decide

end Run

end JavaAnalysis
