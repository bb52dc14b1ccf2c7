import JavaAnalysis.Parser.Unit
import JavaAnalysis.Proofs.Parser.Statements

/-!
# Parsed files fit

The grammars are sound level by level, so a file that is parsed with any of them fits its lexemes,
from the first one to the last, and what is parsed tells how the parser has cut them.
Main statements: `parse_placed`, `run_lexemes`.
-/

set_option autoImplicit false
set_option linter.dupNamespace false

namespace JavaAnalysis.Parser

open Ast Lexeme

variable {raw : List Lexeme} {g : Grammar} {s t : State}

/-- The grammar of nothing parses nothing, so the induction on the depth has an empty base. -/
theorem grammar_sound (hs : Significant raw) (n : Nat) : (grammar n).Sound raw := by
  induction n with
  | zero =>
    constructor
    case typeDecl => exact fun _ _ _ _ => exhausted_ensures
    case classBody => exact fun _ _ _ => exhausted_ensures
    case binary => exact fun _ _ _ => exhausted_ensures
    all_goals exact fun _ _ => exhausted_ensures
  | succ n ih =>
    exact {
      type := type_parses hs ih
      marker := marker_parses hs ih
      elementValue := elementValue_parses hs ih
      typeDecl := fun ms s₀ s h => typeDecl_ensures hs ih h
      classBody := fun kind s h => classBody_ensures hs ih kind h
      block := block_parses hs ih
      stmt := fun s h => (stmt_ensures hs ih h).mono fun _ _ hst => ⟨hst, trivial⟩
      expr := expr_parses hs ih
      conditional := conditional_parses hs ih
      binary := binary_parses hs ih
      unary := unary_parses hs ih
      varInit := varInit_parses hs ih
      switchCases := switchCases_parses hs ih
    }

/-! ## The parts of a file -/

theorem packageDecl_ensures (hs : Significant raw) (hg : g.Sound raw) (h : At raw s) :
    Ensures (packageDecl g) s fun p t => Takes raw s t [p.shape] := by
  unfold packageDecl
  apply startHere_bind
  refine (many_reads (fun s hat _ => (hg.marker s hat).mono fun _ _ hm => hm.1) h).bind ?_
  intro annotations t₁ h₁
  rw [AnnotationUse.shapes_eq] at h₁
  refine (expect_took hs h₁.step.at_ rfl).bind ?_
  rintro _ t₂ ⟨h₂, -⟩
  refine (qualifiedName_ensures hs h₂.step.at_).bind ?_
  intro name t₃ h₃
  have hname := (h₂.takes.append (h₃ false).reads).after h₁
  refine (expect_step hs hname.at_).bind ?_
  intro _ t₄ h₄
  apply rangeFrom_bind
  apply Ensures.pure
  exact (hname.skip h₄).as_node .packageDecl rfl

/-- Looking for the package leaves the place as it is. -/
theorem packageDecl?_ensures (hs : Significant raw) (hg : g.Sound raw) (h : At raw s) :
    Ensures (packageDecl? g) s fun p t => Reads raw s t (p.map PackageDecl.shape).toList := by
  unfold packageDecl?
  apply Ensures.get
  have hlook : Ensures (many State.isAtMarker g.marker) s fun _ _ => True := fun _ _ _ => trivial
  refine hlook.bind fun _ t _ => isAt_bind ?_
  have hback : Ensures
    (if (t.kind 0 == .packageKw) = true then some <$> packageDecl g else pure none) s
      fun p u => Reads raw s u (p.map PackageDecl.shape).toList := by
    refine .ite (fun _ => ?_) fun _ => .pure (.nil h)
    exact (packageDecl_ensures hs hg h).map fun p t hp => hp.reads
  exact hback

theorem importDecl_ensures (hs : Significant raw) (h : At raw s) :
    Ensures importDecl s fun i t => Takes raw s t [i.shape] := by
  unfold importDecl
  apply startHere_bind
  refine (expect_took hs h rfl).bind ?_
  rintro _ t₁ ⟨h₁, -⟩
  refine (eat_reads hs h₁.step.at_ rfl).bind ?_
  intro isStatic t₂ h₂
  refine (qualifiedName_ensures hs h₂.step.at_).bind ?_
  intro name t₃ h₃
  apply isAt_bind
  apply kindAt_bind
  have hname := h₁.takes.append ((h₃ (!isStatic)).after h₂).reads
  refine iteJoin (q := pure ()) (fun _ t => Step raw t₃ t) (fun _ => advanceBy_step hs 2 hname.at_)
    (fun _ => .pure (.refl hname.at_)) fun _ t₄ h₄ => ?_
  refine (expect_step hs h₄.at_).bind ?_
  intro _ t₅ h₅
  apply rangeFrom_bind
  apply Ensures.pure
  exact ((hname.skip h₄).skip h₅).as_node .importDecl rfl

theorem importDecl?_ensures (hs : Significant raw) (h : At raw s) :
    Ensures importDecl? s fun o t => Takes raw s t (o.map ImportDecl.shape).toList := by
  unfold importDecl?
  refine ifEat hs h rfl (fun t ht => .pure ht.takes) fun _ => ?_
  exact (importDecl_ensures hs h).map fun i t hi => hi

theorem topLevel?_ensures (hs : Significant raw) (hg : g.Sound raw) (h : At raw s) :
    Ensures (topLevel? g) s fun o t => Takes raw s t (o.map TypeDecl.shape).toList := by
  unfold topLevel?
  refine ifEat hs h rfl (fun t ht => .pure ht.takes) fun _ => startHere_bind ?_
  refine (modifiers_reads hs hg h).bind ?_
  intro ms t₁ h₁
  exact (hg.typeDecl ms s t₁ h₁).map fun d t hd => hd

theorem compilationUnit_ensures (hs : Significant raw) (hg : g.Sound raw) (length : Nat)
    (h : At raw s) :
    Ensures (compilationUnit g length) s fun unit t =>
      Reads raw s t unit.shapes ∧ unit.range = .upTo length := by
  unfold compilationUnit
  refine (packageDecl?_ensures hs hg h).bind ?_
  intro package t₁ h₁
  refine (many_reads (fun s hat _ => importDecl?_ensures hs hat) h₁.step.at_).bind ?_
  intro imports t₂ h₂
  refine (many_reads (fun s hat _ => topLevel?_ensures hs hg hat) h₂.step.at_).bind ?_
  intro types t₃ h₃
  refine .pure ⟨?_, rfl⟩
  rw [flatMap_filterMap] at h₂ h₃
  exact (h₁.append h₂).append h₃

/-! ## Whole files -/

/-- The parser starts in front of the first lexeme. -/
theorem at_ofLexemes (level : LanguageLevel) {lexemes : List Lexeme}
    (hs : Significant (lexemes.filter fun x => !x.kind.isTrivia)) :
    At (lexemes.filter fun x => !x.kind.isTrivia) (State.ofLexemes level lexemes) := by
  obtain ⟨before, last, hraw, -⟩ := hs.final
  have hfinal : (State.ofLexemes level lexemes).final = last := by
    simp [State.ofLexemes, hraw]
  refine ⟨by rw [hfinal, hraw, List.getLast?_concat], ?_⟩
  obtain ⟨x, after, hcons⟩ : ∃ x after, lexemes.filter (fun x => !x.kind.isTrivia) = x :: after :=
    List.exists_cons_of_ne_nil (by simp [hraw])
  exact ⟨[], x, after, x, hcons, hcons, List.forall_mem_nil _, Nat.zero_le _, .inl rfl⟩

/-- No place lies behind the end of the file. -/
theorem At.previousStop_le_final (hs : Significant raw) (h : At raw s) :
    s.previousStop ≤ s.final.stop := by
  obtain ⟨before, x, after, y, hraw, -, -, hle, hxy⟩ := h.place
  have hstop : y.stop = x.stop := by
    rcases hxy with rfl | hxy
    · rfl
    · exact hxy.stop_eq
  have hwidth : y.start ≤ y.stop := Nat.le_add_right _ _
  have hlast : x.stop ≤ s.final.stop := by
    have hfinal := h.final
    rw [hraw, List.getLast?_append_cons] at hfinal
    cases after with
    | nil =>
      cases hfinal
      exact Nat.le_refl _
    | cons z zs =>
      have hmem : s.final ∈ z :: zs := List.mem_of_getLast? hfinal
      have hfollow := hs.follow
      rw [hraw] at hfollow
      have hnext := (List.pairwise_cons.1 (List.pairwise_append.1 hfollow).2.1).1 s.final hmem
      exact Nat.le_trans hnext (Nat.le_add_right _ _)
  omega

/-- What is parsed fits between the start of the file and its end. -/
theorem parse_placed {level : LanguageLevel} {lexemes : List Lexeme} {unit : CompilationUnit}
    (hs : Significant (lexemes.filter fun x => !x.kind.isTrivia)) (h : parse level lexemes = .ok
      unit) :
    Placed (lexemes.filter fun x => !x.kind.isTrivia) unit.shapes 0
        (State.ofLexemes level lexemes).final.stop ∧
      unit.range = .upTo (State.ofLexemes level lexemes).final.stop := by
  have hat := at_ofLexemes level hs
  obtain ⟨⟨u, t⟩, hrun, rfl⟩ := map_eq_ok.1 h
  obtain ⟨hreads, hrange⟩ := compilationUnit_ensures hs (grammar_sound hs _) _ hat u t hrun
  have hfinal : t.final = (State.ofLexemes level lexemes).final :=
    Option.some.inj (hreads.step.at_.final.symm.trans hat.final)
  have hle := hreads.step.at_.previousStop_le_final hs
  rw [hfinal] at hle
  exact ⟨Placed.mono _ (Nat.zero_le _) hle hreads.placed, hrange⟩

/-- What is parsed of a whole file is all that the parser leaves behind. -/
theorem run_traced {level : LanguageLevel} {lexemes : List Lexeme} {unit : CompilationUnit}
    (hs : Significant (lexemes.filter fun x => !x.kind.isTrivia))
    (h : run level lexemes = .ok (unit, t)) :
    Traced (lexemes.filter fun x => !x.kind.isTrivia) (State.ofLexemes level lexemes) t
      unit.shapes :=
  (compilationUnit_ensures hs (grammar_sound hs _) _ (at_ofLexemes level hs) unit t h).1.traced

/-- The lexemes that a parser ends with are cut where the lists in angle brackets end. -/
theorem run_lexemes {level : LanguageLevel} {lexemes : List Lexeme} {unit : CompilationUnit}
    (hs : Significant (lexemes.filter fun x => !x.kind.isTrivia))
    (h : run level lexemes = .ok (unit, t)) :
    t.lexemes = (lexemes.filter fun x => !x.kind.isTrivia).flatMap
      (TokenRow.pieces (closers (shapeSites unit.shapes))) := by
  have hstart : Cut (lexemes.filter fun x => !x.kind.isTrivia) [] (State.ofLexemes level lexemes) := by
    refine ⟨?_, by simp⟩
    have hwhole : ∀ x ∈ lexemes.filter (fun x => !x.kind.isTrivia), TokenRow.pieces [] x = [x] :=
      fun x hx => pieces_of_significant hs hx (by simp)
    rw [List.flatMap_congr hwhole, List.flatMap_singleton']
    rfl
  have hend := ((run_traced hs h).trail.cut [] hstart).lexemes_eq
  rwa [List.append_nil] at hend

/-- Each name that is declared or used starts with a lexeme of its own. -/
theorem run_keys {level : LanguageLevel} {lexemes : List Lexeme} {unit : CompilationUnit}
    (hs : Significant (lexemes.filter fun x => !x.kind.isTrivia))
    (h : run level lexemes = .ok (unit, t)) :
    (keys (shapeSites unit.shapes)).Subperm (t.lexemes.map Lexeme.start) := by
  obtain ⟨xs, hconsumed, hkeys, -⟩ := (run_traced hs h).trail.taken
  have hall : t.consumed = xs := hconsumed.trans (List.append_nil xs)
  refine hkeys.trans ?_
  rw [State.lexemes, hall, List.map_append]
  exact (((List.reverse_perm xs).symm.map _).subperm).trans (List.sublist_append_left _ _).subperm

/-- Of each site the lexemes of the file say what they should. -/
theorem run_backed {level : LanguageLevel} {lexemes : List Lexeme} {unit : CompilationUnit}
    (hs : Significant (lexemes.filter fun x => !x.kind.isTrivia))
    (h : run level lexemes = .ok (unit, t)) {site : Site} (hsite : site ∈ shapeSites unit.shapes) :
    Backed t.lexemes site := by
  obtain ⟨xs, hconsumed, -, hbacked⟩ := (run_traced hs h).trail.taken
  have hall : t.consumed = xs := hconsumed.trans (List.append_nil xs)
  refine (hbacked site hsite).mono fun x hx => ?_
  rw [State.lexemes, hall]
  exact List.mem_append_left _ (List.mem_reverse.2 hx)

/-- Each list in angle brackets starts and ends with its brackets. -/
theorem run_enclosed {level : LanguageLevel} {lexemes : List Lexeme} {unit : CompilationUnit}
    (hs : Significant (lexemes.filter fun x => !x.kind.isTrivia))
    (h : run level lexemes = .ok (unit, t)) {site : Site} (hsite : site ∈ shapeSites unit.shapes)
    (hrole : site.role = .encloses) : Enclosed t.lexemes site.range := by
  have hbacked := run_backed hs h hsite
  unfold Backed at hbacked
  rwa [hrole] at hbacked

end JavaAnalysis.Parser
