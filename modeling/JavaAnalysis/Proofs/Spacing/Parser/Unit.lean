import JavaAnalysis.Parser.Unit
import JavaAnalysis.Proofs.Spacing.Parser.Statements

/-!
# Two runs over a file

The grammars read the same from a tight row as from elsewhere, level by level, so a file whose lexemes
come from a tight row is parsed as that row is, with all places moved along.
Main statement: `parse_shift`.
-/

set_option autoImplicit false
set_option linter.dupNamespace false

namespace JavaAnalysis.Parser

open Ast Lexeme TokenRow

variable {f : Shift} {g : Grammar} {s t : State}

theorem grammar_alike (f : Shift) (n : Nat) : (grammar n).Alike f := by
  induction n with
  | zero =>
    constructor
    case typeDecl => exact fun _ _ _ _ h _ => exhausted_mirrors h
    case classBody => exact fun _ _ _ h => exhausted_mirrors h
    case binary => exact fun _ _ _ h => exhausted_mirrors h
    all_goals exact fun _ _ h => exhausted_mirrors h
  | succ n ih =>
    exact {
      type := type_onward ih
      marker := marker_onward ih
      elementValue := elementValue_onward ih
      typeDecl := fun s t start ms h hle => typeDecl_mirrors ih h hle ms
      classBody := classBody_onward ih
      block := block_onward ih
      stmt := stmt_onward ih
      expr := expr_onward ih
      conditional := conditional_onward ih
      binary := binary_onward ih
      unary := unary_onward ih
      varInit := varInit_onward ih
      switchCases := switchCases_onward ih
    }

/-! ## The parts of a file -/

theorem packageDecl_onward (hg : g.Alike f) :
    Onward f (PackageDecl.shift f) (packageDecl g) (packageDecl g) := by
  intro s t h
  refine .startHere h ((many_alike isAtMarker_eq hg.marker.alike s t h).bind
    fun marks u v h₁ hle₁ => ?_)
  refine (expect_mirrors h₁ (by decide)).bind fun _ u₂ v₂ h₂ hle₂ => ?_
  refine (qualifiedName_onward u₂ v₂ h₂).bind fun name u₃ v₃ h₃ hle₃ => ?_
  refine (expect_mirrors h₃ (by decide)).bind fun _ u₄ v₄ h₄ hle₄ => ?_
  exact .rangeFrom h₄ (by omega) (.pure h₄ (by omega) (by simp [PackageDecl.shift]))

/-- Looking for the package leaves both parsers where they stand. -/
theorem packageDecl?_alike (hg : g.Alike f) :
    Alike f (Option.map (PackageDecl.shift f)) (packageDecl? g) (packageDecl? g) := by
  intro s t h
  refine .get ((many_alike isAtMarker_eq hg.marker.alike s t h).bind fun _ u v h₁ hle₁ => .isAt h₁ ?_)
  have hback : Mirrors f (fun _ => s.start) (Option.map (PackageDecl.shift f))
      (if (u.kind 0 == .packageKw) = true then some <$> packageDecl g else pure none)
      (if (u.kind 0 == .packageKw) = true then some <$> packageDecl g else pure none) s t :=
    .ite Iff.rfl (fun _ => ((packageDecl_onward hg).alike s t h).map fun _ => rfl)
      fun _ => .pure h (Nat.le_refl _) rfl
  exact hback

theorem importDecl_onward : Onward f (ImportDecl.shift f) importDecl importDecl := by
  intro s t h
  refine .startHere h ((expect_mirrors h (by decide)).bind fun _ u v h₁ hle₁ => ?_)
  refine (eat_mirrors h₁).bind fun isStatic u₂ v₂ h₂ hle₂ => ?_
  refine (qualifiedName_onward u₂ v₂ h₂).bind fun name u₃ v₃ h₃ hle₃ => .isAt h₃ (.kindAt h₃ ?_)
  have hrest : ∀ onDemand u v, State.Moved f u v → u₃.start ≤ u.start →
      Mirrors f (fun _ => s.start + 1) (ImportDecl.shift f)
        (expect .semicolon >>= fun _ => rangeFrom s.start >>= fun r =>
          pure ⟨r, isStatic, name, onDemand⟩)
        (expect .semicolon >>= fun _ => rangeFrom (f.start s.start) >>= fun r =>
          pure ⟨r, isStatic, name.shift f, onDemand⟩) u v := fun onDemand u v h hle => by
    refine (expect_mirrors h (by decide)).bind fun _ u₂ v₂ h₂ hle₂ => ?_
    exact .rangeFrom h₂ (by omega) (.pure h₂ (by omega) rfl)
  refine .ite Iff.rfl (fun _ => ?_) fun _ => hrest _ u₃ v₃ h₃ (Nat.le_refl _)
  exact (advanceBy_alike 2 u₃ v₃ h₃).bind fun _ u v h hle => hrest _ u v h hle

theorem importDecl?_alike :
    Alike f (Option.map (ImportDecl.shift f)) importDecl? importDecl? := by
  intro s t h
  refine (eat_mirrors h).bind fun found u v h₁ hle₁ => .ite Iff.rfl
    (fun _ => .pure h₁ hle₁ rfl) fun _ => ?_
  exact ((importDecl_onward.alike u v h₁).mono hle₁).map fun _ => rfl

theorem topLevel?_alike (hg : g.Alike f) :
    Alike f (Option.map (TypeDecl.shift f)) (topLevel? g) (topLevel? g) := by
  intro s t h
  refine (eat_mirrors h).bind fun found u v h₁ hle₁ => .ite Iff.rfl
    (fun _ => .pure h₁ hle₁ rfl) fun _ => .startHere h₁ ?_
  refine (modifiers_alike hg u v h₁).bind fun ms u₂ v₂ h₂ hle₂ => ?_
  exact ((hg.typeDecl u₂ v₂ u.start ms h₂ hle₂).mono (by omega)).map fun _ => rfl

theorem filterMap_id_map {α : Type} (move : α → α) (xs : List (Option α)) :
    (xs.map (Option.map move)).filterMap id = (xs.filterMap id).map move := by
  rw [List.filterMap_map, List.map_filterMap]
  rfl

theorem compilationUnit_alike (hg : g.Alike f) (length : Nat) :
    Alike f (CompilationUnit.shift f) (compilationUnit g length)
      (compilationUnit g (f.start length)) := by
  intro s t h
  refine (packageDecl?_alike hg s t h).bind fun package u v h₁ hle₁ => ?_
  refine (many_alike (fun s t h => by rw [h.kind_eq]) importDecl?_alike u v h₁).bind
    fun imports u₂ v₂ h₂ hle₂ => ?_
  refine (many_alike (fun s t h => by rw [h.kind_eq]) (topLevel?_alike hg) u₂ v₂ h₂).bind
    fun types u₃ v₃ h₃ hle₃ => .pure h₃ (by omega) ?_
  rw [filterMap_id_map, filterMap_id_map]
  rfl

/-! ## Whole files -/

/-- The last ones of two rows of lexemes stand for each other. -/
theorem moved_getLast {xs ys : List Lexeme} (h : List.Forall₂ (Lexeme.Moved f) xs ys)
    (hne : xs ≠ []) (x y : Lexeme) :
    Lexeme.Moved f (xs.getLast?.getD x) (ys.getLast?.getD y) := by
  have hlength := h.length_eq
  have hlt : xs.length - 1 < xs.length := Nat.sub_lt (List.length_pos_iff.2 hne) Nat.one_pos
  have hlt' : ys.length - 1 < ys.length := hlength ▸ hlt
  rw [List.getLast?_eq_getElem?, List.getLast?_eq_getElem?, List.getElem?_eq_getElem hlt,
    List.getElem?_eq_getElem hlt']
  simp only [Option.getD_some, ← hlength]
  exact h.get hlt (hlength ▸ hlt)

/-- A row that is spread has as many bytes of lexemes as before. -/
theorem bytes_of_moved {xs ys : List Lexeme} (h : List.Forall₂ (Lexeme.Moved f) xs ys) :
    ys.map (fun y => y.text.utf8ByteSize) = xs.map fun x => x.text.utf8ByteSize := by
  induction h with
  | nil => rfl
  | cons hxy _ ih => rw [List.map_cons, List.map_cons, hxy.text_eq, ih]

/-- Between parsers that start in front of two rows, the second of them spread from the first. -/
theorem moved_ofLexemes (level : LanguageLevel) {xs lexemes : List Lexeme} (hf : StrictMono f.start)
    (hxs : Tight 0 xs) (hgt : ∀ x ∈ xs, x.kind.startsWithGt = true →
      TokenKind.ofGtText? x.text = some x.kind)
    (hmoved : List.Forall₂ (Lexeme.Moved f) xs (lexemes.filter fun x => !x.kind.isTrivia)) :
    State.Moved f (State.ofLexemes level xs) (State.ofLexemes level lexemes) := by
  have hfilter := filter_of_moved hmoved fun y hy => by
    simpa using (List.mem_filter.1 hy).2
  have hne : xs ≠ [] := by
    rintro rfl
    cases hxs
  simp only [State.ofLexemes, hfilter]
  exact ⟨hf, rfl, by rw [bytes_of_moved hmoved], hmoved, moved_getLast hmoved hne _ _, rfl, hxs, hgt⟩

theorem isEnd_getLast {n : Nat} {xs : List Lexeme} (h : Tight n xs) (x : Lexeme) :
    IsEnd (xs.getLast?.getD x) := by
  induction h generalizing x with
  | last _ hend => exact hend
  | @cons n y ys _ _ _ _ ih => simpa [List.getLast?_cons] using ih y

/-- A row that is spread is parsed as before, at other places. -/
theorem parse_shift (level : LanguageLevel) {xs lexemes : List Lexeme} (hf : StrictMono f.start)
    (hxs : Tight 0 xs) (hgt : ∀ x ∈ xs, x.kind.startsWithGt = true →
      TokenKind.ofGtText? x.text = some x.kind)
    (hmoved : List.Forall₂ (Lexeme.Moved f) xs (lexemes.filter fun x => !x.kind.isTrivia)) :
    match parse level xs with
    | .ok unit => parse level lexemes = .ok (unit.shift f)
    | .error e => parse level lexemes = .error (e.shift f) := by
  have h := moved_ofLexemes level hf hxs hgt hmoved
  have hfilter : xs.filter (fun x => !x.kind.isTrivia) = xs :=
    filter_of_moved hmoved fun y hy => by simpa using (List.mem_filter.1 hy).2
  have hend : IsEnd (State.ofLexemes level xs).final := by
    simpa only [State.ofLexemes, hfilter] using isEnd_getLast hxs _
  have hlength : (State.ofLexemes level lexemes).final.stop =
      f.start (State.ofLexemes level xs).final.stop := by
    have hsize : ("" : String).utf8ByteSize = 0 := rfl
    simp only [Lexeme.stop, h.final.text_eq, hend.text, hsize, h.final.start_eq, Nat.add_zero]
  have hrun := compilationUnit_alike (grammar_alike f
    (levelsPerCharacter * (State.ofLexemes level xs).budget))
    (State.ofLexemes level xs).final.stop _ _ h
  unfold Mirrors at hrun
  unfold parse run
  dsimp only
  rw [hlength, h.budget_eq]
  cases hparse : compilationUnit (grammar (levelsPerCharacter * (State.ofLexemes level xs).budget))
      (State.ofLexemes level xs).final.stop (State.ofLexemes level xs) with
  | ok r =>
    rw [hparse] at hrun
    obtain ⟨t, hrun, -⟩ := hrun
    simp only [hrun, Except.map]
  | error e =>
    rw [hparse] at hrun
    simp only [hrun, Except.map]

end JavaAnalysis.Parser
