import JavaAnalysis.Proofs.Parser.Unit
import JavaAnalysis.Proofs.Regions.Statements

/-!
# Regions over parsed files

Whatever is parsed of a text, all that the abstract syntax gives a range to starts and ends with
lexemes of the text, operators being cut where the parser cut them; ranges are nested, those inside
one range follow each other, and nothing but stray semicolons lies outside the package, the imports
and the types.
Main statement: `run_regions`.
-/

set_option autoImplicit false
set_option linter.dupNamespace false

namespace JavaAnalysis.Ast

/-- The regions lie over a row of lexemes one behind the other, and between them are semicolons. -/
inductive Tiled : List Lexeme → List Region → Prop where
  | nil : Tiled [] []
  | semicolon {x : Lexeme} {xs : List Lexeme} {rs : List Region} : x.kind = .semicolon →
    Tiled xs rs → Tiled (x :: xs) rs
  | region {xs ys : List Lexeme} {r : Region} {rs : List Region} : r.Spans xs → Tiled ys rs →
    Tiled (xs ++ ys) (r :: rs)

namespace Tiled

variable {xs ys : List Lexeme} {as bs rs : List Region}

theorem append (h : Tiled xs as) (h' : Tiled ys bs) : Tiled (xs ++ ys) (as ++ bs) := by
  induction h with
  | nil => exact h'
  | semicolon hx _ ih => exact .semicolon hx ih
  | region hr _ ih =>
    rw [List.append_assoc]
    exact .region hr ih

theorem covered (h : Tiled xs rs) : Over xs rs := by
  induction h with
  | nil => exact .nil
  | semicolon _ _ ih => exact .lexeme _ ih
  | region hr _ ih => exact .cons hr ih

/-- A lexeme is inside one of the regions, or a semicolon outside of all. -/
theorem inside_or_semicolon (h : Tiled xs rs) (hfollow : Follow xs) {x : Lexeme} (hx : x ∈ xs) :
    (∃ r ∈ rs, r.range.start ≤ x.start ∧ x.stop ≤ r.range.stop) ∨
      x.kind = .semicolon ∧ ∀ r ∈ rs, x.stop ≤ r.range.start ∨ r.range.stop ≤ x.start := by
  induction h with
  | nil => cases hx
  | @semicolon y ys rs hy htiled ih =>
    obtain ⟨hnext, hfollow'⟩ := List.pairwise_cons.1 hfollow
    rcases List.mem_cons.1 hx with rfl | hx
    · refine .inr ⟨hy, fun r hr => .inl ?_⟩
      obtain ⟨a, ha, b, -, hrange, -⟩ :=
        (htiled.covered.delimited r (mem_allOf hr)).bounds hfollow'
      rw [hrange]
      exact hnext a ha
    · exact ih hfollow' hx
  | @region ys zs r rs hr htiled ih =>
    obtain ⟨hys, hzs, hcross⟩ := List.pairwise_append.1 hfollow
    obtain ⟨first, last, hfirst, hlast, hrange⟩ := hr.ends
    rcases List.mem_append.1 hx with hx | hx
    · refine .inl ⟨r, List.mem_cons_self, ?_⟩
      rw [hrange]
      exact ⟨Follow.first_le hys hfirst hx, Follow.le_last hys hlast hx⟩
    · rcases ih hzs hx with ⟨a, ha, hinside⟩ | ⟨hkind, hout⟩
      · exact .inl ⟨a, List.mem_cons_of_mem _ ha, hinside⟩
      · refine .inr ⟨hkind, List.forall_mem_cons.2 ⟨.inr ?_, hout⟩⟩
        rw [hrange]
        exact hcross last (List.mem_of_getLast? hlast) x hx

end Tiled

end JavaAnalysis.Ast

namespace JavaAnalysis.Parser

open Ast Lexeme

variable {raw : List Lexeme} {g : Grammar} {s t u : State}

/-- What was taken between two places is tiled by the regions. -/
def Tiles (s t : State) (rs : List Region) : Prop :=
  ∃ xs, t.consumed = xs.reverse ++ s.consumed ∧ Tiled xs rs

theorem Tiles.nil (s : State) : Tiles s s [] := ⟨[], rfl, .nil⟩

theorem Tiles.append {as bs : List Region} (h : Tiles s t as) (h' : Tiles t u bs) :
    Tiles s u (as ++ bs) := by
  obtain ⟨xs, hxs, has⟩ := h
  obtain ⟨ys, hys, hbs⟩ := h'
  exact ⟨xs ++ ys, by rw [hys, hxs, List.reverse_append, List.append_assoc], has.append hbs⟩

theorem Whole.tiles {r : Region} (h : Whole s t r) : Tiles s t [r] := by
  obtain ⟨xs, hxs, hr⟩ := h
  exact ⟨xs, hxs.consumed_eq, List.append_nil xs ▸ .region hr .nil⟩

/-- A stray semicolon is taken, or something else is read. -/
theorem ifSemicolon {β : Type} {p q : Parser β} {post : β → State → Prop}
    (hp : ∀ t, Tiles s t [] → Runs raw p t post) (hq : Runs raw q s post) :
    Runs raw (eat .semicolon >>= fun b => if b = true then p else q) s post := by
  have heat : Runs raw (eat .semicolon) s fun b t => b = true ∧ Tiles s t [] ∨ b = false ∧ t = s := by
    unfold eat
    refine .ifAt (fun hkind => ?_) fun _ => .pure (.inr ⟨rfl, rfl⟩)
    have hne : s.kind 0 ≠ .endOfFile := by simp [hkind]
    refine (advance_consumes hne).bind fun _ t ht => .pure (.inl ⟨rfl, [s.lexeme 0], ht.2.1, ?_⟩)
    exact .semicolon hkind .nil
  refine heat.bind fun b t hb => ?_
  rcases hb with ⟨rfl, ht⟩ | ⟨rfl, rfl⟩
  · exact hp t ht
  · exact hq

/-! ## The parts of a file -/

theorem packageDecl_makes (hg : g.Lays raw) : Makes raw PackageDecl.region (packageDecl g) := by
  intro s
  unfold packageDecl
  refine .startHere ((many_crosses fun s _ => hg.marker.fills s).bind fun annotations t h => ?_)
  rw [AnnotationUse.regions_eq] at h
  refine h.fill (expect_fills (by decide)) fun _ t h => h.make (qualifiedName_makes t) fun name t h => ?_
  refine h.skip expect_crosses fun _ t h => .close h (fun _ => rfl) fun _ => ?_
  simp [PackageDecl.region]

/-- Looking for the package leaves the place as it is. -/
theorem packageDecl?_runs (hg : g.Lays raw) :
    Runs raw (packageDecl? g) s fun p t => Tiles s t (p.toList.map PackageDecl.region) := by
  unfold packageDecl?
  refine .get fun hs => ?_
  refine (many_crosses fun s _ => hg.marker.fills s).bind (fun _ t _ => .isAt ?_) hs
  have hback : Runs raw
    (if (t.kind 0 == .packageKw) = true then some <$> packageDecl g else pure none) s
      fun p u => Tiles s u (p.toList.map PackageDecl.region) := by
    refine .ite (fun _ => ?_) fun _ => .pure (.nil s)
    exact (packageDecl_makes hg s).map fun p t hp => hp.tiles
  exact fun _ => hback hs

theorem importDecl_makes : Makes raw ImportDecl.region importDecl := by
  intro s
  unfold importDecl
  refine .startHere ((expect_fills (by decide)).bind fun _ t h => ?_)
  refine h.skip (eat_crosses (by decide)) fun isStatic t h => ?_
  refine h.make (qualifiedName_makes t) fun name t h => .isAt (.kindAt ?_)
  refine .iteJoin (q := pure ()) (fun _ u => Crossed t u []) (fun _ => advanceBy_crosses 2)
    (fun _ => .pure .stay) fun _ u hu => ?_
  refine (h.then_ hu).skip expect_crosses fun _ v h => .close h (fun _ => rfl) fun _ => rfl

theorem importDecl?_tiles :
    Runs raw importDecl? s fun o t => Tiles s t (o.toList.map ImportDecl.region) := by
  unfold importDecl?
  refine ifSemicolon (fun t ht => .pure ht) ?_
  exact (importDecl_makes s).map fun i t hi => hi.tiles

theorem topLevel?_tiles (hg : g.Lays raw) :
    Runs raw (topLevel? g) s fun o t => Tiles s t (o.toList.map TypeDecl.region) := by
  unfold topLevel?
  refine ifSemicolon (fun t ht => .pure ht) (.startHere ?_)
  refine (modifiers_crosses hg).bind fun ms t h => ?_
  exact (hg.typeDecl ms s t h).map fun d u hd => hd.tiles

theorem many_tiles {α : Type} {item : Parser (Option α)} {more : State → Bool}
    {region : α → Region}
    (hitem : ∀ s, Runs raw item s fun o t => Tiles s t (o.toList.map region)) :
    Runs raw (many more item) s fun os t => Tiles s t ((os.filterMap id).map region) := by
  refine (many_regions Tiles.nil .append fun s _ => hitem s).mono fun os t h => ?_
  rwa [flatMap_toList rfl fun _ _ => rfl] at h

theorem compilationUnit_runs (hg : g.Lays raw) (length : Nat) :
    Runs raw (compilationUnit g length) s fun unit t =>
      Tiles s t unit.regions ∧ unit.range = .upTo length ∧ t.kind 0 = .endOfFile := by
  unfold compilationUnit
  refine (packageDecl?_runs hg).bind fun package t hpackage => ?_
  refine (many_tiles fun s => importDecl?_tiles).bind fun imports u himports => ?_
  have hstops : Runs raw (many (fun s => s.kind 0 != .endOfFile) (topLevel? g)) u
      fun _ t => (t.kind 0 != .endOfFile) = false :=
    many_stops fun s => (topLevel?_tiles hg).mono fun _ _ _ => trivial
  refine ((many_tiles fun s => topLevel?_tiles hg).and hstops).bind fun types v ⟨htypes, hend⟩ => ?_
  refine .pure ⟨(hpackage.append himports).append htypes, rfl, ?_⟩
  simpa using hend

/-! ## Whole files -/

variable {level : LanguageLevel} {lexemes : List Lexeme} {unit : CompilationUnit}

theorem settled_ofLexemes (level : LanguageLevel)
    (hs : Significant (lexemes.filter fun x => !x.kind.isTrivia)) :
    Settled (lexemes.filter fun x => !x.kind.isTrivia) (State.ofLexemes level lexemes) :=
  ⟨hs, at_ofLexemes level hs, .nil⟩

/-- A file is not parsed because of something that begins with a lexeme. -/
theorem run_error {e : SyntaxError} (hs : Significant (lexemes.filter fun x => !x.kind.isTrivia))
    (h : run level lexemes = .error e) :
    Begins (lexemes.filter fun x => !x.kind.isTrivia) e.range.start := by
  have hrun := compilationUnit_runs (grammar_lays _ (levelsPerCharacter *
    (State.ofLexemes level lexemes).budget)) (State.ofLexemes level lexemes).final.stop
    (settled_ofLexemes level hs)
  have herror : compilationUnit (grammar (levelsPerCharacter *
      (State.ofLexemes level lexemes).budget)) (State.ofLexemes level lexemes).final.stop
      (State.ofLexemes level lexemes) = .error e := h
  rw [herror] at hrun
  exact hrun

/-- At the end of the file nothing is left but the lexeme that marks it. -/
theorem Settled.rest_eq (h : Settled raw t) (hkind : t.kind 0 = .endOfFile) :
    t.rest = [t.final] ∧ t.final.kind = .endOfFile := by
  obtain ⟨before, x, after, y, hraw, hrest, -, -, hxy⟩ := h.at_.place
  have hy : y.kind = .endOfFile := by simpa [State.kind, State.lexeme, hrest] using hkind
  have hxy : y = x := by
    refine hxy.resolve_right fun hxy => ?_
    have hgt := hxy.gtText
    rw [hy] at hgt
    revert hgt
    unfold TokenKind.ofGtText?
    repeat' split
    all_goals simp
  subst hxy
  obtain ⟨init, last, hinit, -, hbefore⟩ := h.significant.final
  have hafter : after = [] := by
    refine List.eq_nil_iff_forall_not_mem.2 fun z hz => ?_
    obtain ⟨after, z, rfl⟩ := (List.eq_nil_or_concat after).resolve_left (List.ne_nil_of_mem hz)
    have hall : (before ++ y :: after) ++ [z] = init ++ [last] := by
      rw [← hinit, hraw, List.concat_eq_append, List.append_assoc, List.cons_append]
    refine hbefore y ?_ hy
    rw [← List.append_inj_left' hall rfl]
    simp
  subst hafter
  have hfinal := h.at_.final
  rw [hraw, List.getLast?_concat] at hfinal
  cases hfinal
  exact ⟨hrest, hy⟩

/-- A parsed file ends at its last lexeme, and the regions tile the others. -/
theorem run_tiled (hs : Significant (lexemes.filter fun x => !x.kind.isTrivia))
    (h : run level lexemes = .ok (unit, t)) :
    ∃ xs, t.lexemes = xs ++ [(State.ofLexemes level lexemes).final] ∧ Follow t.lexemes ∧
      (State.ofLexemes level lexemes).final.kind = .endOfFile ∧ Tiled xs unit.regions ∧
      unit.range = .upTo (State.ofLexemes level lexemes).final.stop := by
  have hstart := settled_ofLexemes level hs
  have hrun := compilationUnit_runs (grammar_lays _ (levelsPerCharacter *
    (State.ofLexemes level lexemes).budget)) (State.ofLexemes level lexemes).final.stop hstart
  have hok : compilationUnit (grammar (levelsPerCharacter *
      (State.ofLexemes level lexemes).budget)) (State.ofLexemes level lexemes).final.stop
      (State.ofLexemes level lexemes) = .ok (unit, t) := h
  rw [hok] at hrun
  obtain ⟨hend, ⟨xs, hxs, htiled⟩, hrange, hkind⟩ := hrun
  obtain ⟨hrest, hlast⟩ := hend.rest_eq hkind
  have hfinal : t.final = (State.ofLexemes level lexemes).final :=
    Option.some.inj (hend.at_.final.symm.trans hstart.at_.final)
  have hconsumed : t.consumed.reverse = xs := by
    rw [hxs]
    exact (congrArg List.reverse (List.append_nil _)).trans (List.reverse_reverse xs)
  rw [hfinal] at hrest hlast
  refine ⟨xs, ?_, ?_, hlast, htiled, hrange⟩
  · rw [State.lexemes, hconsumed, hrest]
  · rw [State.lexemes, hrest]
    refine List.pairwise_append.2 ⟨hend.follow, List.pairwise_singleton _ _, fun a ha b hb => ?_⟩
    have hle := hend.stop_le a (List.mem_reverse.1 ha)
    have hbetween := hend.at_.previousStop_le
    rw [State.start, State.lexeme, hrest] at hbetween
    rw [List.mem_singleton.1 hb]
    exact Nat.le_trans hle hbetween

theorem final_of_scan {text : String} (h : scan level text = .ok lexemes) :
    (State.ofLexemes level lexemes).final.stop = text.utf8ByteSize := by
  obtain ⟨before, p, rfl, -, -⟩ := scan_ok h
  have hkind : (endOfFile text.utf8ByteSize p).kind.isTrivia = false := rfl
  simp [State.ofLexemes, List.filter_append, hkind]
  rfl

/--
Whatever is parsed of a text, its unit spans the text, each of its regions starts with a lexeme and
ends with one, what lies directly inside a region lies within its range one behind the other, and
each lexeme that does not lie within the package, an import or a type is a stray semicolon.
-/
theorem run_regions {text : String} (hscan : scan level text = .ok lexemes)
    (h : run level lexemes = .ok (unit, t)) :
    unit.range = .upTo text.utf8ByteSize ∧
      (∀ r ∈ Region.allOf unit.regions, r.Delimited t.lexemes) ∧
      (∀ r ∈ unit.region.all, r.Nested) ∧
      ∀ x ∈ t.lexemes, x.kind ≠ .endOfFile →
        (∃ r ∈ unit.regions, r.range.start ≤ x.start ∧ x.stop ≤ r.range.stop) ∨
          x.kind = .semicolon ∧ ∀ r ∈ unit.regions, x.stop ≤ r.range.start ∨ r.range.stop ≤ x.start := by
  obtain ⟨xs, hall, hfollow, hlast, htiled, hrange⟩ := run_tiled (significant_of_scan hscan) h
  rw [final_of_scan hscan] at hrange
  have hover := htiled.covered
  rw [hall] at hfollow
  obtain ⟨hxs, -, hcross⟩ := List.pairwise_append.1 hfollow
  refine ⟨hrange, fun r hr => ?_, fun r hr => ?_, fun x hx hne => ?_⟩
  · obtain ⟨run, a, b, hrun, hends⟩ := hover.delimited r hr
    rw [hall]
    exact ⟨run, a, b, hrun.trans (List.prefix_append _ _).isInfix, hends⟩
  · rw [Region.all_eq] at hr
    rcases List.mem_cons.1 hr with rfl | hr
    · refine ⟨fun c hc => ?_, hover.ordered hxs⟩
      obtain ⟨a, ha, b, hb, hcrange, -⟩ := (hover.delimited c (mem_allOf hc)).bounds hxs
      have hle := hcross b hb _ (List.mem_singleton_self _)
      have hwidth := Nat.le_add_right (State.ofLexemes level lexemes).final.start
        (State.ofLexemes level lexemes).final.text.utf8ByteSize
      rw [Region.Within, hcrange]
      refine ⟨?_, ?_⟩
      · show unit.range.start ≤ _
        rw [hrange]
        exact Nat.zero_le _
      · show _ ≤ unit.range.stop
        rw [hrange]
        show b.stop ≤ text.utf8ByteSize
        rw [← final_of_scan hscan]
        exact Nat.le_trans hle hwidth
    · exact hover.nested hxs r hr
  · rw [hall] at hx
    refine htiled.inside_or_semicolon hxs ((List.mem_append.1 hx).resolve_right fun hmem => hne ?_)
    rw [List.mem_singleton.1 hmem, hlast]

/-- A cut operator, a list of modifiers and a stray semicolon. -/
theorem run_regions_cut : ∃ lexemes unit t,
    scan .standard "final class A{L<L<S>>f;};" = .ok lexemes ∧
      run .standard lexemes = .ok (unit, t) ∧ unit.range = ⟨0, 25⟩ ∧
      (∀ r ∈ Region.allOf unit.regions, r.Delimited t.lexemes) ∧ (∀ r ∈ unit.region.all, r.Nested) ∧
      ((Region.allOf unit.regions).map Region.range).take 4 =
        [⟨0, 24⟩, ⟨0, 5⟩, ⟨0, 5⟩, ⟨12, 13⟩] := by
  have hranges : ((scan .standard "final class A{L<L<S>>f;};").toOption.bind fun lexemes =>
      (run .standard lexemes).toOption.map fun r =>
        ((Region.allOf r.1.regions).map Region.range).take 4) =
      some [⟨0, 24⟩, ⟨0, 5⟩, ⟨0, 5⟩, ⟨12, 13⟩] := by
    decide +kernel
  obtain ⟨lexemes, hscan, hrun⟩ := Option.bind_eq_some_iff.1 hranges
  obtain ⟨⟨unit, t⟩, hrun, hranges⟩ := Option.map_eq_some_iff.1 hrun
  have hscan := toOption_eq_some.1 hscan
  have hrun := toOption_eq_some.1 hrun
  obtain ⟨hrange, hdelimited, hnested, -⟩ := run_regions hscan hrun
  exact ⟨lexemes, unit, t, hscan, hrun, hrange, hdelimited, hnested, hranges⟩

end JavaAnalysis.Parser
