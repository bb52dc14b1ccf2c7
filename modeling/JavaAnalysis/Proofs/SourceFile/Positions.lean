import JavaAnalysis.Proofs.Lexeme.Positions
import JavaAnalysis.Proofs.Regions.Unit
import JavaAnalysis.Proofs.Resolve.Bodies
import JavaAnalysis.Proofs.SourceFile.EnteredNames

/-!
# Positions in analyzed files

All positions that are known of a file are those of their offsets: where a node starts and ends,
where a token or a comment starts, and where a file that is rejected is at fault. A problem of
syntax starts where a lexeme starts, or what is left of one: the parser only fails at these, and the
binder finds fault with the syntax of nothing but regions.
Main statement: `SourceFile.ofInput_positions`.
-/

set_option autoImplicit false
set_option linter.dupNamespace false

namespace JavaAnalysis

open Ast Lexeme

/-! ## Problems of syntax that are found when names are bound -/

namespace Binder

variable {P : TextRange → Prop}

/-- The problems of syntax lie where they may. -/
def Confined (P : TextRange → Prop) (b : Binder) : Prop :=
  ∀ p ∈ b.problems, p.category = .syntactic → P p.range

theorem Confined.report {b : Binder} (hb : Confined P b) {id : ProblemId}
    {category : ProblemCategory} {message : String} {range : TextRange}
    (h : category = .syntactic → P range) : Confined P (report id category message range b).2 :=
  List.forall_mem_cons.2 ⟨h, hb⟩

/-- The binder finds fault with the syntax only where switches are. -/
def confining (P : TextRange → Prop) : Discipline fun _ => True where
  Answers _ _ := True
  Demands := P
  Holds := Stays (Confined P)
  pure := .pure
  bind := .bind
  get _ := .get
  inScope kind h := .inScope (fun _ _ hb => hb) h kind
  lookupType name h := .lookupType (fun _ _ _ hb => hb) name fun _ _ => h _ trivial
  lookupImported name p := .lookupImported (fun _ _ _ hb => hb) name p
  refer id _ _ := .bind (fun _ hb => hb) fun _ => .markUsed (fun _ _ hb => hb) id
  pass _ _ _ := fun _ hb => hb
  declare _ hf := fun _ hb => hf _ _ hb
  allocate _ _ := fun _ hb => hb
  complete _ _ _ := fun _ hb => hb
  enter name id _ := .enter (fun _ _ hb => hb) name id
  addTopLevel _ _ := fun _ hb => hb
  markOpen _ := fun _ hb => hb
  markUntyped _ := fun _ hb => hb
  report _ _ hne _ _ _ := fun _ hb => hb.report fun heq => absurd heq hne
  remark _ _ _ _ h := fun _ hb => hb.report h

theorem Confined.foldl_withImport {b : Binder} (hb : Confined P b) (imports : List ImportDecl) :
    Confined P (imports.foldl Binder.withImport b) := by
  induction imports generalizing b with
  | nil => exact hb
  | cons i is ih => exact ih hb

/-- Whatever a file is like, problems of its syntax lie at its regions. -/
theorem resolveUnit_confined {unit : CompilationUnit} (h : Region.AllMeet P unit.regions) :
    Stays (Confined P) (resolveUnit unit) := by
  intro b hb
  simp only [CompilationUnit.regions, Region.allMeet_append] at h
  obtain ⟨⟨hpackage, -⟩, htypes⟩ := h
  have hstart : Confined P (afterPackage unit b) := by
    unfold afterPackage
    cases hunit : unit.package with
    | none => exact hb
    | some package =>
      rw [hunit] at hpackage
      simp only [Option.toList_some, List.map_cons, PackageDecl.region, Region.allMeet_cons,
        Region.meets_detail, Region.allMeet_append] at hpackage
      exact resolveAnnotations_holds (confining P) package.annotations (fun _ _ => trivial)
        hpackage.1.2.1 b hb
  rw [resolveUnit_eq]
  exact passes_holds (confining P) unit.types (fun _ _ => trivial) htypes _
    (hstart.foldl_withImport unit.imports)

end Binder

theorem Resolution.confined_ofUnit {P : TextRange → Prop} {unit : CompilationUnit}
    (h : Region.AllMeet P unit.regions) {p : Problem} (hp : p ∈ (ofUnit unit).problems)
    (hsyntactic : p.category = .syntactic) : P p.range :=
  Binder.resolveUnit_confined h _ (fun _ hp => by cases hp) p (List.mem_reverse.1 hp) hsyntactic

/-! ## Places at which problems of syntax start -/

variable {level : LanguageLevel} {text : String} {lexemes : List Lexeme}

/-- A place at which the parser may stand has a position. -/
theorem Parser.isSome_at?_of_begins (hscan : scan level text = .ok lexemes) {o : Nat}
    (h : Begins (lexemes.filter fun x => !x.kind.isTrivia) o) :
    (Position.at? text.toList o).isSome := by
  have hs := significant_of_scan hscan
  obtain ⟨x, hx, y, hxy, rfl⟩ := h
  have hlocated := located_of_scan hscan x (List.mem_of_mem_filter hx)
  rcases hxy with rfl | hrest
  · rw [hlocated.at?_start]
    rfl
  · have hpart : x.text.toList <:+: TokenRow.longestGt :=
      TokenRow.part_of_ofGtText? (hs.gtText x hx hrest.operator)
    have hwidth : y.start - x.start ≤ x.text.toList.length := by
      have hstop : y.start ≤ y.stop := Nat.le_add_right _ _
      rw [hrest.stop_eq, Lexeme.stop, utf8ByteSize_eq, TokenRow.utf8Length_part hpart] at hstop
      omega
    have hcut := hlocated.isSome_at? (List.take_append_drop (y.start - x.start) _).symm
    rw [TokenRow.utf8Length_part ((List.take_prefix _ _).isInfix.trans hpart), List.length_take,
      Nat.min_eq_left hwidth, Nat.add_sub_cancel' (Nat.le_of_lt hrest.start_lt)] at hcut
    exact hcut

/-- The lexemes that a parser ends with have the positions of their offsets. -/
theorem Parser.located_of_run (hscan : scan level text = .ok lexemes) {unit : CompilationUnit}
    {t : State} (hrun : run level lexemes = .ok (unit, t)) :
    ∀ x ∈ t.lexemes, Located text.toList x := by
  intro x hx
  rw [run_lexemes (significant_of_scan hscan) hrun] at hx
  obtain ⟨y, hy, hpiece⟩ := List.mem_flatMap.1 hx
  obtain ⟨piece, hmember, rfl⟩ := List.mem_map.1 hpiece
  have hmem := List.mem_of_mem_filter hy
  exact TokenRow.located_tokensOf _ [] (TokenRow.readable_of_scan hscan y hmem)
    (located_of_scan hscan y hmem) piece hmember

/-- A region of a file starts at a position. -/
theorem Parser.isSome_at?_of_region (hscan : scan level text = .ok lexemes)
    {unit : CompilationUnit} {t : State} (hrun : run level lexemes = .ok (unit, t)) :
    Region.AllMeet (fun r => (Position.at? text.toList r.start).isSome) unit.regions := by
  intro r hr
  obtain ⟨-, hdelimited, -⟩ := run_regions hscan hrun
  obtain ⟨xs, x, y, hxs, hx, -, hrange⟩ := hdelimited r hr
  have hlocated := located_of_run hscan hrun x (hxs.subset (List.mem_of_head? hx))
  rw [hrange, hlocated.at?_start]
  rfl

variable {input : SourceInput} {p : Problem}

/-- A problem of syntax in a text that can be cut into lexemes starts at a position. -/
theorem ParsedUnit.isSome_at?_of_mem_problems (hscan : scan input.level input.text = .ok lexemes)
    (hp : p ∈ (ofInput input).problems) (hsyntactic : p.category = .syntactic) :
    (Position.at? input.text.toList p.range.start).isSome := by
  cases hrun : Parser.run input.level lexemes with
  | error e =>
    have hparse : Parser.parse input.level lexemes = .error e := by
      rw [Parser.parse, hrun]
      rfl
    have hproblems : (ofInput input).problems = [.syntactic e.message e.range] := by
      simp only [ofInput, ofText, hscan, hparse, rejected]
    rw [hproblems] at hp
    rw [List.mem_singleton.1 hp]
    exact Parser.isSome_at?_of_begins hscan (Parser.run_error (significant_of_scan hscan) hrun)
  | ok r =>
    obtain ⟨unit, t⟩ := r
    have hparse : Parser.parse input.level lexemes = .ok unit := by
      rw [Parser.parse, hrun]
      rfl
    have hregions := Parser.isSome_at?_of_region hscan hrun
    have hproblems : (ofInput input).problems = (Resolution.ofUnit unit).problems ++
        (Resolution.ofUnit unit).unnecessary unit := by
      simp only [ofInput, ofText, hscan, hparse]
    rw [hproblems] at hp
    rcases List.mem_append.1 hp with hp | hp
    · exact Resolution.confined_ofUnit hregions hp hsyntactic
    · rw [(Resolution.warned_of_mem_unnecessary hp).category] at hsyntactic
      cases hsyntactic

namespace SourceFile

open SyntaxTree

/-- A problem that starts at a position is rejected with that position. -/
theorem at?_of_rejection {text : String} {p : Problem} {message : String} {position : Position}
    {range : TextRange} (hplace : (Position.at? text.toList p.range.start).isSome)
    (h : rejection text p = .syntactic message position range) :
    Position.at? text.toList range.start = some position := by
  obtain ⟨found, hfound⟩ := Option.isSome_iff_exists.1 hplace
  obtain ⟨parts, hsplit, rfl⟩ := Option.map_eq_some_iff.1 hfound
  simp only [rejection, hsplit, Option.map_some, Option.getD_some, FileError.syntactic.injEq] at h
  obtain ⟨-, rfl, rfl⟩ := h
  exact hfound

/--
All positions of a file are those of its offsets. In a text that cannot be cut into lexemes the
position of the fault is. In a file that has a tree, so are the positions at which its nodes start
and end, and those at which its tokens, the pieces of operators among them, and its comments start.
In a file that is rejected for its syntax, so is the position of the problem.
-/
theorem ofInput_positions (input : SourceInput) (policy : SyntaxPolicy) :
    (∀ e, scan input.level input.text = .error e →
      Position.at? input.text.toList e.offset = some e.position) ∧
    (∀ f, ofInput input policy = .ok f →
      (∀ id : NodeId, id.index < f.tree.nodes.size →
        Position.at? input.text.toList (f.tree.range id).start = some (f.tree.position id).1 ∧
        Position.at? input.text.toList (f.tree.range id).stop = some (f.tree.position id).2) ∧
      ∀ t ∈ f.tree.row.tokens.toList,
        Position.at? input.text.toList t.start = some t.position ∧
        ∀ c ∈ t.comments, Position.at? input.text.toList c.start = some c.position) ∧
    ∀ message position range, ofInput input policy = .error (.syntactic message position range) →
      Position.at? input.text.toList range.start = some position := by
  refine ⟨fun e he => at?_of_scan_error he, fun f hf => ?_, fun message position range h => ?_⟩
  · obtain ⟨hformed, lexemes, hscan, hrow⟩ := formed_of_ofInput hf
    have htokens := TokenRow.located_ofLexemes (ParsedUnit.ofInput input).unit.splits hscan
    rw [← hrow] at htokens
    have hlocated : ∀ x : TokenId, x.index < f.tree.row.tokens.size →
        Located input.text.toList (f.tree.token x).toLexeme := by
      intro x hx
      refine (htokens _ ?_).1
      rw [SyntaxTree.token, TokenRow.token, Array.getD_eq_getD_getElem?,
        Array.getElem?_eq_getElem hx, Option.getD_some]
      exact Array.getElem_mem_toList hx
    refine ⟨fun id hid => ⟨?_, ?_⟩, fun t ht => ?_⟩
    · exact (hlocated _ (hformed.token_lt hid (hformed.firstToken_mem hid))).at?_start
    · exact (hlocated _ (hformed.token_lt hid (hformed.lastToken_mem hid))).at?_stop
    · exact ⟨(htokens t ht).1.at?_start, (htokens t ht).2⟩
  · cases hscan : scan input.level input.text with
    | error e =>
      rw [ofInput_of_scan_error hscan] at h
      cases h
    | ok lexemes =>
      have houtcome := ofInput_of_scan_ok policy hscan
      cases hfatal : policy.firstFatal? (ParsedUnit.ofInput input).problems with
      | none =>
        rw [hfatal] at houtcome
        obtain ⟨f, hf⟩ := houtcome
        cases h.symm.trans hf
      | some p =>
        rw [hfatal] at houtcome
        obtain ⟨before, after, hproblems, ⟨hsyntactic, -⟩, -⟩ :=
          SyntaxPolicy.firstFatal?_eq_some.1 hfatal
        have hmem : p ∈ (ParsedUnit.ofInput input).problems := by simp [hproblems]
        have hplace := ParsedUnit.isSome_at?_of_mem_problems hscan hmem hsyntactic
        have hrejected := h.symm.trans houtcome
        exact at?_of_rejection hplace (Except.error.inj hrejected).symm

/-- Where the lexer meets a fault. -/
def faultAt? (level : LanguageLevel) (text : String) : Option Position :=
  match scan level text with
  | .error e => some e.position
  | .ok _ => none

theorem scan_of_faultAt? {level : LanguageLevel} {text : String} {p : Position}
    (h : faultAt? level text = some p) : ∃ e, scan level text = .error e ∧ e.position = p := by
  unfold faultAt? at h
  split at h
  · rename_i e he
    exact ⟨e, he, Option.some.inj h⟩
  · cases h

/-- Where the parser rejects a file. -/
def rejectedAt? (input : SourceInput) (policy : SyntaxPolicy) : Option Position :=
  match ofInput input policy with
  | .error (.syntactic _ place _) => some place
  | _ => none

theorem ofInput_of_rejectedAt? {input : SourceInput} {policy : SyntaxPolicy} {p : Position}
    (h : rejectedAt? input policy = some p) : ∃ message position range,
      ofInput input policy = .error (.syntactic message position range) ∧ position = p := by
  unfold rejectedAt? at h
  split at h
  · rename_i message position range he
    exact ⟨message, position, range, he, Option.some.inj h⟩
  · cases h

/-- A text with all three ends of lines, a text block and a comment over two lines, letters of two
bytes and an operator that is split. -/
def lineEnds : SourceInput :=
  ⟨"A.java", "class A\r\n\x7bL<L<S>>f;\rString é=\"\"\"\n\r\n\"\"\";/*ü\r\n*/int x;\x7d", .standard⟩

/-- The tokens start where the lines that they stand on say, and so do faults of the lexer and of
the parser after each of the ends of lines. -/
theorem ofInput_positions_lineEnds :
    (∃ f, ofInput lineEnds ⟨ProblemId.all⟩ = .ok f ∧
      f.tree.row.tokens.toList.map (·.position) =
        [⟨1, 0⟩, ⟨1, 6⟩, ⟨2, 0⟩, ⟨2, 1⟩, ⟨2, 2⟩, ⟨2, 3⟩, ⟨2, 4⟩, ⟨2, 5⟩, ⟨2, 6⟩, ⟨2, 7⟩, ⟨2, 8⟩,
          ⟨2, 9⟩, ⟨3, 0⟩, ⟨3, 7⟩, ⟨3, 8⟩, ⟨3, 9⟩, ⟨5, 3⟩, ⟨6, 2⟩, ⟨6, 6⟩, ⟨6, 7⟩, ⟨6, 8⟩, ⟨6, 9⟩] ∧
      ∀ t ∈ f.tree.row.tokens.toList,
        Position.at? lineEnds.text.toList t.start = some t.position) ∧
    (∃ e, scan .standard "class A\r\n\x7bé\r\"" = .error e ∧
      Position.at? "class A\r\n\x7bé\r\"".toList e.offset = some e.position ∧
      e.position = ⟨3, 0⟩) ∧
    ∃ message position range,
      ofInput ⟨"A.java", "class A\r\n\x7bé\rL<L<S>>=f;\x7d", .standard⟩ .strict =
        .error (.syntactic message position range) ∧
      Position.at? "class A\r\n\x7bé\rL<L<S>>=f;\x7d".toList range.start = some position ∧
      position = ⟨3, 1⟩ := by
  refine ⟨?_, ?_, ?_⟩
  · have hcut : (scan lineEnds.level lineEnds.text).toOption.map (fun lexemes =>
        (TokenRow.ofLexemes lexemes (ParsedUnit.ofInput lineEnds).unit.splits).tokens.toList.map
          (·.position)) = some [⟨1, 0⟩, ⟨1, 6⟩, ⟨2, 0⟩, ⟨2, 1⟩, ⟨2, 2⟩, ⟨2, 3⟩, ⟨2, 4⟩, ⟨2, 5⟩,
            ⟨2, 6⟩, ⟨2, 7⟩, ⟨2, 8⟩, ⟨2, 9⟩, ⟨3, 0⟩, ⟨3, 7⟩, ⟨3, 8⟩, ⟨3, 9⟩, ⟨5, 3⟩, ⟨6, 2⟩, ⟨6, 6⟩,
            ⟨6, 7⟩, ⟨6, 8⟩, ⟨6, 9⟩] := by
      decide +kernel
    obtain ⟨lexemes, hlexemes, htokens⟩ := Option.map_eq_some_iff.1 hcut
    rw [toOption_eq_some] at hlexemes
    obtain ⟨f, hf⟩ := exists_ofInput_of_tolerant hlexemes
    obtain ⟨-, scanned, hscan, hrow⟩ := formed_of_ofInput hf
    cases Except.ok.inj (hlexemes.symm.trans hscan)
    exact ⟨f, hf, by rw [hrow, htokens],
      fun t ht => (((ofInput_positions _ _).2.1 f hf).2 t ht).1⟩
  · have hfault : faultAt? .standard "class A\r\n\x7bé\r\"" = some ⟨3, 0⟩ := by decide +kernel
    obtain ⟨e, he, hplace⟩ := scan_of_faultAt? hfault
    exact ⟨e, he, (ofInput_positions ⟨"A.java", _, .standard⟩ .strict).1 e he, hplace⟩
  · have hfault : rejectedAt? ⟨"A.java", "class A\r\n\x7bé\rL<L<S>>=f;\x7d", .standard⟩ .strict =
        some ⟨3, 1⟩ := by decide +kernel
    obtain ⟨message, position, range, he, hplace⟩ := ofInput_of_rejectedAt? hfault
    exact ⟨message, position, range, he, (ofInput_positions _ _).2.2 _ _ _ he, hplace⟩

end SourceFile

end JavaAnalysis
