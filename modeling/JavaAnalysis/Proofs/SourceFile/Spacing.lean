import JavaAnalysis.Proofs.Layout.Unit
import JavaAnalysis.Proofs.SourceFile
import JavaAnalysis.Proofs.Spacing.Layout
import JavaAnalysis.Proofs.Spacing.ParsedUnit

/-!
# Files that are spaced differently

Blanks and comments are between the lexemes that matter, and nothing depends on them: of two texts
with the same significant lexemes the same is known, and both are rejected, or both have a tree with
the same nodes. The two files come from one tight row of these lexemes, so that each is compared
with that row, and then with the other one. Main statement: `SourceFile.ofInput_spacing`.
-/

set_option autoImplicit false
set_option linter.dupNamespace false

namespace JavaAnalysis

open Ast Lexeme

variable {f g k : Shift}

/-- Two lexemes that come from the same one. -/
theorem Lexeme.Moved.of_common {x y z : Lexeme} (hcomp : f.Composes k g) (hy : Moved f x y)
    (hz : Moved g x z) : Moved k y z where
  kind_eq := hz.kind_eq.trans hy.kind_eq.symm
  text_eq := hz.text_eq.trans hy.text_eq.symm
  start_eq := by rw [hz.start_eq, hy.start_eq, hcomp.start_start]
  inside d hd := by
    rw [hy.text_eq] at hd
    rw [← hy.inside d hd, hcomp.start_start, hz.inside d hd]

theorem Lexeme.forall₂_moved_of_common {xs ys zs : List Lexeme} (hcomp : f.Composes k g)
    (hy : List.Forall₂ (Moved f) xs ys) (hz : List.Forall₂ (Moved g) xs zs) :
    List.Forall₂ (Moved k) ys zs := by
  induction hy generalizing zs with
  | nil =>
    cases hz
    exact .nil
  | cons hxy _ ih =>
    obtain ⟨z, zs, hxz, hrest, rfl⟩ := List.forall₂_cons_left_iff.1 hz
    exact .cons (hxy.of_common hcomp hxz) (ih hrest)

/-- Two trees with the same nodes, over tokens of which one goes where the other is. -/
structure SyntaxTree.Corresponds (k : Shift) (t u : SyntaxTree) : Prop where
  nodes_eq : u.nodes = t.nodes
  root_eq : u.root = t.root
  owners_eq : u.owners = t.owners
  declaredTypes_eq : u.declaredTypes = t.declaredTypes
  moved : List.Forall₂ (Lexeme.Moved k) (TokenRow.bare t.row.tokens.toList)
    (TokenRow.bare u.row.tokens.toList)

/--
What becomes of two texts: both are rejected for the same reason, at the place that goes where the
other one is, or both have a tree with the same nodes.
-/
inductive SourceFile.Corresponds (k : Shift) :
    Except FileError SourceFile → Except FileError SourceFile → Prop where
  | rejected (message : String) (p q : Position) {r s : TextRange}
    (h : s = k.range r ∨ s = k.spot r) :
    Corresponds k (.error (.syntactic message p r)) (.error (.syntactic message q s))
  | accepted {f g : SourceFile} (h : f.tree.Corresponds k g.tree) : Corresponds k (.ok f) (.ok g)

/-! ## From the tight row -/

section

variable {level level' : LanguageLevel} {text text' : String} {lexemes lexemes' : List Lexeme}

/-- The lexemes of a text that are neither blanks nor comments. -/
abbrev significantOf (lexemes : List Lexeme) : List Lexeme :=
  lexemes.filter fun x => !x.kind.isTrivia

/-- The significant lexemes of a text, put one behind the other. -/
abbrev tightRow (lexemes : List Lexeme) : List Lexeme := tighten 0 (significantOf lexemes)

theorem tight_tightRow (hscan : scan level text = .ok lexemes) : Tight 0 (tightRow lexemes) :=
  (significant_of_scan hscan).loose.tighten

/-- The tight row is spread to each text with its significant lexemes. -/
theorem spread_of_same (hscan : scan level text = .ok lexemes)
    (hscan' : scan level' text' = .ok lexemes')
    (hsame : List.Forall₂ Same (significantOf lexemes) (significantOf lexemes')) :
    ParsedUnit.Spread (.between (tightRow lexemes) (significantOf lexemes')) (tightRow lexemes)
      lexemes' := by
  have htight := tight_tightRow hscan
  have hrow : List.Forall₂ Same (tightRow lexemes) (significantOf lexemes') := same_tighten hsame 0
  refine ⟨htight, fun x hx hgt => ?_,
    Shift.strictMono_between htight hrow (significant_of_scan hscan').loose,
    Shift.moved_between htight hrow⟩
  obtain ⟨y, hy, hxy⟩ := exists_same_of_mem_tighten hx
  rw [← hxy.kind_eq] at hgt ⊢
  rw [← hxy.text_eq]
  exact (significant_of_scan hscan).gtText y hy hgt

end

/-- The range of a file that is parsed starts with its text. -/
theorem Parser.parse_start {level : LanguageLevel} {xs : List Lexeme} {unit : CompilationUnit}
    (h : parse level xs = .ok unit) : unit.range.start = 0 := by
  obtain ⟨⟨u, t⟩, hrun, rfl⟩ := map_eq_ok.1 h
  have hrange : ∀ g length s, Ensures (compilationUnit g length) s fun unit _ =>
      unit.range = .upTo length := fun g length s => by
    have hany : ∀ {α : Type} (p : Parser α) s, Ensures p s fun _ _ => True :=
      fun _ _ _ _ _ => trivial
    unfold compilationUnit
    refine (hany _ _).bind fun _ _ _ => (hany _ _).bind fun _ _ _ => ?_
    exact (hany _ _).bind fun _ _ _ => .pure rfl
  rw [hrange _ _ _ u t hrun]
  rfl

/-- Where the lists end at which operators are cut. -/
theorem Ast.CompilationUnit.splits_shift (f : Shift) (unit : CompilationUnit) :
    (unit.shift f).splits = unit.splits.map f.stop := by
  have hsplit : ∀ p : Part, (p.shift f).split? = p.split?.map f.stop := by
    have hoption : ∀ r : Option TextRange,
        (r.map f.range).map (·.stop) = (r.map (·.stop)).map f.stop := by
      intro r
      cases r <;> rfl
    intro p
    cases p with
    | type decl => cases decl; exact hoption _
    | method decl => cases decl; exact hoption _
    | expr e => cases e <;> first | exact hoption _ | rfl
    | typeRef t => cases t <;> first | exact hoption _ | rfl
    | _ => rfl
  unfold CompilationUnit.splits
  rw [CompilationUnit.outlines_shift, Outline.partsOf_shift, List.filterMap_map,
    List.map_filterMap]
  exact congrArg (List.filterMap · _) (funext hsplit)

/-! ## Trees -/

theorem map_snd_zip_congr {α β : Type} {xs ys : List α} (h : xs.length = ys.length)
    (zs : List β) : (xs.zip zs).map (·.2) = (ys.zip zs).map (·.2) := by
  induction zs generalizing xs ys with
  | nil => simp
  | cons z zs ih =>
    cases xs <;> cases ys
    · rfl
    · cases h
    · cases h
    · simpa using ih (Nat.succ.inj h)

/-- Which tokens have an owner does not depend on where the tokens are. -/
theorem SyntaxTree.ownersFrom_congr {row row' : TokenRow} {slots : List Slot}
    {owners owned : Array (Option NodeId)} (h : ownersFrom row owners slots = .ok owned) :
    ownersFrom row' owners slots = .ok owned := by
  induction slots generalizing owners with
  | nil => exact h
  | cons s slots ih =>
    obtain ⟨parent, place, c⟩ := s
    cases c with
    | node id => exact ih h
    | token id =>
      unfold ownersFrom at h ⊢
      split at h
      · cases h
      · exact ih h

section

variable {row row' : TokenRow} {d : TreeDraft} {root : NodeId} {text text' : String}
  {t u : SyntaxTree}

/-- The same draft over two rows gives the same nodes. -/
theorem SyntaxTree.corresponds_of_draft (hsize : row'.tokens.size = row.tokens.size)
    (hmoved : List.Forall₂ (Lexeme.Moved k) (TokenRow.bare row.tokens.toList)
      (TokenRow.bare row'.tokens.toList))
    (ht : ofDraft text row d root = .ok t) (hu : ofDraft text' row' d root = .ok u) :
    t.Corresponds k u := by
  obtain ⟨-, ends, hends, owners, howners, links, hlinks, os, hos, -, rfl⟩ := ofDraft_eq_ok.1 ht
  obtain ⟨-, ends', hends', owners', howners', links', hlinks', os', hos', -, rfl⟩ :=
    ofDraft_eq_ok.1 hu
  cases hends.symm.trans hends'
  cases hlinks.symm.trans hlinks'
  unfold ownersOf at howners howners'
  rw [← hsize] at howners
  cases (ownersFrom_congr howners).symm.trans howners'
  rw [allOwned_eq_ok] at hos hos'
  have hsame : os = os' := by
    refine List.map_injective_iff.2 (Option.some_injective _) (hos.symm.trans (.trans ?_ hos'))
    exact map_snd_zip_congr (by simpa using hsize.symm) _
  exact ⟨rfl, rfl, congrArg List.toArray hsame.symm, rfl, hmoved⟩

end

namespace Layout

variable {row₀ row row' : TokenRow} {unit : CompilationUnit} {text text' : String}
  {boundAt₀ boundAt boundAt' : Nat → Option BindingId}

/-- What is laid over a row was laid over the row from which it was moved. -/
theorem layUnit_origin (hrow : row₀.Moved f row) (hstart : unit.range.start = 0)
    (hbound : ∀ o, boundAt (f.start o) = boundAt₀ o) {root : NodeId} {l : Layout}
    (h : layUnit (unit.shift f) (start row boundAt) = .ok (root, l)) :
    ∃ l₀, layUnit unit (start row₀ boundAt₀) = .ok (root, l₀) ∧ l.draft = l₀.draft := by
  have hmirror := layUnit_mirror hrow.ascending hstart (start row₀ boundAt₀) (start row boundAt)
    ⟨hrow, rfl, rfl, rfl, hbound⟩
  unfold MirrorAt at hmirror
  rw [h] at hmirror
  cases hrun : layUnit unit (start row₀ boundAt₀) with
  | error e => simp only [hrun] at hmirror
  | ok r =>
    obtain ⟨root₀, l₀⟩ := r
    simp only [hrun] at hmirror
    obtain ⟨rfl, hmoved⟩ := hmirror
    exact ⟨l₀, rfl, hmoved.draft_eq⟩

/-- Trees over two rows that come from the same one correspond. -/
theorem tree_corresponds (hrow : row₀.Moved f row) (hrow' : row₀.Moved g row')
    (hstart : unit.range.start = 0) (hbound : ∀ o, boundAt (f.start o) = boundAt₀ o)
    (hbound' : ∀ o, boundAt' (g.start o) = boundAt₀ o)
    (hrows : List.Forall₂ (Lexeme.Moved k) (TokenRow.bare row.tokens.toList)
      (TokenRow.bare row'.tokens.toList)) {t u : SyntaxTree} {o o' : Occurrences}
    (ht : tree text row boundAt (unit.shift f) = .ok (t, o))
    (hu : tree text' row' boundAt' (unit.shift g) = .ok (u, o')) : t.Corresponds k u := by
  obtain ⟨root, l, hrun, hdraft, -⟩ := tree_eq_ok.1 ht
  obtain ⟨root', l', hrun', hdraft', -⟩ := tree_eq_ok.1 hu
  obtain ⟨l₀, hrun₀, heq⟩ := layUnit_origin hrow hstart hbound hrun
  obtain ⟨l₁, hrun₁, heq'⟩ := layUnit_origin hrow' hstart hbound' hrun'
  cases hrun₀.symm.trans hrun₁
  rw [heq] at hdraft
  rw [heq'] at hdraft'
  exact SyntaxTree.corresponds_of_draft (hrow'.size_eq.trans hrow.size_eq.symm) hrows hdraft hdraft'

end Layout

/-- The tokens of a row that goes along with another one go along with its tokens. -/
theorem TokenRow.Moved.forall₂ {r s : TokenRow} (h : r.Moved f s) :
    List.Forall₂ (Lexeme.Moved f) (bare r.tokens.toList) (bare s.tokens.toList) := by
  refine List.forall₂_iff_get.2 ⟨by simp [bare, h.size_eq], fun i hi hi' => ?_⟩
  have hmoved := h.moved i (by simpa [bare] using hi)
  rw [token_eq_getElem (by simpa [bare] using hi), token_eq_getElem (by simpa [bare] using hi')]
    at hmoved
  simpa [bare] using hmoved

/-! ## Two texts -/

namespace SourceFile

variable {input input' : SourceInput} {lexemes lexemes' : List Lexeme} {policy : SyntaxPolicy}

section

variable {xs : List Lexeme} {length : Nat} {level : LanguageLevel}

/-- Two texts that come from one tight row, the ends of which are where its end goes. -/
structure Respaced (f g k : Shift) (xs : List Lexeme) (input input' : SourceInput)
    (lexemes lexemes' : List Lexeme) (length : Nat) : Prop where
  composes : f.Composes k g
  level_eq : input'.level = input.level
  scan : scan input.level input.text = .ok lexemes
  scan' : Lexeme.scan input'.level input'.text = .ok lexemes'
  spread : ParsedUnit.Spread f xs lexemes
  spread' : ParsedUnit.Spread g xs lexemes'
  length_eq : input.text.utf8ByteSize = f.start length
  length_eq' : input'.text.utf8ByteSize = g.start length

namespace Respaced

theorem ofInput_eq (h : Respaced f g k xs input input' lexemes lexemes' length) :
    ParsedUnit.ofInput input = .ofLexemes input.level (f.start length) lexemes :=
  h.length_eq ▸ ParsedUnit.ofText_eq h.scan

theorem ofInput_eq' (h : Respaced f g k xs input input' lexemes lexemes' length) :
    ParsedUnit.ofInput input' = .ofLexemes input.level (g.start length) lexemes' :=
  h.level_eq ▸ h.length_eq' ▸ ParsedUnit.ofText_eq h.scan'

theorem parsed (h : Respaced f g k xs input input' lexemes lexemes' length) :
    (ParsedUnit.ofInput input).Corresponds k (.ofInput input') := by
  have hfiles : ParsedUnit.Corresponds k (.ofLexemes input.level (f.start length) lexemes)
      (.ofLexemes input.level (k.start (f.start length)) lexemes') :=
    h.spread.corresponds h.composes h.spread'
  rw [h.composes.start_start] at hfiles
  rwa [h.ofInput_eq, h.ofInput_eq']

theorem unit_start : (ParsedUnit.ofLexemes level length xs).unit.range.start = 0 := by
  unfold ParsedUnit.ofLexemes
  cases hparse : Parser.parse level xs with
  | error e => rfl
  | ok unit => exact Parser.parse_start hparse

theorem outcome (h : Respaced f g k xs input input' lexemes lexemes' length) :
    Corresponds k (ofInput input policy) (ofInput input' policy) := by
  have hout := ofInput_of_scan_ok policy h.scan
  have hout' := ofInput_of_scan_ok policy h.scan'
  rcases h.parsed.firstFatal? policy with ⟨hnone, hnone'⟩ | ⟨x, y, hx, hy, hmessage, hrange⟩
  · simp only [hnone] at hout
    simp only [hnone'] at hout'
    obtain ⟨file, hfile⟩ := hout
    obtain ⟨file', hfile'⟩ := hout'
    obtain ⟨_, o, hscan, htree, -⟩ := tree_of_ofInput hfile
    obtain ⟨_, o', hscan', htree', -⟩ := tree_of_ofInput hfile'
    cases h.scan.symm.trans hscan
    cases h.scan'.symm.trans hscan'
    -- Both files are compared with what is known of the tight row itself.
    have htight : ParsedUnit.Corresponds f (.ofLexemes input.level length xs)
        (.ofLexemes input.level (f.start length) lexemes) := h.spread.corresponds_tight
    have htight' : ParsedUnit.Corresponds g (.ofLexemes input.level length xs)
        (.ofLexemes input.level (g.start length) lexemes') := h.spread'.corresponds_tight
    rw [← h.ofInput_eq] at htight
    rw [← h.ofInput_eq'] at htight'
    rw [htight.unit_eq, CompilationUnit.splits_shift] at htree
    rw [htight'.unit_eq, CompilationUnit.splits_shift] at htree'
    have hrow := TokenRow.moved_ofLexemes h.spread.ascending h.scan h.spread.moved
      (ParsedUnit.ofLexemes input.level length xs).unit.splits
    have hrow' := TokenRow.moved_ofLexemes h.spread'.ascending h.scan' h.spread'.moved
      (ParsedUnit.ofLexemes input.level length xs).unit.splits
    rw [hfile, hfile']
    exact .accepted (Layout.tree_corresponds hrow hrow' unit_start
      (htight.boundAt?_eq h.spread.ascending) (htight'.boundAt?_eq h.spread'.ascending)
      (forall₂_moved_of_common h.composes hrow.forall₂ hrow'.forall₂) htree htree')
  · simp only [hx] at hout
    simp only [hy] at hout'
    obtain ⟨position, hposition⟩ := rejection_eq input.text x
    obtain ⟨position', hposition'⟩ := rejection_eq input'.text y
    rw [hout, hout', hposition, hposition', hmessage]
    exact .rejected _ _ _ hrange

end Respaced

end

/-- What a lexeme is, apart from its place. -/
abbrev spelling (x : Lexeme) : TokenKind × String := (x.kind, x.text)

theorem same_of_spelling {xs ys : List Lexeme} (h : ys.map spelling = xs.map spelling) :
    List.Forall₂ Same xs ys := by
  refine List.forall₂_iff_get.2 ⟨by simpa using congrArg List.length h.symm, fun i hi hi' => ?_⟩
  have hget := congrArg (·[i]?) h
  simp only [List.getElem?_map, List.getElem?_eq_getElem hi, List.getElem?_eq_getElem hi',
    Option.map_some, Option.some.injEq, Prod.mk.injEq] at hget
  exact ⟨hget.1, hget.2⟩

/-- The end of a text goes along with its last lexeme. -/
theorem size_eq_of_moved {xs : List Lexeme} {x : Lexeme} (hscan : scan input.level input.text =
    .ok lexemes) (hmoved : List.Forall₂ (Lexeme.Moved f) xs (significantOf lexemes))
    (hlast : xs.getLast? = some x) : input.text.utf8ByteSize = f.start x.start := by
  obtain ⟨before, p, rfl, -, -⟩ := scan_ok hscan
  have hkind : (endOfFile input.text.utf8ByteSize p).kind.isTrivia = false := rfl
  have hne : xs ≠ [] := fun h => by simp [h] at hlast
  have hend := Parser.moved_getLast hmoved hne default default
  simp only [hlast, Option.getD_some, List.filter_append, hkind, List.filter_cons, Bool.not_false,
    if_true, List.filter_nil, List.getLast?_append, List.getLast?_singleton, Option.some_or] at hend
  exact hend.start_eq

/--
Of two texts with the same significant lexemes the same is known, and both are rejected for the same
reason or both have a tree with the same nodes. All places go along with the lexemes, and each byte
of a lexeme goes along with it.
-/
theorem ofInput_spacing (hlevel : input'.level = input.level)
    (hscan : scan input.level input.text = .ok lexemes)
    (hscan' : scan input'.level input'.text = .ok lexemes')
    (hsame : (significantOf lexemes').map spelling = (significantOf lexemes).map spelling)
    (policy : SyntaxPolicy) :
    let k := Shift.between (significantOf lexemes) (significantOf lexemes')
    List.Forall₂ (Lexeme.Moved k) (significantOf lexemes) (significantOf lexemes') ∧
      (ParsedUnit.ofInput input).Corresponds k (.ofInput input') ∧
      Corresponds k (ofInput input policy) (ofInput input' policy) := by
  have hspelled := same_of_spelling hsame
  have hself := same_of_spelling (rfl : (significantOf lexemes).map spelling = _)
  have htight := tight_tightRow hscan
  have hspread := spread_of_same hscan hscan hself
  have hspread' := spread_of_same hscan hscan' hspelled
  have hcomp := Shift.between_composes htight (same_tighten hself 0) (same_tighten hspelled 0)
    (significant_of_scan hscan).loose
  have hne : tightRow lexemes ≠ [] := fun h => by
    rw [h] at htight
    cases htight
  have hx : (tightRow lexemes).getLast? = some _ := List.getLast?_eq_some_getLast hne
  have hfiles : Respaced _ _ _ (tightRow lexemes) input input' lexemes lexemes' _ :=
    ⟨hcomp, hlevel, hscan, hscan', hspread, hspread', size_eq_of_moved hscan hspread.moved hx,
      size_eq_of_moved hscan' hspread'.moved hx⟩
  exact ⟨forall₂_moved_of_common hcomp hspread.moved hspread'.moved, hfiles.parsed, hfiles.outcome⟩

/-- A file with nested lists of type arguments, written without blanks. -/
def dense : SourceInput := ⟨"A.java", "class A\x7bA<A<B>>x;\x7d", .standard⟩

/-- The same file with blanks and a comment. -/
def sparse : SourceInput := ⟨"A.java", "class A \x7b /*B*/\n A <A<B >> x ;\x7d", .standard⟩

/-- Both files have the same tree, although the class ends elsewhere in each of them. -/
theorem ofInput_spacing_dense : ∃ lexemes lexemes' f f',
    scan dense.level dense.text = .ok lexemes ∧ scan sparse.level sparse.text = .ok lexemes' ∧
    ofInput dense ⟨ProblemId.all⟩ = .ok f ∧ ofInput sparse ⟨ProblemId.all⟩ = .ok f' ∧
    f.tree.Corresponds (.between (significantOf lexemes) (significantOf lexemes')) f'.tree ∧
    (ParsedUnit.ofInput dense).unit.types.map (·.range) = [⟨0, 18⟩] ∧
    (ParsedUnit.ofInput sparse).unit.types.map (·.range) = [⟨0, 31⟩] := by
  have hfacts : (scan dense.level dense.text).toOption.isSome ∧
      (scan sparse.level sparse.text).toOption.isSome ∧
      (scan sparse.level sparse.text).toOption.map (fun xs => (significantOf xs).map spelling) =
        (scan dense.level dense.text).toOption.map (fun xs => (significantOf xs).map spelling) ∧
      (ParsedUnit.ofInput dense).unit.types.map (·.range) = [⟨0, 18⟩] ∧
      (ParsedUnit.ofInput sparse).unit.types.map (·.range) = [⟨0, 31⟩] := by decide +kernel
  obtain ⟨hcut, hcut', hsame, hrange, hrange'⟩ := hfacts
  obtain ⟨lexemes, hscan⟩ := Option.isSome_iff_exists.1 hcut
  obtain ⟨lexemes', hscan'⟩ := Option.isSome_iff_exists.1 hcut'
  rw [hscan, hscan', Option.map_some, Option.map_some, Option.some.injEq] at hsame
  rw [toOption_eq_some] at hscan hscan'
  obtain ⟨f, hf⟩ := exists_ofInput_of_tolerant hscan
  obtain ⟨f', hf'⟩ := exists_ofInput_of_tolerant hscan'
  have hlevel : sparse.level = dense.level := rfl
  obtain ⟨-, -, htrees⟩ := ofInput_spacing hlevel hscan hscan' hsame ⟨ProblemId.all⟩
  rw [hf, hf'] at htrees
  cases htrees with
  | accepted htree =>
    exact ⟨lexemes, lexemes', f, f', hscan, hscan', hf, hf', htree, hrange, hrange'⟩

end SourceFile

end JavaAnalysis
