import JavaAnalysis.Layout.Shape
import JavaAnalysis.Proofs.Row.Search

/-!
# Shapes that fit the lexemes of a file

A shape fits between two offsets if each of its ranges starts with a lexeme that no cut can touch
and the ranges of what is inside it follow each other inside its own range. Lexemes next to a range
that the shape counts on, such as the comma behind a variable, must stand there.

The ranges of a shape are those that are told before any token is looked at: those of nodes, and
those in which the separator of an enum is looked for. A range that does not end before it starts is
well formed.
-/

set_option autoImplicit false
set_option linter.dupNamespace false

namespace JavaAnalysis

open Lexeme

/-- A lexeme that is a token of its own starts here and ends by `stop`, of the kind asked for. -/
def Anchored (raw : List Lexeme) (start stop : Nat) (word : Option TokenKind) : Prop :=
  ∃ x ∈ raw, x.kind.isFirm = true ∧ x.start = start ∧ x.stop ≤ stop ∧
    ∀ k, word = some k → x.kind = k

/-- The range lies between two offsets and starts with a lexeme of the kind asked for. -/
def Ranged (raw : List Lexeme) (range : TextRange) (word : Option TokenKind) (lo hi : Nat) : Prop :=
  lo ≤ range.start ∧ range.stop ≤ hi ∧ Anchored raw range.start range.stop word

/-- The name is that of a lexeme that is a token of its own. -/
def Spelled (raw : List Lexeme) (name : Ast.Ident) : Prop :=
  ∃ x ∈ raw, x.kind.isFirm = true ∧ x.range = name.range ∧ x.text = name.text

/-- The lexeme is the first behind the offset, and of the given kind. -/
structure Follows (raw : List Lexeme) (offset : Nat) (kind : TokenKind) (x : Lexeme) : Prop where
  mem : x ∈ raw
  firm : x.kind.isFirm = true
  kind_eq : x.kind = kind
  le_start : offset ≤ x.start
  next : ∀ y ∈ raw, y.start < x.start → y.stop ≤ offset

/-- The lexeme is the last in front of the offset, and of the given kind. -/
structure Precedes (raw : List Lexeme) (x : Lexeme) (kind : TokenKind) (offset : Nat) : Prop where
  mem : x ∈ raw
  firm : x.kind.isFirm = true
  kind_eq : x.kind = kind
  stop_le : x.stop ≤ offset
  next : ∀ y ∈ raw, x.start < y.start → offset ≤ y.start

/-- Where a variable ends, with the comma or semicolon behind it unless it is the last of all. -/
def FragmentEnd (raw : List Lexeme) (range : TextRange) (isLast terminated : Bool) (stop : Nat) :
    Prop :=
  if isLast && !terminated then stop = range.stop
  else ∃ x, Follows raw range.stop (if isLast then .semicolon else .comma) x ∧ stop = x.stop

/-- Where the next variable starts, if there is one. -/
def nextStart (stop : Nat) : List FragmentShape → Nat
  | .mk range _ _ :: _ => range.start
  | [] => stop

mutual

/-- A shape fits between two offsets. -/
def Fits (raw : List Lexeme) : Shape → Nat → Nat → Prop
  | .ident range _, lo, hi => Ranged raw range none lo hi
  | .node spec children, lo, hi =>
    Ranged raw spec.range spec.word lo hi ∧ Placed raw children spec.range.start spec.range.stop
  | .typed spec before typeShape _ _ after, lo, hi =>
    Ranged raw spec.range none lo hi ∧ ∃ mid stop, spec.range.start ≤ mid ∧
      Placed raw before spec.range.start mid ∧ mid ≤ stop ∧ Fits raw typeShape mid stop ∧
      stop ≤ spec.range.stop ∧ Placed raw after stop spec.range.stop
  | .clause _ word range types, lo, hi =>
    ∃ x, Precedes raw x word range.start ∧ lo ≤ x.start ∧ range.start ≤ range.stop ∧
      range.stop ≤ hi ∧ Placed raw types range.start range.stop
  | .variables start terminated before typeShape _ fragments, lo, hi =>
    lo ≤ start ∧ fragments ≠ [] ∧ ∃ mid stop, start ≤ mid ∧ Placed raw before start mid ∧
      mid ≤ stop ∧ Fits raw typeShape mid stop ∧
      FragmentsFit raw terminated fragments start stop hi
  | .labeled range label body, lo, hi =>
    Ranged raw range none lo hi ∧ Spelled raw label ∧
      ∃ mid ≤ range.stop, Ranged raw label.range none range.start mid ∧
        Placed raw body mid range.stop
  | .jump _ range none, lo, hi => Ranged raw range none lo hi
  | .jump _ range (some label), lo, hi =>
    Ranged raw range none lo hi ∧ Spelled raw label ∧
      Ranged raw label.range none range.start range.stop
  | .body inside, lo, hi => Placed raw inside lo hi

/-- Shapes fit between two offsets, each behind the one before it. -/
def Placed (raw : List Lexeme) : List Shape → Nat → Nat → Prop
  | [], _, _ => True
  | s :: ss, lo, hi => ∃ mid, lo ≤ mid ∧ mid ≤ hi ∧ Fits raw s lo mid ∧ Placed raw ss mid hi

/--
Variables fit, the first of which starts at `start`; its name stands behind `lo`, after the
modifiers and the type.
-/
def FragmentsFit (raw : List Lexeme) (terminated : Bool) :
    List FragmentShape → Nat → Nat → Nat → Prop
  | [], _, _, _ => True
  | .mk range name inside :: fragments, start, lo, hi =>
    ∃ stop ≤ hi, FragmentEnd raw range fragments.isEmpty terminated stop ∧
      Anchored raw start stop none ∧
      (∃ mid ≤ stop, Ranged raw name.range none lo mid ∧ Placed raw inside mid stop) ∧
      stop ≤ nextStart stop fragments ∧
      FragmentsFit raw terminated fragments (nextStart stop fragments) (nextStart stop fragments) hi

end

variable {raw : List Lexeme} {lo lo' hi hi' start stop : Nat} {word : Option TokenKind}
  {range : TextRange} {shape : Shape} {shapes others : List Shape}

theorem Anchored.le (h : Anchored raw start stop word) : start ≤ stop := by
  obtain ⟨x, -, -, rfl, hstop, -⟩ := h
  exact Nat.le_trans (Nat.le_add_right _ _) hstop

theorem Anchored.mono (h : Anchored raw start stop word) {stop' : Nat} (hle : stop ≤ stop') :
    Anchored raw start stop' word := by
  obtain ⟨x, hx, hfirm, hstart, hstop, hword⟩ := h
  exact ⟨x, hx, hfirm, hstart, Nat.le_trans hstop hle, hword⟩

theorem Anchored.any (h : Anchored raw start stop word) : Anchored raw start stop none := by
  obtain ⟨x, hx, hfirm, hstart, hstop, -⟩ := h
  exact ⟨x, hx, hfirm, hstart, hstop, fun _ h => by cases h⟩

theorem Ranged.mono (h : Ranged raw range word lo hi) (hlo : lo' ≤ lo) (hhi : hi ≤ hi') :
    Ranged raw range word lo' hi' := by
  obtain ⟨hstart, hstop, hanchored⟩ := h
  exact ⟨Nat.le_trans hlo hstart, Nat.le_trans hstop hhi, hanchored⟩

theorem Ranged.le (h : Ranged raw range word lo hi) : lo ≤ hi := by
  obtain ⟨hstart, hstop, hanchored⟩ := h
  have hle := hanchored.le
  omega

mutual

theorem Fits.mono : ∀ (shape : Shape) {lo hi lo' hi' : Nat}, lo' ≤ lo → hi ≤ hi' →
    Fits raw shape lo hi → Fits raw shape lo' hi'
  | .ident _ _, _, _, _, _, hlo, hhi, h => by
    simp only [Fits] at h ⊢
    exact h.mono hlo hhi
  | .node _ _, _, _, _, _, hlo, hhi, h => by
    simp only [Fits] at h ⊢
    exact ⟨h.1.mono hlo hhi, h.2⟩
  | .typed _ _ _ _ _ _, _, _, _, _, hlo, hhi, h => by
    simp only [Fits] at h ⊢
    exact ⟨h.1.mono hlo hhi, h.2⟩
  | .clause _ _ _ _, _, _, _, _, hlo, hhi, h => by
    simp only [Fits] at h ⊢
    obtain ⟨x, hprecedes, hstart, hle, hstop, htypes⟩ := h
    exact ⟨x, hprecedes, Nat.le_trans hlo hstart, hle, Nat.le_trans hstop hhi, htypes⟩
  | .variables _ _ _ _ _ fragments, _, _, _, _, hlo, hhi, h => by
    simp only [Fits] at h ⊢
    obtain ⟨hstart, hne, mid, stop, hmid, hbefore, hle, htype, hfragments⟩ := h
    exact ⟨Nat.le_trans hlo hstart, hne, mid, stop, hmid, hbefore, hle, htype,
      FragmentsFit.mono fragments hhi hfragments⟩
  | .labeled _ _ _, _, _, _, _, hlo, hhi, h => by
    simp only [Fits] at h ⊢
    exact ⟨h.1.mono hlo hhi, h.2⟩
  | .jump _ _ none, _, _, _, _, hlo, hhi, h => by
    simp only [Fits] at h ⊢
    exact h.mono hlo hhi
  | .jump _ _ (some _), _, _, _, _, hlo, hhi, h => by
    simp only [Fits] at h ⊢
    exact ⟨h.1.mono hlo hhi, h.2⟩
  | .body inside, _, _, _, _, hlo, hhi, h => by
    simp only [Fits] at h ⊢
    exact Placed.mono inside hlo hhi h

theorem Placed.mono : ∀ (shapes : List Shape) {lo hi lo' hi' : Nat}, lo' ≤ lo → hi ≤ hi' →
    Placed raw shapes lo hi → Placed raw shapes lo' hi'
  | [], _, _, _, _, _, _, _ => by simp only [Placed]
  | s :: ss, _, _, _, _, hlo, hhi, h => by
    simp only [Placed] at h ⊢
    obtain ⟨mid, hlomid, hmidhi, hfirst, hothers⟩ := h
    exact ⟨mid, Nat.le_trans hlo hlomid, Nat.le_trans hmidhi hhi,
      Fits.mono s hlo (Nat.le_refl mid) hfirst, Placed.mono ss (Nat.le_refl mid) hhi hothers⟩

theorem FragmentsFit.mono {terminated : Bool} : ∀ (fragments : List FragmentShape)
    {start lo hi hi' : Nat}, hi ≤ hi' → FragmentsFit raw terminated fragments start lo hi →
      FragmentsFit raw terminated fragments start lo hi'
  | [], _, _, _, _, _, _ => by simp only [FragmentsFit]
  | .mk _ _ _ :: fragments, _, _, _, _, hhi, h => by
    simp only [FragmentsFit] at h ⊢
    obtain ⟨stop, hstop, hend, hanchored, hinside, hnext, hothers⟩ := h
    exact ⟨stop, Nat.le_trans hstop hhi, hend, hanchored, hinside, hnext,
      FragmentsFit.mono fragments hhi hothers⟩

end

theorem Placed.append (h : Placed raw shapes lo stop) (ho : Placed raw others start hi)
    (hlo : lo ≤ start) (hle : stop ≤ start) (hhi : stop ≤ hi) :
    Placed raw (shapes ++ others) lo hi := by
  induction shapes generalizing lo with
  | nil => exact Placed.mono others hlo (Nat.le_refl hi) ho
  | cons s ss ih =>
    simp only [Placed] at h
    obtain ⟨mid, hlomid, hmid, hfirst, hrest⟩ := h
    simp only [List.cons_append, Placed]
    exact ⟨mid, hlomid, by omega, hfirst, ih hrest (by omega)⟩

theorem Placed.singleton (h : Fits raw shape lo hi) (hle : lo ≤ hi) : Placed raw [shape] lo hi := by
  simp only [Placed]
  exact ⟨hi, hle, Nat.le_refl hi, h, trivial⟩

theorem Placed.fits_of_mem (h : Placed raw shapes lo hi) (hmem : shape ∈ shapes) :
    Fits raw shape lo hi := by
  induction shapes generalizing lo with
  | nil => cases hmem
  | cons s ss ih =>
    simp only [Placed] at h
    obtain ⟨mid, hlo, hhi, hfirst, hothers⟩ := h
    rcases List.mem_cons.1 hmem with rfl | hmem
    · exact Fits.mono _ (Nat.le_refl lo) hhi hfirst
    · exact Fits.mono _ hlo (Nat.le_refl hi) (ih hothers hmem)

/-! ## Places told by lexemes, found among the tokens -/

namespace TokenRow.Carries

variable {row : TokenRow} {kind : TokenKind} {x : Lexeme} {offset : Nat}

theorem anchored (hc : row.Carries raw) (h : Anchored raw start stop word) :
    ∃ i < row.count, (row.token ⟨i⟩).start = start ∧ (row.token ⟨i⟩).stop ≤ stop ∧
      ∀ k, word = some k → (row.token ⟨i⟩).kind = k := by
  obtain ⟨x, hx, hfirm, hstart, hstop, hword⟩ := h
  obtain ⟨i, hi, htoken⟩ := hc.of_firm x hx hfirm
  refine ⟨i, hi, ?_, ?_, ?_⟩
  · rw [htoken, hstart]
  · rw [htoken]
    exact hstop
  · rw [htoken]
    exact hword

/-- A name is over the one token that it is written with. -/
theorem spelled {name : Ast.Ident} (hc : row.Carries raw) (h : Spelled raw name) :
    ∃ i, row.span? name.range = some (⟨i⟩, ⟨i⟩) ∧ (row.token ⟨i⟩).text = name.text := by
  obtain ⟨x, hx, hfirm, hrange, htext⟩ := h
  obtain ⟨i, hi, htoken⟩ := hc.of_firm x hx hfirm
  have hspan := hc.ordered.span?_token hi
  rw [htoken, hrange] at hspan
  exact ⟨i, hspan, by rw [htoken]; exact htext⟩

theorem before? (hc : row.Carries raw) (hs : Significant raw) (h : Precedes raw x kind offset) :
    ∃ i, row.before? offset = some ⟨i⟩ ∧ (row.token ⟨i⟩).toLexeme = x := by
  obtain ⟨i, hi, htoken⟩ := hc.of_firm x h.mem h.firm
  refine ⟨i, hc.ordered.before?_eq hi ?_ fun hnext => ?_, htoken⟩
  · rw [htoken]
    exact h.stop_le
  · -- The next token is a piece of a lexeme, which must be a later one than `x`.
    obtain ⟨y, hy, hstart, hstop⟩ := hc.piece (i + 1) hnext
    have hsize := hc.ordered.size
    have hfollow := hc.ordered.follow i (i + 1) (by omega) (by omega)
    have hnonempty := hc.ordered.nonempty i hi
    have hnonempty' := hc.ordered.nonempty (i + 1) hnext
    rw [htoken] at hfollow hnonempty
    have hlater : x.start < y.start := by
      rcases hs.eq_or_apart h.mem hy with rfl | hle | hle <;> omega
    have := h.next y hy hlater
    omega

theorem after? (hc : row.Carries raw) (h : Follows raw offset kind x) :
    ∃ i, row.after? offset = some ⟨i⟩ ∧ (row.token ⟨i⟩).toLexeme = x := by
  obtain ⟨i, hi, htoken⟩ := hc.of_firm x h.mem h.firm
  have hsize := hc.ordered.size
  refine ⟨i, hc.ordered.after?_eq (by omega) ?_ fun j hj => ?_, htoken⟩
  · rw [htoken]
    exact h.le_start
  · obtain ⟨y, hy, hstart, hstop⟩ := hc.piece j (Nat.lt_trans hj hi)
    have hnonempty := hc.ordered.nonempty j (Nat.lt_trans hj hi)
    have hfollow := hc.ordered.follow j i hj (by omega)
    rw [htoken] at hfollow
    have := h.next y hy (by omega)
    omega

end TokenRow.Carries

end JavaAnalysis

namespace JavaAnalysis

/-! ## The ranges of shapes -/

/-- The range in which the separator of an enum is looked for. -/
def GapRule.ranges : GapRule → List TextRange
  | .tokens => []
  | .declarations => []
  | .enumBody range _ => [range]

def NodeSpec.ranges (spec : NodeSpec) : List TextRange := spec.range :: spec.gaps.ranges

mutual

def Shape.ranges : Shape → List TextRange
  | .ident range _ => [range]
  | .node spec children => spec.ranges ++ shapeRanges children
  | .typed spec before typeShape _ _ after =>
    spec.ranges ++ shapeRanges before ++ typeShape.ranges ++ shapeRanges after
  | .clause _ _ range types => range :: shapeRanges types
  | .variables start _ before typeShape _ fragments =>
    shapeRanges before ++ typeShape.ranges ++ variableRanges start fragments
  | .labeled range label body => range :: label.range :: shapeRanges body
  | .jump _ range label => range :: (label.map Ast.Ident.range).toList
  | .body inside => shapeRanges inside

def shapeRanges : List Shape → List TextRange
  | [] => []
  | s :: ss => s.ranges ++ shapeRanges ss

/-- The ranges of variables, the first of which starts at `start`. -/
def variableRanges (start : Nat) : List FragmentShape → List TextRange
  | [] => []
  | .mk range name inside :: fragments =>
    ⟨start, range.stop⟩ :: name.range :: shapeRanges inside ++
      variableRanges (nextStart range.stop fragments) fragments

end

/-- No range of the shapes ends before it starts. -/
def WellRanged (shapes : List Shape) : Prop := ∀ range ∈ shapeRanges shapes, range.start ≤ range.stop

variable {s : Shape} {as bs : List Shape}

@[simp]
theorem shapeRanges_nil : shapeRanges [] = [] := by simp only [shapeRanges]

@[simp]
theorem shapeRanges_cons (s : Shape) (ss : List Shape) :
    shapeRanges (s :: ss) = s.ranges ++ shapeRanges ss := by simp only [shapeRanges]

@[simp]
theorem shapeRanges_append (as bs : List Shape) :
    shapeRanges (as ++ bs) = shapeRanges as ++ shapeRanges bs := by
  induction as with
  | nil => simp
  | cons s ss ih => simp [ih]

theorem WellRanged.nil : WellRanged [] := by simp [WellRanged]

theorem wellRanged_append : WellRanged (as ++ bs) ↔ WellRanged as ∧ WellRanged bs := by
  simp only [WellRanged, shapeRanges_append, List.forall_mem_append]

theorem wellRanged_node {spec : NodeSpec} :
    WellRanged [.node spec as] ↔ (∀ r ∈ spec.ranges, r.start ≤ r.stop) ∧ WellRanged as := by
  simp only [WellRanged, shapeRanges_cons, Shape.ranges, shapeRanges_nil, List.append_nil,
    List.forall_mem_append]

theorem wellRanged_plain {kind : NodeKind} {range : TextRange} :
    WellRanged [.plain kind range as] ↔ range.start ≤ range.stop ∧ WellRanged as := by
  rw [Shape.plain, wellRanged_node]
  simp [NodeSpec.ranges, NodeSpec.plain, GapRule.ranges]

theorem wellRanged_name {n : Ast.Ident} :
    WellRanged [.name n] ↔ n.range.start ≤ n.range.stop := by
  simp [WellRanged, Shape.name, Shape.ranges]

theorem wellRanged_nameUse {n : Ast.Ident} :
    WellRanged [.nameUse n] ↔ n.range.start ≤ n.range.stop := by
  simp [WellRanged, Shape.nameUse, Shape.ranges]

end JavaAnalysis
