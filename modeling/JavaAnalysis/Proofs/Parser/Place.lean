import JavaAnalysis.Parser.Basic
import JavaAnalysis.Proofs.Ensures
import JavaAnalysis.Proofs.Layout.Fits
import JavaAnalysis.Proofs.Row.Cutting
import JavaAnalysis.Proofs.Row.Search
import JavaAnalysis.Proofs.Sites.Shape
import Mathlib.Data.List.Perm.Subperm

/-!
# What a parser leaves behind

A parser keeps the lexemes that it has stepped over, operators cut where it took a closing angle
bracket off. The sites of what it has read tell which lexemes these are: each name that is declared
or used has a lexeme of its own, each list in angle brackets starts and ends with its brackets, and
operators are cut where such a list ends and nowhere else.
-/

set_option autoImplicit false
set_option linter.dupNamespace false

namespace JavaAnalysis.Parser

open Lexeme

/-- The lexemes of a parser are those of the file, cut at offsets that lie behind its place. -/
structure Cut (raw : List Lexeme) (cuts : List Nat) (s : State) : Prop where
  lexemes_eq : s.lexemes = raw.flatMap (TokenRow.pieces cuts)
  le : ∀ o ∈ cuts, o ≤ s.previousStop

/-- The brackets at the ends of the range are among the lexemes. -/
structure Enclosed (taken : List Lexeme) (range : TextRange) : Prop where
  opened : ∃ x ∈ taken, x.kind = .lt ∧ x.start = range.start
  closed : ∃ x ∈ taken, x.kind = .gt ∧ x.stop = range.stop ∧ x.stop = x.start + 1

/-- What the lexemes that were stepped over say of a site. -/
def Backed (taken : List Lexeme) (site : Site) : Prop :=
  match site.role with
  | .encloses => Enclosed taken site.range
  | .vacant => False
  | _ => True

/-- The offsets of the names that are declared or used. -/
def keys (sites : List Site) : List Nat := sites.filterMap Site.key?

/-- The ends of the lists in angle brackets. -/
def closers (sites : List Site) : List Nat := sites.filterMap Site.closer?

/-- From one place to another, the parser has left behind just the given sites. -/
structure Trail (raw : List Lexeme) (s t : State) (sites : List Site) : Prop where
  taken : ∃ xs, t.consumed = xs ++ s.consumed ∧
    (keys sites).Subperm (xs.map Lexeme.start) ∧
    ∀ site ∈ sites, Backed xs site
  cut : ∀ cuts, Cut raw cuts s → Cut raw (closers sites ++ cuts) t

variable {raw xs ys : List Lexeme} {s t u : State} {as bs : List Site} {range : TextRange}

theorem keys_append (as bs : List Site) : keys (as ++ bs) = keys as ++ keys bs :=
  List.filterMap_append

theorem closers_append (as bs : List Site) : closers (as ++ bs) = closers as ++ closers bs :=
  List.filterMap_append

theorem Enclosed.mono (h : Enclosed xs range) (hsub : xs ⊆ ys) : Enclosed ys range := by
  obtain ⟨⟨x, hx, hopened⟩, y, hy, hclosed⟩ := h
  exact ⟨⟨x, hsub hx, hopened⟩, y, hsub hy, hclosed⟩

theorem Backed.mono {site : Site} (h : Backed xs site) (hsub : xs ⊆ ys) : Backed ys site := by
  unfold Backed at h ⊢
  split
  · rename_i hrole
    rw [hrole] at h
    exact h.mono hsub
  · rename_i hrole
    rw [hrole] at h
    exact h
  · trivial

theorem backed_of_key? {site : Site} {offset : Nat} (h : site.key? = some offset) :
    Backed xs site := by
  unfold Site.key? at h
  unfold Backed
  split
  · rename_i hrole
    rw [hrole] at h
    cases h
  · rename_i hrole
    rw [hrole] at h
    cases h
  · trivial

/-- It does not matter in which order the cuts are told, or how often. -/
theorem Cut.congr {cuts cuts' : List Nat} (h : Cut raw cuts s) (hmem : ∀ o, o ∈ cuts' ↔ o ∈ cuts) :
    Cut raw cuts' s := by
  refine ⟨?_, fun o ho => h.le o ((hmem o).1 ho)⟩
  rw [h.lexemes_eq]
  exact List.flatMap_congr fun x _ => TokenRow.pieces_congr fun o _ _ => (hmem o).symm

theorem Cut.mono {cuts : List Nat} (h : Cut raw cuts s) (hlexemes : t.lexemes = s.lexemes)
    (hle : s.previousStop ≤ t.previousStop) : Cut raw cuts t :=
  ⟨hlexemes.trans h.lexemes_eq, fun o ho => Nat.le_trans (h.le o ho) hle⟩

namespace Trail

theorem refl (raw : List Lexeme) (s : State) : Trail raw s s [] :=
  ⟨⟨[], rfl, List.nil_subperm, by simp⟩, fun _ h => h⟩

/-- The order of the sites does not matter. -/
theorem perm (h : Trail raw s t as) (hperm : as.Perm bs) : Trail raw s t bs := by
  obtain ⟨⟨xs, hconsumed, hkeys, hbacked⟩, hcut⟩ := h
  refine ⟨⟨xs, hconsumed, ?_, fun site hsite => hbacked site (hperm.mem_iff.2 hsite)⟩,
    fun cuts hs => (hcut cuts hs).congr fun o => ?_⟩
  · exact (hperm.filterMap _).symm.subperm.trans hkeys
  · have hmem := (hperm.filterMap Site.closer?).mem_iff (a := o)
    simp only [closers, List.mem_append, hmem]

/-- One thing is left behind after the other. -/
theorem append (h : Trail raw s t as) (h' : Trail raw t u bs) : Trail raw s u (as ++ bs) := by
  obtain ⟨⟨xs, hconsumed, hkeys, hbacked⟩, hcut⟩ := h
  obtain ⟨⟨ys, hconsumed', hkeys', hbacked'⟩, hcut'⟩ := h'
  refine ⟨⟨ys ++ xs, ?_, ?_, ?_⟩, fun cuts hs => (hcut' _ (hcut cuts hs)).congr fun o => ?_⟩
  · rw [hconsumed', hconsumed, List.append_assoc]
  · rw [keys_append, List.map_append]
    exact (hkeys.append hkeys').trans List.perm_append_comm.subperm
  · rw [List.forall_mem_append]
    exact ⟨fun site hsite => (hbacked site hsite).mono (List.subset_append_right _ _),
      fun site hsite => (hbacked' site hsite).mono (List.subset_append_left _ _)⟩
  · simp only [closers_append, List.mem_append]
    exact (or_congr_left or_comm).trans or_assoc

/-- Sites may be left out, unless operators are cut there. -/
theorem forget (h : Trail raw s t as) (hclosers : closers as = []) : Trail raw s t [] := by
  obtain ⟨⟨xs, hconsumed, -, -⟩, hcut⟩ := h
  refine ⟨⟨xs, hconsumed, List.nil_subperm, by simp⟩, fun cuts hs => ?_⟩
  have ht := hcut cuts hs
  rwa [hclosers] at ht

/-- It does not matter which sites the outline passes over. -/
theorem leading (h : Trail raw s t as) (kind : NodeKind) : Trail raw s t (leadingSites kind as) := by
  unfold leadingSites
  split
  · obtain ⟨⟨xs, hconsumed, hkeys, hbacked⟩, hcut⟩ := h
    refine ⟨⟨xs, hconsumed, ?_, ?_⟩, fun cuts hs => ?_⟩
    · rwa [keys, List.filterMap_map]
    · rw [List.forall_mem_map]
      exact hbacked
    · rw [closers, List.filterMap_map]
      exact hcut cuts hs
  · exact h

/-- A lexeme of its own was stepped over, where no name that counts stands. -/
theorem cons {x : Lexeme} (hconsumed : t.consumed = x :: s.consumed)
    (hcut : ∀ cuts, Cut raw cuts s → Cut raw cuts t) : Trail raw s t [] :=
  ⟨⟨[x], hconsumed, List.nil_subperm, by simp⟩, hcut⟩

/-- A name stands at a lexeme that was stepped over. -/
theorem named {x : Lexeme} {site : Site} (hconsumed : t.consumed = x :: s.consumed)
    (hcut : ∀ cuts, Cut raw cuts s → Cut raw cuts t) (hkey : site.key? = some x.start) :
    Trail raw s t [site] := by
  have hcloser : site.closer? = none := by
    unfold Site.closer?
    split
    · rename_i hrole
      simp [Site.key?, hrole] at hkey
    · rfl
  refine ⟨⟨[x], hconsumed, ?_, ?_⟩, fun cuts hs => ?_⟩
  · simp [keys, hkey]
  · simpa using backed_of_key? hkey
  · simpa [closers, hcloser] using hcut cuts hs

end Trail

/-- Between two places shapes were read, of which it is known what was left behind. -/
structure Traced (raw : List Lexeme) (s t : State) (shapes : List Shape) : Prop where
  trail : Trail raw s t (shapeSites shapes)
  ranged : WellRanged shapes

variable {shapes others : List Shape}

namespace Traced

theorem nil (h : Trail raw s t []) : Traced raw s t [] := ⟨by simpa using h, .nil⟩

theorem append (h : Traced raw s t shapes) (h' : Traced raw t u others) :
    Traced raw s u (shapes ++ others) :=
  ⟨by simpa using h.trail.append h'.trail, wellRanged_append.2 ⟨h.ranged, h'.ranged⟩⟩

/-- More lexemes are taken that leave no shapes. -/
theorem skip (h : Traced raw s t shapes) (h' : Trail raw t u []) : Traced raw s u shapes := by
  have hwhole := h.append (.nil h')
  rwa [List.append_nil] at hwhole

/-- Shapes behind lexemes that leave none. -/
theorem after (h : Traced raw t u shapes) (h' : Trail raw s t []) : Traced raw s u shapes :=
  (Traced.nil h').append h

/-- A node over the shapes that has no site of its own. -/
theorem node {spec : NodeSpec} (h : Traced raw s t shapes)
    (hranges : ∀ r ∈ spec.ranges, r.start ≤ r.stop) (hsites : spec.sites = []) :
    Traced raw s t [.node spec shapes] := by
  refine ⟨?_, wellRanged_node.2 ⟨hranges, h.ranged⟩⟩
  simpa [Shape.sites, hsites] using h.trail

/-- The sites and the ranges tell all that is left behind. -/
theorem congr (h : Traced raw s t shapes) (hsites : (shapeSites shapes).Perm (shapeSites others))
    (hranges : WellRanged others) : Traced raw s t others :=
  ⟨h.trail.perm hsites, hranges⟩

theorem body (h : Traced raw s t shapes) : Traced raw s t [.body shapes] := by
  refine h.congr ?_ ?_
  · simp [Shape.sites]
  · simpa [WellRanged, Shape.ranges] using h.ranged

end Traced

end JavaAnalysis.Parser

/-!
## Places of a parser

A parser stands at a lexeme of the file or, where a closing angle bracket was taken off the front of
an operator, at what is left of that operator. From one place to a later one it takes lexemes;
`Reads` says that the shapes of what it has read fit between the two places and tell what was left
behind there, and `Takes` that it has taken something at all, which then starts where the parser
stood.
-/

namespace JavaAnalysis.Parser

open Lexeme

/-- What is left of an operator of the file whose front was taken off. -/
structure Rest (x y : Lexeme) : Prop where
  operator : x.kind.startsWithGt = true
  gtText : TokenKind.ofGtText? y.text = some y.kind
  start_lt : x.start < y.start
  stop_eq : y.stop = x.stop

/-- The parser stands at a lexeme of the file or at what is left of one. -/
structure At (raw : List Lexeme) (s : State) : Prop where
  final : raw.getLast? = some s.final
  place : ∃ before x after y, raw = before ++ x :: after ∧ s.rest = y :: after ∧
    (∀ z ∈ before, z.stop ≤ s.previousStop) ∧ s.previousStop ≤ y.start ∧ (y = x ∨ Rest x y)

/-- The parser has gone on from one place to another, or has stayed. -/
structure Moved (raw : List Lexeme) (s t : State) : Prop where
  at_ : At raw t
  start_le : s.start ≤ t.start
  previousStop_le : s.previousStop ≤ t.previousStop

/-- The parser has gone on over lexemes as they are. -/
structure Step (raw : List Lexeme) (s t : State) : Prop extends Moved raw s t where
  trail : Trail raw s t []

/-- The parser has stepped over just the given lexeme, which no cut can touch. -/
structure Passed (raw : List Lexeme) (s t : State) (x : Lexeme) : Prop where
  at_ : At raw t
  consumed_eq : t.consumed = x :: s.consumed
  lexemes_eq : t.lexemes = s.lexemes
  mem : x ∈ raw
  firm : x.kind.isFirm = true
  start_eq : s.start = x.start
  stop_eq : t.previousStop = x.stop
  before : ∀ y ∈ raw, y.start < x.start → y.stop ≤ s.previousStop
  behind : ∀ y ∈ raw, x.start < y.start → t.start ≤ y.start
  previousStop_le : s.previousStop ≤ x.start

/-- The parser has stepped over just one lexeme, which is of the given kind. -/
def Took (raw : List Lexeme) (s t : State) (kind : TokenKind) : Prop :=
  ∃ x, Passed raw s t x ∧ x.kind = kind

/-- The shapes fit between two places, if anything was taken from where the parser stood. -/
structure Reads (raw : List Lexeme) (s t : State) (shapes : List Shape) : Prop where
  step : Moved raw s t
  anchored : t.start = s.start ∨ Anchored raw s.start t.previousStop none
  placed : Placed raw shapes s.start t.previousStop
  traced : Traced raw s t shapes

/-- The shapes fit between two places, and something was taken from where the parser stood. -/
structure Takes (raw : List Lexeme) (s t : State) (shapes : List Shape) : Prop where
  step : Moved raw s t
  anchored : Anchored raw s.start t.previousStop none
  placed : Placed raw shapes s.start t.previousStop
  traced : Traced raw s t shapes

variable {raw : List Lexeme} {s t u : State} {x : Lexeme} {kind : TokenKind} {as bs : List Shape}

theorem At.previousStop_le (h : At raw s) : s.previousStop ≤ s.start := by
  obtain ⟨before, x, after, y, -, hrest, -, hle, -⟩ := h.place
  have hstart : s.start = y.start := by simp [State.start, State.lexeme, hrest]
  omega

namespace Moved

theorem refl (h : At raw s) : Moved raw s s := ⟨h, Nat.le_refl _, Nat.le_refl _⟩

theorem trans (h : Moved raw s t) (h' : Moved raw t u) : Moved raw s u :=
  ⟨h'.at_, Nat.le_trans h.start_le h'.start_le, Nat.le_trans h.previousStop_le h'.previousStop_le⟩

end Moved

namespace Step

theorem refl (h : At raw s) : Step raw s s := ⟨.refl h, .refl raw s⟩

theorem trans (h : Step raw s t) (h' : Step raw t u) : Step raw s u :=
  ⟨h.toMoved.trans h'.toMoved, h.trail.append h'.trail⟩

end Step

namespace Passed

theorem moved (h : Passed raw s t x) : Moved raw s t := by
  have hle := h.at_.previousStop_le
  have hstop := h.stop_eq
  have hstart := h.start_eq
  have hprevious := h.previousStop_le
  have hwidth : x.start ≤ x.stop := Nat.le_add_right _ _
  exact ⟨h.at_, by omega, by omega⟩

theorem cut (h : Passed raw s t x) (cuts : List Nat) (hs : Cut raw cuts s) : Cut raw cuts t :=
  hs.mono h.lexemes_eq h.moved.previousStop_le

theorem step (h : Passed raw s t x) : Step raw s t := ⟨h.moved, .cons h.consumed_eq h.cut⟩

end Passed

namespace Took

theorem step (h : Took raw s t kind) : Step raw s t := by
  obtain ⟨x, hx, -⟩ := h
  exact hx.step

theorem anchored (h : Took raw s t kind) : Anchored raw s.start t.previousStop (some kind) := by
  obtain ⟨x, hx, rfl⟩ := h
  refine ⟨x, hx.mem, hx.firm, hx.start_eq.symm, Nat.le_of_eq hx.stop_eq.symm, ?_⟩
  rintro k hk
  exact Option.some.inj hk

theorem takes (h : Took raw s t kind) : Takes raw s t [] :=
  ⟨h.step.toMoved, h.anchored.any, trivial, .nil h.step.trail⟩

/-- The lexeme tells of the one site that stands where it starts. -/
theorem named {site : Site} (h : Took raw s t kind) (hkey : site.key? = some s.start) :
    Trail raw s t [site] := by
  obtain ⟨x, hx, -⟩ := h
  exact .named hx.consumed_eq hx.cut (hx.start_eq ▸ hkey)

theorem precedes (h : Took raw s t kind) :
    ∃ x, Precedes raw x kind t.start ∧ x.start = s.start := by
  obtain ⟨x, hx, hkind⟩ := h
  have hle := hx.at_.previousStop_le
  rw [hx.stop_eq] at hle
  exact ⟨x, ⟨hx.mem, hx.firm, hkind, hle, hx.behind⟩, hx.start_eq.symm⟩

theorem follows (h : Took raw s t kind) :
    ∃ x, Follows raw s.previousStop kind x ∧ x.stop = t.previousStop := by
  obtain ⟨x, hx, hkind⟩ := h
  exact ⟨x, ⟨hx.mem, hx.firm, hkind, hx.previousStop_le, hx.before⟩, hx.stop_eq.symm⟩

end Took

namespace Reads

theorem nil (h : At raw s) : Reads raw s s [] :=
  ⟨.refl h, .inl rfl, trivial, .nil (.refl raw s)⟩

/-- One thing is read behind the other. -/
theorem append (h : Reads raw s t as) (h' : Reads raw t u bs) : Reads raw s u (as ++ bs) := by
  refine ⟨h.step.trans h'.step, ?_, ?_, h.traced.append h'.traced⟩
  · rcases h.anchored with hstart | hanchored
    · rw [← hstart]
      exact h'.anchored
    · exact .inr (hanchored.mono h'.step.previousStop_le)
  · exact h.placed.append h'.placed h.step.start_le h.step.at_.previousStop_le
      h'.step.previousStop_le

end Reads

namespace Takes

theorem reads (h : Takes raw s t as) : Reads raw s t as :=
  ⟨h.step, .inr h.anchored, h.placed, h.traced⟩

theorem at_ (h : Takes raw s t as) : At raw t := h.step.at_

theorem le (h : Takes raw s t as) : s.start ≤ t.previousStop := h.anchored.le

theorem rangeFrom_eq (h : Takes raw s t as) : t.rangeFrom s.start = ⟨s.start, t.previousStop⟩ := by
  rw [State.rangeFrom, Nat.max_eq_left h.le]

/-- More is read behind what was taken. -/
theorem append (h : Takes raw s t as) (h' : Reads raw t u bs) : Takes raw s u (as ++ bs) :=
  ⟨h.step.trans h'.step, h.anchored.mono h'.step.previousStop_le, (h.reads.append h').placed,
    h.traced.append h'.traced⟩

/-- More is taken behind what was read. -/
theorem after (h' : Takes raw t u bs) (h : Reads raw s t as) : Takes raw s u (as ++ bs) := by
  have hread := h.append h'.reads
  refine ⟨hread.step, ?_, hread.placed, hread.traced⟩
  rcases h.anchored with hstart | hanchored
  · rw [← hstart]
    exact h'.anchored
  · exact hanchored.mono h'.step.previousStop_le

/-- More is taken that leaves no shapes. -/
theorem skip (h : Takes raw s t as) (h' : Step raw t u) : Takes raw s u as :=
  ⟨h.step.trans h'.toMoved, h.anchored.mono h'.previousStop_le,
    Placed.mono as (Nat.le_refl _) h'.previousStop_le h.placed, h.traced.skip h'.trail⟩

/-- A node over all that was taken, if it is known what was left behind with it. -/
theorem of_node {spec : NodeSpec} (hmoved : Moved raw s t)
    (hanchored : Anchored raw s.start t.previousStop none)
    (hplaced : Placed raw as s.start t.previousStop) (hrange : spec.range = ⟨s.start, t.previousStop⟩)
    (hword : Anchored raw s.start t.previousStop spec.word)
    (htraced : Traced raw s t [.node spec as]) : Takes raw s t [.node spec as] := by
  refine ⟨hmoved, hanchored, .singleton ?_ hanchored.le, htraced⟩
  simp only [Fits, Ranged, hrange]
  exact ⟨⟨Nat.le_refl _, Nat.le_refl _, hword⟩, hplaced⟩

/-- Shapes are left out. -/
theorem bare (h : Takes raw s t as) (hclosers : closers (shapeSites as) = []) : Takes raw s t [] :=
  ⟨h.step, h.anchored, trivial, .nil (h.traced.trail.forget hclosers)⟩

/-- What was taken becomes the inside of a node. -/
theorem node (h : Takes raw s t as) (spec : NodeSpec) (hrange : spec.range = ⟨s.start,
    t.previousStop⟩)
    (hword : Anchored raw s.start t.previousStop spec.word) (hsites : spec.sites = [])
    (hgaps : spec.gaps.ranges = []) : Takes raw s t [.node spec as] := by
  refine of_node h.step h.anchored h.placed hrange hword (h.traced.node ?_ hsites)
  simp only [NodeSpec.ranges, hgaps, hrange, List.forall_mem_singleton]
  exact h.le

theorem plain (h : Takes raw s t as) (kind : NodeKind)
    (hangled : kind.isAngled = false) :
    Takes raw s t [.plain kind ⟨s.start, t.previousStop⟩ as] :=
  h.node (.plain kind ⟨s.start, t.previousStop⟩) rfl h.anchored
    (by simp [NodeSpec.sites, NodeSpec.plain, angledSites, hangled]) rfl

theorem fits {shape : Shape} (h : Takes raw s t [shape]) :
    Fits raw shape s.start t.previousStop := by
  have hplaced := h.placed
  simp only [Placed] at hplaced
  obtain ⟨mid, -, hmid, hfits, -⟩ := hplaced
  exact Fits.mono shape (Nat.le_refl _) hmid hfits

theorem body (h : Takes raw s t as) : Takes raw s t [.body as] := by
  refine ⟨h.step, h.anchored, .singleton ?_ h.le, h.traced.body⟩
  simp only [Fits]
  exact h.placed

end Takes

/-- A node over all that was taken. -/
theorem Takes.as_node (h : Takes raw s t as) (node : NodeKind)
    (hangled : node.isAngled = false) :
    Takes raw s t [.plain node (t.rangeFrom s.start) as] := by
  rw [h.rangeFrom_eq]
  exact h.plain node hangled

/-- A node over a word and all that was read behind it. -/
theorem Took.as_headed (h : Took raw s t kind) (node : NodeKind)
    (hangled : node.isAngled = false) (h' : Reads raw t u as) :
    Takes raw s u [.headed node (u.rangeFrom s.start) kind as] := by
  have hwhole := h.takes.append h'
  rw [hwhole.rangeFrom_eq]
  refine hwhole.node (.headed node _ kind) rfl (h.anchored.mono h'.step.previousStop_le) ?_ rfl
  simp [NodeSpec.sites, NodeSpec.headed, NodeSpec.plain, angledSites, hangled]

/-- A lexeme is taken that leaves no shapes. -/
theorem Reads.took (h : Reads raw s t as) (h' : Took raw t u kind) : Reads raw s u as := by
  have hwhole := h.append h'.takes.reads
  rwa [List.append_nil] at hwhole

end JavaAnalysis.Parser
