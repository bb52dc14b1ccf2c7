import JavaAnalysis.Layout.OfAst
import JavaAnalysis.Proofs.Regions.Cover
import JavaAnalysis.Proofs.Row.Cutting

/-!
# Declarations among the tokens

What a declaration is written with lies among the tokens of its file without gaps: between each two
of its pieces no token lies, and no token lies across the place where they meet. A piece of one
lexeme is one token. Main statement: `Composed.lined`.
-/

set_option autoImplicit false
set_option linter.dupNamespace false

namespace JavaAnalysis.Ast

open Lexeme TokenRow

/-- The first range ends before the second one starts, and no token lies between them. -/
structure Abuts (row : TokenRow) (a b : TextRange) : Prop where
  le : a.stop ≤ b.start
  adjoins : row.Adjoins a.stop b.start

/-- Whether ranges abut is told by where they meet. -/
theorem Abuts.of_ends {row : TokenRow} {a b a' b' : TextRange} (h : Abuts row a b)
    (hstop : a.stop = a'.stop) (hstart : b.start = b'.start) : Abuts row a' b' := by
  obtain ⟨hle, hadjoins⟩ := h
  rw [hstop, hstart] at hle hadjoins
  exact ⟨hle, hadjoins⟩

namespace Piece

/-- Where a piece lies; one of a single lexeme is a token. -/
def Lies (row : TokenRow) : Piece → TextRange → Prop
  | word kind, r => ∃ q, row.span? r = some (q, q) ∧ (row.token q).range = r ∧
    (row.token q).kind = kind
  | name n, r => r = n.range ∧ ∃ q, row.span? r = some (q, q) ∧ (row.token q).range = r ∧
    (row.token q).text = n.text
  | pair p, r => r = p
  | span p, r => r = p

/-- The piece starts with a lexeme that is a token of its own. -/
def Heads (raw : List Lexeme) : Piece → Prop
  | word kind => kind.isFirm = true
  | name _ => True
  | pair _ => True
  | span r => ∃ x ∈ raw, x.kind.isFirm = true ∧ x.start = r.start

/-- The piece ends with a lexeme that is no operator that can be cut. -/
def endsFirm : Piece → Bool
  | word kind => kind.isFirm
  | name _ => true
  | pair _ => true
  | span _ => false

end Piece

/--
Each piece starts with a lexeme that is no operator, or stands behind one; `behind` tells whether the
first of them does.
-/
def Parted (raw : List Lexeme) : Bool → List Piece → Prop
  | _, [] => True
  | behind, p :: ps => (behind = true ∨ p.Heads raw) ∧
    (∀ kind, p = .word kind → kind.startsWithGt = false ∧ kind ≠ .endOfFile) ∧
    Parted raw p.endsFirm ps

/-- The pieces lie one right behind the other. -/
structure Lined (row : TokenRow) (ps : List Piece) (rs : List TextRange) : Prop where
  lies : List.Forall₂ (Piece.Lies row) ps rs
  chain : rs.IsChain (Abuts row)

variable {raw xs ys us vs : List Lexeme} {cuts : List Nat} {row : TokenRow} {p : Piece}
  {ps : List Piece} {x y : Lexeme}

/-- A lexeme of the file that no cut touches is a token. -/
theorem exists_token_of_whole (hc : row.Carries raw) (hx : x ∈ raw)
    (hgt : x.kind.startsWithGt = false) (hkind : x.kind ≠ .endOfFile) :
    ∃ q, row.span? x.range = some (q, q) ∧ (row.token q).toLexeme = x := by
  obtain ⟨i, hi, rfl⟩ := hc.of_whole x hx hgt hkind
  exact ⟨⟨i⟩, hc.ordered.span?_token hi, rfl⟩

/-- A piece is written over a range, which tells the lexemes at its ends. -/
theorem Piece.Written.ends (h : p.Written xs) : ∃ x y, xs.head? = some x ∧ xs.getLast? = some y ∧
    (p.endsFirm = true → y.kind.isFirm = true) := by
  cases p with
  | word kind =>
    obtain ⟨x, rfl, rfl⟩ := h
    exact ⟨x, x, rfl, rfl, id⟩
  | name n =>
    obtain ⟨x, rfl, hkind, -⟩ := h
    exact ⟨x, x, rfl, rfl, fun _ => by rw [hkind]; rfl⟩
  | pair r =>
    obtain ⟨x, y, rfl, -, hkind, -⟩ := h
    exact ⟨x, y, rfl, rfl, fun _ => by rw [hkind]; rfl⟩
  | span r =>
    obtain ⟨x, y, hx, hy, -⟩ := h
    exact ⟨x, y, hx, hy, nofun⟩

/-- Where a piece must start with a lexeme that is no operator, it does. -/
theorem Piece.Written.isFirm_head (hs : Significant raw) (h : p.Written xs)
    (hmem : ∀ z ∈ xs, z ∈ raw.flatMap (pieces cuts)) (hheads : p.Heads raw)
    (hx : xs.head? = some x) : x.kind.isFirm = true := by
  cases p with
  | word kind =>
    obtain ⟨x, rfl, rfl⟩ := h
    cases hx
    exact hheads
  | name n =>
    obtain ⟨x, rfl, hkind, -⟩ := h
    cases hx
    rw [hkind]
    rfl
  | pair r =>
    obtain ⟨x, y, rfl, hkind, -⟩ := h
    cases hx
    rw [hkind]
    rfl
  | span r =>
    obtain ⟨x', y, hx', -, rfl⟩ := h
    cases hx.symm.trans hx'
    obtain ⟨z, hz, hfirm, hstart⟩ := hheads
    rw [piece_of_start hs hz hfirm (hmem x (List.mem_of_head? hx)) hstart.symm]
    exact hfirm

/-- A piece whose first lexeme is one of the file lies where it is written. -/
theorem Piece.Written.lies (hc : row.Carries raw) (h : p.Written xs)
    (hword : ∀ kind, p = .word kind → kind.startsWithGt = false ∧ kind ≠ .endOfFile)
    (hx : xs.head? = some x) (hy : xs.getLast? = some y)
    (hraw : x.kind.startsWithGt = false → x ∈ raw) : p.Lies row ⟨x.start, y.stop⟩ := by
  cases p with
  | word kind =>
    obtain ⟨x, rfl, rfl⟩ := h
    cases hx
    cases hy
    obtain ⟨hgt, hkind⟩ := hword _ rfl
    obtain ⟨q, hspan, htoken⟩ := exists_token_of_whole hc (hraw hgt) hgt hkind
    subst htoken
    exact ⟨q, hspan, rfl, rfl⟩
  | name n =>
    obtain ⟨x, rfl, hkind, rfl⟩ := h
    cases hx
    cases hy
    obtain ⟨q, hspan, htoken⟩ := exists_token_of_whole hc (hraw (by rw [hkind]; rfl))
      (by rw [hkind]; rfl) (by rw [hkind]; decide)
    subst htoken
    exact ⟨rfl, q, hspan, rfl, rfl⟩
  | pair r =>
    obtain ⟨x, y, rfl, -, -, rfl⟩ := h
    cases hx
    cases hy
    rfl
  | span r =>
    obtain ⟨x', y', hx', hy', rfl⟩ := h
    cases hx.symm.trans hx'
    cases hy.symm.trans hy'
    rfl

/-- Where there are pieces there are lexemes and ranges. -/
theorem Lined.ne_nil {rs : List TextRange} (h : Lined row ps rs) (hcomposed : Composed ps xs)
    (hne : ps ≠ []) : xs ≠ [] ∧ rs ≠ [] := by
  constructor
  · cases hcomposed with
    | nil => exact absurd rfl hne
    | cons hp _ =>
      obtain ⟨x, _, hx, _⟩ := hp.ends
      intro hnil
      rw [(List.append_eq_nil_iff.1 hnil).1] at hx
      cases hx
  · rintro rfl
    cases h.lies
    exact hne rfl

/-- Neighbours in a row whose lexemes follow each other do so. -/
theorem Follow.neighbours (h : Follow (us ++ x :: y :: vs)) : x.stop ≤ y.start :=
  (List.pairwise_cons.1 (List.pairwise_append.1 h).2.1).1 y List.mem_cons_self

/--
Pieces of a declaration lie among the tokens without gaps. They are told from left to right: the
first piece meets the lexeme in front of it, if there is one.
-/
theorem Composed.lined_behind (hs : Significant raw) (hc : row.Carries raw)
    (hfollow : Follow (raw.flatMap (pieces cuts))) (h : Composed ps xs) :
    ∀ {behind : Bool} {us vs : List Lexeme}, raw.flatMap (pieces cuts) = us ++ xs ++ vs →
      Parted raw behind ps → (behind = true → ∃ x, us.getLast? = some x ∧ x.kind.isFirm = true) →
      ∃ rs, Lined row ps rs ∧
        (∀ r x, rs.head? = some r → us.getLast? = some x → Abuts row x.range r) ∧
        ∀ r y, rs.getLast? = some r → xs.getLast? = some y → r.stop = y.stop := by
  induction h with
  | nil =>
    intro behind us vs hall hparted hbehind
    refine ⟨[], ⟨.nil, .nil⟩, fun r x hr => ?_, fun r y hr => ?_⟩ <;> cases hr
  | @cons p ps xs ys hp hrest ih =>
    intro behind us vs hall hparted hbehind
    obtain ⟨hfirst, hword, hothers⟩ := hparted
    obtain ⟨x, y, hx, hy, hfirm⟩ := hp.ends
    obtain ⟨tail, hxtail⟩ := List.head?_eq_some_iff.1 hx
    obtain ⟨init, hyinit⟩ := List.getLast?_eq_some_iff.1 hy
    have hmem : ∀ z ∈ xs, z ∈ raw.flatMap (pieces cuts) := fun z hz => by
      rw [hall]
      simp [hz]
    have hheads : p.Heads raw → x.kind.isFirm = true := fun hp' => hp.isFirm_head hs hmem hp' hx
    have hseam : ∀ x₀, us.getLast? = some x₀ → Seam raw x₀ x ∧ x₀.stop ≤ x.start := by
      intro x₀ hx₀
      obtain ⟨before, rfl⟩ := List.getLast?_eq_some_iff.1 hx₀
      have hcut : raw.flatMap (pieces cuts) = before ++ x₀ :: x :: (tail ++ ys ++ vs) := by
        rw [hall, hxtail]
        simp
      refine ⟨seam_of_pieces hs hcut ?_, (hcut ▸ hfollow).neighbours⟩
      rcases hfirst with hfirst | hfirst
      · obtain ⟨x₁, hx₁, hx₁firm⟩ := hbehind hfirst
        cases hx₀.symm.trans hx₁
        exact .inl hx₁firm
      · exact .inr (hheads hfirst)
    have hraw : x.kind.startsWithGt = false → x ∈ raw := fun hgt => by
      rcases hfirst with hfirst | hfirst
      · obtain ⟨x₁, hx₁, -⟩ := hbehind hfirst
        exact (hseam x₁ hx₁).1.whole hgt
      · exact mem_of_piece hs (hmem x (List.mem_of_head? hx)) (hheads hfirst)
    have hall' : raw.flatMap (pieces cuts) = (us ++ xs) ++ ys ++ vs := by
      rw [hall]
      simp
    obtain ⟨rs, hlined, hmeets, hstops⟩ := ih hall' hothers
      fun hend => ⟨y, by simp [hyinit], hfirm hend⟩
    refine ⟨⟨x.start, y.stop⟩ :: rs, ⟨.cons (hp.lies hc hword hx hy hraw) hlined.lies, ?_⟩, ?_, ?_⟩
    · cases rs with
      | nil => exact .singleton _
      | cons r rs =>
        have hmeet := hmeets r y rfl (by simp [hyinit])
        exact .cons_cons ⟨hmeet.le, hmeet.adjoins⟩ hlined.chain
    · rintro r x₀ ⟨rfl⟩ hx₀
      obtain ⟨hseam, hle⟩ := hseam x₀ hx₀
      exact ⟨hle, hseam.adjoins hc⟩
    · intro r y' hr hy'
      cases hrest with
      | nil =>
        cases hlined.lies
        cases hr
        rw [List.append_nil] at hy'
        cases hy'.symm.trans hy
        rfl
      | cons hq hqs =>
        obtain ⟨hne, hrs⟩ := hlined.ne_nil (.cons hq hqs) (List.cons_ne_nil _ _)
        rw [List.getLast?_append_of_ne_nil _ hne] at hy'
        rw [List.getLast?_cons_of_ne_nil hrs] at hr
        exact hstops r y' hr hy'

/-- Pieces of which each starts with a lexeme that is no operator, or stands behind one. -/
theorem Composed.lined (hs : Significant raw) (hc : row.Carries raw)
    (hfollow : Follow (raw.flatMap (pieces cuts))) (h : Composed ps xs)
    (hxs : xs <:+: raw.flatMap (pieces cuts)) (hparted : Parted raw false ps) :
    ∃ rs, Lined row ps rs ∧
      ∀ r y, rs.getLast? = some r → xs.getLast? = some y → r.stop = y.stop := by
  obtain ⟨us, vs, hall⟩ := hxs
  obtain ⟨rs, hlined, -, hstops⟩ := h.lined_behind hs hc hfollow hall.symm hparted nofun
  exact ⟨rs, hlined, hstops⟩

end JavaAnalysis.Ast

/-!
## Variables of a declaration among the tokens

The pieces of a declaration with a comma behind each variable but the last one, and a semicolon
behind that one if the declaration ends with a token of its own. They lie among the tokens without
gaps. Main statement: `VarDecl.Written.lined`.
-/

namespace JavaAnalysis.Ast

open Lexeme TokenRow

/-- What the declaration ends with behind its variables. -/
def finalPieces (terminated : Bool) : List Piece :=
  if terminated then [.word .semicolon] else []

/-- What stands behind a variable, those behind it being given. -/
def behindPieces (terminated : Bool) : List VarFragment → List Piece
  | [] => finalPieces terminated
  | _ :: _ => [.word .comma]

/-- Variables, each with what stands behind it. -/
def variablePieces (terminated : Bool) : List VarFragment → List Piece
  | [] => []
  | f :: fs => f.pieces ++ behindPieces terminated fs ++ variablePieces terminated fs

namespace VarDecl

/-- The ranges of the modifiers, if there are any, and of the type. -/
def headRanges (d : VarDecl) : List TextRange :=
  (Modifier.rangeOfAll? d.modifiers).toList ++ [d.type.range]

/-- The variables end with a token of their own. -/
def terminated (d : VarDecl) : Bool := isTerminated d.range d.fragments

def pieces (d : VarDecl) : List Piece :=
  d.headRanges.map .span ++ variablePieces d.terminated d.fragments

end VarDecl

variable {raw xs ys zs : List Lexeme} {cuts : List Nat} {row : TokenRow} {p : Piece}
  {ps qs : List Piece} {x y : Lexeme} {f : VarFragment} {fs : List VarFragment} {d : VarDecl}
  {terminated : Bool} {r : TextRange} {rs : List TextRange}

/-! ## Ends of pieces -/

/-- The range of a piece that the abstract syntax gives one. -/
def Piece.range? : Piece → Option TextRange
  | word _ => none
  | name n => some n.range
  | pair r => some r
  | span r => some r

theorem Piece.Written.covers (h : p.Written xs) (hr : p.range? = some r) : r.Covers xs := by
  cases p with
  | word kind => cases hr
  | name n =>
    cases hr
    obtain ⟨x, rfl, -, rfl⟩ := h
    exact ⟨x, x, rfl, rfl, rfl⟩
  | pair r =>
    cases hr
    obtain ⟨x, y, rfl, -, -, rfl⟩ := h
    exact ⟨x, y, rfl, rfl, rfl⟩
  | span r =>
    cases hr
    exact h

theorem Piece.Lies.eq_range {r' : TextRange} (h : p.Lies row r') (hr : p.range? = some r) :
    r' = r := by
  cases p with
  | word kind => cases hr
  | name n =>
    cases hr
    exact h.1
  | pair r =>
    cases hr
    exact h
  | span r =>
    cases hr
    exact h

/-- A row of pieces starts where the first of them does. -/
theorem Composed.start_eq (h : Composed (p :: ps) xs) (hr : p.range? = some r)
    (hx : xs.head? = some x) : r.start = x.start := by
  cases h with
  | cons hp _ =>
    obtain ⟨y, z, hy, -, rfl⟩ := hp.covers hr
    obtain ⟨tail, rfl⟩ := List.head?_eq_some_iff.1 hy
    cases hx
    rfl

/-- A row of pieces ends where the last of them does. -/
theorem Composed.stop_eq (h : Composed ps xs) (hp : ps.getLast? = some p) (hr : p.range? = some r)
    (hy : xs.getLast? = some y) : r.stop = y.stop := by
  induction h with
  | nil => cases hp
  | @cons q qs ys zs hq hqs ih =>
    cases hqs with
    | nil =>
      cases hp
      obtain ⟨x, z, -, hz, rfl⟩ := hq.covers hr
      rw [List.append_nil] at hy
      cases hy.symm.trans hz
      rfl
    | @cons q' qs' ys' zs' hq' hqs' =>
      obtain ⟨x', -, hx', -⟩ := hq'.ends
      have hne : ys' ++ zs' ≠ [] := by
        intro hnil
        rw [(List.append_eq_nil_iff.1 hnil).1] at hx'
        cases hx'
      rw [List.getLast?_append_of_ne_nil _ hne] at hy
      rw [List.getLast?_cons_cons] at hp
      exact ih hp hy

/-! ## Parts of a row -/

theorem forall₂_of_append {α β : Type} {R : α → β → Prop} {as bs : List α} {cs : List β}
    (h : List.Forall₂ R (as ++ bs) cs) :
    ∃ ds es, cs = ds ++ es ∧ List.Forall₂ R as ds ∧ List.Forall₂ R bs es := by
  induction as generalizing cs with
  | nil => exact ⟨[], cs, rfl, .nil, h⟩
  | cons a as ih =>
    cases h with
    | cons ha hrest =>
      obtain ⟨ds, es, rfl, has, hbs⟩ := ih hrest
      exact ⟨_ :: ds, es, rfl, .cons ha has, hbs⟩

namespace Lined

theorem of_append (h : Lined row (ps ++ qs) rs) : ∃ as bs, rs = as ++ bs ∧ Lined row ps as ∧
    Lined row qs bs ∧ ∀ a b, as.getLast? = some a → bs.head? = some b → Abuts row a b := by
  obtain ⟨as, bs, rfl, hps, hqs⟩ := forall₂_of_append h.lies
  obtain ⟨has, hbs, hmeet⟩ := List.isChain_append.1 h.chain
  exact ⟨as, bs, rfl, ⟨hps, has⟩, ⟨hqs, hbs⟩, fun a b ha hb => hmeet a ha b hb⟩

theorem of_cons (h : Lined row (p :: ps) rs) :
    ∃ r rs', rs = r :: rs' ∧ p.Lies row r ∧ Lined row ps rs' := by
  obtain ⟨hlies, hchain⟩ := h
  cases hlies with
  | cons hp hps => exact ⟨_, _, rfl, hp, hps, hchain.tail⟩

theorem eq_nil (h : Lined row [] rs) : rs = [] := by
  cases h.lies
  rfl

/-- Pieces that are told by their ranges lie there. -/
theorem eq_ranges {piece : TextRange → Piece} (hpiece : ∀ r, (piece r).range? = some r)
    {ranges : List TextRange} (h : Lined row (ranges.map piece) rs) : rs = ranges := by
  induction ranges generalizing rs with
  | nil => exact h.eq_nil
  | cons b bs ih =>
    obtain ⟨r, rs', rfl, hb, hbs⟩ := h.of_cons
    rw [ih hbs, hb.eq_range (hpiece b)]

end Lined

/-! ## The pieces of a declaration -/

theorem Joined.composed (h : Joined fs xs) (hfinal : Composed (finalPieces terminated) ys) :
    Composed (variablePieces terminated fs) (xs ++ ys) := by
  induction h with
  | last hf =>
    rw [variablePieces, behindPieces, variablePieces, List.append_nil]
    exact hf.composed.append hfinal
  | @comma f fs x xs zs hf hx hrest ih =>
    have hcomma : Composed (behindPieces terminated fs) [x] := by
      cases hrest <;> exact .single ⟨x, rfl, hx⟩
    rw [variablePieces, List.append_assoc, List.append_assoc, List.cons_append]
    exact hf.composed.append (hcomma.append ih)

theorem Joined.exists_written (h : Joined fs xs) : ∀ f ∈ fs, ∃ ys, f.Written ys := by
  induction h with
  | last hf => exact List.forall_mem_singleton.2 ⟨_, hf⟩
  | comma hf _ _ ih => exact List.forall_mem_cons.2 ⟨⟨_, hf⟩, ih⟩

/-- Variables end where the last of them does. -/
theorem Joined.ends (h : Joined fs xs) : ∃ f y, fs.getLast? = some f ∧ xs.getLast? = some y ∧
    f.range.stop = y.stop := by
  induction h with
  | @last f xs hf =>
    obtain ⟨x, y, -, hy, hrange⟩ := hf.ends
    exact ⟨f, y, rfl, hy, by rw [hrange]⟩
  | @comma f fs x xs ys hf hx hrest ih =>
    obtain ⟨g, y, hg, hy, hstop⟩ := ih
    refine ⟨g, y, ?_, ?_, hstop⟩
    · rw [List.getLast?_cons, hg]
      rfl
    · rw [List.getLast?_append, List.getLast?_cons, hy]
      rfl

/-- A name starts its variable, and the last piece of the variable ends it. -/
structure VarFragment.Delimited (f : VarFragment) : Prop where
  start_eq : f.name.range.start = f.range.start
  stop_eq : ∀ p r, f.pieces.getLast? = some p → p.range? = some r → r.stop = f.range.stop

theorem VarFragment.Written.delimited (h : f.Written xs) : f.Delimited := by
  obtain ⟨x, y, hx, hy, hrange⟩ := h.ends
  refine ⟨?_, fun p r hp hr => ?_⟩
  · rw [hrange]
    exact h.composed.start_eq rfl hx
  · rw [hrange]
    exact h.composed.stop_eq hp hr hy

theorem VarFragment.exists_last (f : VarFragment) :
    ∃ p r, f.pieces.getLast? = some p ∧ p.range? = some r := by
  have hbare : ∀ p ∈ Piece.name f.name :: f.brackets.map .pair, ∃ r, p.range? = some r := by
    rw [List.forall_mem_cons, List.forall_mem_map]
    exact ⟨⟨_, rfl⟩, fun b _ => ⟨b, rfl⟩⟩
  rw [VarFragment.pieces]
  cases f.init? with
  | none =>
    obtain ⟨p, hp⟩ : ∃ p, (Piece.name f.name :: f.brackets.map .pair).getLast? = some p :=
      ⟨_, List.getLast?_eq_some_getLast (List.cons_ne_nil _ _)⟩
    obtain ⟨r, hr⟩ := hbare p (List.mem_of_getLast? hp)
    exact ⟨p, r, by rw [initPieces, List.append_nil, hp], hr⟩
  | some e => exact ⟨.span e.range, e.range, by simp [initPieces, List.getLast?_cons], rfl⟩

/-- Where the pieces of a variable lie. -/
theorem VarFragment.Delimited.ranges (h : f.Delimited) (hlined : Lined row f.pieces rs) :
    ∃ is, rs = f.name.range :: (f.brackets ++ is) ∧ Lined row (initPieces f.init?) is ∧
      ∃ r, rs.getLast? = some r ∧ r.stop = f.range.stop := by
  obtain ⟨p, r, hp, hr⟩ := f.exists_last
  have hlast : ∃ r', rs.getLast? = some r' ∧ p.Lies row r' := by
    obtain ⟨front, heq⟩ := List.getLast?_eq_some_iff.1 hp
    rw [heq] at hlined
    obtain ⟨as, bs, rfl, -, hlined, -⟩ := hlined.of_append
    obtain ⟨r', rs', rfl, hlies, hnil⟩ := hlined.of_cons
    rw [hnil.eq_nil]
    exact ⟨r', by simp, hlies⟩
  obtain ⟨r', hr', hlies⟩ := hlast
  obtain ⟨as, is, rfl, hnamed, hinit, -⟩ := hlined.of_append
  obtain ⟨n, bs, rfl, hname, hbrackets⟩ := hnamed.of_cons
  have hn := hname.eq_range rfl
  have hbs := hbrackets.eq_ranges fun _ => rfl
  subst hn hbs
  refine ⟨is, rfl, hinit, r', hr', ?_⟩
  rw [hlies.eq_range hr]
  exact h.stop_eq p r hp hr

/-! ## Pieces that start with lexemes of their own -/

theorem parted_pairs {behind : Bool} {brackets : List TextRange} (h : Parted raw behind ps)
    (h' : Parted raw true ps) : Parted raw behind (brackets.map .pair ++ ps) := by
  induction brackets generalizing behind with
  | nil => exact h
  | cons b bs ih => exact ⟨.inr trivial, (fun _ h => by cases h), ih h'⟩

theorem parted_spans {behind : Bool} {ranges : List TextRange}
    (h : ∀ r ∈ ranges, (Piece.span r).Heads raw) (hrest : ∀ behind, Parted raw behind ps) :
    Parted raw behind (ranges.map .span ++ ps) := by
  induction ranges generalizing behind with
  | nil => exact hrest behind
  | cons r rs ih =>
    obtain ⟨hr, hrs⟩ := List.forall_mem_cons.1 h
    exact ⟨.inr hr, (fun _ h => by cases h), ih hrs⟩

/-- The initial value of a variable starts with a lexeme of its own. -/
def VarFragment.InitHeads (raw : List Lexeme) (f : VarFragment) : Prop :=
  ∀ e, f.init? = some e → (Piece.span e.range).Heads raw

theorem VarFragment.InitHeads.parted {behind : Bool} (h : f.InitHeads raw)
    (hrest : ∀ behind, Parted raw behind ps) : Parted raw behind (f.pieces ++ ps) := by
  have hinit : Parted raw true (initPieces f.init? ++ ps) := by
    cases he : f.init? with
    | none => exact hrest true
    | some e =>
      refine ⟨.inl rfl, ?_, .inr (h e he), (fun _ h => by cases h), hrest _⟩
      rintro _ ⟨rfl⟩
      exact ⟨rfl, by decide⟩
  rw [VarFragment.pieces, List.cons_append, List.cons_append, List.append_assoc]
  exact ⟨.inr trivial, (fun _ h => by cases h), parted_pairs hinit hinit⟩

theorem parted_variablePieces (h : ∀ f ∈ fs, f.InitHeads raw) (behind : Bool) :
    Parted raw behind (variablePieces terminated fs) := by
  induction fs generalizing behind with
  | nil => exact trivial
  | cons f fs ih =>
    obtain ⟨hf, hfs⟩ := List.forall_mem_cons.1 h
    rw [variablePieces, List.append_assoc]
    refine hf.parted fun behind => ?_
    have hword : ∀ kind : TokenKind, kind.isFirm = true →
        Parted raw behind (.word kind :: variablePieces terminated fs) := fun kind hkind => by
      refine ⟨.inr hkind, ?_, ih hfs _⟩
      rintro _ ⟨rfl⟩
      simp only [TokenKind.isFirm, Bool.and_eq_true, Bool.not_eq_true', bne_iff_ne, ne_eq] at hkind
      exact ⟨hkind.1.1, hkind.2⟩
    cases fs with
    | cons g gs => exact hword .comma rfl
    | nil =>
      cases terminated with
      | true => exact hword .semicolon rfl
      | false => exact trivial

/-! ## Whole declarations -/

namespace VarDecl.Written

/-- The variables end in front of the end of the declaration just if a semicolon is behind them. -/
theorem tail_cases (h : d.Written xs) (hends : d.range.Covers xs) (hfollow : Follow xs)
    (hpos : ∀ x ∈ xs, x.kind = .semicolon → x.start < x.stop) :
    ∃ head body, Composed (d.headRanges.map .span) head ∧ Joined d.fragments body ∧
      (d.terminated = false ∧ xs = head ++ body ∨
        d.terminated = true ∧ ∃ x, xs = head ++ body ++ [x] ∧ x.kind = .semicolon ∧
          x.stop = d.range.stop ∧ ∀ f, d.fragments.getLast? = some f → f.range.stop ≤ x.start) := by
  obtain ⟨head, body, tail, rfl, hhead, hbody, htail⟩ := h.divided
  have hhead : Composed (d.headRanges.map .span) head := by
    rwa [VarDecl.headRanges, List.map_append]
  obtain ⟨x, y, -, hy, hrange⟩ := hends
  obtain ⟨f, z, hf, hz, hstop⟩ := hbody.ends
  have hterminated : d.terminated = decide (z.stop < y.stop) := by
    rw [VarDecl.terminated, isTerminated, hf, hrange, Option.any_some, hstop]
  rw [List.append_assoc] at hy
  refine ⟨head, body, hhead, hbody, ?_⟩
  rcases htail with rfl | ⟨s, rfl, hs⟩
  · have heq : z = y := by
      have hne : body ≠ [] := by
        rintro rfl
        cases hz
      rw [List.append_nil, List.getLast?_append_of_ne_nil _ hne] at hy
      exact Option.some.inj (hz.symm.trans hy)
    refine .inl ⟨?_, List.append_nil _⟩
    rw [hterminated, heq, decide_eq_false (Nat.lt_irrefl _)]
  · have heq : y = s := by
      simpa [List.getLast?_append] using hy.symm
    subst heq
    have hle : z.stop ≤ y.start := by
      obtain ⟨init, rfl⟩ := List.getLast?_eq_some_iff.1 hz
      simp only [List.append_assoc, List.singleton_append] at hfollow
      rw [← List.append_assoc] at hfollow
      exact hfollow.neighbours
    have hwidth := hpos y (by simp) hs
    refine .inr ⟨?_, y, rfl, hs, by rw [hrange], fun g hg => ?_⟩
    · rw [hterminated, decide_eq_true (Nat.lt_of_le_of_lt hle hwidth)]
    · cases hf.symm.trans hg
      exact hstop ▸ hle

theorem composed (h : d.Written xs) (hends : d.range.Covers xs) (hfollow : Follow xs)
    (hpos : ∀ x ∈ xs, x.kind = .semicolon → x.start < x.stop) : Composed d.pieces xs := by
  obtain ⟨head, body, hhead, hbody, ⟨hterminated, rfl⟩ | ⟨hterminated, x, rfl, hx, -⟩⟩ :=
    h.tail_cases hends hfollow hpos
  · rw [VarDecl.pieces, hterminated, ← List.append_nil body]
    exact hhead.append (hbody.composed .nil)
  · rw [VarDecl.pieces, hterminated, List.append_assoc]
    exact hhead.append (hbody.composed (.single ⟨x, rfl, hx⟩))

/-- The semicolons among what a declaration is written with have a width. -/
theorem lt_stop_of_semicolon (hs : Significant raw) (hxs : xs <:+: raw.flatMap (TokenRow.pieces cuts))
    (hx : x ∈ xs) (hkind : x.kind = .semicolon) : x.start < x.stop := by
  refine hs.nonempty x (mem_of_piece hs (hxs.subset hx) ?_) ?_ <;> rw [hkind] <;> decide

/-- A declaration lies among the tokens of its file from where it starts to where it ends. -/
theorem lined (hs : Significant raw) (hc : row.Carries raw)
    (hfollow : Follow (raw.flatMap (TokenRow.pieces cuts))) (h : d.Written xs)
    (hends : d.range.Covers xs) (hxs : xs <:+: raw.flatMap (TokenRow.pieces cuts))
    (hheads : ∀ r ∈ d.headRanges, (Piece.span r).Heads raw)
    (hinits : ∀ f ∈ d.fragments, f.InitHeads raw) :
    ∃ rs, Lined row d.pieces rs ∧ (∀ r, rs.head? = some r → r.start = d.range.start) ∧
      ∀ r, rs.getLast? = some r → r.stop = d.range.stop := by
  have hcomposed := h.composed hends (List.Pairwise.sublist hxs.sublist hfollow) fun x =>
    lt_stop_of_semicolon hs hxs
  have hparted : Parted raw false d.pieces := parted_spans hheads (parted_variablePieces hinits)
  obtain ⟨rs, hlined, hstops⟩ := hcomposed.lined hs hc hfollow hxs hparted
  obtain ⟨x, y, hx, hy, hrange⟩ := hends
  refine ⟨rs, hlined, fun r hr => ?_, fun r hr => ?_⟩
  · obtain ⟨first, ps, hps⟩ : ∃ first ps, d.pieces = .span first :: ps := by
      rw [VarDecl.pieces, VarDecl.headRanges]
      cases Modifier.rangeOfAll? d.modifiers <;> exact ⟨_, _, rfl⟩
    rw [hps] at hlined hcomposed
    obtain ⟨r', rs', rfl, hlies, -⟩ := hlined.of_cons
    cases hr
    rw [hlies.eq_range rfl, hrange]
    exact hcomposed.start_eq rfl hx
  · rw [hrange]
    exact hstops r y hr hy

end VarDecl.Written

/-! ## Ranges with tokens -/

/-- A range over lexemes of which one is no operator has tokens. -/
theorem exists_span_of_covers (hs : Significant raw) (hc : row.Carries raw)
    (hfollow : Follow (raw.flatMap (TokenRow.pieces cuts)))
    (hxs : xs <:+: raw.flatMap (TokenRow.pieces cuts)) (hcovers : r.Covers xs) (hx : x ∈ xs)
    (hfirm : x.kind.isFirm = true) : ∃ first last, row.span? r = some (first, last) := by
  obtain ⟨i, hi, htoken⟩ := hc.of_firm x (mem_of_piece hs (hxs.subset hx) hfirm) hfirm
  have hfollow : Follow xs := List.Pairwise.sublist hxs.sublist hfollow
  obtain ⟨y, z, hy, hz, rfl⟩ := hcovers
  refine hc.ordered.span?_of_inside hi ?_ ?_
  · rw [htoken]
    exact hfollow.first_le hy hx
  · rw [htoken]
    exact hfollow.le_last hz hx

theorem Piece.Written.exists_span (hs : Significant raw) (hc : row.Carries raw)
    (hfollow : Follow (raw.flatMap (TokenRow.pieces cuts)))
    (hxs : xs <:+: raw.flatMap (TokenRow.pieces cuts)) (h : (Piece.pair r).Written xs) :
    ∃ first last, row.span? r = some (first, last) := by
  obtain ⟨x, y, hxy, hx, -⟩ := id h
  refine exists_span_of_covers hs hc hfollow hxs (h.covers rfl) (x := x) (by simp [hxy]) ?_
  rw [hx]
  rfl

theorem Joined.exists_ident (h : Joined fs xs) : ∃ x ∈ xs, x.kind = .ident := by
  have hname : ∀ {f : VarFragment} {xs : List Lexeme}, f.Written xs → ∃ x ∈ xs, x.kind = .ident := by
    intro f xs hf
    have hcomposed := hf.composed
    rw [VarFragment.pieces, List.cons_append] at hcomposed
    cases hcomposed with
    | cons hp _ =>
      obtain ⟨x, rfl, hkind, -⟩ := hp
      exact ⟨x, List.mem_cons_self, hkind⟩
  cases h with
  | last hf => exact hname hf
  | comma hf _ _ =>
    obtain ⟨x, hx, hkind⟩ := hname hf
    exact ⟨x, List.mem_append_left _ hx, hkind⟩

/-- So a declaration has tokens. -/
theorem VarDecl.Written.exists_span (hs : Significant raw) (hc : row.Carries raw)
    (hfollow : Follow (raw.flatMap (TokenRow.pieces cuts)))
    (hxs : xs <:+: raw.flatMap (TokenRow.pieces cuts)) (h : d.Written xs)
    (hends : d.range.Covers xs) : ∃ first last, row.span? d.range = some (first, last) := by
  obtain ⟨head, body, tail, rfl, -, hbody, -⟩ := h.divided
  obtain ⟨x, hx, hkind⟩ := hbody.exists_ident
  refine exists_span_of_covers hs hc hfollow hxs hends (x := x) (by simp [hx]) ?_
  rw [hkind]
  rfl

/-- A declaration ends with a token of its own just if that is a semicolon behind its variables. -/
theorem VarDecl.Written.terminated_iff (hs : Significant raw) (hc : row.Carries raw)
    (hfollow : Follow (raw.flatMap (TokenRow.pieces cuts)))
    (hxs : xs <:+: raw.flatMap (TokenRow.pieces cuts)) (h : d.Written xs)
    (hends : d.range.Covers xs) {a b : TokenId} (hspan : row.span? d.range = some (a, b)) :
    d.terminated = true ↔ (row.token b).kind = .semicolon ∧
      ∀ f, d.fragments.getLast? = some f → f.range.stop ≤ (row.token b).start := by
  obtain ⟨head, body, -, hbody, hcases⟩ := h.tail_cases hends
    (List.Pairwise.sublist hxs.sublist hfollow) fun x => lt_stop_of_semicolon hs hxs
  have ho := hc.ordered
  have hb := ho.span?_eq_some hspan
  constructor
  · intro hterminated
    obtain ⟨x, rfl, hkind, hstop, hle⟩ := (hcases.resolve_left (by simp [hterminated])).2
    have hmem := mem_of_piece hs (hxs.subset (a := x) (by simp)) (by rw [hkind]; rfl)
    obtain ⟨q, hq, rfl⟩ :=
      exists_token_of_whole hc hmem (by rw [hkind]; rfl) (by rw [hkind]; decide)
    have hqlt := (ho.span?_eq_some hq).lt
    have hlast := hb.le_last q.index hqlt (Nat.le_of_eq hstop)
    have heq : q = b := by
      refine congrArg TokenId.mk (Nat.le_antisymm hlast (Nat.le_of_not_lt fun hlt => ?_))
      have hsize := ho.size
      have hnext := ho.follow q.index b.index hlt (by have := hb.lt; omega)
      have hpos := ho.nonempty b.index hb.lt
      have hend := hb.le_stop
      have hstop : (row.token ⟨q.index⟩).stop = d.range.stop := hstop
      omega
    subst heq
    exact ⟨hkind, hle⟩
  · rintro ⟨-, hle⟩
    obtain ⟨f, y, hf, -⟩ := hbody.ends
    have hpos := ho.nonempty b.index hb.lt
    have hlt : f.range.stop < d.range.stop :=
      Nat.lt_of_le_of_lt (hle f hf) (Nat.lt_of_lt_of_le hpos hb.le_stop)
    rw [VarDecl.terminated, isTerminated, hf, Option.any_some, decide_eq_true hlt]

end JavaAnalysis.Ast
