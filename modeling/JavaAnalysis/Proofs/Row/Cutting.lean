import JavaAnalysis.Proofs.Row.Pieces
import JavaAnalysis.Proofs.Row.Search

/-!
# Cutting operators one by one

The pieces of a lexeme depend only on which offsets inside it are cuts. One more cut behind all
others takes the first `>` off the last piece and leaves the pieces before it as they are; so a
reader that cuts operators as it meets them arrives at the pieces of all cuts together.
Main statement: `pieces_cut`.
-/

set_option autoImplicit false
set_option linter.dupNamespace false

namespace JavaAnalysis

open Lexeme

namespace TokenRow

variable {splits splits' : List Nat} {x y z : Lexeme} {init : List Lexeme}

/-- What a lexeme becomes when it is cut at the given offsets. -/
def pieces (splits : List Nat) (x : Lexeme) : List Lexeme := bare (tokensOf splits [] x)

theorem pieces_ne_nil : pieces splits x ≠ [] := by
  rw [pieces, bare, ne_eq, List.map_eq_nil_iff, tokensOf]
  split
  · exact List.cons_ne_nil _ _
  · exact List.cons_ne_nil _ _

/-- Comments aside, the tokens of a file are the pieces of its significant lexemes. -/
theorem bare_attachComments (comments : List Comment) (xs : List Lexeme) :
    bare (attachComments splits comments xs) =
      (xs.filter fun x => !x.kind.isTrivia).flatMap (pieces splits) := by
  induction xs generalizing comments with
  | nil => rfl
  | cons x xs ih =>
    rw [attachComments, List.filter_cons]
    cases x.kind.isTrivia with
    | true => exact ih _
    | false =>
      have hpieces : bare (tokensOf splits comments x) = pieces splits x := by
        unfold pieces tokensOf
        split <;> rfl
      have hthen : bare (tokensOf splits comments x ++ attachComments splits [] xs) =
          bare (tokensOf splits comments x) ++ bare (attachComments splits [] xs) :=
        List.map_append
      simp only [Bool.false_eq_true, if_false, Bool.not_false, if_true, List.flatMap_cons, hthen,
        hpieces, ih]

/-- Offsets that ascend are told by what is among them. -/
theorem eq_of_ascending {as bs : List Nat} (ha : as.Pairwise (· < ·)) (hb : bs.Pairwise (· < ·))
    (h : ∀ o, o ∈ as ↔ o ∈ bs) : as = bs := by
  have hperm : as.Perm bs :=
    (List.perm_ext_iff_of_nodup (ha.imp Nat.ne_of_lt) (hb.imp Nat.ne_of_lt)).2 h
  exact hperm.eq_of_pairwise (fun a b _ _ hab hba => by omega) ha hb

theorem cutsIn_congr (h : ∀ o, x.start < o → o < x.stop → (o ∈ splits ↔ o ∈ splits')) :
    cutsIn splits x = cutsIn splits' x := by
  refine eq_of_ascending (pairwise_cutsIn splits x) (pairwise_cutsIn splits' x) fun o => ?_
  rw [mem_cutsIn, mem_cutsIn]
  constructor
  · rintro ⟨hgt, hmem, hstart, hstop⟩
    exact ⟨hgt, (h o hstart hstop).1 hmem, hstart, hstop⟩
  · rintro ⟨hgt, hmem, hstart, hstop⟩
    exact ⟨hgt, (h o hstart hstop).2 hmem, hstart, hstop⟩

theorem pieces_congr (h : ∀ o, x.start < o → o < x.stop → (o ∈ splits ↔ o ∈ splits')) :
    pieces splits x = pieces splits' x := by
  rw [pieces, pieces, tokensOf, tokensOf, cutsIn_congr h]

theorem pieceOf?_eq_some {part : Nat × List Char} {t : Token} (h : pieceOf? x part = some t) :
    TokenKind.ofGtText? (String.ofList part.2) = some t.kind ∧ t.toLexeme =
      ⟨t.kind, String.ofList part.2, part.1,
        { x.position with column := x.position.column + (part.1 - x.start) }⟩ := by
  obtain ⟨kind, hkind, rfl⟩ := Option.map_eq_some_iff.1 h
  exact ⟨hkind, rfl⟩

theorem pieceOf?_self (h : TokenKind.ofGtText? x.text = some x.kind) :
    pieceOf? x (x.start, x.text.toList) = some { x with comments := [] } := by
  simp [pieceOf?, h]

/-- A lexeme inside which no cut lies stays as it is. -/
theorem pieces_of_uncut (hx : x.kind.startsWithGt = true → TokenKind.ofGtText? x.text = some x.kind)
    (h : ∀ o ∈ splits, ¬ (x.start < o ∧ o < x.stop))
    (hgt : x.kind.startsWithGt = true) : pieces splits x = [x] := by
  have hnone : cutsIn splits x = [] := by
    refine List.eq_nil_iff_forall_not_mem.2 fun o ho => ?_
    obtain ⟨-, hmem, hinside⟩ := mem_cutsIn.1 ho
    exact h o hmem hinside
  rw [pieces, tokensOf, hnone]
  simp [cutAt, pieceOf?_self (hx hgt), bare]

/-- One more cut behind the others cuts the last part, which ends where the text does. -/
theorem cutAt_concat {start : Nat} {text : List Char} {cuts : List Nat} (o : Nat)
    (hcuts : cuts.Pairwise (· < ·)) (hinside : ∀ c ∈ cuts, start < c ∧ c < start + text.length) :
    ∃ parts p rest, cutAt start text cuts = parts ++ [(p, rest)] ∧
      cutAt start text (cuts ++ [o]) =
        parts ++ [(p, rest.take (o - p)), (o, rest.drop (o - p))] ∧
      start ≤ p ∧ p + rest.length = start + text.length := by
  induction cuts generalizing start text with
  | nil => exact ⟨[], start, text, rfl, rfl, Nat.le_refl _, rfl⟩
  | cons c cuts ih =>
    obtain ⟨hafter, hcuts⟩ := List.pairwise_cons.1 hcuts
    obtain ⟨hstart, hstop⟩ := hinside c List.mem_cons_self
    have hlength : (text.drop (c - start)).length = start + text.length - c := by
      rw [List.length_drop]
      omega
    have hlater : ∀ d ∈ cuts, c < d ∧ d < c + (text.drop (c - start)).length := by
      intro d hd
      have hlt := hafter d hd
      have hbound := (hinside d (List.mem_cons_of_mem _ hd)).2
      omega
    obtain ⟨parts, p, rest, hcut, hmore, hle, hend⟩ := ih hcuts hlater
    exact ⟨(start, text.take (c - start)) :: parts, p, rest, by simp [cutAt, hcut],
      by simp [cutAt, hmore], by omega, by omega⟩

theorem mapM_concat {α β : Type} {f : α → Option β} {as : List α} {a : α} {bs : List β}
    (h : (as ++ [a]).mapM f = some bs) :
    ∃ cs b, as.mapM f = some cs ∧ f a = some b ∧ bs = cs ++ [b] := by
  simp only [List.mapM_append, List.mapM_cons, List.mapM_nil, Option.bind_eq_bind,
    Option.bind_eq_some_iff, Option.pure_def, Option.some.injEq] at h
  obtain ⟨cs, hcs, bs', ⟨b, hb, _, rfl, rfl⟩, rfl⟩ := h
  exact ⟨cs, b, hcs, hb, rfl⟩

/-- The pieces of an operator are the parts that its cuts leave. -/
theorem pieces_eq {ts : List Token} {t : Token}
    (h : (cutAt x.start x.text.toList (cutsIn splits x)).mapM (pieceOf? x) = some (ts ++ [t])) :
    pieces splits x = bare (ts ++ [t]) := by
  rw [pieces, tokensOf, h]
  cases ts with
  | nil => rfl
  | cons first others => rfl

/-- Where the text of an operator starts with `>`, so does each of its pieces but a last `=`. -/
theorem take_of_startsWithGt {rest : List Char} {kind : TokenKind}
    (h : TokenKind.ofGtText? (String.ofList rest) = some kind) (hgt : kind.startsWithGt = true) :
    rest.take 1 = ['>'] := by
  have hpart : rest <:+: longestGt := by
    have := part_of_ofGtText? h
    rwa [String.toList_ofList] at this
  have hne : rest ≠ [] := by
    rintro rfl
    cases h
  rcases part_cases hpart hne with rfl | rfl | rfl | rfl | rfl | rfl | rfl
  all_goals first | rfl | (cases h; cases hgt)

/-- What is left of an operator, taken as a part of the operator that it is the last piece of. -/
theorem afterGt?_piece {rest : List Char} {start : Nat} {kind : TokenKind}
    (hkind : TokenKind.ofGtText? (String.ofList rest) = some kind) (hle : x.start ≤ start)
    (hy : y = ⟨kind, String.ofList rest, start,
      { x.position with column := x.position.column + (start - x.start) }⟩)
    (hz : y.afterGt? = some z) :
    (∃ t, pieceOf? x (start, rest.take 1) = some t ∧ t.toLexeme = y.headGt) ∧
      (∃ t, pieceOf? x (start + 1, rest.drop 1) = some t ∧ t.toLexeme = z) ∧ 1 < rest.length := by
  subst hy
  unfold afterGt? at hz
  split at hz
  · rename_i hgt
    obtain ⟨kind', hkind', rfl⟩ := Option.map_eq_some_iff.1 hz
    have htake := take_of_startsWithGt hkind hgt
    rw [String.toList_ofList] at hkind'
    refine ⟨?_, ?_, ?_⟩
    · rw [htake]
      exact ⟨_, rfl, rfl⟩
    · have htail : pieceOf? x (start + 1, rest.drop 1) = some
          ⟨⟨kind', String.ofList (rest.drop 1), start + 1,
            { x.position with column := x.position.column + (start + 1 - x.start) }⟩, []⟩ := by
        simp only [pieceOf?, hkind', Option.map_some]
      refine ⟨_, htail, ?_⟩
      have hcolumn : start + 1 - x.start = start - x.start + 1 := by omega
      simp only [String.toList_ofList, hcolumn, Position.nextColumn, Nat.add_assoc]
    · refine Nat.lt_of_not_le fun hshort => ?_
      rw [List.drop_eq_nil_of_le hshort] at hkind'
      cases hkind'
  · cases hz

/-- One more cut behind the others takes the first `>` off the last piece. -/
theorem pieces_cut (hgt : x.kind.startsWithGt = true)
    (htext : TokenKind.ofGtText? x.text = some x.kind) (h : pieces splits x = init ++ [y])
    (hle : ∀ o ∈ splits, o ≤ y.start) (hz : y.afterGt? = some z) :
    pieces ((y.start + 1) :: splits) x = init ++ [y.headGt, z] := by
  have hpart := part_of_ofGtText? htext
  have hlength : x.stop = x.start + x.text.toList.length := by
    rw [Lexeme.stop, utf8ByteSize_eq, utf8Length_part hpart]
  have hne : x.text.toList ≠ [] := by
    intro hnil
    rw [String.toList_eq_nil_iff.1 hnil] at htext
    cases htext
  have hinside : ∀ c ∈ cutsIn splits x, x.start < c ∧ c < x.start + x.text.toList.length := by
    intro c hc
    obtain ⟨-, -, hstart, hstop⟩ := mem_cutsIn.1 hc
    omega
  obtain ⟨parts, p, rest, hcut, hmore, hstart, hend⟩ :=
    cutAt_concat (y.start + 1) (pairwise_cutsIn splits x) hinside
  obtain ⟨ts, hts, -⟩ :=
    cutAt_pieces .standard x hpart hne (pairwise_cutsIn splits x) hinside
  rw [hcut] at hts
  obtain ⟨before, t, hbefore, ht, rfl⟩ := mapM_concat hts
  obtain ⟨hkind, hlexeme⟩ := pieceOf?_eq_some ht
  rw [pieces_eq (hcut ▸ hts), bare, List.map_append] at h
  obtain ⟨hinit, hlast⟩ := List.append_inj' h rfl
  have hy : t.toLexeme = y := by simpa using hlast
  have hystart : y.start = p := by rw [← hy, hlexeme]
  obtain ⟨⟨head, hhead, hheadGt⟩, ⟨tail, htail, htailLexeme⟩, hlong⟩ :=
    afterGt?_piece hkind hstart (hy.symm.trans hlexeme) hz
  replace hlong : 1 < rest.length := hlong
  -- The new cut lies behind all others, so it is the last one inside the operator.
  have hcuts : cutsIn ((y.start + 1) :: splits) x = cutsIn splits x ++ [y.start + 1] := by
    refine eq_of_ascending (pairwise_cutsIn _ x) (List.pairwise_append.2
      ⟨pairwise_cutsIn splits x, List.pairwise_singleton _ _, fun a ha b hb => ?_⟩) fun o => ?_
    · have := hle a (mem_cutsIn.1 ha).2.1
      rw [List.mem_singleton.1 hb]
      omega
    · rw [List.mem_append, List.mem_singleton, mem_cutsIn, mem_cutsIn, List.mem_cons]
      constructor
      · rintro ⟨-, rfl | hmem, hinside⟩
        · exact .inr rfl
        · exact .inl ⟨hgt, hmem, hinside⟩
      · rintro (⟨-, hmem, hinside⟩ | rfl)
        · exact ⟨hgt, .inr hmem, hinside⟩
        · exact ⟨hgt, .inl rfl, by omega, by omega⟩
  have hwidth : y.start + 1 - p = 1 := by omega
  rw [hwidth, ← hystart] at hmore
  have hall : (cutAt x.start x.text.toList (cutsIn ((y.start + 1) :: splits) x)).mapM (pieceOf? x) =
      some ((before ++ [head]) ++ [tail]) := by
    have htail' : pieceOf? x (p + 1, rest.drop 1) = some tail := htail
    rw [hcuts, hmore, hystart]
    simp only [List.mapM_append, List.mapM_cons, List.mapM_nil, hbefore, hhead, htail']
    simp
  rw [pieces_eq hall, ← hinit]
  simp [bare, hheadGt, htailLexeme]

end TokenRow

end JavaAnalysis

/-!
## Where lexemes meet

A parser cuts operators, so it ends with the pieces of the lexemes of a file. Of two pieces next to
each other, one of which is no piece of an operator, the first ends a lexeme of the file and the
second starts another one. Wherever the operators are cut that the tokens of the file are made of,
no token lies between two such pieces or across the place where they meet.
Main statements: `seam_of_pieces`, `Seam.adjoins`.
-/

namespace JavaAnalysis

open Lexeme

namespace TokenRow

/-- Each token ends by the first offset, or it starts at the second one or behind it. -/
def Adjoins (r : TokenRow) (a b : Nat) : Prop :=
  ∀ i < r.count, (r.token ⟨i⟩).stop ≤ a ∨ b ≤ (r.token ⟨i⟩).start

variable {r : TokenRow} {raw us vs : List Lexeme} {cuts : List Nat} {x y z : Lexeme}

/-! ## The pieces of one lexeme -/

theorem stop_of_tiles {o : Nat} {xs : List Lexeme} {cs : List Char} (h : Tiles o xs cs)
    (hy : xs.getLast? = some y) : y.stop = o + utf8Length cs := by
  induction xs generalizing o cs with
  | nil => cases hy
  | cons x xs ih =>
    obtain ⟨rfl, -, rest, rfl, hrest⟩ := h
    have hwidth : x.stop + utf8Length rest = x.start + utf8Length (x.text.toList ++ rest) := by
      rw [Lexeme.stop, utf8ByteSize_eq, utf8Length_append, Nat.add_assoc]
    cases xs with
    | nil =>
      cases hy
      cases hrest
      exact hwidth
    | cons z zs =>
      rw [List.getLast?_cons_cons] at hy
      rw [ih hrest hy, hwidth]

/-- The text of each lexeme is a part of the text that they hold. -/
theorem text_of_tiles {o : Nat} {xs : List Lexeme} {cs : List Char} (h : Tiles o xs cs) :
    ∀ x ∈ xs, x.text ≠ "" ∧ x.text.toList <:+: cs := by
  induction xs generalizing o cs with
  | nil => simp
  | cons x xs ih =>
    obtain ⟨rfl, hne, rest, rfl, hrest⟩ := h
    intro y hy
    rcases List.mem_cons.1 hy with rfl | hy
    · exact ⟨hne, (List.prefix_append _ _).isInfix⟩
    · obtain ⟨hne, hpart⟩ := ih hrest y hy
      exact ⟨hne, hpart.trans (List.suffix_append _ _).isInfix⟩

/-- An operator whose text starts with `>` is one of the family. -/
theorem startsWithGt_of_text {kind : TokenKind} {cs : List Char}
    (h : TokenKind.ofGtText? (String.ofList ('>' :: cs)) = some kind) :
    kind.startsWithGt = true := by
  have hpart : '>' :: cs <:+: longestGt := by
    have := part_of_ofGtText? h
    rwa [String.toList_ofList] at this
  rcases part_cases hpart (List.cons_ne_nil _ _) with heq | heq | heq | heq | heq | heq | heq
  all_goals rw [heq] at h
  all_goals first | (cases h; rfl) | cases heq

/-- How the pieces of a lexeme lie in it, and what may be a piece. -/
structure CutInto (x : Lexeme) (ps : List Lexeme) : Prop where
  ne_nil : ps ≠ []
  start_head : ∀ p, ps.head? = some p → p.start = x.start
  stop_last : ∀ p, ps.getLast? = some p → p.stop = x.stop
  inside : ∀ p ∈ ps, x.start ≤ p.start ∧ p.stop ≤ x.stop
  nonempty : x.start < x.stop → ∀ p ∈ ps, p.start < p.stop
  whole : x.kind.startsWithGt = false → ps = [x]
  /-- The pieces of an operator are operators of its family, or the equals sign at its end. -/
  operators : x.kind.startsWithGt = true → ∀ p ∈ ps, p.kind.isFirm = false
  head_kind : x.kind.startsWithGt = true → ∀ p, ps.head? = some p → p.kind.startsWithGt = true

theorem cutInto_pieces (hs : Significant raw) (hx : x ∈ raw) : CutInto x (pieces cuts x) := by
  cases hgt : x.kind.startsWithGt with
  | false =>
    have hone : pieces cuts x = [x] := by
      rw [pieces, hs.whole x hx hgt]
      rfl
    rw [hone]
    exact ⟨by simp, by simp, by simp, by simp, by simp, fun _ => rfl, by simp [hgt], by simp [hgt]⟩
  | true =>
    have htext := hs.gtText x hx hgt
    have hpart := part_of_ofGtText? htext
    have hne : x.text.toList ≠ [] := by
      intro hnil
      rw [String.toList_eq_nil_iff.1 hnil] at htext
      cases htext
    have hstop : x.stop = x.start + utf8Length x.text.toList := by rw [Lexeme.stop, utf8ByteSize_eq]
    obtain ⟨ts, hts, hcut⟩ := cutAt_pieces .standard x hpart hne (pairwise_cutsIn cuts x)
      fun o ho => by
        obtain ⟨-, -, hlt, hlast⟩ := mem_cutsIn.1 ho
        rw [hstop, utf8Length_part hpart] at hlast
        exact ⟨hlt, hlast⟩
    have hpieces : pieces cuts x = bare ts := by
      rcases List.eq_nil_or_concat ts with rfl | ⟨init, last, rfl⟩
      · cases hcut.starts
      · rw [List.concat_eq_append] at hts ⊢
        exact pieces_eq hts
    have htiles : Tiles x.start (pieces cuts x) x.text.toList := hpieces ▸ hcut.tiles
    have hkind : ∀ p ∈ pieces cuts x, TokenKind.ofGtText? p.text = some p.kind := fun p hp => by
      obtain ⟨hpne, hppart⟩ := text_of_tiles htiles p hp
      obtain ⟨kind, hkind, -, hgenuine⟩ :=
        genuine_part .standard (hppart.trans hpart) (by simpa using hpne)
      rw [String.ofList_toList] at hkind
      rw [hpieces] at hp
      obtain ⟨t, ht, rfl⟩ := List.mem_map.1 hp
      rw [hkind, kind_eq_of_text (hcut.isPiece t ht).genuine (hgenuine 0 .start)
        String.ofList_toList.symm]
    refine ⟨pieces_ne_nil, fun p hp => ?_, fun p hp => ?_, fun p hp => ?_, fun _ p hp => ?_,
      by simp [hgt], fun _ p hp => isFirm_of_ofGtText? (hkind p hp), fun _ p hp => ?_⟩
    · obtain ⟨others, hothers⟩ := List.head?_eq_some_iff.1 hp
      rw [hothers] at htiles
      exact htiles.1
    · rw [hstop, stop_of_tiles htiles hp]
    · rw [hstop]
      exact htiles.inside p hp
    · have hne : p.text.toList ≠ [] := by simpa using (text_of_tiles htiles p hp).1
      have hpos := utf8Length_pos hne
      rw [← utf8ByteSize_eq] at hpos
      exact Nat.lt_add_of_pos_right hpos
    · obtain ⟨others, hothers⟩ := List.head?_eq_some_iff.1 hp
      have hoperator := hkind p (hothers ▸ List.mem_cons_self)
      rw [hothers] at htiles
      obtain ⟨-, hpne, rest, happend, -⟩ := htiles
      have hfirst := take_of_startsWithGt (by rwa [String.ofList_toList]) hgt
      rw [happend] at hfirst
      cases hchars : p.text.toList with
      | nil => exact absurd (String.toList_eq_nil_iff.1 hchars) hpne
      | cons c cs =>
        rw [hchars] at hfirst
        have hc : c = '>' := by simpa using hfirst
        rw [← String.ofList_toList (s := p.text), hchars, hc] at hoperator
        exact startsWithGt_of_text hoperator

/-! ## Pieces next to each other -/

/-- Two neighbours among what becomes of the items of a list come from one item or from two. -/
theorem neighbours_flatMap {α β : Type} {f : α → List β} {as : List α} {us vs : List β} {x y : β}
    (h : as.flatMap f = us ++ x :: y :: vs) : (∃ a ∈ as, ∃ p q, f a = p ++ x :: y :: q) ∨
      ∃ before after, as = before ++ after ∧ before.flatMap f = us ++ [x] ∧
        after.flatMap f = y :: vs := by
  induction as generalizing us with
  | nil => simp at h
  | cons a as ih =>
    rw [List.flatMap_cons, List.append_eq_append_iff] at h
    have hlater : ∀ us', as.flatMap f = us' ++ x :: y :: vs → us = f a ++ us' →
        (∃ b ∈ a :: as, ∃ p q, f b = p ++ x :: y :: q) ∨ ∃ before after, a :: as = before ++ after ∧
          before.flatMap f = us ++ [x] ∧ after.flatMap f = y :: vs := by
      rintro us' hrest rfl
      rcases ih hrest with ⟨b, hb, hinside⟩ | ⟨before, after, rfl, hbefore, hafter⟩
      · exact .inl ⟨b, List.mem_cons_of_mem _ hb, hinside⟩
      · exact .inr ⟨a :: before, after, rfl, by rw [List.flatMap_cons, hbefore, List.append_assoc],
          hafter⟩
    rcases h with ⟨us', hus, hrest⟩ | ⟨rest, hfirst, hrest⟩
    · exact hlater us' hrest hus
    · match rest with
      | [] => exact hlater [] hrest.symm (by simpa using hfirst.symm)
      | [x'] =>
        obtain ⟨rfl, htail⟩ := List.cons.inj hrest
        exact .inr ⟨[a], as, rfl, by simpa using hfirst, htail.symm⟩
      | x' :: y' :: q =>
        obtain ⟨rfl, htail⟩ := List.cons.inj hrest
        obtain ⟨rfl, -⟩ := List.cons.inj htail
        exact .inl ⟨a, List.mem_cons_self, us, q, hfirst⟩

/-- Between two neighbours, one of them no piece of an operator, a lexeme of the file ends. -/
structure Seam (raw : List Lexeme) (x y : Lexeme) : Prop where
  apart : ∀ z ∈ raw, z.stop ≤ x.stop ∨ y.start ≤ z.start
  /-- What starts there is a lexeme of the file, unless it is a piece of an operator. -/
  whole : y.kind.startsWithGt = false → y ∈ raw

theorem seam_of_pieces (hs : Significant raw)
    (h : raw.flatMap (pieces cuts) = us ++ x :: y :: vs)
    (hfirm : x.kind.isFirm = true ∨ y.kind.isFirm = true) : Seam raw x y := by
  rcases neighbours_flatMap h with ⟨z, hz, p, q, hpieces⟩ | ⟨before, after, rfl, hbefore, hafter⟩
  · have hcut := @cutInto_pieces raw cuts z hs hz
    cases hgt : z.kind.startsWithGt with
    | false =>
      have hlength := congrArg List.length (hcut.whole hgt)
      simp only [hpieces, List.length_append, List.length_cons, List.length_nil] at hlength
      omega
    | true =>
      have hmem : x ∈ pieces cuts z ∧ y ∈ pieces cuts z := by simp [hpieces]
      have hx := hcut.operators hgt x hmem.1
      have hy := hcut.operators hgt y hmem.2
      simp [hx, hy] at hfirm
  · obtain ⟨init, a, rfl⟩ : ∃ init a, before = init ++ [a] := by
      rcases List.eq_nil_or_concat before with rfl | ⟨init, a, rfl⟩
      · simp at hbefore
      · exact ⟨init, a, List.concat_eq_append⟩
    obtain ⟨b, rest, rfl⟩ : ∃ b rest, after = b :: rest := by
      cases after with
      | nil => simp at hafter
      | cons b rest => exact ⟨b, rest, rfl⟩
    have ha := @cutInto_pieces _ cuts a hs (by simp)
    have hb := @cutInto_pieces _ cuts b hs (by simp)
    have hxlast : (pieces cuts a).getLast? = some x := by
      have hlast := congrArg List.getLast? hbefore
      rwa [List.flatMap_append, List.flatMap_singleton, List.getLast?_append_of_ne_nil _ ha.ne_nil,
        List.getLast?_concat] at hlast
    have hyhead : (pieces cuts b).head? = some y := by
      have hhead := congrArg List.head? hafter
      rwa [List.flatMap_cons, List.head?_append_of_ne_nil _ hb.ne_nil, List.head?_cons] at hhead
    have hfollow := hs.follow
    refine ⟨fun z hz => ?_, fun hy => ?_⟩
    · rw [ha.stop_last x hxlast, hb.start_head y hyhead]
      obtain ⟨hbefore, hafter, -⟩ := List.pairwise_append.1 hfollow
      rcases List.mem_append.1 hz with hz | hz
      · refine .inl ?_
        rcases List.mem_append.1 hz with hz | hz
        · have hnext := (List.pairwise_append.1 hbefore).2.2 z hz a (List.mem_singleton_self a)
          exact Nat.le_trans hnext (Nat.le_add_right _ _)
        · rw [List.mem_singleton.1 hz]
      · refine .inr ?_
        rcases List.mem_cons.1 hz with rfl | hz
        · exact Nat.le_refl _
        · exact Nat.le_trans (Nat.le_add_right _ _) ((List.pairwise_cons.1 hafter).1 z hz)
    · cases hgt : b.kind.startsWithGt with
      | false =>
        rw [hb.whole hgt] at hyhead
        cases hyhead
        simp
      | true =>
        rw [hb.head_kind hgt y hyhead] at hy
        cases hy

/-- No token lies across the place where two such pieces meet. -/
theorem Seam.adjoins (h : Seam raw x y) (hc : r.Carries raw) : r.Adjoins x.stop y.start := by
  intro i hi
  obtain ⟨z, hz, hstart, hstop⟩ := hc.piece i hi
  exact (h.apart z hz).imp (Nat.le_trans hstop) fun hle => Nat.le_trans hle hstart

/-- A piece of a kind that no operator has is a lexeme of the file. -/
theorem mem_of_piece (hs : Significant raw) (hy : y ∈ raw.flatMap (pieces cuts))
    (hfirm : y.kind.isFirm = true) : y ∈ raw := by
  obtain ⟨z, hz, hpiece⟩ := List.mem_flatMap.1 hy
  have hcut := @cutInto_pieces raw cuts z hs hz
  cases hgt : z.kind.startsWithGt with
  | false =>
    rw [hcut.whole hgt] at hpiece
    rwa [List.mem_singleton.1 hpiece]
  | true =>
    rw [hcut.operators hgt y hpiece] at hfirm
    cases hfirm

/-- A piece that starts where a lexeme does that is no operator is that lexeme. -/
theorem piece_of_start (hs : Significant raw) (hx : x ∈ raw) (hfirm : x.kind.isFirm = true)
    (hy : y ∈ raw.flatMap (pieces cuts)) (hstart : y.start = x.start) : y = x := by
  obtain ⟨z, hz, hpiece⟩ := List.mem_flatMap.1 hy
  have hcut := @cutInto_pieces raw cuts z hs hz
  obtain ⟨hle, hstop⟩ := hcut.inside y hpiece
  simp only [TokenKind.isFirm, Bool.and_eq_true, Bool.not_eq_true', bne_iff_ne, ne_eq] at hfirm
  have hpos := hs.nonempty x hx hfirm.2
  have hzx : z = x := by
    rcases hs.eq_or_apart hz hx with heq | hapart | hapart
    · exact heq
    · by_cases hend : z.kind = .endOfFile
      · -- The end of the file stands behind all other lexemes.
        obtain ⟨before, last, rfl, -, hbefore⟩ := hs.final
        rcases List.mem_append.1 hz with hz | hz
        · exact absurd hend (hbefore z hz)
        · rw [List.mem_singleton.1 hz] at hapart ⊢
          rcases List.mem_append.1 hx with hx | hx
          · have hnext := (List.pairwise_append.1 hs.follow).2.2 x hx last
              (List.mem_singleton_self last)
            have hwidth : last.start ≤ last.stop := Nat.le_add_right _ _
            omega
          · exact (List.mem_singleton.1 hx).symm
      · have hwidth := hcut.nonempty (hs.nonempty z hz hend) y hpiece
        omega
    · omega
  subst hzx
  rw [hcut.whole hfirm.1.1] at hpiece
  exact List.mem_singleton.1 hpiece

end TokenRow

end JavaAnalysis
