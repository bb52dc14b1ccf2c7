import JavaAnalysis.Proofs.Ensures
import JavaAnalysis.Proofs.Row.Lossless
import JavaAnalysis.Text.Edit

/-!
# Edits applied together

Edits are sorted and compared with their neighbours only. Sorted ranges of which no neighbours clash
lie one behind the other, so that no two of them overlap, and all that is told of a list of edits is
told of it in any order. Where each edit lies behind the one before it, putting all in place in one
pass over the text is putting them in place one at a time, the last one first.
Main statement: `applyAll_simultaneous`.
-/

set_option autoImplicit false
set_option linter.dupNamespace false

namespace JavaAnalysis

/-- The offset lies between two characters of the text, or at one of its ends. -/
def AtBoundary (text : List Char) (offset : Nat) : Prop :=
  ∃ before after, text = before ++ after ∧ utf8Length before = offset

theorem splitAtOffset?_isSome_iff {text : List Char} {offset : Nat} :
    (splitAtOffset? text offset).isSome = true ↔ AtBoundary text offset := by
  constructor
  · intro h
    obtain ⟨p, hp⟩ := Option.isSome_iff_exists.1 h
    obtain ⟨htext, hlength⟩ := splitAtOffset?_eq_some hp
    exact ⟨p.1, p.2, htext.symm, hlength⟩
  · rintro ⟨before, after, rfl, rfl⟩
    rw [Segment.splitAtOffset?_append]
    rfl

/-- A boundary of a text behind some part of it is one of the rest. -/
theorem AtBoundary.behind {front text : List Char} {o : Nat} (h : AtBoundary (front ++ text) o)
    (hle : utf8Length front ≤ o) :
    ∃ kept rest, text = kept ++ rest ∧ o = utf8Length front + utf8Length kept := by
  obtain ⟨before, after, heq, rfl⟩ := h
  rcases List.append_eq_append_iff.1 heq with ⟨kept, rfl, rfl⟩ | ⟨extra, rfl, rfl⟩
  · exact ⟨kept, after, rfl, utf8Length_append _ _⟩
  · have hextra : extra = [] := by
      by_contra hne
      have hpos := utf8Length_pos hne
      rw [utf8Length_append] at hle
      omega
    subst hextra
    exact ⟨[], text, rfl, by simp [utf8Length]⟩

namespace TextRange

/--
Each range starts before the other one ends, or both are empty and the same. So an empty range
overlaps those that strictly contain its offset, and those that are empty at its offset.
-/
def Overlaps (a b : TextRange) : Prop :=
  (a.start < b.stop ∧ b.start < a.stop) ∨ (a = b ∧ a.start = a.stop)

/-- The second range starts where the first one ends or later, and they are not both one empty range. -/
def LeftOf (a b : TextRange) : Prop := a.stop ≤ b.start ∧ a ≠ b

variable {a b c : TextRange}

theorem Overlaps.symm (h : a.Overlaps b) : b.Overlaps a := by
  rcases h with ⟨hab, hba⟩ | ⟨rfl, hempty⟩
  · exact .inl ⟨hba, hab⟩
  · exact .inr ⟨rfl, hempty⟩

theorem LeftOf.not_overlaps (h : a.LeftOf b) : ¬ a.Overlaps b := by
  rintro (⟨-, hba⟩ | ⟨heq, -⟩)
  · exact absurd h.1 (Nat.not_le.2 hba)
  · exact h.2 heq

theorem LeftOf.trans (ha : a.start ≤ a.stop) (hb : b.start ≤ b.stop) (hab : a.LeftOf b)
    (hbc : b.LeftOf c) : a.LeftOf c := by
  refine ⟨Nat.le_trans hab.1 (Nat.le_trans hb hbc.1), ?_⟩
  rintro rfl
  -- from `a` back to `a` there is no room, so that all three would be one empty range
  have hstop : a.stop ≤ b.start := hab.1
  have hback : b.stop ≤ a.start := hbc.1
  have hsame : a = b := by
    cases a
    cases b
    simp only [TextRange.mk.injEq] at *
    omega
  exact hab.2 hsame

theorem LeftOf.antisymm (ha : a.start ≤ a.stop) (hb : b.start ≤ b.stop) (hab : a.LeftOf b)
    (hba : b.LeftOf a) : False :=
  (hab.trans ha hb hba).2 rfl

end TextRange

namespace TextEdit

/-- The edit does not stop before it starts. -/
def Valid (e : TextEdit) : Prop := e.range.start ≤ e.range.stop

/-- The text with one edit in place. -/
def replaceIn (e : TextEdit) (text : List Char) : List Char :=
  match splitAtOffset? text e.range.start, splitAtOffset? text e.range.stop with
  | some (before, _), some (_, after) => before ++ e.replacement.toList ++ after
  | _, _ => text

/--
The second text is the first one, which starts at the offset, with the replacements of the edits in
the place of what is in their ranges. All other text is kept, in its order.
-/
inductive Spliced : Nat → List TextEdit → List Char → List Char → Prop
  | nil {o : Nat} {text : List Char} : Spliced o [] text text
  | cons {o : Nat} {e : TextEdit} {es : List TextEdit} {kept removed rest out : List Char} :
    e.range.start = o + utf8Length kept → e.range.stop = e.range.start + utf8Length removed →
    Spliced e.range.stop es rest out →
    Spliced o (e :: es) (kept ++ removed ++ rest) (kept ++ e.replacement.toList ++ out)

variable {text : List Char} {e : TextEdit} {es es' : List TextEdit} {o : Nat}

/-! ## The order of edits -/

theorem before_iff {a b : TextEdit} : before a b = true ↔ a.range.start < b.range.start ∨
    a.range.start = b.range.start ∧ a.range.stop ≤ b.range.stop := by
  simp [before]

theorem before_trans (a b c : TextEdit) (hab : before a b = true) (hbc : before b c = true) :
    before a c = true := by
  rw [before_iff] at *
  omega

theorem before_total (a b : TextEdit) : (before a b || before b a) = true := by
  rw [Bool.or_eq_true, before_iff, before_iff]
  omega

theorem pairwise_before (es : List TextEdit) :
    (es.mergeSort before).Pairwise fun a b => before a b = true :=
  List.pairwise_mergeSort before_trans before_total es

/-- Edits in another order have the same ranges once they are sorted. -/
theorem ranges_mergeSort (h : es'.Perm es) :
    (es'.mergeSort before).map range = (es.mergeSort before).map range := by
  have hperm : (es'.mergeSort before).Perm (es.mergeSort before) :=
    ((List.mergeSort_perm es' before).trans h).trans (List.mergeSort_perm es before).symm
  have hranges : ∀ es : List TextEdit, ((es.mergeSort before).map range).Pairwise fun a b =>
      a.start < b.start ∨ a.start = b.start ∧ a.stop ≤ b.stop := fun es =>
    List.pairwise_map.2 ((pairwise_before es).imp before_iff.1)
  refine List.Perm.eq_of_pairwise (fun a b _ _ hab hba => ?_) (hranges es') (hranges es)
    (hperm.map range)
  cases a
  cases b
  simp only [TextRange.mk.injEq] at *
  omega

/-! ## What the checks say -/

theorem check_eq_ok_iff : check text e = .ok () ↔
    e.range.stop ≤ utf8Length text ∧ AtBoundary text e.range.start ∧
      AtBoundary text e.range.stop := by
  simp only [check, ← splitAtOffset?_isSome_iff, Option.isNone_iff_eq_none]
  split
  · simp
    omega
  · rename_i hin
    split
    · rename_i hstart
      simp [hstart]
    · rename_i hstart
      split
      · rename_i hstop
        simp [hstop]
      · rename_i hstop
        simp only [true_iff, Option.isSome_iff_ne_none]
        exact ⟨Nat.le_of_not_lt hin, hstart, hstop⟩

theorem forM_check_eq_ok_iff : es.forM (check text) = .ok () ↔ ∀ e ∈ es, check text e = .ok () := by
  induction es with
  | nil => simp [List.forM_nil, pure, Except.pure]
  | cons e es ih =>
    rw [List.forM_eq_forM] at ih ⊢
    rw [List.forM_cons, check_eq_ok, ih, List.forall_mem_cons]

theorem not_clash_iff {a b : TextRange} : clash a b = false ↔ a.stop ≤ b.start ∧
    ¬ (a.start = a.stop ∧ a = b) := by
  simp [clash, TextRange.isEmpty]

theorem not_clash_iff_leftOf {a b : TextRange} (ha : a.start ≤ a.stop) :
    clash a b = false ↔ a.LeftOf b := by
  rw [not_clash_iff]
  refine and_congr_right fun hle => not_congr ⟨fun h => h.2, ?_⟩
  rintro rfl
  exact ⟨Nat.le_antisymm ha hle, rfl⟩

/-- Neighbours are compared, but then no two edits of the list are in each other's way. -/
theorem checkNeighbours_eq_ok_iff (hvalid : ∀ e ∈ es, e.Valid) :
    checkNeighbours es = .ok () ↔ es.Pairwise fun a b => a.range.LeftOf b.range := by
  induction es with
  | nil => simp [checkNeighbours]
  | cons a es ih =>
    have hrest : ∀ e ∈ es, e.Valid := fun e he => hvalid e (List.mem_cons_of_mem _ he)
    have ha : a.Valid := hvalid a List.mem_cons_self
    rw [List.pairwise_cons, ← ih hrest]
    cases es with
    | nil => simp [checkNeighbours]
    | cons b es =>
      have hb : b.Valid := hrest b List.mem_cons_self
      rw [checkNeighbours]
      cases hclash : clash a.range b.range with
      | true =>
        have hno : ¬ a.range.LeftOf b.range := fun h => by
          rw [(not_clash_iff_leftOf ha).2 h] at hclash
          cases hclash
        simp [hno]
      | false =>
        have hab : a.range.LeftOf b.range := (not_clash_iff_leftOf ha).1 hclash
        rw [if_neg Bool.false_ne_true]
        refine ⟨fun h => ⟨?_, h⟩, fun h => h.2⟩
        have hpair := (List.pairwise_cons.1 ((ih hrest).1 h)).1
        intro c hc
        rcases List.mem_cons.1 hc with rfl | hc
        · exact hab
        · exact hab.trans ha hb (hpair c hc)

/-- Both checks look at nothing but the ranges of edits. -/
theorem check_congr (h : es'.map range = es.map range) :
    es'.forM (check text) = es.forM (check text) ∧ checkNeighbours es' = checkNeighbours es := by
  induction es generalizing es' with
  | nil =>
    rw [List.map_eq_nil_iff.1 h]
    exact ⟨rfl, rfl⟩
  | cons e es ih =>
    obtain ⟨e', es', rfl, he, hes⟩ := List.map_eq_cons_iff.1 h
    obtain ⟨hchecks, hneighbours⟩ := ih hes
    have hcheck : check text e' = check text e := by
      simp only [check, he]
    rw [List.forM_eq_forM] at hchecks ⊢
    refine ⟨by rw [List.forM_cons, List.forM_cons, hcheck, hchecks], ?_⟩
    cases es with
    | nil =>
      rw [List.map_eq_nil_iff.1 hes]
      rfl
    | cons b es =>
      obtain ⟨b', es', rfl, hb, -⟩ := List.map_eq_cons_iff.1 hes
      simp only [checkNeighbours, he, hb, hneighbours]

/-! ## One pass over the text -/

/-- One pass puts the replacements where the ranges are, if these lie one behind the other. -/
theorem spliced_splice {front : List Char} (hvalid : ∀ e ∈ es, e.Valid)
    (hfrom : ∀ e ∈ es, utf8Length front ≤ e.range.start)
    (hbounds : ∀ e ∈ es, AtBoundary (front ++ text) e.range.start ∧
      AtBoundary (front ++ text) e.range.stop)
    (hordered : es.Pairwise fun a b => a.range.LeftOf b.range) :
    Spliced (utf8Length front) es text (splice (utf8Length front) text es) := by
  induction es generalizing front text with
  | nil => exact .nil
  | cons e es ih =>
    obtain ⟨hleft, hrest⟩ := List.pairwise_cons.1 hordered
    obtain ⟨hstart, hstop⟩ := hbounds e List.mem_cons_self
    obtain ⟨kept, behind, rfl, hkept⟩ := hstart.behind (hfrom e List.mem_cons_self)
    have hlength : utf8Length (front ++ kept) = e.range.start := by
      rw [utf8Length_append, hkept]
    rw [← List.append_assoc] at hstop
    have hle : utf8Length (front ++ kept) ≤ e.range.stop := by
      rw [hlength]
      exact hvalid e List.mem_cons_self
    obtain ⟨removed, rest, rfl, hremoved⟩ := hstop.behind hle
    have hfront : utf8Length (front ++ kept ++ removed) = e.range.stop := by
      rw [utf8Length_append, hremoved]
    have htext : front ++ (kept ++ (removed ++ rest)) = front ++ kept ++ removed ++ rest := by
      simp
    have htail := @ih rest (front ++ kept ++ removed)
      (fun d hd => hvalid d (List.mem_cons_of_mem _ hd))
      (fun d hd => hfront ▸ (hleft d hd).1)
      (fun d hd => htext ▸ hbounds d (List.mem_cons_of_mem _ hd)) hrest
    have hskip : e.range.start - utf8Length front = utf8Length kept := by omega
    have hsize : e.range.length = utf8Length removed := by
      rw [TextRange.length, hremoved, hlength]
      omega
    rw [splice, hskip, Segment.splitAtOffset?_append, Option.getD_some, hsize]
    simp only [Segment.splitAtOffset?_append, Option.getD_some]
    rw [hfront] at htail
    rw [← List.append_assoc]
    exact .cons hkept (by rw [hremoved, hlength]) htail

/-- What is spliced together comes of putting the edits in place one at a time, the last one first. -/
theorem Spliced.foldr_replaceIn {out : List Char} (h : Spliced o es text out) (front : List Char)
    (hfront : utf8Length front = o) : es.foldr replaceIn (front ++ text) = front ++ out := by
  induction h generalizing front with
  | nil => rfl
  | @cons o e es kept removed rest out hstart hstop _ ih =>
    have hbehind := ih (front ++ kept ++ removed) (by
      simp only [utf8Length_append]
      omega)
    have htext : front ++ (kept ++ removed ++ rest) = front ++ kept ++ removed ++ rest := by simp
    rw [List.foldr_cons, htext, hbehind, replaceIn]
    have hfirst : e.range.start = utf8Length (front ++ kept) := by
      rw [utf8Length_append]
      omega
    have hlast : e.range.stop = utf8Length (front ++ kept ++ removed) := by
      rw [utf8Length_append]
      omega
    have hsplit : splitAtOffset? (front ++ kept ++ removed ++ out) e.range.start =
        some (front ++ kept, removed ++ out) := by
      rw [hfirst, List.append_assoc (front ++ kept), Segment.splitAtOffset?_append]
    rw [hsplit, hlast, Segment.splitAtOffset?_append]
    simp

/-! ## All edits of a list -/

/-- What the edits of a list must be like so that they can all be put in place. -/
def Applicable (text : List Char) (edits : List TextEdit) : Prop :=
  (∀ e ∈ edits, e.range.stop ≤ utf8Length text ∧ AtBoundary text e.range.start ∧
    AtBoundary text e.range.stop) ∧
  edits.Pairwise fun a b => ¬ a.range.Overlaps b.range

theorem leftOf_of_before {a b : TextEdit} (ha : a.Valid) (hb : b.Valid) (hab : before a b = true)
    (hapart : ¬ a.range.Overlaps b.range) : a.range.LeftOf b.range := by
  rw [before_iff] at hab
  unfold Valid at ha hb
  refine ⟨?_, fun heq => ?_⟩
  · refine Nat.le_of_not_lt fun hlt => hapart (.inl ⟨?_, hlt⟩)
    omega
  · by_cases hempty : a.range.start = a.range.stop
    · exact hapart (.inr ⟨heq, hempty⟩)
    · refine hapart (.inl ?_)
      rw [← heq]
      omega

theorem applyAll_eq_ok_iff {text : String} {edits : List TextEdit} {out : String} :
    applyAll text edits = .ok out ↔
      (∀ e ∈ edits, check text.toList e = .ok ()) ∧
      checkNeighbours (edits.mergeSort before) = .ok () ∧
      out = String.ofList (splice 0 text.toList (edits.mergeSort before)) := by
  have hmem : (∀ e ∈ edits.mergeSort before, check text.toList e = .ok ()) ↔
      ∀ e ∈ edits, check text.toList e = .ok () :=
    forall_congr' fun e => imp_congr_left (List.mergeSort_perm edits before).mem_iff
  rw [applyAll, check_eq_ok, check_eq_ok, forM_check_eq_ok_iff, hmem]
  simp [pure, Except.pure, eq_comm]

theorem applicable_iff {text : List Char} {edits : List TextEdit} (hvalid : ∀ e ∈ edits, e.Valid) :
    Applicable text edits ↔ (∀ e ∈ edits, check text e = .ok ()) ∧
      checkNeighbours (edits.mergeSort before) = .ok () := by
  have hperm := List.mergeSort_perm edits before
  have hsorted : ∀ e ∈ edits.mergeSort before, e.Valid := fun e he =>
    hvalid e (hperm.mem_iff.1 he)
  rw [checkNeighbours_eq_ok_iff hsorted, Applicable]
  refine and_congr (by simp only [check_eq_ok_iff]) ?_
  rw [← hperm.pairwise_iff fun {a b} h hba => h hba.symm]
  constructor
  · intro h
    exact (h.and (pairwise_before edits)).imp_of_mem fun ha hb hab =>
      leftOf_of_before (hsorted _ ha) (hsorted _ hb) hab.2 hab.1
  · exact fun h => h.imp TextRange.LeftOf.not_overlaps

/-- Sorting brings edits that can all be put in place into the one order that they have. -/
theorem mergeSort_eq {edits edits' : List TextEdit} (hvalid : ∀ e ∈ edits, e.Valid)
    (hperm : edits'.Perm edits) (hchecked : checkNeighbours (edits.mergeSort before) = .ok ()) :
    edits'.mergeSort before = edits.mergeSort before := by
  have hsorted : ∀ es : List TextEdit, es.Perm edits → ∀ e ∈ es.mergeSort before, e.Valid :=
    fun es hes e he => hvalid e (hes.mem_iff.1 ((List.mergeSort_perm es before).mem_iff.1 he))
  have hchecked' : checkNeighbours (edits'.mergeSort before) = .ok () := by
    rw [(@check_congr [] _ _ (ranges_mergeSort hperm)).2, hchecked]
  refine List.Perm.eq_of_pairwise (fun a b ha hb hab hba => ?_)
    ((checkNeighbours_eq_ok_iff (hsorted edits' hperm)).1 hchecked')
    ((checkNeighbours_eq_ok_iff (hsorted edits (.refl _))).1 hchecked)
    (((List.mergeSort_perm edits' before).trans hperm).trans (List.mergeSort_perm edits before).symm)
  exact (hab.antisymm (hsorted edits' hperm a ha) (hsorted edits (.refl _) b hb) hba).elim

theorem applyAll_perm (text : String) {edits edits' : List TextEdit}
    (hvalid : ∀ e ∈ edits, e.Valid) (hperm : edits'.Perm edits) :
    applyAll text edits' = applyAll text edits := by
  obtain ⟨hchecks, hneighbours⟩ := @check_congr text.toList _ _ (ranges_mergeSort hperm)
  simp only [applyAll, hchecks, hneighbours]
  cases hchecked : checkNeighbours (edits.mergeSort before) with
  | error _ => rfl
  | ok _ => rw [mergeSort_eq hvalid hperm hchecked]

theorem not_applicable_iff {text : List Char} {edits : List TextEdit} :
    ¬ Applicable text edits ↔
      (∃ e ∈ edits, utf8Length text < e.range.stop) ∨
      (∃ e ∈ edits, ¬ AtBoundary text e.range.start ∨ ¬ AtBoundary text e.range.stop) ∨
      ∃ (i j : Nat) (hi : i < edits.length) (hj : j < edits.length), i ≠ j ∧
        edits[i].range.Overlaps edits[j].range := by
  constructor
  · intro h
    by_contra hno
    simp only [not_or, not_exists, not_and, not_not, Nat.not_lt] at hno
    obtain ⟨hstop, hends, hapart⟩ := hno
    exact h ⟨fun e he => ⟨hstop e he, (hends e he).1, (hends e he).2⟩,
      List.pairwise_iff_getElem.2 fun i j hi hj hij => hapart i j hi hj (Nat.ne_of_lt hij)⟩
  · rintro (⟨e, he, hlt⟩ | ⟨e, he, hend⟩ | ⟨i, j, hi, hj, hne, hover⟩) ⟨hall, hpair⟩
    · exact absurd (hall e he).1 (Nat.not_le.2 hlt)
    · exact hend.elim (fun h => h (hall e he).2.1) fun h => h (hall e he).2.2
    · rcases Nat.lt_or_gt_of_ne hne with hlt | hlt
      · exact List.pairwise_iff_getElem.1 hpair i j hi hj hlt hover
      · exact List.pairwise_iff_getElem.1 hpair j i hj hi hlt hover.symm

theorem applyAll_error_iff (text : String) {edits : List TextEdit}
    (hvalid : ∀ e ∈ edits, e.Valid) :
    (∃ error, applyAll text edits = .error error) ↔ ¬ Applicable text.toList edits := by
  rw [applicable_iff hvalid]
  cases happlied : applyAll text edits with
  | error e =>
    refine iff_of_true ⟨e, rfl⟩ fun h => ?_
    have hout := applyAll_eq_ok_iff.2 ⟨h.1, h.2, rfl⟩
    rw [happlied] at hout
    cases hout
  | ok out =>
    obtain ⟨hchecks, hneighbours, -⟩ := applyAll_eq_ok_iff.1 happlied
    exact iff_of_false nofun fun h => h ⟨hchecks, hneighbours⟩

/--
Applying edits is putting all of them in place at once. What comes of it does not depend on the order
of the list. It fails exactly if an edit ends past the text, if an end of an edit lies inside a
character, or if two edits of the list overlap. Otherwise the edits lie one behind the other in the
text, and the result is that of putting them in place one at a time from the rightmost to the
leftmost, so that the text outside of their ranges is kept as it is and in its order.
-/
theorem applyAll_simultaneous (text : String) {edits : List TextEdit}
    (hvalid : ∀ e ∈ edits, e.Valid) :
    (∀ edits', edits'.Perm edits → applyAll text edits' = applyAll text edits) ∧
    ((∃ error, applyAll text edits = .error error) ↔
      (∃ e ∈ edits, text.utf8ByteSize < e.range.stop) ∨
      (∃ e ∈ edits, ¬ AtBoundary text.toList e.range.start ∨
        ¬ AtBoundary text.toList e.range.stop) ∨
      ∃ (i j : Nat) (hi : i < edits.length) (hj : j < edits.length), i ≠ j ∧
        edits[i].range.Overlaps edits[j].range) ∧
    ∀ out, applyAll text edits = .ok out → ∃ ordered : List TextEdit, ordered.Perm edits ∧
      ordered.Pairwise (fun a b => a.range.LeftOf b.range) ∧
      out.toList = ordered.foldr replaceIn text.toList ∧
      Spliced 0 ordered text.toList out.toList := by
  refine ⟨fun edits' hperm => applyAll_perm text hvalid hperm, ?_, fun out hout => ?_⟩
  · rw [applyAll_error_iff text hvalid, not_applicable_iff, utf8ByteSize_eq]
  · obtain ⟨hchecks, hneighbours, rfl⟩ := applyAll_eq_ok_iff.1 hout
    have hperm := List.mergeSort_perm edits before
    have hsorted : ∀ e ∈ edits.mergeSort before, e.Valid := fun e he =>
      hvalid e (hperm.mem_iff.1 he)
    have hordered := (checkNeighbours_eq_ok_iff hsorted).1 hneighbours
    have hspliced : Spliced 0 (edits.mergeSort before) text.toList
        (splice 0 text.toList (edits.mergeSort before)) :=
      @spliced_splice text.toList _ [] hsorted (fun _ _ => Nat.zero_le _)
        (fun e he => (check_eq_ok_iff.1 (hchecks e (hperm.mem_iff.1 he))).2) hordered
    rw [String.toList_ofList]
    refine ⟨_, hperm, hordered, ?_, hspliced⟩
    exact (hspliced.foldr_replaceIn [] rfl).symm

/-- Brackets that go from a name to its type, the edit at the end of the text coming first. -/
theorem applyAll_simultaneous_brackets :
    (∀ e ∈ [deletion ⟨8, 10⟩, ⟨⟨5, 6⟩, "; int[]"⟩], e.Valid) ∧
    ∀ edits : List TextEdit, edits.Perm [deletion ⟨8, 10⟩, ⟨⟨5, 6⟩, "; int[]"⟩] →
      applyAll "int a, b[];" edits = .ok "int a; int[] b;" := by
  have hvalid : ∀ e ∈ [deletion ⟨8, 10⟩, ⟨⟨5, 6⟩, "; int[]"⟩], e.Valid := by
    simp [Valid, deletion]
  refine ⟨hvalid, fun edits hperm => ?_⟩
  rw [(applyAll_simultaneous "int a, b[];" hvalid).1 edits hperm]
  cbv

end TextEdit

end JavaAnalysis
