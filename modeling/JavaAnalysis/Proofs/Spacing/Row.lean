import JavaAnalysis.Proofs.Row.Cutting
import JavaAnalysis.Proofs.Spacing.Lexemes

/-!
# Moving tokens

Where a row of lexemes is spread, its tokens are spread alike: an operator is cut at the places to
which its cuts go, and each of its pieces goes along with the bytes in it. A search by offset looks
at nothing but the order of offsets and tokens, so it finds the same tokens before and after.
Main statements: `moved_ofLexemes` and `Moved.span?_eq`.
-/

set_option autoImplicit false
set_option linter.dupNamespace false

namespace JavaAnalysis

open Lexeme

/-- An offset at which something starts or ends, and where it goes. -/
inductive Shift.Takes (f : Shift) : Nat → Nat → Prop where
  | start (o : Nat) : Takes f o (f.start o)
  | stop (o : Nat) : Takes f o (f.stop o)

namespace Shift.Takes

variable {f : Shift} {a o o' : Nat}

theorem start_lt_iff (h : f.Takes o o') (hf : StrictMono f.start) : f.start a < o' ↔ a < o := by
  cases h with
  | start => exact hf.lt_iff_lt
  | stop => exact start_lt_stop_iff hf

theorem stop_le_iff (h : f.Takes o o') (hf : StrictMono f.start) : f.stop a ≤ o' ↔ a ≤ o := by
  cases h with
  | start => exact stop_le_start_iff hf
  | stop => exact stop_le_stop_iff hf

theorem le_start_iff (h : f.Takes o o') (hf : StrictMono f.start) : o' ≤ f.start a ↔ o ≤ a := by
  rw [← Nat.not_lt, ← Nat.not_lt, h.start_lt_iff hf]

theorem lt_stop_iff (h : f.Takes o o') (hf : StrictMono f.start) : o' < f.stop a ↔ o < a := by
  rw [← Nat.not_le, ← Nat.not_le, h.stop_le_iff hf]

end Shift.Takes

/-- A range each end of which is taken somewhere. -/
structure Shift.TakesRange (f : Shift) (r s : TextRange) : Prop where
  start : f.Takes r.start s.start
  stop : f.Takes r.stop s.stop

theorem Shift.takes_range (f : Shift) (r : TextRange) : f.TakesRange r (f.range r) :=
  ⟨.start _, .stop _⟩

/-- A test that gives the same answers is bisected at the same place. -/
theorem bisect_congr {p q : Nat → Bool} {lo hi : Nat} (h : ∀ i < hi, p i = q i) :
    bisect p lo hi = bisect q lo hi := by
  fun_induction bisect p lo hi with
  | case1 lo hi hlt mid hp ih =>
    have hq : q mid = true := h mid (by omega) ▸ hp
    rw [ih h, bisect.eq_def q lo hi, if_pos hlt, if_pos hq]
  | case2 lo hi hlt mid hp ih =>
    have hq : ¬ q mid = true := h mid (by omega) ▸ hp
    rw [ih fun i hi' => h i (by omega), bisect.eq_def q lo hi, if_pos hlt, if_neg hq]
  | case3 lo hi hle => rw [bisect, if_neg hle]

theorem bisect_le {p : Nat → Bool} {lo hi : Nat} (h : lo ≤ hi) : bisect p lo hi ≤ hi := by
  fun_induction bisect p lo hi with
  | case1 lo hi hlt mid hp ih => exact ih (by omega)
  | case2 lo hi hlt mid hp ih => exact Nat.le_trans (ih (by omega)) (by omega)
  | case3 lo hi hle => exact h

namespace TokenRow

variable {f : Shift} {x y : Lexeme} {splits : List Nat} {level : LanguageLevel}

/-! ## The pieces of an operator -/

/-- What the lexer gives again does not depend on where it stands. -/
theorem Readable.of_same (h : Lexeme.Same x y) (hy : Readable level y) : Readable level x := by
  obtain ⟨kind, text, start, position⟩ := x
  obtain ⟨hkind, htext⟩ := h
  subst hkind htext
  rcases hy with hy | hy
  · exact .inl ⟨hy.text_ne, hy.kind_ne, hy.gtText, hy.blank, hy.scan_text⟩
  · exact .inr ⟨hy.kind, hy.text⟩

/-- The cuts inside an operator go along with it. -/
theorem cutsIn_moved (hf : StrictMono f.start) (h : Lexeme.Moved f x y)
    (hne : 0 < x.text.utf8ByteSize) :
    cutsIn (splits.map f.stop) y = (cutsIn splits x).map f.stop := by
  have hmono : ∀ a b, a < b → f.stop a < f.stop b := fun a b => (Shift.stop_lt_stop_iff hf).2
  refine eq_of_ascending (pairwise_cutsIn _ y)
    (List.pairwise_map.2 ((pairwise_cutsIn splits x).imp (hmono _ _))) fun o => ?_
  rw [mem_cutsIn, h.kind_eq, h.start_eq, h.stop_eq hne, List.mem_map, List.mem_map]
  constructor
  · rintro ⟨hgt, ⟨s, hs, rfl⟩, hstart, hstop⟩
    exact ⟨s, mem_cutsIn.2 ⟨hgt, hs, (Shift.start_lt_stop_iff hf).1 hstart,
      (Shift.stop_lt_stop_iff hf).1 hstop⟩, rfl⟩
  · rintro ⟨s, hs, rfl⟩
    obtain ⟨hgt, hs, hstart, hstop⟩ := mem_cutsIn.1 hs
    exact ⟨hgt, ⟨s, hs, rfl⟩, (Shift.start_lt_stop_iff hf).2 hstart,
      (Shift.stop_lt_stop_iff hf).2 hstop⟩

/-- A part of an operator, and the same part of it elsewhere. -/
theorem pieceOf?_moved {text : List Char} {start start' : Nat} (hpart : text <:+: longestGt)
    (hne : text ≠ []) (hinside : ∀ d < text.length, f.start (start + d) = start' + d) :
    ∃ p q, pieceOf? x (start, text) = some p ∧ pieceOf? y (start', text) = some q ∧
      Lexeme.Moved f p.toLexeme q.toLexeme := by
  obtain ⟨kind, hkind, -, -⟩ := genuine_part .standard hpart hne
  have hlength : (String.ofList text).utf8ByteSize = text.length := by
    rw [utf8ByteSize_ofList, utf8Length_part hpart]
  have hpiece : ∀ (z : Lexeme) o, pieceOf? z (o, text) = some
      ⟨⟨kind, String.ofList text, o, ⟨z.position.line, z.position.column + (o - z.start)⟩⟩, []⟩ :=
    fun z o => by simp only [pieceOf?, hkind, Option.map_some]
  refine ⟨_, _, hpiece x start, hpiece y start', ⟨⟨rfl, rfl⟩, ?_, fun d hd => ?_⟩⟩
  · exact (hinside 0 (List.length_pos_iff.2 hne)).symm
  · exact hinside d (hlength ▸ hd)

theorem cutAt_moved {text : List Char} {start start' : Nat} {cuts : List Nat}
    (hpart : text <:+: longestGt) (hne : text ≠ []) (hcuts : cuts.Pairwise (· < ·))
    (hbetween : ∀ o ∈ cuts, start < o ∧ o < start + text.length)
    (hinside : ∀ d < text.length, f.start (start + d) = start' + d) :
    ∃ ps qs, (cutAt start text cuts).mapM (pieceOf? x) = some ps ∧
      (cutAt start' text (cuts.map f.stop)).mapM (pieceOf? y) = some qs ∧
      List.Forall₂ (Lexeme.Moved f) (bare ps) (bare qs) := by
  induction cuts generalizing start start' text with
  | nil =>
    obtain ⟨p, q, hp, hq, hpq⟩ := @pieceOf?_moved f x y text start start' hpart hne hinside
    exact ⟨[p], [q], by simp [cutAt, hp], by simp [cutAt, hq], .cons hpq .nil⟩
  | cons o os ih =>
    obtain ⟨hafter, hos⟩ := List.pairwise_cons.1 hcuts
    obtain ⟨hstart, hstop⟩ := hbetween o List.mem_cons_self
    -- A cut goes along with the byte in front of it, which is part of the operator.
    have hgoes : f.stop o = start' + (o - start) := by
      obtain ⟨n, rfl⟩ : ∃ n, o = start + n + 1 := ⟨o - start - 1, by omega⟩
      have hbyte := hinside n (by omega)
      show f.start (start + n) + 1 = _
      omega
    have hwidth : f.stop o - start' = o - start := by omega
    have hlen : (text.take (o - start)).length = o - start := by
      rw [List.length_take]
      omega
    have hrest : (text.drop (o - start)).length = start + text.length - o := by
      rw [List.length_drop]
      omega
    obtain ⟨p, q, hp, hq, hpq⟩ := @pieceOf?_moved f x y (text.take (o - start)) start start'
      ((List.take_prefix _ _).isInfix.trans hpart) (List.length_pos_iff.1 (by omega))
      fun d hd => hinside d (by omega)
    obtain ⟨ps, qs, hps, hqs, hmoved⟩ := @ih (text.drop (o - start)) o (f.stop o)
      ((List.drop_suffix _ _).isInfix.trans hpart) (List.length_pos_iff.1 (by omega)) hos
      (fun c hc => by
        have hlater := hafter c hc
        have hend := (hbetween c (List.mem_cons_of_mem _ hc)).2
        omega)
      fun d hd => by
        have hbyte := hinside (o - start + d) (by omega)
        rw [← Nat.add_assoc, Nat.add_sub_cancel' (Nat.le_of_lt hstart)] at hbyte
        omega
    exact ⟨p :: ps, q :: qs, by simp [cutAt, hp, hps], by simp [cutAt, hwidth, hq, hqs],
      .cons hpq hmoved⟩

/-- The pieces of a lexeme go along with it. -/
theorem pieces_moved (hf : StrictMono f.start) (h : Lexeme.Moved f x y) (hy : Readable level y) :
    List.Forall₂ (Lexeme.Moved f) (pieces splits x) (pieces (splits.map f.stop) y) := by
  have hx : Readable level x := hy.of_same h.toSame
  cases hgt : x.kind.startsWithGt with
  | false =>
    rw [pieces, pieces, tokensOf_of_not_startsWithGt splits hx hgt,
      tokensOf_of_not_startsWithGt _ hy (h.kind_eq ▸ hgt)]
    exact .cons h .nil
  | true =>
    have hkind : x.kind ≠ .endOfFile := fun h => by simp [h, TokenKind.startsWithGt] at hgt
    have hgenuine := Readable.genuine hx hkind
    have hpart : x.text.toList <:+: longestGt := part_of_ofGtText? (hgenuine.gtText hgt)
    have hsize : x.text.utf8ByteSize = x.text.toList.length := by
      rw [utf8ByteSize_eq, utf8Length_part hpart]
    have hne : x.text.toList ≠ [] := by simpa using hgenuine.text_ne
    obtain ⟨ps, qs, hps, hqs, hmoved⟩ := @cutAt_moved f x y x.text.toList x.start y.start
      (cutsIn splits x) hpart hne (pairwise_cutsIn splits x)
      (fun o ho => by
        obtain ⟨-, -, hstart, hstop⟩ := mem_cutsIn.1 ho
        exact ⟨hstart, by rwa [Lexeme.stop, hsize] at hstop⟩)
      fun d hd => h.inside d (hsize ▸ hd)
    rw [← cutsIn_moved hf h (hsize ▸ List.length_pos_iff.2 hne), ← h.text_eq] at hqs
    unfold pieces tokensOf
    rw [hps, hqs]
    cases hmoved' : ps with
    | nil =>
      subst hmoved'
      cases qs with
      | nil => exact .cons h .nil
      | cons => cases hmoved
    | cons =>
      subst hmoved'
      cases qs with
      | nil => cases hmoved
      | cons => exact hmoved

/-! ## Rows of tokens -/

/-- The second row is the first one where the shift takes it. -/
structure Moved (f : Shift) (r s : TokenRow) : Prop where
  ascending : StrictMono f.start
  size_eq : s.tokens.size = r.tokens.size
  count_eq : s.count = r.count
  count_le : r.count ≤ r.tokens.size
  moved : ∀ i < r.tokens.size, Lexeme.Moved f (r.token ⟨i⟩).toLexeme (s.token ⟨i⟩).toLexeme
  nonempty : ∀ i < r.count, 0 < (r.token ⟨i⟩).text.utf8ByteSize

variable {r s : TokenRow}

namespace Moved

theorem same (h : Moved f r s) (id : TokenId) :
    Lexeme.Same (r.token id).toLexeme (s.token id).toLexeme := by
  by_cases hid : id.index < r.tokens.size
  · exact (h.moved id.index hid).toSame
  · have hr : r.token id = default := by
      simp [token, Array.getD_eq_getD_getElem?, Array.getElem?_eq_none (Nat.not_lt.1 hid)]
    have hs : s.token id = default := by
      simp [token, Array.getD_eq_getD_getElem?,
        Array.getElem?_eq_none (h.size_eq ▸ Nat.not_lt.1 hid)]
    rw [hr, hs]
    exact ⟨rfl, rfl⟩

theorem kind_eq (h : Moved f r s) (id : TokenId) : (s.token id).kind = (r.token id).kind :=
  (h.same id).kind_eq

theorem start_eq (h : Moved f r s) {i : Nat} (hi : i < r.tokens.size) :
    (s.token ⟨i⟩).start = f.start (r.token ⟨i⟩).start := (h.moved i hi).start_eq

theorem stop_eq (h : Moved f r s) {i : Nat} (hi : i < r.count) :
    (s.token ⟨i⟩).stop = f.stop (r.token ⟨i⟩).stop :=
  (h.moved i (Nat.lt_of_lt_of_le hi h.count_le)).stop_eq (h.nonempty i hi)

theorem final_eq (h : Moved f r s) : s.final = r.final := by rw [final, final, h.size_eq]

/-! ### Searches -/

variable {o o' n : Nat} {range range' : TextRange}

theorem firstFrom_eq (h : Moved f r s) (ho : f.Takes o o') (hn : n ≤ r.tokens.size) :
    s.firstFrom n o' = r.firstFrom n o :=
  bisect_congr fun i hi => by
    simp only [h.start_eq (Nat.lt_of_lt_of_le hi hn), ho.start_lt_iff h.ascending]

theorem countUpTo_eq (h : Moved f r s) (ho : f.Takes o o') : s.countUpTo o' = r.countUpTo o := by
  unfold countUpTo
  rw [h.count_eq]
  exact bisect_congr fun i hi => by simp only [h.stop_eq hi, ho.stop_le_iff h.ascending]

theorem firstInside?_eq (h : Moved f r s) (hr : f.TakesRange range range') :
    s.firstInside? range' = r.firstInside? range := by
  unfold firstInside?
  rw [h.count_eq, h.firstFrom_eq hr.start h.count_le]
  refine if_congr (and_congr_right fun hlt => ?_) rfl rfl
  rw [h.stop_eq hlt, hr.stop.stop_le_iff h.ascending]

/-- The token in front of those that end behind an offset is no end of a file. -/
theorem pred_countUpTo_lt (hpos : 0 < r.countUpTo o) : r.countUpTo o - 1 < r.count := by
  have hle : r.countUpTo o ≤ r.count := bisect_le (Nat.zero_le _)
  omega

theorem lastInside?_eq (h : Moved f r s) (hr : f.TakesRange range range') :
    s.lastInside? range' = r.lastInside? range := by
  unfold lastInside?
  rw [h.countUpTo_eq hr.stop]
  refine if_congr (and_congr_right fun hpos => ?_) rfl rfl
  rw [h.start_eq (Nat.lt_of_lt_of_le (pred_countUpTo_lt hpos) h.count_le),
    hr.start.le_start_iff h.ascending]

theorem span?_eq (h : Moved f r s) (hr : f.TakesRange range range') :
    s.span? range' = r.span? range := by
  rw [span?, span?, h.firstInside?_eq hr, h.lastInside?_eq hr]

theorem before?_eq (h : Moved f r s) (ho : f.Takes o o') : s.before? o' = r.before? o := by
  rw [before?, before?, h.countUpTo_eq ho]

theorem after?_eq (h : Moved f r s) (ho : f.Takes o o') : s.after? o' = r.after? o := by
  rw [after?, after?, h.size_eq, h.firstFrom_eq ho (Nat.le_refl _)]

theorem scanUp_eq (h : Moved f r s) (ho : f.Takes o o') (kind : SyntaxKind) {i : Nat}
    (hn : n + i ≤ r.count) : s.scanUp kind o' n i = r.scanUp kind o n i := by
  induction n generalizing i with
  | zero => rfl
  | succ n ih =>
    unfold scanUp
    dsimp only
    rw [ih (by omega), h.stop_eq (by omega), h.kind_eq]
    exact if_congr (ho.lt_stop_iff h.ascending) rfl rfl

theorem firstOfKind?_eq (h : Moved f r s) (hr : f.TakesRange range range') (kind : SyntaxKind) :
    s.firstOfKind? range' kind = r.firstOfKind? range kind := by
  have hle : r.firstFrom r.count range.start ≤ r.count := bisect_le (Nat.zero_le _)
  unfold firstOfKind?
  rw [h.count_eq, h.firstFrom_eq hr.start h.count_le]
  exact h.scanUp_eq hr.stop kind (by omega)

end Moved

/-- The token that is found in a range is in front of the end of the file. -/
theorem lt_count_of_scanUp {kind : SyntaxKind} {stop n i : Nat} {id : TokenId}
    (h : r.scanUp kind stop n i = some id) (hn : n + i ≤ r.count) : id.index < r.count := by
  induction n generalizing i with
  | zero => cases h
  | succ n ih =>
    unfold scanUp at h
    dsimp only at h
    split at h
    · cases h
    · split at h
      · cases h
        show i < r.count
        omega
      · exact ih h (by omega)

theorem lt_count_of_firstOfKind? {range : TextRange} {kind : SyntaxKind} {id : TokenId}
    (h : r.firstOfKind? range kind = some id) : id.index < r.count := by
  have hle : r.firstFrom r.count range.start ≤ r.count := bisect_le (Nat.zero_le _)
  exact lt_count_of_scanUp h (by omega)

/-! ### Tokens in front of the end -/

theorem count_of_pos (h : 0 < r.tokens.size) : r.count =
    if (r.token ⟨r.tokens.size - 1⟩).isEndOfFile then r.tokens.size - 1 else r.tokens.size := by
  have hback : r.tokens.back? = some (r.token ⟨r.tokens.size - 1⟩) := by
    rw [Array.back?_eq_getElem?, token_eq_getElem (by omega), Array.getElem?_eq_getElem]
  unfold count
  rw [hback]

/-- The token behind an offset that is not the end of the file is in front of it. -/
theorem lt_count_of_after? {o : Nat} {id : TokenId} (h : r.after? o = some id)
    (hkind : (r.token id).kind ≠ .endOfFile) : id.index < r.count := by
  obtain ⟨hlt, hid⟩ := Option.ite_none_right_eq_some.1 h
  cases hid
  rw [count_of_pos (Nat.zero_lt_of_lt hlt)]
  split
  · rename_i hend
    refine Nat.lt_of_le_of_ne (Nat.le_sub_one_of_lt hlt) fun heq => hkind ?_
    rw [show r.firstFrom r.tokens.size o = r.tokens.size - 1 from heq]
    simpa [Token.isEndOfFile] using hend
  · exact hlt

theorem lt_count_of_before? {o : Nat} {id : TokenId} (h : r.before? o = some id) :
    id.index < r.count := by
  obtain ⟨hpos, hid⟩ := Option.ite_none_right_eq_some.1 h
  cases hid
  exact Moved.pred_countUpTo_lt hpos

/-! ## The row of a file -/

theorem flatMap_pieces_moved {xs ys : List Lexeme} (hf : StrictMono f.start)
    (h : List.Forall₂ (Lexeme.Moved f) xs ys) (hys : ∀ y ∈ ys, Readable level y) :
    List.Forall₂ (Lexeme.Moved f) (xs.flatMap (pieces splits))
      (ys.flatMap (pieces (splits.map f.stop))) := by
  induction h with
  | nil => exact .nil
  | cons hxy _ ih =>
    exact List.rel_append (pieces_moved hf hxy (hys _ List.mem_cons_self))
      (ih fun y hy => hys y (List.mem_cons_of_mem _ hy))

/-- A row whose tokens go along one by one goes along. -/
theorem moved_of_bare (hf : StrictMono f.start) (hs : s.Ordered)
    (h : List.Forall₂ (Lexeme.Moved f) (bare r.tokens.toList) (bare s.tokens.toList)) :
    Moved f r s := by
  have hsize : s.tokens.size = r.tokens.size := by
    have hlength := h.length_eq
    simpa [bare] using hlength.symm
  have hmoved : ∀ i < r.tokens.size,
      Lexeme.Moved f (r.token ⟨i⟩).toLexeme (s.token ⟨i⟩).toLexeme := by
    intro i hi
    have hget := h.get (by simpa [bare] using hi) (by simpa [bare, hsize] using hi)
    rw [token_eq_getElem hi, token_eq_getElem (hsize ▸ hi)]
    simpa [bare] using hget
  have hpos : 0 < s.tokens.size := hs.size ▸ Nat.succ_pos _
  have hcount : s.count = r.count := by
    have hkind := (hmoved (r.tokens.size - 1) (by omega)).kind_eq
    rw [count_of_pos hpos, count_of_pos (hsize ▸ hpos), hsize]
    unfold Token.isEndOfFile
    rw [hkind]
  have hle : r.count ≤ r.tokens.size := by
    have := hs.size
    omega
  refine ⟨hf, hsize, hcount, hle, hmoved, fun i hi => ?_⟩
  have hwidth := hs.nonempty i (hcount ▸ hi)
  rw [← (hmoved i (Nat.lt_of_lt_of_le hi hle)).text_eq]
  unfold Lexeme.stop at hwidth
  omega

/-- The tokens of a tight row go along with its lexemes, and so do the cuts of operators. -/
theorem moved_ofLexemes {text : String} {xs lexemes : List Lexeme} (hf : StrictMono f.start)
    (hscan : scan level text = .ok lexemes)
    (h : List.Forall₂ (Lexeme.Moved f) xs (lexemes.filter fun x => !x.kind.isTrivia))
    (splits : List Nat) :
    Moved f (ofLexemes xs splits) (ofLexemes lexemes (splits.map f.stop)) := by
  obtain ⟨before, p, rfl, -, hbefore⟩ := scan_ok hscan
  have hend : IsEnd (endOfFile text.utf8ByteSize p) := ⟨rfl, rfl⟩
  have hreadable := readable_of_mem hbefore hend
  refine moved_of_bare hf (carries_ofLexemes (splits.map f.stop) hscan).ordered ?_
  have hfilter := filter_of_moved h fun y hy => by simpa using (List.mem_filter.1 hy).2
  simp only [ofLexemes, bare_attachComments, hfilter]
  exact flatMap_pieces_moved hf h fun y hy => hreadable y (List.mem_of_mem_filter hy)

end TokenRow

end JavaAnalysis
