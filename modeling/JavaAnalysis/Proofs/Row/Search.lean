import JavaAnalysis.Proofs.Row.Lossless

/-!
# Looking for tokens by offset

In a row whose tokens follow each other, bisection finds the tokens inside a range and those next to
an offset. The tokens are pieces of the significant lexemes of the file, and a lexeme that is no
operator of the `>` family is a token as it stands; so a place that is told by lexemes can be found
among the tokens, wherever the operators are cut. Main statement: `carries_ofLexemes`.
-/

set_option autoImplicit false
set_option linter.dupNamespace false

namespace JavaAnalysis

theorem bisect_spec {p : Nat → Bool} {lo hi : Nat} (hle : lo ≤ hi)
    (antitone : ∀ i j, i ≤ j → j < hi → p j = true → p i = true) :
    lo ≤ bisect p lo hi ∧ bisect p lo hi ≤ hi ∧
      (∀ i, lo ≤ i → i < bisect p lo hi → p i = true) ∧
      ∀ i, bisect p lo hi ≤ i → i < hi → p i = false := by
  fun_induction bisect p lo hi with
  | case1 lo hi h mid hp ih =>
    obtain ⟨hlo, hhi, hbelow, habove⟩ := ih (by omega) antitone
    refine ⟨by omega, hhi, fun i _ hi => ?_, habove⟩
    by_cases hmid : i ≤ mid
    · exact antitone i mid hmid (by omega) hp
    · exact hbelow i (by omega) hi
  | case2 lo hi h mid hp ih =>
    obtain ⟨hlo, hhi, hbelow, habove⟩ :=
      ih (by omega) fun i j hij hj => antitone i j hij (by omega)
    refine ⟨hlo, by omega, hbelow, fun i hi hlt => ?_⟩
    by_cases hmid : i < mid
    · exact habove i hi hmid
    · have hno : ¬ p i = true := fun hpi => hp (antitone mid i (by omega) hlt hpi)
      simpa using hno
  | case3 lo hi h => exact ⟨Nat.le_refl _, by omega, fun i _ _ => by omega, fun i _ _ => by omega⟩

namespace TokenRow

/-- The tokens follow each other, and only the one at the end is empty. -/
structure Ordered (r : TokenRow) : Prop where
  size : r.count + 1 = r.tokens.size
  follow : ∀ i j, i < j → j < r.tokens.size → (r.token ⟨i⟩).stop ≤ (r.token ⟨j⟩).start
  nonempty : ∀ i < r.count, (r.token ⟨i⟩).start < (r.token ⟨i⟩).stop

/-- All tokens inside a range are from `first` to `last`, and these two are inside it. -/
structure Spans (r : TokenRow) (range : TextRange) (first last : Nat) : Prop where
  le : first ≤ last
  lt : last < r.count
  start_le : range.start ≤ (r.token ⟨first⟩).start
  le_stop : (r.token ⟨last⟩).stop ≤ range.stop
  first_le : ∀ j < r.count, range.start ≤ (r.token ⟨j⟩).start → first ≤ j
  le_last : ∀ j < r.count, (r.token ⟨j⟩).stop ≤ range.stop → j ≤ last

variable {r : TokenRow} {range : TextRange} {offset i : Nat}

theorem start_le_stop (r : TokenRow) (id : TokenId) : (r.token id).start ≤ (r.token id).stop :=
  Nat.le_add_right _ _

namespace Ordered

theorem start_le (h : r.Ordered) {i j : Nat} (hij : i ≤ j) (hj : j < r.tokens.size) :
    (r.token ⟨i⟩).start ≤ (r.token ⟨j⟩).start := by
  rcases Nat.lt_or_eq_of_le hij with hlt | rfl
  · exact Nat.le_trans (start_le_stop r ⟨i⟩) (h.follow i j hlt hj)
  · exact Nat.le_refl _

theorem stop_le (h : r.Ordered) {i j : Nat} (hij : i ≤ j) (hj : j < r.tokens.size) :
    (r.token ⟨i⟩).stop ≤ (r.token ⟨j⟩).stop := by
  rcases Nat.lt_or_eq_of_le hij with hlt | rfl
  · exact Nat.le_trans (h.follow i j hlt hj) (start_le_stop r ⟨j⟩)
  · exact Nat.le_refl _

/-- No two tokens start together. -/
theorem start_lt (h : r.Ordered) {i j : Nat} (hij : i < j) (hj : j < r.tokens.size) :
    (r.token ⟨i⟩).start < (r.token ⟨j⟩).start := by
  have hsize := h.size
  exact Nat.lt_of_lt_of_le (h.nonempty i (by omega)) (h.follow i j hij hj)

theorem start_inj (h : r.Ordered) {i j : Nat} (hi : i < r.tokens.size) (hj : j < r.tokens.size)
    (heq : (r.token ⟨i⟩).start = (r.token ⟨j⟩).start) : i = j := by
  rcases Nat.lt_trichotomy i j with hlt | rfl | hlt
  · exact absurd heq (Nat.ne_of_lt (h.start_lt hlt hj))
  · rfl
  · exact absurd heq.symm (Nat.ne_of_lt (h.start_lt hlt hi))

/-- Where a token ends before another starts, it is in front of it. -/
theorem lt_of_stop_le (h : r.Ordered) {i j : Nat} (hi : i < r.count)
    (hle : (r.token ⟨i⟩).stop ≤ (r.token ⟨j⟩).start) : i < j := by
  refine Nat.lt_of_not_le fun hji => ?_
  have hsize := h.size
  have hstart := h.start_le hji (by omega)
  have hpos := h.nonempty i hi
  omega

theorem firstFrom_spec (h : r.Ordered) {n : Nat} (hn : n ≤ r.tokens.size) (offset : Nat) :
    r.firstFrom n offset ≤ n ∧
      (∀ i < r.firstFrom n offset, (r.token ⟨i⟩).start < offset) ∧
      ∀ i, r.firstFrom n offset ≤ i → i < n → offset ≤ (r.token ⟨i⟩).start := by
  obtain ⟨-, hle, hbelow, habove⟩ :=
    @bisect_spec (fun i => decide ((r.token ⟨i⟩).start < offset)) 0 n (Nat.zero_le n) <| by
      intro i j hij hj hp
      have hstart := h.start_le hij (Nat.lt_of_lt_of_le hj hn)
      simp only [decide_eq_true_eq] at hp ⊢
      omega
  refine ⟨hle, fun i hi => ?_, fun i hi hlt => ?_⟩
  · simpa using hbelow i (Nat.zero_le i) hi
  · simpa using habove i hi hlt

theorem countUpTo_spec (h : r.Ordered) (offset : Nat) :
    r.countUpTo offset ≤ r.count ∧
      (∀ i < r.countUpTo offset, (r.token ⟨i⟩).stop ≤ offset) ∧
      ∀ i, r.countUpTo offset ≤ i → i < r.count → offset < (r.token ⟨i⟩).stop := by
  have hsize := h.size
  obtain ⟨-, hle, hbelow, habove⟩ :=
    @bisect_spec (fun i => decide ((r.token ⟨i⟩).stop ≤ offset)) 0 r.count (Nat.zero_le _) <| by
      intro i j hij hj hp
      have hstop := h.stop_le hij (by omega)
      simp only [decide_eq_true_eq] at hp ⊢
      omega
  refine ⟨hle, fun i hi => ?_, fun i hi hlt => ?_⟩
  · simpa using hbelow i (Nat.zero_le i) hi
  · simpa using habove i hi hlt

theorem span?_eq_some (h : r.Ordered) {first last : TokenId}
    (hspan : r.span? range = some (first, last)) : r.Spans range first.index last.index := by
  have hsize := h.size
  have hle : r.count ≤ r.tokens.size := by omega
  obtain ⟨-, hbelow, habove⟩ := h.firstFrom_spec hle range.start
  obtain ⟨hcount, hupTo, hbeyond⟩ := h.countUpTo_spec range.stop
  unfold span? firstInside? lastInside? at hspan
  simp only [Option.bind_eq_bind, Option.bind_eq_some_iff, Option.ite_none_right_eq_some,
    Option.some.injEq, Prod.mk.injEq] at hspan
  obtain ⟨f, ⟨⟨hf, hfstop⟩, rfl⟩, l, ⟨⟨hl, hlstart⟩, rfl⟩, hordered, rfl, rfl⟩ := hspan
  have hlast : r.countUpTo range.stop - 1 < r.countUpTo range.stop := by omega
  refine ⟨hordered, Nat.lt_of_lt_of_le hlast hcount, habove _ (Nat.le_refl _) hf,
    hupTo _ hlast, ?_, ?_⟩
  · intro j _ hstart
    refine Nat.le_of_not_lt fun hlt => ?_
    have hless := hbelow j hlt
    omega
  · intro j hj hstop
    have hlt : j < r.countUpTo range.stop := by
      refine Nat.lt_of_not_le fun hge => ?_
      have hmore := hbeyond j hge hj
      omega
    exact Nat.le_sub_one_of_lt hlt

/-- A range with a token inside it has a first and a last one. -/
theorem span?_of_inside (h : r.Ordered) (hi : i < r.count)
    (hstart : range.start ≤ (r.token ⟨i⟩).start) (hstop : (r.token ⟨i⟩).stop ≤ range.stop) :
    ∃ first last, r.span? range = some (first, last) := by
  have hsize := h.size
  have hle : r.count ≤ r.tokens.size := by omega
  obtain ⟨-, hbelow, habove⟩ := h.firstFrom_spec hle range.start
  obtain ⟨hcount, hupTo, hbeyond⟩ := h.countUpTo_spec range.stop
  have hfirst : r.firstFrom r.count range.start ≤ i := by
    refine Nat.le_of_not_lt fun hlt => ?_
    have hless := hbelow i hlt
    omega
  have hlast : i < r.countUpTo range.stop := by
    refine Nat.lt_of_not_le fun hge => ?_
    have hmore := hbeyond i hge hi
    omega
  have hfstop := h.stop_le hfirst (by omega)
  have hlstart := h.start_le (Nat.le_sub_one_of_lt hlast) (by omega)
  unfold span? firstInside? lastInside?
  rw [if_pos ⟨by omega, by omega⟩, if_pos ⟨by omega, by omega⟩]
  simp only [Option.bind_eq_bind, Option.bind_some]
  rw [if_pos (by omega)]
  exact ⟨_, _, rfl⟩

/-- A token that starts where the range does is the first one inside it. -/
theorem first_eq (h : r.Ordered) {first last : TokenId} (hspan : r.span? range = some (first, last))
    (hi : i < r.count) (hstart : (r.token ⟨i⟩).start = range.start) : first = ⟨i⟩ := by
  have hspans := h.span?_eq_some hspan
  have hle := hspans.first_le i hi (Nat.le_of_eq hstart.symm)
  have hfirst := hspans.start_le
  by_contra hne
  have hlt : first.index < i := Nat.lt_of_le_of_ne hle fun heq => hne (congrArg TokenId.mk heq)
  have hfollow := h.follow first.index i hlt (by have := h.size; omega)
  have hnonempty := h.nonempty first.index (Nat.lt_trans hlt hi)
  omega

/-- A token that ends where the range does is the last one inside it. -/
theorem last_eq (h : r.Ordered) {first last : TokenId} (hspan : r.span? range = some (first, last))
    (hi : i < r.count) (hstop : (r.token ⟨i⟩).stop = range.stop) : last = ⟨i⟩ := by
  have hspans := h.span?_eq_some hspan
  have hle := hspans.le_last i hi (Nat.le_of_eq hstop)
  have hlast := hspans.le_stop
  have hcount := hspans.lt
  by_contra hne
  have hlt : i < last.index := Nat.lt_of_le_of_ne hle fun heq => hne (congrArg TokenId.mk heq.symm)
  have hfollow := h.follow i last.index hlt (by have := h.size; omega)
  have hnonempty := h.nonempty last.index hcount
  omega

/-- Inside the range of a token there is that token only. -/
theorem span?_token (h : r.Ordered) (hi : i < r.count) :
    r.span? (r.token ⟨i⟩).range = some (⟨i⟩, ⟨i⟩) := by
  obtain ⟨first, last, hspan⟩ := @span?_of_inside r (r.token ⟨i⟩).range i h hi (Nat.le_refl _)
    (Nat.le_refl _)
  rw [hspan, h.first_eq hspan hi rfl, h.last_eq hspan hi rfl]

theorem firstInside?_eq (h : r.Ordered) (hi : i < r.count)
    (hstart : range.start = (r.token ⟨i⟩).start) (hstop : (r.token ⟨i⟩).stop ≤ range.stop) :
    r.firstInside? range = some ⟨i⟩ := by
  have hsize := h.size
  have hfirst : r.firstFrom r.count range.start = i := by
    unfold firstFrom
    refine bisect_eq (Nat.zero_le i) (Nat.le_of_lt hi) (fun j _ hj => ?_) fun j hj hlt => ?_
    · have hnonempty := h.nonempty j (by omega)
      have hfollow := h.follow j i hj (by omega)
      simp only [decide_eq_true_eq]
      omega
    · have hle := h.start_le hj (by omega)
      simp only [decide_eq_false_iff_not]
      omega
  unfold firstInside?
  rw [hfirst, if_pos ⟨hi, hstop⟩]

/-- The token in front of an offset is the one that ends by it while the next one does not. -/
theorem before?_eq (h : r.Ordered) (hi : i < r.count) (hstop : (r.token ⟨i⟩).stop ≤ offset)
    (hnext : i + 1 < r.count → offset < (r.token ⟨i + 1⟩).stop) : r.before? offset = some ⟨i⟩ := by
  have hsize := h.size
  have hcount : r.countUpTo offset = i + 1 := by
    unfold countUpTo
    refine bisect_eq (Nat.zero_le _) hi (fun j _ hj => ?_) fun j hj hlt => ?_
    · have hle := h.stop_le (Nat.le_of_lt_succ hj) (by omega)
      simp only [decide_eq_true_eq]
      omega
    · have hlater := hnext (by omega)
      have hle := h.stop_le hj (by omega)
      simp only [decide_eq_false_iff_not]
      omega
  unfold before?
  rw [hcount, if_pos (Nat.succ_pos i)]
  rfl

/-- The token behind an offset is the one that starts there or later while none before it does. -/
theorem after?_eq (h : r.Ordered) (hi : i < r.tokens.size)
    (hstart : offset ≤ (r.token ⟨i⟩).start) (hbelow : ∀ j < i, (r.token ⟨j⟩).start < offset) :
    r.after? offset = some ⟨i⟩ := by
  have hfirst : r.firstFrom r.tokens.size offset = i := by
    unfold firstFrom
    refine bisect_eq (Nat.zero_le i) (Nat.le_of_lt hi) (fun j _ hj => ?_) fun j hj hlt => ?_
    · simpa using hbelow j hj
    · have hle := h.start_le hj hlt
      simp only [decide_eq_false_iff_not]
      omega
  unfold after?
  rw [hfirst, if_pos hi]

/-- The token in front of an offset ends by it. -/
theorem before?_stop_le (h : r.Ordered) {id : TokenId} (hfound : r.before? offset = some id) :
    (r.token id).stop ≤ offset := by
  obtain ⟨-, hupTo, -⟩ := h.countUpTo_spec offset
  unfold before? at hfound
  obtain ⟨hpos, heq⟩ := Option.ite_none_right_eq_some.1 hfound
  cases heq
  exact hupTo _ (Nat.sub_one_lt_of_lt hpos)

/-- The token behind an offset starts there or later. -/
theorem le_after?_start (h : r.Ordered) {id : TokenId} (hfound : r.after? offset = some id) :
    offset ≤ (r.token id).start := by
  obtain ⟨-, -, habove⟩ := h.firstFrom_spec (Nat.le_refl _) offset
  unfold after? at hfound
  obtain ⟨hlt, heq⟩ := Option.ite_none_right_eq_some.1 hfound
  cases heq
  exact habove _ (Nat.le_refl _) hlt

end Ordered

end TokenRow

/-! ## Lexemes and the tokens that they give -/

/-- A lexeme of the kind is one token wherever operators are cut, and no rest of an operator. -/
def TokenKind.isFirm (kind : TokenKind) : Bool :=
  !kind.startsWithGt && kind != .eq && kind != .endOfFile

theorem isFirm_of_ofGtText? {text : String} {kind : TokenKind}
    (h : TokenKind.ofGtText? text = some kind) : kind.isFirm = false := by
  unfold TokenKind.ofGtText? at h
  repeat' split at h
  all_goals first | cases h; rfl | cases h

/-- The significant lexemes of a file: they follow each other, and only the last one is empty. -/
structure Lexeme.Significant (raw : List Lexeme) : Prop where
  follow : raw.Pairwise fun a b => a.stop ≤ b.start
  nonempty : ∀ x ∈ raw, x.kind ≠ .endOfFile → x.start < x.stop
  gtText : ∀ x ∈ raw, x.kind.startsWithGt = true → TokenKind.ofGtText? x.text = some x.kind
  whole : ∀ x ∈ raw, x.kind.startsWithGt = false → ∀ splits comments,
    TokenRow.tokensOf splits comments x = [{ x with comments }]
  final : ∃ before last, raw = before ++ [last] ∧ TokenRow.IsEnd last ∧
    ∀ x ∈ before, x.kind ≠ .endOfFile

theorem Lexeme.Significant.eq_or_apart {raw : List Lexeme} (h : Significant raw) {x y : Lexeme}
    (hx : x ∈ raw) (hy : y ∈ raw) : x = y ∨ x.stop ≤ y.start ∨ y.stop ≤ x.start := by
  obtain ⟨i, hi, rfl⟩ := List.mem_iff_getElem.1 hx
  obtain ⟨j, hj, rfl⟩ := List.mem_iff_getElem.1 hy
  have hfollow := List.pairwise_iff_getElem.1 h.follow
  rcases Nat.lt_trichotomy i j with hij | rfl | hji
  · exact .inr (.inl (hfollow i j hi hj hij))
  · exact .inl rfl
  · exact .inr (.inr (hfollow j i hj hi hji))

namespace TokenRow

/-- The tokens are those of the given significant lexemes, with operators cut in some way. -/
structure Carries (r : TokenRow) (raw : List Lexeme) : Prop where
  ordered : r.Ordered
  of_whole : ∀ x ∈ raw, x.kind.startsWithGt = false → x.kind ≠ .endOfFile →
    ∃ i < r.count, (r.token ⟨i⟩).toLexeme = x
  piece : ∀ i < r.count, ∃ x ∈ raw, x.start ≤ (r.token ⟨i⟩).start ∧ (r.token ⟨i⟩).stop ≤ x.stop
  final : raw.getLast? = some (r.token r.final).toLexeme

theorem Carries.of_firm {r : TokenRow} {raw : List Lexeme} (h : r.Carries raw) :
    ∀ x ∈ raw, x.kind.isFirm = true → ∃ i < r.count, (r.token ⟨i⟩).toLexeme = x := by
  intro x hx hfirm
  simp only [TokenKind.isFirm, Bool.and_eq_true, Bool.not_eq_true', bne_iff_ne, ne_eq] at hfirm
  obtain ⟨⟨hgt, -⟩, hkind⟩ := hfirm
  exact h.of_whole x hx hgt hkind

end TokenRow

section

variable {level : LanguageLevel} {splits : List Nat} {before xs : List Lexeme} {o : Nat}
  {cs : List Char} {r : TokenRow}

open Lexeme TokenRow

theorem Lexeme.Tiles.inside (h : Tiles o xs cs) :
    ∀ x ∈ xs, o ≤ x.start ∧ x.stop ≤ o + utf8Length cs := by
  induction xs generalizing o cs with
  | nil => simp
  | cons x xs ih =>
    obtain ⟨rfl, -, rest, rfl, hrest⟩ := h
    have hlen : utf8Length (x.text.toList ++ rest) = x.text.utf8ByteSize + utf8Length rest := by
      rw [utf8Length_append, utf8ByteSize_eq]
    have hstop : x.stop = x.start + x.text.utf8ByteSize := rfl
    intro y hy
    rcases List.mem_cons.1 hy with rfl | hy
    · omega
    · have hinside := ih hrest y hy
      omega

theorem Lexeme.Tiles.follow (h : Tiles o xs cs) : xs.Pairwise fun a b => a.stop ≤ b.start := by
  induction xs generalizing o cs with
  | nil => exact .nil
  | cons x xs ih =>
    obtain ⟨rfl, -, rest, rfl, hrest⟩ := h
    exact List.pairwise_cons.2 ⟨fun y hy => (hrest.inside y hy).1, ih hrest⟩

theorem Lexeme.Genuine.nonempty {x : Lexeme} (h : Genuine level x) : x.start < x.stop := by
  have hne : x.text.toList ≠ [] := by simpa using h.text_ne
  have hpos := utf8Length_pos hne
  rw [Lexeme.stop, utf8ByteSize_eq]
  omega

theorem TokenRow.Readable.genuine {x : Lexeme} (h : Readable level x)
    (hkind : x.kind ≠ .endOfFile) : Genuine level x :=
  h.resolve_right fun hend => hkind hend.kind

theorem readable_of_mem {last : Lexeme} (hbefore : ∀ x ∈ before, Genuine level x)
    (hlast : IsEnd last) : ∀ x ∈ before ++ [last], Readable level x := by
  intro x hx
  rcases List.mem_append.1 hx with hx | hx
  · exact .inl (hbefore x hx)
  · rw [List.mem_singleton.1 hx]
    exact .inr hlast

/-- What is left of the lexemes of a text without blanks and comments. -/
theorem Lexeme.significant_of_scan {text : String} {lexemes : List Lexeme}
    (h : scan level text = .ok lexemes) :
    Significant (lexemes.filter fun x => !x.kind.isTrivia) := by
  obtain ⟨before, p, rfl, htiles, hbefore⟩ := scan_ok h
  have hend : IsEnd (endOfFile text.utf8ByteSize p) := ⟨rfl, rfl⟩
  have hfollow : (before ++ [endOfFile text.utf8ByteSize p]).Pairwise
      fun a b => a.stop ≤ b.start := by
    refine List.pairwise_append.2 ⟨htiles.follow, List.pairwise_singleton _ _, ?_⟩
    intro a ha b hb
    rw [List.mem_singleton.1 hb]
    have hinside := (htiles.inside a ha).2
    rw [Nat.zero_add, ← utf8ByteSize_eq] at hinside
    exact hinside
  have hreadable := readable_of_mem hbefore hend
  refine ⟨hfollow.filter _, ?_, ?_, fun x hx hgt splits => ?_, before.filter (fun x => !x.kind.isTrivia),
    endOfFile text.utf8ByteSize p, ?_, hend, ?_⟩
  · intro x hx hkind
    exact ((hreadable x (List.mem_of_mem_filter hx)).genuine hkind).nonempty
  · intro x hx hgt
    have hkind : x.kind ≠ .endOfFile := fun h => by simp [h, TokenKind.startsWithGt] at hgt
    exact ((hreadable x (List.mem_of_mem_filter hx)).genuine hkind).gtText hgt
  · exact tokensOf_of_not_startsWithGt splits (hreadable x (List.mem_of_mem_filter hx)) hgt
  · simp [hend.isTrivia]
  · intro x hx
    exact (hbefore x (List.mem_of_mem_filter hx)).kind_ne

namespace TokenRow

theorem mem_attachComments {t : Token} {comments : List Comment}
    (h : t ∈ attachComments splits comments xs) :
    ∃ x ∈ xs, x.kind.isTrivia = false ∧ ∃ comments, t ∈ tokensOf splits comments x := by
  induction xs generalizing comments with
  | nil => cases h
  | cons x xs ih =>
    unfold attachComments at h
    split at h
    · obtain ⟨y, hy, hrest⟩ := ih h
      exact ⟨y, List.mem_cons_of_mem _ hy, hrest⟩
    · rename_i hx
      rcases List.mem_append.1 h with h | h
      · exact ⟨x, List.mem_cons_self, by simpa using hx, _, h⟩
      · obtain ⟨y, hy, hrest⟩ := ih h
        exact ⟨y, List.mem_cons_of_mem _ hy, hrest⟩

theorem attachComments_of_mem {x : Lexeme} (hx : x ∈ xs) (hsignificant : x.kind.isTrivia = false)
    (comments : List Comment) :
    ∃ comments', ∀ t ∈ tokensOf splits comments' x, t ∈ attachComments splits comments xs := by
  induction xs generalizing comments with
  | nil => cases hx
  | cons y ys ih =>
    unfold attachComments
    rcases List.mem_cons.1 hx with rfl | hx
    · rw [hsignificant]
      exact ⟨comments, fun t ht => List.mem_append_left _ ht⟩
    · split
      · exact ih hx _
      · obtain ⟨comments', hmem⟩ := ih hx []
        exact ⟨comments', fun t ht => List.mem_append_right _ (hmem t ht)⟩

/-- A row of tokens that follow each other, the end of the file behind them. -/
theorem ordered_of_pairwise {initial : List Token} {last : Token}
    (hrow : r.tokens.toList = initial ++ [last]) (hlast : last.kind = .endOfFile)
    (hinitial : ∀ t ∈ initial, t.start < t.stop)
    (hfollow : (initial ++ [last]).Pairwise fun a b => a.start < b.start ∧ a.stop ≤ b.start) :
    r.Ordered ∧ r.count = initial.length ∧ r.token r.final = last ∧
      ∀ i (hi : i < initial.length), r.token ⟨i⟩ = initial[i] := by
  have hsize : r.tokens.size = initial.length + 1 := by
    simpa using congrArg List.length hrow
  have hcount : r.count = initial.length := by
    have hback : r.tokens.back? = some last := by
      rw [← Array.getLast?_toList, hrow, List.getLast?_concat]
    have hend : last.isEndOfFile = true := by simp [Token.isEndOfFile, hlast]
    unfold count
    simp only [hback, hend, if_true]
    omega
  have htoken : ∀ i (hi : i < (initial ++ [last]).length), r.token ⟨i⟩ =
    (initial ++ [last])[i] := by
    intro i hi
    have hlt : i < r.tokens.size := by simpa [hsize] using hi
    unfold token
    rw [← List.getElem_of_eq hrow (by simpa using hlt), Array.getElem_toList]
    simp [Array.getD_eq_getD_getElem?, hlt]
  have hfirst : ∀ i (hi : i < initial.length), r.token ⟨i⟩ = initial[i] := by
    intro i hi
    rw [htoken i (by simp; omega), List.getElem_append_left hi]
  have hfinal : r.token r.final = last := by
    have hidx : r.final = ⟨initial.length⟩ := by simp [TokenRow.final, hsize]
    rw [hidx, htoken _ (by simp)]
    simp
  refine ⟨⟨by omega, fun i j hij hj => ?_, fun i hi => ?_⟩, hcount, hfinal, hfirst⟩
  · have hj' : j < (initial ++ [last]).length := by simpa [hsize] using hj
    rw [htoken i (by omega), htoken j hj']
    exact (List.pairwise_iff_getElem.1 hfollow i j (by omega) hj' hij).2
  · have hi' : i < initial.length := by omega
    rw [hfirst i hi']
    exact hinitial _ (List.getElem_mem hi')

/-- The row of a text carries its significant lexemes, wherever its operators are cut. -/
theorem carries_ofLexemes {text : String} {lexemes : List Lexeme} (splits : List Nat)
    (h : scan level text = .ok lexemes) :
    (ofLexemes lexemes splits).Carries (lexemes.filter fun x => !x.kind.isTrivia) := by
  obtain ⟨before, p, rfl, htiles, hbefore⟩ := scan_ok h
  have hend : IsEnd (endOfFile text.utf8ByteSize p) := ⟨rfl, rfl⟩
  obtain ⟨initial, last, hrow, hinitial⟩ := attachComments_concat splits hbefore hend []
  have hwoven := @woven_attachComments level splits before _ 0 _ hbefore htiles hend
    (by rw [Nat.zero_add, ← utf8ByteSize_eq]; rfl)
  rw [hrow] at hwoven
  have hnonempty : ∀ t ∈ initial, t.start < t.stop := fun t ht => (hinitial t ht).1.nonempty
  obtain ⟨hordered, hcount, hfinal, htoken⟩ := @ordered_of_pairwise
    (ofLexemes (before ++ [endOfFile text.utf8ByteSize p]) splits) initial _ hrow rfl hnonempty
    (pairwise_of_woven hwoven fun t ht => (hinitial t ht).1)
  have hreadable := readable_of_mem hbefore hend
  refine ⟨hordered, fun x hx hgt hkind => ?_, fun i hi => ?_, by simp [hfinal, hend.isTrivia]⟩
  · obtain ⟨hx, hsignificant⟩ := List.mem_filter.1 hx
    obtain ⟨comments, hmem⟩ := attachComments_of_mem hx (by simpa using hsignificant) []
    rw [tokensOf_of_not_startsWithGt splits (hreadable x hx) hgt, hrow] at hmem
    have hin : ({ x with comments } : Token) ∈ initial := by
      rcases List.mem_append.1 (hmem _ List.mem_cons_self) with hin | hin
      · exact hin
      · exact absurd (congrArg (fun t => t.kind) (List.mem_singleton.1 hin)) hkind
    obtain ⟨i, hi, heq⟩ := List.mem_iff_getElem.1 hin
    exact ⟨i, by omega, by rw [htoken i hi, heq]⟩
  · have hi' : i < initial.length := by omega
    have hin : initial[i] ∈ initial := List.getElem_mem hi'
    have hmem : initial[i] ∈ attachComments splits []
      (before ++ [endOfFile text.utf8ByteSize p]) := by
      rw [hrow]
      exact List.mem_append_left _ hin
    obtain ⟨x, hx, hsignificant, comments, ht⟩ := mem_attachComments hmem
    refine ⟨x, List.mem_filter.2 ⟨hx, by simp [hsignificant]⟩, ?_⟩
    have hkind : x.kind ≠ .endOfFile := by
      intro hkind
      have hgt : x.kind.startsWithGt = false := by simp [hkind, TokenKind.startsWithGt]
      rw [tokensOf_of_not_startsWithGt splits (hreadable x hx) hgt] at ht
      have hsame : initial[i].kind = x.kind := by rw [List.mem_singleton.1 ht]
      exact (hinitial _ hin).1.kind_ne (hsame.trans hkind)
    have htiles := @tiles_tokensOf level splits x ((hreadable x hx).genuine hkind) comments
    have hstop : x.stop = x.start + utf8Length x.text.toList := by rw [Lexeme.stop, utf8ByteSize_eq]
    rw [htoken i hi', hstop]
    exact htiles.inside _ (List.mem_map_of_mem ht)

end TokenRow

end

end JavaAnalysis
