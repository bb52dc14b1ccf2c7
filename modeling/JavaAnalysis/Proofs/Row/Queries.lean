import JavaAnalysis.Proofs.Row.Search

/-!
# Queries for tokens, told one token after the other

What a row of tokens is asked for is told by going through all of its tokens in order: the first or
the last one of which something is true. In a row whose tokens follow each other bisection finds
just that, wherever the range or the offset lies: inside of tokens, between the pieces of an
operator, in blanks and comments or behind the end of the text.
Main statement: `ofLexemes_queries`.
-/

set_option autoImplicit false
set_option linter.dupNamespace false

namespace JavaAnalysis

namespace TokenRow

/-- The first `n` tokens. -/
def firstIds (n : Nat) : List TokenId := (List.range n).map TokenId.mk

/-- All tokens of the row, with the end of the file. -/
def allIds (r : TokenRow) : List TokenId := firstIds r.tokens.size

/-- The tokens of the row but the end of the file. -/
def innerIds (r : TokenRow) : List TokenId :=
  r.allIds.filter fun id => !(r.token id).isEndOfFile

/-- The token lies wholly inside the range. -/
def liesIn (r : TokenRow) (range : TextRange) (id : TokenId) : Bool :=
  range.contains (r.token id).range

/-- The token is of the kind and lies wholly inside the range. -/
def isOfKindIn (r : TokenRow) (range : TextRange) (kind : SyntaxKind) (id : TokenId) : Bool :=
  r.liesIn range id && (SyntaxKind.token (r.token id).kind == kind)

variable {r : TokenRow} {range : TextRange} {kind : SyntaxKind} {offset n i : Nat}
  {p : TokenId → Bool}

/-! ## First and last ones -/

theorem find?_firstIds_eq_some (hi : i < n) (hp : p ⟨i⟩ = true) (hbelow : ∀ j < i, p ⟨j⟩ = false) :
    (firstIds n).find? p = some ⟨i⟩ := by
  rw [List.find?_eq_some_iff_getElem]
  refine ⟨hp, i, by simpa [firstIds] using hi, by simp [firstIds], fun j hj => ?_⟩
  simp [firstIds, hbelow j hj]

theorem find?_firstIds_eq_none (hnone : ∀ i < n, p ⟨i⟩ = false) :
    (firstIds n).find? p = none := by
  simpa [firstIds] using hnone

theorem firstIds_succ (n : Nat) : firstIds (n + 1) = firstIds n ++ [⟨n⟩] := by
  simp [firstIds, List.range_succ]

theorem find?_reverse_eq_some (hi : i < n) (hp : p ⟨i⟩ = true)
    (habove : ∀ j, i < j → j < n → p ⟨j⟩ = false) :
    (firstIds n).reverse.find? p = some ⟨i⟩ := by
  induction n with
  | zero => exact absurd hi (Nat.not_lt_zero i)
  | succ n ih =>
    rw [firstIds_succ, List.reverse_append, List.reverse_singleton, List.singleton_append]
    rcases Nat.lt_succ_iff_lt_or_eq.1 hi with hlt | rfl
    · rw [List.find?_cons_of_neg (by simp [habove n hlt (Nat.lt_succ_self n)])]
      exact ih hlt fun j hij hj => habove j hij (Nat.lt_succ_of_lt hj)
    · exact List.find?_cons_of_pos hp

theorem find?_reverse_eq_none (hnone : ∀ i < n, p ⟨i⟩ = false) :
    (firstIds n).reverse.find? p = none := by
  simpa [firstIds] using hnone

theorem liesIn_iff {id : TokenId} : r.liesIn range id = true ↔
    range.start ≤ (r.token id).start ∧ (r.token id).stop ≤ range.stop :=
  TextRange.contains_iff _ _

theorem not_liesIn {id : TokenId} (h : (r.token id).start < range.start ∨
    range.stop < (r.token id).stop) : r.liesIn range id = false := by
  rw [Bool.eq_false_iff, ne_eq, liesIn_iff]
  omega

/-! ## What bisection finds -/

namespace Ordered

theorem firstInside?_eq_find? (h : r.Ordered) :
    r.firstInside? range = (firstIds r.count).find? (r.liesIn range) := by
  have hsize := h.size
  obtain ⟨-, hbelow, habove⟩ :=
    h.firstFrom_spec (n := r.count) (by omega) range.start
  unfold firstInside?
  dsimp only
  split
  · rename_i hin
    refine (find?_firstIds_eq_some hin.1 ?_ fun j hj => not_liesIn (.inl (hbelow j hj))).symm
    exact liesIn_iff.2 ⟨habove _ (Nat.le_refl _) hin.1, hin.2⟩
  · rename_i hout
    refine (find?_firstIds_eq_none fun j hj => ?_).symm
    by_cases hlt : j < r.firstFrom r.count range.start
    · exact not_liesIn (.inl (hbelow j hlt))
    · refine not_liesIn (.inr ?_)
      have hstop := h.stop_le (Nat.le_of_not_lt hlt) (by omega)
      have hfirst : r.firstFrom r.count range.start < r.count := by omega
      omega

theorem lastInside?_eq_find? (h : r.Ordered) :
    r.lastInside? range = (firstIds r.count).reverse.find? (r.liesIn range) := by
  have hsize := h.size
  obtain ⟨hle, hupTo, hbeyond⟩ := h.countUpTo_spec range.stop
  unfold lastInside?
  dsimp only
  split
  · rename_i hin
    refine (find?_reverse_eq_some (by omega) ?_ fun j hij hj => ?_).symm
    · exact liesIn_iff.2 ⟨hin.2, hupTo _ (by omega)⟩
    · exact not_liesIn (.inr (hbeyond j (by omega) hj))
  · rename_i hout
    refine (find?_reverse_eq_none fun j hj => ?_).symm
    by_cases hlt : j < r.countUpTo range.stop
    · refine not_liesIn (.inl ?_)
      have hstart := h.start_le (i := j) (j := r.countUpTo range.stop - 1) (by omega) (by omega)
      omega
    · exact not_liesIn (.inr (hbeyond j (Nat.le_of_not_lt hlt) hj))

theorem before?_eq_find? (h : r.Ordered) : r.before? offset =
    (firstIds r.count).reverse.find? fun id => decide ((r.token id).stop ≤ offset) := by
  obtain ⟨hle, hupTo, hbeyond⟩ := h.countUpTo_spec offset
  unfold before?
  dsimp only
  split
  · rename_i hpos
    refine (find?_reverse_eq_some (by omega) ?_ fun j hij hj => ?_).symm
    · exact decide_eq_true (hupTo _ (by omega))
    · exact decide_eq_false (Nat.not_le.2 (hbeyond j (by omega) hj))
  · rename_i hzero
    refine (find?_reverse_eq_none fun j hj => ?_).symm
    exact decide_eq_false (Nat.not_le.2 (hbeyond j (by omega) hj))

theorem after?_eq_find? (h : r.Ordered) : r.after? offset =
    (firstIds r.tokens.size).find? fun id => decide (offset ≤ (r.token id).start) := by
  obtain ⟨-, hbelow, habove⟩ := h.firstFrom_spec (Nat.le_refl _) offset
  unfold after?
  dsimp only
  split
  · rename_i hlt
    refine (find?_firstIds_eq_some hlt ?_ fun j hj => ?_).symm
    · exact decide_eq_true (habove _ (Nat.le_refl _) hlt)
    · exact decide_eq_false (Nat.not_le.2 (hbelow j hj))
  · rename_i hout
    refine (find?_firstIds_eq_none fun j hj => ?_).symm
    exact decide_eq_false (Nat.not_le.2 (hbelow j (by omega)))

/-- The token at an offset is the only one that covers it. -/
theorem at?_eq_some_iff (h : r.Ordered) {id : TokenId} : r.at? offset = some id ↔
    id.index < r.count ∧ (r.token id).start ≤ offset ∧ offset < (r.token id).stop := by
  obtain ⟨i⟩ := id
  have hsize := h.size
  obtain ⟨-, hupTo, hbeyond⟩ := h.countUpTo_spec offset
  unfold at?
  rw [Option.ite_none_right_eq_some]
  constructor
  · rintro ⟨⟨hlt, hstart⟩, heq⟩
    cases heq
    exact ⟨hlt, hstart, hbeyond _ (Nat.le_refl _) hlt⟩
  · rintro ⟨hlt, hstart, hstop⟩
    -- the tokens up to the offset are in front of this one, and those behind it start later
    have hle : r.countUpTo offset ≤ i := by
      refine Nat.le_of_not_lt fun hless => ?_
      have hearly := hupTo i hless
      omega
    have heq : r.countUpTo offset = i := by
      refine Nat.le_antisymm hle (Nat.le_of_not_lt fun hmore => ?_)
      dsimp only at hlt
      have hfollow := h.follow _ i hmore (by omega)
      have hlate := hbeyond _ (Nat.le_refl _) (by omega)
      omega
    rw [heq]
    exact ⟨⟨hlt, hstart⟩, rfl⟩

/-! ## Scanning for a kind -/

/-- From a token on, behind which all start inside the range, scanning stops where tokens leave it. -/
theorem scanUp_eq_find? (h : r.Ordered) {m : Nat} (hm : i + m = r.count)
    (hfrom : ∀ j, i ≤ j → j < r.count → range.start ≤ (r.token ⟨j⟩).start) :
    r.scanUp kind range.stop m i =
      ((List.range' i m).map TokenId.mk).find? (r.isOfKindIn range kind) := by
  have hsize := h.size
  induction m generalizing i with
  | zero => rfl
  | succ m ih =>
    rw [scanUp]
    split
    · rename_i hbeyond
      symm
      rw [List.find?_eq_none]
      intro id hid
      obtain ⟨j, hj, rfl⟩ := List.mem_map.1 hid
      rw [List.mem_range'_1] at hj
      have hlater := h.stop_le hj.1 (by omega)
      simp [isOfKindIn, @not_liesIn r range ⟨j⟩ (.inr (by omega))]
    · rename_i hin
      rw [List.range'_succ, List.map_cons]
      have hlies : r.liesIn range ⟨i⟩ = true :=
        liesIn_iff.2 ⟨hfrom i (Nat.le_refl i) (by omega), Nat.le_of_not_lt hin⟩
      split
      · rename_i hkind
        rw [List.find?_cons_of_pos]
        simp [isOfKindIn, hlies, hkind]
      · rename_i hkind
        rw [List.find?_cons_of_neg (by simp [isOfKindIn, hkind])]
        exact ih (by omega) fun j hj => hfrom j (by omega)

/-- Down from a token, in front of which all end inside the range, scanning stops where tokens leave it. -/
theorem scanDown_eq_find? (h : r.Ordered) (hn : n ≤ r.count)
    (hupTo : ∀ j < n, (r.token ⟨j⟩).stop ≤ range.stop) :
    r.scanDown kind range.start n = (firstIds n).reverse.find? (r.isOfKindIn range kind) := by
  have hsize := h.size
  induction n with
  | zero => rfl
  | succ n ih =>
    rw [scanDown]
    split
    · rename_i hearly
      refine (find?_reverse_eq_none fun j hj => ?_).symm
      have hearlier := h.start_le (Nat.le_of_lt_succ hj) (by omega)
      simp [isOfKindIn, @not_liesIn r range ⟨j⟩ (.inl (by omega))]
    · rename_i hin
      rw [firstIds_succ, List.reverse_append, List.reverse_singleton, List.singleton_append]
      have hlies : r.liesIn range ⟨n⟩ = true :=
        liesIn_iff.2 ⟨Nat.le_of_not_lt hin, hupTo n (Nat.lt_succ_self n)⟩
      split
      · rename_i hkind
        rw [List.find?_cons_of_pos]
        simp [isOfKindIn, hlies, hkind]
      · rename_i hkind
        rw [List.find?_cons_of_neg (by simp [isOfKindIn, hkind])]
        exact ih (by omega) fun j hj => hupTo j (by omega)

/-- Tokens of which none is looked for may be left out in front. -/
theorem find?_firstIds_of_le (hi : i ≤ n) (hbelow : ∀ j < i, p ⟨j⟩ = false) :
    (firstIds n).find? p = ((List.range' i (n - i)).map TokenId.mk).find? p := by
  have hsplit : firstIds n = firstIds i ++ (List.range' i (n - i)).map TokenId.mk := by
    have happend := @List.range'_append_1 0 i (n - i)
    rw [Nat.zero_add, Nat.add_sub_cancel' hi] at happend
    rw [firstIds, firstIds, List.range_eq_range', List.range_eq_range', ← List.map_append, happend]
  rw [hsplit, List.find?_append, find?_firstIds_eq_none hbelow, Option.none_or]

/-- Tokens of which none is looked for may be left out behind. -/
theorem find?_reverse_of_le (hi : i ≤ n) (habove : ∀ j, i ≤ j → j < n → p ⟨j⟩ = false) :
    (firstIds n).reverse.find? p = (firstIds i).reverse.find? p := by
  induction n with
  | zero =>
    rw [Nat.le_zero.1 hi]
  | succ n ih =>
    rcases Nat.lt_or_eq_of_le hi with hlt | rfl
    · rw [firstIds_succ, List.reverse_append, List.reverse_singleton, List.singleton_append,
        List.find?_cons_of_neg (by simp [habove n (by omega) (Nat.lt_succ_self n)])]
      exact ih (by omega) fun j hij hj => habove j hij (by omega)
    · rfl

theorem firstOfKind?_eq_find? (h : r.Ordered) : r.firstOfKind? range kind =
    (firstIds r.count).find? (r.isOfKindIn range kind) := by
  have hsize := h.size
  obtain ⟨hle, hbelow, habove⟩ := h.firstFrom_spec (n := r.count) (by omega) range.start
  rw [firstOfKind?, h.scanUp_eq_find? (by omega) habove]
  refine (find?_firstIds_of_le hle fun j hj => ?_).symm
  simp [isOfKindIn, @not_liesIn r range ⟨j⟩ (.inl (hbelow j hj))]

theorem lastOfKind?_eq_find? (h : r.Ordered) : r.lastOfKind? range kind =
    (firstIds r.count).reverse.find? (r.isOfKindIn range kind) := by
  obtain ⟨hle, hupTo, hbeyond⟩ := h.countUpTo_spec range.stop
  rw [lastOfKind?, h.scanDown_eq_find? hle hupTo]
  refine (find?_reverse_of_le hle fun j hij hj => ?_).symm
  simp [isOfKindIn, @not_liesIn r range ⟨j⟩ (.inr (hbeyond j hij hj))]

end Ordered

/-! ## The queries of a file -/

theorem token_eq_toList (hi : i < r.tokens.toList.length) :
    r.token ⟨i⟩ = r.tokens.toList[i] := by
  rw [token_eq_getElem (by simpa using hi), Array.getElem_toList]

section

variable {level : LanguageLevel} {text : String} {lexemes : List Lexeme}

/-- The tokens but the end of the file are those in front of it, which is the last one. -/
theorem innerIds_ofLexemes (splits : List Nat) (h : Lexeme.scan level text = .ok lexemes) :
    (ofLexemes lexemes splits).innerIds = firstIds (ofLexemes lexemes splits).count := by
  have hsize := (carries_ofLexemes splits h).ordered.size
  obtain ⟨before, p, rfl, -, hbefore⟩ := Lexeme.scan_ok h
  have hend : IsEnd (Lexeme.endOfFile text.utf8ByteSize p) := ⟨rfl, rfl⟩
  obtain ⟨initial, comments, hrow, hinitial⟩ := attachComments_concat splits hbefore hend []
  let r := ofLexemes (before ++ [Lexeme.endOfFile text.utf8ByteSize p]) splits
  have htokens : r.tokens.toList = initial ++ [⟨Lexeme.endOfFile text.utf8ByteSize p, comments⟩] :=
    hrow
  have hlength : r.tokens.size = initial.length + 1 := by
    simpa using congrArg List.length htokens
  have hcount : r.count = initial.length := by
    have hall : r.count + 1 = r.tokens.size := hsize
    omega
  change r.innerIds = firstIds r.count
  rw [innerIds, allIds, hlength, hcount, firstIds_succ, List.filter_append]
  have hinner : (firstIds initial.length).filter (fun id => !(r.token id).isEndOfFile) =
      firstIds initial.length := by
    refine List.filter_eq_self.2 fun id hid => ?_
    obtain ⟨i, hi, rfl⟩ := List.mem_map.1 hid
    rw [List.mem_range] at hi
    have htoken : r.token ⟨i⟩ = initial[i] := by
      rw [token_eq_toList (by simp [htokens]; omega), List.getElem_of_eq htokens,
        List.getElem_append_left hi]
    have hkind := (hinitial _ (List.getElem_mem hi)).1.kind_ne
    simpa [htoken, Token.isEndOfFile] using hkind
  have hlast : r.token ⟨initial.length⟩ = ⟨Lexeme.endOfFile text.utf8ByteSize p, comments⟩ := by
    rw [token_eq_toList (by simp [htokens]), List.getElem_of_eq htokens]
    simp
  have hfinal : (r.token ⟨initial.length⟩).isEndOfFile = true := by
    rw [hlast]
    rfl
  simp [hinner, hfinal]

/--
What a row of tokens answers, wherever operators are cut. The first and the last token of a kind
inside a range, and the first and the last of any kind, are those among all tokens but the end of the
file that lie wholly inside it, and there is no answer exactly where there is no such token. In front
of an offset the last of these tokens is found that ends by it, behind an offset the first of all
tokens, the end of the file included, that starts there or later, and at an offset the one that
covers it.
-/
theorem ofLexemes_queries (splits : List Nat) (h : Lexeme.scan level text = .ok lexemes)
    (range : TextRange) (kind : SyntaxKind) (offset : Nat) :
    let r := ofLexemes lexemes splits
    r.firstOfKind? range kind = r.innerIds.find? (r.isOfKindIn range kind) ∧
    r.lastOfKind? range kind = r.innerIds.reverse.find? (r.isOfKindIn range kind) ∧
    r.firstInside? range = r.innerIds.find? (r.liesIn range) ∧
    r.lastInside? range = r.innerIds.reverse.find? (r.liesIn range) ∧
    r.before? offset = r.innerIds.reverse.find? (fun id => decide ((r.token id).stop ≤ offset)) ∧
    r.after? offset = r.allIds.find? (fun id => decide (offset ≤ (r.token id).start)) ∧
    ∀ id, r.at? offset = some id ↔
      id ∈ r.innerIds ∧ (r.token id).start ≤ offset ∧ offset < (r.token id).stop := by
  intro r
  have hordered : r.Ordered := (carries_ofLexemes splits h).ordered
  have hinner : r.innerIds = firstIds r.count := innerIds_ofLexemes splits h
  rw [hinner]
  refine ⟨hordered.firstOfKind?_eq_find?, hordered.lastOfKind?_eq_find?,
    hordered.firstInside?_eq_find?, hordered.lastInside?_eq_find?, hordered.before?_eq_find?,
    hordered.after?_eq_find?, fun id => ?_⟩
  rw [hordered.at?_eq_some_iff]
  refine and_congr_left fun _ => ?_
  simp only [firstIds, List.mem_map, List.mem_range]
  exact ⟨fun hlt => ⟨id.index, hlt, rfl⟩, fun ⟨i, hi, heq⟩ => heq ▸ hi⟩

/-- Between the pieces of an operator, and behind the end of the text. -/
theorem ofLexemes_queries_nested : ∃ lexemes, Lexeme.scan .standard "L<L<S>> x;" = .ok lexemes ∧
    (ofLexemes lexemes [6, 7]).innerIds.find?
      ((ofLexemes lexemes [6, 7]).isOfKindIn ⟨6, 20⟩ TokenKind.gt) = some ⟨6⟩ ∧
    (ofLexemes lexemes [6, 7]).firstOfKind? ⟨6, 20⟩ TokenKind.gt = some ⟨6⟩ := by
  have hscan : Lexeme.scan .standard "L<L<S>> x;" = .ok
      [⟨.ident, "L", 0, ⟨1, 0⟩⟩, ⟨.lt, "<", 1, ⟨1, 1⟩⟩, ⟨.ident, "L", 2, ⟨1, 2⟩⟩,
        ⟨.lt, "<", 3, ⟨1, 3⟩⟩, ⟨.ident, "S", 4, ⟨1, 4⟩⟩, ⟨.shr, ">>", 5, ⟨1, 5⟩⟩,
        ⟨.whitespace, " ", 7, ⟨1, 7⟩⟩, ⟨.ident, "x", 8, ⟨1, 8⟩⟩, ⟨.semicolon, ";", 9, ⟨1, 9⟩⟩,
        ⟨.endOfFile, "", 10, ⟨1, 10⟩⟩] :=
    toOption_eq_some.1 (by decide +kernel)
  obtain ⟨hfirst, -⟩ := ofLexemes_queries [6, 7] hscan ⟨6, 20⟩ TokenKind.gt 0
  exact ⟨_, hscan, by decide +kernel, hfirst.trans (by decide +kernel)⟩

end

end TokenRow

end JavaAnalysis
