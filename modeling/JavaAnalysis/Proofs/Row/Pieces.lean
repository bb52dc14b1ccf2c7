import JavaAnalysis.Proofs.Lexeme.Partition
import JavaAnalysis.Token.Row

/-!
# The tokens of one lexeme

An operator that starts with a closing angle bracket is cut at the offsets asked for that lie
strictly inside it, and every other lexeme is one token. Each operator of that family is a part of
the longest one, and so is each of its pieces; a part of it has a kind, so no cut is ever given up.
Main statements: `tokensOf_of_startsWithGt` and `tokensOf_of_not_startsWithGt`.
-/

set_option autoImplicit false

namespace JavaAnalysis

open Lexeme

namespace TokenRow

theorem token_eq_getElem {r : TokenRow} {i : Nat} (hi : i < r.tokens.size) :
    r.token ⟨i⟩ = r.tokens[i] := by
  simp [token, Array.getD_eq_getD_getElem?, hi]

/-! ## The places of the cuts -/

private theorem eraseRepsBy_loop {a : Nat} {bs : List Nat} (acc : List Nat)
    (h : (a :: bs).Pairwise (· ≤ ·)) :
    ∃ cs, List.eraseRepsBy.loop (· == ·) a bs acc = acc.reverse ++ cs ∧ cs.Pairwise (· < ·) ∧
      ∀ o, o ∈ cs ↔ o ∈ a :: bs := by
  induction bs generalizing a acc with
  | nil => exact ⟨[a], by simp [List.eraseRepsBy.loop], by simp, by simp⟩
  | cons b bs ih =>
    obtain ⟨hle, htail⟩ := List.pairwise_cons.1 h
    by_cases hab : a = b
    · subst hab
      obtain ⟨cs, heq, hlt, hmem⟩ := ih acc htail
      refine ⟨cs, ?_, hlt, fun o => ?_⟩
      · simpa [List.eraseRepsBy.loop] using heq
      · simp [hmem]
    · obtain ⟨cs, heq, hlt, hmem⟩ := ih (a :: acc) htail
      have hfirst : ∀ o ∈ cs, a < o := by
        intro o ho
        have hb : a ≤ b := hle b (by simp)
        rcases List.mem_cons.1 ((hmem o).1 ho) with rfl | ho
        · omega
        · have := (List.pairwise_cons.1 htail).1 o ho
          omega
      refine ⟨a :: cs, ?_, List.pairwise_cons.2 ⟨hfirst, hlt⟩, fun o => ?_⟩
      · have hne : (a == b) = false := by simpa using hab
        simp [List.eraseRepsBy.loop, hne, heq]
      · simp only [List.mem_cons, hmem]

/-- Offsets that ascend are the same ones when each is kept once, and then ascend strictly. -/
theorem eraseReps_ascending {as : List Nat} (h : as.Pairwise (· ≤ ·)) :
    as.eraseReps.Pairwise (· < ·) ∧ ∀ o, o ∈ as.eraseReps ↔ o ∈ as := by
  cases as with
  | nil => simp [List.eraseReps, List.eraseRepsBy]
  | cons a as =>
    obtain ⟨cs, hloop, hlt, hmem⟩ := eraseRepsBy_loop [] h
    have heq : (a :: as).eraseReps = cs := hloop
    rw [heq]
    exact ⟨hlt, hmem⟩

variable (splits : List Nat) (x : Lexeme)

private theorem pairwise_sorted :
    ((splits.filter fun o => decide (x.start < o) && decide (o < x.stop)).mergeSort
      fun a b => decide (a ≤ b)).Pairwise (· ≤ ·) := by
  have hsorted := @List.pairwise_mergeSort Nat (fun a b => decide (a ≤ b))
    (fun a b c hab hbc => by simp only [decide_eq_true_eq] at *; omega)
    (fun a b => by simp only [Bool.or_eq_true, decide_eq_true_eq]; omega)
    (splits.filter fun o => decide (x.start < o) && decide (o < x.stop))
  exact hsorted.imp (by simp)

theorem pairwise_cutsIn : (cutsIn splits x).Pairwise (· < ·) := by
  unfold cutsIn
  split
  · exact (eraseReps_ascending (pairwise_sorted splits x)).1
  · exact List.Pairwise.nil

theorem mem_cutsIn {splits : List Nat} {x : Lexeme} {o : Nat} : o ∈ cutsIn splits x ↔
    x.kind.startsWithGt = true ∧ o ∈ splits ∧ x.start < o ∧ o < x.stop := by
  unfold cutsIn
  split
  · rename_i hgt
    rw [(eraseReps_ascending (pairwise_sorted splits x)).2]
    simp [hgt]
  · rename_i hgt
    simp [hgt]

/-! ## The parts of an operator -/

/-- The longest operator that starts with a closing angle bracket; the others are parts of it. -/
def longestGt : List Char := ['>', '>', '>', '=']

/-- The texts of operators from which `>` may have been cut off, the empty one aside. -/
theorem part_cases {cs : List Char} (h : cs <:+: longestGt) (hne : cs ≠ []) :
    cs = ['>'] ∨ cs = ['>', '='] ∨ cs = ['>', '>'] ∨ cs = ['>', '>', '='] ∨
      cs = ['>', '>', '>'] ∨ cs = ['>', '>', '>', '='] ∨ cs = ['='] := by
  simp only [longestGt, List.infix_cons_iff, List.prefix_cons_iff, List.infix_nil,
    List.prefix_nil] at h
  grind

theorem part_of_ofGtText? {s : String} {kind : TokenKind} (h : TokenKind.ofGtText? s = some kind) :
    s.toList <:+: longestGt := by
  unfold TokenKind.ofGtText? at h
  repeat' split at h
  all_goals first | (subst s; decide) | cases h

theorem utf8Length_part {cs : List Char} (h : cs <:+: longestGt) : utf8Length cs = cs.length := by
  by_cases hne : cs = []
  · subst hne
    rfl
  · rcases part_cases h hne with rfl | rfl | rfl | rfl | rfl | rfl | rfl <;> rfl

/-- A part of an operator that starts with `>` is an operator of its own. -/
theorem genuine_part (level : LanguageLevel) {cs : List Char} (h : cs <:+: longestGt)
    (hne : cs ≠ []) :
    ∃ kind, TokenKind.ofGtText? (String.ofList cs) = some kind ∧ kind.isTrivia = false ∧
      ∀ o p, Genuine level ⟨kind, String.ofList cs, o, p⟩ := by
  rcases part_cases h hne with rfl | rfl | rfl | rfl | rfl | rfl | rfl
  · exact ⟨.gt, rfl, rfl, @genuine_of_next level '>' [] [] .gt rfl⟩
  · exact ⟨.gtEq, rfl, rfl, @genuine_of_next level '>' ['='] [] .gtEq rfl⟩
  · exact ⟨.shr, rfl, rfl, @genuine_of_next level '>' ['>'] [] .shr rfl⟩
  · exact ⟨.shrEq, rfl, rfl, @genuine_of_next level '>' ['>', '='] [] .shrEq rfl⟩
  · exact ⟨.ushr, rfl, rfl, @genuine_of_next level '>' ['>', '>'] [] .ushr rfl⟩
  · exact ⟨.ushrEq, rfl, rfl, @genuine_of_next level '>' ['>', '>', '='] [] .ushrEq rfl⟩
  · exact ⟨.eq, rfl, rfl, @genuine_of_next level '=' [] [] .eq rfl⟩

/-! ## The pieces of a lexeme -/

/-- The tokens as lexemes, without the comments in front of them. -/
def bare (pieces : List Token) : List Lexeme := pieces.map (·.toLexeme)

/-- A piece of a lexeme: the lexer gives it again, and no comment stands in front of it. -/
structure IsPiece (level : LanguageLevel) (p : Token) : Prop where
  genuine : Genuine level p.toLexeme
  significant : p.kind.isTrivia = false
  comments : p.comments = []

/-- The pieces of a text that is cut at `cuts`. -/
structure Cuts (level : LanguageLevel) (start : Nat) (text : List Char) (cuts : List Nat)
    (pieces : List Token) : Prop where
  starts : pieces.map (·.start) = start :: cuts
  tiles : Tiles start (bare pieces) text
  isPiece : ∀ p ∈ pieces, IsPiece level p

theorem pieceOf?_part (level : LanguageLevel) (x : Lexeme) (start : Nat) {text : List Char}
    (h : text <:+: longestGt) (hne : text ≠ []) :
    ∃ p, pieceOf? x (start, text) = some p ∧ p.start = start ∧ p.text = String.ofList text ∧
      IsPiece level p := by
  obtain ⟨kind, hkind, htrivia, hgenuine⟩ := genuine_part level h hne
  refine ⟨{ kind, text := String.ofList text, start, comments := []
            position := { x.position with column := x.position.column + (start - x.start) } },
    ?_, rfl, rfl, hgenuine _ _, htrivia, rfl⟩
  simp [pieceOf?, hkind]

theorem cutAt_pieces (level : LanguageLevel) (x : Lexeme) {start : Nat} {text : List Char}
    {cuts : List Nat} (hpart : text <:+: longestGt) (hne : text ≠ [])
    (hcuts : cuts.Pairwise (· < ·)) (hinside : ∀ o ∈ cuts, start < o ∧ o < start + text.length) :
    ∃ pieces, (cutAt start text cuts).mapM (pieceOf? x) = some pieces ∧
      Cuts level start text cuts pieces := by
  induction cuts generalizing start text with
  | nil =>
    obtain ⟨p, hp, hstart, htext, hpiece⟩ := pieceOf?_part level x start hpart hne
    refine ⟨[p], by simp [cutAt, hp], by simp [hstart], ⟨hstart, ?_, [], ?_, rfl⟩,
      by simpa using hpiece⟩
    · exact hpiece.genuine.text_ne
    · simp [htext]
  | cons o os ih =>
    obtain ⟨hafter, hos⟩ := List.pairwise_cons.1 hcuts
    obtain ⟨hstart, hstop⟩ := hinside o (by simp)
    have hlen : (text.take (o - start)).length = o - start := by
      rw [List.length_take]
      omega
    have hrest : (text.drop (o - start)).length = start + text.length - o := by
      rw [List.length_drop]
      omega
    have hfirst : text.take (o - start) <:+: longestGt :=
      (List.take_prefix _ _).isInfix.trans hpart
    have hothers : text.drop (o - start) <:+: longestGt :=
      (List.drop_suffix _ _).isInfix.trans hpart
    obtain ⟨p, hp, hpstart, hptext, hpiece⟩ := pieceOf?_part level x start hfirst
      (List.length_pos_iff.1 (by omega))
    have hlater : ∀ q ∈ os, o < q ∧ q < o + (text.drop (o - start)).length := by
      intro q hq
      have := hafter q hq
      have := (hinside q (by simp [hq])).2
      omega
    obtain ⟨pieces, hpieces, hcut⟩ := ih hothers (List.length_pos_iff.1 (by omega)) hos hlater
    have hpstop : p.stop = o := by
      rw [Lexeme.stop, hpstart, hptext, utf8ByteSize_ofList, utf8Length_part hfirst, hlen]
      omega
    refine ⟨p :: pieces, by simp [cutAt, hp, hpieces], ?_,
      ⟨hpstart, ?_, text.drop (o - start), ?_, ?_⟩, ?_⟩
    · simp [hpstart, hcut.starts]
    · exact hpiece.genuine.text_ne
    · simp [hptext]
    · rw [hpstop]
      exact hcut.tiles
    · simpa using ⟨hpiece, hcut.isPiece⟩

/-! ## The tokens of a significant lexeme -/

variable {level : LanguageLevel}

/-- Lexemes with one text are of one kind. -/
theorem kind_eq_of_text {x y : Lexeme} (hx : Genuine level x) (hy : Genuine level y)
    (h : x.text = y.text) : x.kind = y.kind := by
  obtain ⟨_, hscan, -⟩ := hx.scan_text
  obtain ⟨_, hscan', -⟩ := hy.scan_text
  rw [h, hscan'] at hscan
  simp only [Except.ok.injEq, List.cons.injEq, Lexeme.mk.injEq] at hscan
  exact hscan.1.1.symm

/-- The empty lexeme at the end of a text. -/
structure IsEnd (x : Lexeme) : Prop where
  kind : x.kind = .endOfFile
  text : x.text = ""

theorem IsEnd.isTrivia {x : Lexeme} (h : IsEnd x) : x.kind.isTrivia = false := by
  simp [h.kind, TokenKind.isTrivia]

theorem IsEnd.startsWithGt {x : Lexeme} (h : IsEnd x) : x.kind.startsWithGt = false := by
  simp [h.kind, TokenKind.startsWithGt]

/-- A lexeme of a text: the lexer gives it again, or it is the end of the text. -/
def Readable (level : LanguageLevel) (x : Lexeme) : Prop := Genuine level x ∨ IsEnd x

/-- A lexeme that is not cut is its only token. -/
theorem tokensOf_of_not_startsWithGt {x : Lexeme} (hx : Readable level x)
    (hgt : x.kind.startsWithGt = false) (comments : List Comment) :
    tokensOf splits comments x = [{ x with comments }] := by
  unfold tokensOf cutsIn
  rw [hgt]
  simp only [Bool.false_eq_true, if_false, cutAt, List.mapM_cons, List.mapM_nil, pieceOf?,
    String.ofList_toList]
  cases hkind : TokenKind.ofGtText? x.text with
  | none => rfl
  | some kind =>
    have hne : x.text ≠ "" := by
      intro hempty
      rw [hempty] at hkind
      cases hkind
    obtain ⟨k, hk, -, hpart⟩ := genuine_part level (part_of_ofGtText? hkind) (by simpa using hne)
    rw [String.ofList_toList, hkind] at hk
    cases hk
    have hsame : kind = x.kind :=
      kind_eq_of_text (hpart 0 .start) (hx.resolve_right fun h => hne h.text) String.ofList_toList
    subst hsame
    simp

/-- An operator that starts with `>` is always cut where it is asked to be. -/
theorem tokensOf_of_startsWithGt {x : Lexeme} (hx : Genuine level x)
    (hgt : x.kind.startsWithGt = true) (comments : List Comment) :
    ∃ first others,
      (cutAt x.start x.text.toList (cutsIn splits x)).mapM (pieceOf? x) = some (first :: others) ∧
      tokensOf splits comments x = { first with comments } :: others ∧
      Cuts level x.start x.text.toList (cutsIn splits x) (first :: others) := by
  have hpart : x.text.toList <:+: longestGt := part_of_ofGtText? (hx.gtText hgt)
  obtain ⟨pieces, hpieces, hcut⟩ := cutAt_pieces level x hpart (by simpa using hx.text_ne)
    (pairwise_cutsIn splits x) fun o ho => by
      obtain ⟨-, -, hlt, hstop⟩ := mem_cutsIn.1 ho
      rw [Lexeme.stop, utf8ByteSize_eq, utf8Length_part hpart] at hstop
      exact ⟨hlt, hstop⟩
  cases pieces with
  | nil => cases hcut.starts
  | cons first others =>
    refine ⟨first, others, hpieces, ?_, hcut⟩
    unfold tokensOf
    rw [hpieces]

end TokenRow

end JavaAnalysis
