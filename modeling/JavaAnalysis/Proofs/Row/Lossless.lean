import JavaAnalysis.Lexeme.Scan
import JavaAnalysis.Proofs.Ensures
import JavaAnalysis.Proofs.Lexeme.Partition
import JavaAnalysis.Proofs.Row.Pieces
import Mathlib

/-!
# The tokens of a file hold all of its text

The lexemes of a text fall into groups, each a significant lexeme with the trivia in front of it.
The row of tokens is made group by group: the comments of a group go to its first token, and its
significant lexeme is cut into the others. Nothing but blanks is dropped, so that the segments of
the row, its comments and its tokens, weave the text. A segment is a text at an offset. Segments in a
row with blanks between them make up a text, and each of them is found in it at its offset. As the
blanks are one byte each, the text is known from its segments up to which blank stands where.
Main statement: `ofLexemes_lossless`.
-/

set_option autoImplicit false
set_option linter.dupNamespace false

namespace JavaAnalysis

/-! ## Woven texts -/

open Lexeme

/-- A text and the offset at which it lies. -/
structure Segment where
  start : Nat
  text : String
deriving DecidableEq, Repr

namespace Segment

def stop (s : Segment) : Nat := s.start + s.text.utf8ByteSize

def range (s : Segment) : TextRange := ⟨s.start, s.stop⟩

/-- The segments hold the characters from an offset on, but for blanks in front of each. -/
def Woven : Nat → List Segment → List Char → Prop
  | _, [], cs => cs = []
  | offset, s :: ss, cs => ∃ gap rest, cs = gap ++ s.text.toList ++ rest ∧
      (∀ c ∈ gap, isBlank c = true) ∧ s.start = offset + utf8Length gap ∧ Woven s.stop ss rest

/-- The segments from an offset on, with spaces between them. -/
def weave : Nat → List Segment → List Char
  | _, [] => []
  | offset, s :: ss =>
    List.replicate (s.start - offset) ' ' ++ s.text.toList ++ weave s.stop ss

/-- Where the texts differ, a blank stands in the first and a space in the second. -/
def Blanked : List Char → List Char → Prop :=
  List.Forall₂ fun c d => c = d ∨ isBlank c = true ∧ d = ' '

variable {o : Nat} {ss : List Segment} {before cs left : List Char}

theorem utf8Size_of_isBlank {c : Char} (h : isBlank c = true) : c.utf8Size = 1 := by
  simp only [isBlank, Bool.or_eq_true, beq_iff_eq] at h
  rcases h with (((rfl | rfl) | rfl) | rfl) | rfl <;> rfl

theorem utf8Length_of_isBlank {gap : List Char} (h : ∀ c ∈ gap, isBlank c = true) :
    utf8Length gap = gap.length := by
  induction gap with
  | nil => rfl
  | cons c cs ih =>
    rw [utf8Length, utf8Size_of_isBlank (h c (by simp)), ih fun d hd => h d (by simp [hd])]
    simp only [List.length_cons]
    omega

theorem Woven.blanks (h : Woven (o + utf8Length cs) ss left) (hcs : ∀ c ∈ cs, isBlank c = true)
    (hne : ss ≠ []) : Woven o ss (cs ++ left) := by
  cases ss with
  | nil => exact absurd rfl hne
  | cons s ss =>
    obtain ⟨gap, rest, rfl, hgap, hstart, hrest⟩ := h
    refine ⟨cs ++ gap, rest, by simp, ?_, ?_, hrest⟩
    · intro c hc
      exact (List.mem_append.1 hc).elim (hcs c) (hgap c)
    · rw [hstart, utf8Length_append]
      omega

/-- Each segment lies behind all that are in front of it. -/
theorem Woven.pairwise (h : Woven o ss cs) :
    (∀ s ∈ ss, o ≤ s.start) ∧ ss.Pairwise fun a b => a.stop ≤ b.start := by
  induction ss generalizing o cs with
  | nil => simp
  | cons s ss ih =>
    obtain ⟨gap, rest, -, -, hstart, hrest⟩ := h
    obtain ⟨hlater, hpair⟩ := ih hrest
    have hstop : s.start ≤ s.stop := by simp [Segment.stop]
    refine ⟨?_, List.pairwise_cons.2 ⟨hlater, hpair⟩⟩
    intro t ht
    rcases List.mem_cons.1 ht with rfl | ht
    · omega
    · have := hlater t ht
      omega

theorem splitAtOffset?_append (a b : List Char) :
    splitAtOffset? (a ++ b) (utf8Length a) = some (a, b) := by
  induction a with
  | nil => cases b <;> rfl
  | cons c a ih =>
    obtain ⟨n, hn⟩ : ∃ n, c.utf8Size + utf8Length a = n + 1 :=
      ⟨c.utf8Size + utf8Length a - 1, by have := c.utf8Size_pos; omega⟩
    have hrest : n + 1 - c.utf8Size = utf8Length a := by omega
    rw [List.cons_append, utf8Length, hn, splitAtOffset?, if_pos (by omega), hrest, ih]
    rfl

theorem slice?_append (a b c : List Char) :
    slice? (a ++ b ++ c) ⟨utf8Length a, utf8Length a + utf8Length b⟩ = some b := by
  unfold slice?
  rw [List.append_assoc, splitAtOffset?_append]
  simp [splitAtOffset?_append]

/-- Each segment is found at its place. -/
theorem Woven.slice? (h : Woven (utf8Length before) ss cs) :
    ∀ s ∈ ss, slice? (before ++ cs) s.range = some s.text.toList := by
  induction ss generalizing before cs with
  | nil => simp
  | cons s ss ih =>
    obtain ⟨gap, rest, rfl, -, hstart, hrest⟩ := h
    have hstart' : s.start = utf8Length (before ++ gap) := by rw [hstart, utf8Length_append]
    have hstop : s.stop = utf8Length (before ++ gap ++ s.text.toList) := by
      rw [utf8Length_append, ← hstart', Segment.stop, utf8ByteSize_eq]
    intro t ht
    rcases List.mem_cons.1 ht with rfl | ht
    · have := slice?_append (before ++ gap) t.text.toList rest
      rw [Segment.range, hstop, utf8Length_append, hstart']
      simpa using this
    · rw [hstop] at hrest
      simpa using ih hrest t ht

theorem Woven.blanked (h : Woven o ss cs) : Blanked cs (weave o ss) := by
  induction ss generalizing o cs with
  | nil =>
    cases h
    exact .nil
  | cons s ss ih =>
    obtain ⟨gap, rest, rfl, hgap, hstart, hrest⟩ := h
    have hlen : s.start - o = gap.length := by
      rw [hstart, utf8Length_of_isBlank hgap]
      omega
    rw [weave, hlen]
    refine List.rel_append (List.rel_append ?_ ?_) (ih hrest)
    · clear hstart hlen
      induction gap with
      | nil => exact .nil
      | cons c gap ih =>
        exact .cons (.inr ⟨hgap c (by simp), rfl⟩) (ih fun d hd => hgap d (by simp [hd]))
    · exact List.forall₂_same.2 fun _ _ => .inl rfl

end Segment

end JavaAnalysis

namespace JavaAnalysis

/-! ## Groups of lexemes -/

open Lexeme

namespace TokenRow

/-- A significant lexeme with the trivia in front of it. -/
structure Group where
  trivia : List Lexeme
  lexeme : Lexeme

namespace Group

def lexemes (g : Group) : List Lexeme := g.trivia ++ [g.lexeme]

def comments (g : Group) : List Comment := g.trivia.filterMap Comment.ofLexeme?

def tokens (splits : List Nat) (g : Group) : List Token := tokensOf splits g.comments g.lexeme

end Group

/-- The groups of lexemes, the given trivia in front of the first of them. -/
def groups : List Lexeme → List Lexeme → List Group
  | _, [] => []
  | trivia, x :: xs =>
    if x.kind.isTrivia then groups (trivia ++ [x]) xs else ⟨trivia, x⟩ :: groups [] xs

variable {level : LanguageLevel} {splits : List Nat} {trivia before xs : List Lexeme}
  {final : Lexeme} {o : Nat} {cs : List Char}

theorem attachComments_eq (splits : List Nat) (trivia xs : List Lexeme) :
    attachComments splits (trivia.filterMap Comment.ofLexeme?) xs =
      (groups trivia xs).flatMap (·.tokens splits) := by
  induction xs generalizing trivia with
  | nil => rfl
  | cons x xs ih =>
    unfold attachComments groups
    split
    · have hpending : trivia.filterMap Comment.ofLexeme? ++ (Comment.ofLexeme? x).toList =
          (trivia ++ [x]).filterMap Comment.ofLexeme? := by
        rw [List.filterMap_append]
        cases h : Comment.ofLexeme? x <;> simp [h]
      rw [hpending, ih]
    · rw [List.flatMap_cons, ← ih []]
      rfl

theorem flatMap_lexemes_groups (hfinal : final.kind.isTrivia = false) :
    (groups trivia (before ++ [final])).flatMap (·.lexemes) = trivia ++ before ++ [final] := by
  induction before generalizing trivia with
  | nil => simp [groups, hfinal, Group.lexemes]
  | cons x xs ih =>
    rw [List.cons_append, groups]
    split
    · rw [ih]
      simp
    · rw [List.flatMap_cons, ih]
      simp [Group.lexemes]

theorem mem_groups {g : Group} (h : g ∈ groups trivia xs)
    (htrivia : ∀ x ∈ trivia, x.kind.isTrivia = true) :
    (∀ x ∈ g.trivia, x.kind.isTrivia = true) ∧ g.lexeme ∈ xs ∧ g.lexeme.kind.isTrivia = false := by
  induction xs generalizing trivia with
  | nil => cases h
  | cons x xs ih =>
    unfold groups at h
    split at h
    · rename_i hx
      have hmore : ∀ y ∈ trivia ++ [x], y.kind.isTrivia = true := by
        intro y hy
        rcases List.mem_append.1 hy with hy | hy
        · exact htrivia y hy
        · rw [List.mem_singleton.1 hy]
          exact hx
      obtain ⟨h1, h2, h3⟩ := ih h hmore
      exact ⟨h1, List.mem_cons_of_mem _ h2, h3⟩
    · rename_i hx
      rcases List.mem_cons.1 h with rfl | h
      · exact ⟨htrivia, List.mem_cons_self, by simpa using hx⟩
      · obtain ⟨h1, h2, h3⟩ := ih h (by simp)
        exact ⟨h1, List.mem_cons_of_mem _ h2, h3⟩

/-! ## The tokens of a group -/

/-- What the tokens of a significant lexeme are, the end of the file included. -/
structure Group.Kept (level : LanguageLevel) (splits : List Nat) (g : Group) (first : Token)
    (others : List Token) : Prop where
  tokens_eq : g.tokens splits = first :: others
  trivia : ∀ x ∈ g.trivia, x.kind.isTrivia = true
  significant : g.lexeme.kind.isTrivia = false
  /-- The tokens follow each other from the first character of the lexeme to its last. -/
  text : (g.tokens splits).flatMap (·.text.toList) = g.lexeme.text.toList
  start : first.start = g.lexeme.start
  contiguous : (g.tokens splits).IsChain fun a b => a.stop = b.start
  /-- It is cut at all of the offsets inside it when it starts with `>`, and at none otherwise. -/
  cut_iff : ∀ o, (∃ t ∈ others, t.start = o) ↔ g.lexeme.kind.startsWithGt = true ∧ o ∈ splits ∧
    g.lexeme.start < o ∧ o < g.lexeme.stop
  /-- No cut of an operator is given up. -/
  isSome : g.lexeme.kind.startsWithGt = true →
    ((cutAt g.lexeme.start g.lexeme.text.toList (cutsIn splits g.lexeme)).mapM
      (pieceOf? g.lexeme)).isSome = true
  uncut : g.lexeme.kind.startsWithGt = false → first = { g.lexeme with comments := g.comments }
  comments : first.comments = g.comments
  bald : ∀ t ∈ others, t.comments = []
  /-- The lexer gives the kind of each token for its text. -/
  rescan : ∀ t ∈ g.tokens splits, ∃ y ys, scan level t.text = .ok (y :: ys) ∧ y.kind = t.kind ∧
    y.text = t.text

theorem tiles_isChain (h : Tiles o xs cs) : xs.IsChain fun a b => a.stop = b.start := by
  induction xs generalizing o cs with
  | nil => exact .nil
  | cons x xs ih =>
    obtain ⟨-, -, rest, -, hrest⟩ := h
    cases xs with
    | nil => exact .singleton _
    | cons y ys => exact .cons_cons hrest.1.symm (ih hrest)

theorem rescan_of_genuine {t : Lexeme} (h : Genuine level t) :
    ∃ y ys, scan level t.text = .ok (y :: ys) ∧ y.kind = t.kind ∧ y.text = t.text := by
  obtain ⟨final, hscan, -⟩ := h.scan_text
  exact ⟨_, _, hscan, rfl, rfl⟩

theorem kept_of_not_startsWithGt {g : Group} (htrivia : ∀ x ∈ g.trivia, x.kind.isTrivia = true)
    (hsignificant : g.lexeme.kind.isTrivia = false) (hg : Readable level g.lexeme)
    (hgt : g.lexeme.kind.startsWithGt = false) :
    g.Kept level splits { g.lexeme with comments := g.comments } [] := by
  have htokens : g.tokens splits = [{ g.lexeme with comments := g.comments }] :=
    tokensOf_of_not_startsWithGt splits hg hgt g.comments
  refine
    { tokens_eq := htokens, trivia := htrivia, significant := hsignificant, start := rfl
      uncut := fun _ => rfl, comments := rfl, text := ?_, contiguous := ?_, cut_iff := ?_
      isSome := ?_, bald := by simp, rescan := ?_ }
  · simp [htokens]
  · rw [htokens]
    exact .singleton _
  · simp [hgt]
  · simp [hgt]
  · rw [htokens]
    intro t ht
    rw [List.mem_singleton.1 ht]
    rcases hg with hg | hend
    · exact rescan_of_genuine hg
    · refine ⟨endOfFile 0 .start, [], ?_, hend.kind.symm, hend.text.symm⟩
      rw [hend.text, scan, String.toList_empty, scanFrom]

theorem kept_of_startsWithGt {g : Group} (htrivia : ∀ x ∈ g.trivia, x.kind.isTrivia = true)
    (hsignificant : g.lexeme.kind.isTrivia = false) (hg : Genuine level g.lexeme)
    (hgt : g.lexeme.kind.startsWithGt = true) :
    ∃ (first : Token) (others : List Token),
      g.Kept level splits { first with comments := g.comments } others := by
  obtain ⟨first, others, hcut, htokens, hcuts⟩ := tokensOf_of_startsWithGt splits hg hgt g.comments
  have hbare : bare (g.tokens splits) = bare (first :: others) := by
    rw [Group.tokens, htokens]
    rfl
  have htiles : Tiles g.lexeme.start (bare (g.tokens splits)) g.lexeme.text.toList := by
    rw [hbare]
    exact hcuts.tiles
  have hstarts := hcuts.starts
  rw [List.map_cons, List.cons.injEq] at hstarts
  refine ⟨first, others,
    { tokens_eq := htokens, trivia := htrivia, significant := hsignificant, start := hstarts.1
      uncut := fun h => ?_, comments := rfl, text := ?_, contiguous := ?_, cut_iff := fun o => ?_
      isSome := fun _ => by rw [hcut]; rfl
      bald := fun t ht => (hcuts.isPiece t (List.mem_cons_of_mem _ ht)).comments, rescan := ?_ }⟩
  · simpa [bare, List.flatMap_map] using htiles.flatMap_text
  · exact (List.isChain_map _).1 (tiles_isChain htiles)
  · rw [← mem_cutsIn, ← hstarts.2, List.mem_map]
  · rw [hgt] at h
    cases h
  · intro t ht
    have hmem : t.toLexeme ∈ bare (first :: others) := by
      rw [← hbare]
      exact List.mem_map_of_mem ht
    obtain ⟨p, hp, heq⟩ := List.mem_map.1 hmem
    rw [← heq]
    exact rescan_of_genuine (hcuts.isPiece p hp).genuine

/-! ## The segments of a row -/

/-- The place and the text of a lexeme. -/
def segmentOf (x : Lexeme) : Segment := ⟨x.start, x.text⟩

/-- The comments of tokens and the tokens themselves, in their order. -/
def segments (ts : List Token) : List Segment :=
  ts.flatMap fun t => t.comments.map (fun c => ⟨c.start, c.text⟩) ++ [segmentOf t.toLexeme]

/-- Only the comments of the first token depend on the comments in front of a lexeme. -/
theorem tokensOf_comments (splits : List Nat) (x : Lexeme) :
    ∃ (first : Token) (others : List Token), ∀ comments,
      tokensOf splits comments x = { first with comments } :: others := by
  unfold tokensOf
  split
  · exact ⟨_, _, fun _ => rfl⟩
  · exact ⟨{ x with comments := [] }, [], fun _ => rfl⟩

theorem segments_tokensOf_append (comments : List Comment) (x : Lexeme) (ts : List Token) :
    segments (tokensOf splits comments x ++ ts) =
      comments.map (fun c => ⟨c.start, c.text⟩) ++ segments (tokensOf splits [] x ++ ts) := by
  obtain ⟨first, others, htokens⟩ := tokensOf_comments splits x
  simp [htokens, segments, segmentOf]

theorem segments_attachComments (hfinal : final.kind.isTrivia = false) (comments : List Comment) :
    segments (attachComments splits comments (before ++ [final])) =
      comments.map (fun c => ⟨c.start, c.text⟩) ++
        segments (attachComments splits [] (before ++ [final])) := by
  induction before generalizing comments with
  | nil => simpa [attachComments, hfinal] using segments_tokensOf_append comments final []
  | cons x xs ih =>
    rw [List.cons_append, attachComments, attachComments]
    split
    · rw [ih (comments ++ _), ih ([] ++ _)]
      simp
    · exact segments_tokensOf_append comments x _

theorem tiles_tokensOf {x : Lexeme} (hx : Genuine level x) (comments : List Comment) :
    Tiles x.start (bare (tokensOf splits comments x)) x.text.toList := by
  cases hgt : x.kind.startsWithGt with
  | false =>
    rw [tokensOf_of_not_startsWithGt splits (.inl hx) hgt]
    exact ⟨rfl, hx.text_ne, [], by simp, rfl⟩
  | true =>
    obtain ⟨first, others, -, htokens, hcuts⟩ := tokensOf_of_startsWithGt splits hx hgt comments
    rw [htokens]
    exact hcuts.tiles

theorem genuine_tokensOf {x : Lexeme} (hx : Genuine level x)
    (hsignificant : x.kind.isTrivia = false)
    (comments : List Comment) : ∀ t ∈ tokensOf splits comments x,
      Genuine level t.toLexeme ∧ t.kind.isTrivia = false := by
  intro t ht
  cases hgt : x.kind.startsWithGt with
  | false =>
    rw [tokensOf_of_not_startsWithGt splits (.inl hx) hgt] at ht
    rw [List.mem_singleton.1 ht]
    exact ⟨hx, hsignificant⟩
  | true =>
    obtain ⟨first, others, -, htokens, hcuts⟩ := tokensOf_of_startsWithGt splits hx hgt comments
    rw [htokens] at ht
    rcases List.mem_cons.1 ht with rfl | ht
    · have hfirst := hcuts.isPiece first List.mem_cons_self
      exact ⟨hfirst.genuine, hfirst.significant⟩
    · have hother := hcuts.isPiece t (List.mem_cons_of_mem _ ht)
      exact ⟨hother.genuine, hother.significant⟩

/-- The tokens of a file are those of its lexemes and, last of all, its end. -/
theorem attachComments_concat (splits : List Nat) (hxs : ∀ x ∈ before, Genuine level x)
    (hfinal : IsEnd final) (comments : List Comment) :
    ∃ initial last, attachComments splits comments (before ++ [final]) =
        initial ++ [{ final with comments := last }] ∧
      ∀ t ∈ initial, Genuine level t.toLexeme ∧ t.kind.isTrivia = false := by
  induction before generalizing comments with
  | nil =>
    have hread : Readable level final := .inr hfinal
    refine ⟨[], comments, ?_, by simp⟩
    rw [List.nil_append, attachComments, hfinal.isTrivia]
    simp only [Bool.false_eq_true, if_false, attachComments, List.append_nil, List.nil_append]
    exact tokensOf_of_not_startsWithGt splits hread hfinal.startsWithGt comments
  | cons x xs ih =>
    have hothers : ∀ y ∈ xs, Genuine level y := fun y hy => hxs y (List.mem_cons_of_mem _ hy)
    rw [List.cons_append, attachComments]
    split
    · exact ih hothers _
    · rename_i hx
      obtain ⟨initial, last, heq, hinitial⟩ := ih hothers []
      refine ⟨tokensOf splits comments x ++ initial, last, by rw [heq, List.append_assoc], ?_⟩
      intro t ht
      rcases List.mem_append.1 ht with ht | ht
      · exact genuine_tokensOf (hxs x List.mem_cons_self) (by simpa using hx) comments t ht
      · exact hinitial t ht

theorem segments_append (ts us : List Token) : segments (ts ++ us) = segments ts ++ segments us :=
  List.flatMap_append

theorem segments_tokensOf_nil {x : Lexeme} (hx : Genuine level x) :
    segments (tokensOf splits [] x) = (bare (tokensOf splits [] x)).map segmentOf := by
  have hbald : ∀ t ∈ tokensOf splits [] x, t.comments = [] := by
    intro t ht
    cases hgt : x.kind.startsWithGt with
    | false =>
      rw [tokensOf_of_not_startsWithGt splits (.inl hx) hgt] at ht
      rw [List.mem_singleton.1 ht]
    | true =>
      obtain ⟨first, others, -, htokens, hcuts⟩ := tokensOf_of_startsWithGt splits hx hgt []
      rw [htokens] at ht
      rcases List.mem_cons.1 ht with rfl | ht
      · rfl
      · exact (hcuts.isPiece t (List.mem_cons_of_mem _ ht)).comments
  generalize tokensOf splits [] x = ts at hbald
  induction ts with
  | nil => rfl
  | cons t ts ih =>
    have hothers := ih fun u hu => hbald u (List.mem_cons_of_mem _ hu)
    have ht := hbald t List.mem_cons_self
    simp only [segments] at hothers
    simp [segments, bare, ht, hothers]

theorem woven_of_tiles {ss : List Segment} {rest : List Char} (h : Tiles o xs cs)
    (hrest : Segment.Woven (o + utf8Length cs) ss rest) :
    Segment.Woven o (xs.map segmentOf ++ ss) (cs ++ rest) := by
  induction xs generalizing o cs with
  | nil =>
    cases h
    exact hrest
  | cons x xs ih =>
    obtain ⟨rfl, -, tail, rfl, htail⟩ := h
    rw [utf8Length_append, ← utf8ByteSize_eq, ← Nat.add_assoc] at hrest
    exact ⟨[], tail ++ rest, by simp [segmentOf], by simp, by simp [segmentOf, utf8Length],
      ih htail hrest⟩

theorem ofLexeme?_of_isTrivia {x : Lexeme} (h : x.kind.isTrivia = true) :
    x.kind = .whitespace ∨ ∃ kind, Comment.ofLexeme? x = some
      ⟨kind, x.text, x.start, x.position⟩ := by
  unfold Comment.ofLexeme?
  generalize x.kind = kind at h ⊢
  cases kind <;> first | exact .inl rfl | exact .inr ⟨_, rfl⟩ | cases h

/-- The comments and the tokens of a text weave it. -/
theorem woven_attachComments (hxs : ∀ x ∈ before, Genuine level x) (h : Tiles o before cs)
    (hfinal : IsEnd final) (hstart : final.start = o + utf8Length cs) :
    Segment.Woven o (segments (attachComments splits [] (before ++ [final]))) cs := by
  induction before generalizing o cs with
  | nil =>
    cases h
    have hread : Readable level final := .inr hfinal
    rw [List.nil_append, attachComments, hfinal.isTrivia]
    simp only [Bool.false_eq_true, if_false, attachComments, List.append_nil,
      tokensOf_of_not_startsWithGt splits hread hfinal.startsWithGt]
    exact ⟨[], [], by simp [segmentOf, hfinal.text], by simp, hstart, rfl⟩
  | cons x xs ih =>
    obtain ⟨rfl, -, rest, rfl, htiles⟩ := h
    have hstart' : final.start = x.stop + utf8Length rest := by
      rw [hstart, utf8Length_append, Lexeme.stop, utf8ByteSize_eq]
      omega
    have hwoven := ih (fun y hy => hxs y (List.mem_cons_of_mem _ hy)) htiles hstart'
    have hx := hxs x List.mem_cons_self
    have hne : segments (attachComments splits [] (xs ++ [final])) ≠ [] := by
      obtain ⟨initial, last, heq, -⟩ := attachComments_concat splits
        (fun y hy => hxs y (List.mem_cons_of_mem _ hy)) hfinal []
      simp [heq, segments]
    rw [Lexeme.stop, utf8ByteSize_eq] at hwoven
    rw [List.cons_append, attachComments]
    split
    · rename_i hx'
      rw [segments_attachComments hfinal.isTrivia, List.nil_append]
      rcases ofLexeme?_of_isTrivia hx' with hblank | ⟨kind, hcomment⟩
      · have hnone : Comment.ofLexeme? x = none := by simp [Comment.ofLexeme?, hblank,
          CommentKind.ofToken?]
        rw [hnone]
        exact hwoven.blanks (hx.blank hblank) hne
      · rw [hcomment]
        have htile : Tiles x.start [x] x.text.toList := ⟨rfl, hx.text_ne, [], by simp, rfl⟩
        exact woven_of_tiles htile hwoven
    · rename_i hx'
      rw [segments_append, segments_tokensOf_nil hx]
      exact woven_of_tiles (tiles_tokensOf hx []) hwoven

/-! ## The row of a text -/

theorem Group.Kept.flatMap_comments {g : Group} {first : Token} {others : List Token}
    (h : g.Kept level splits first others) :
    (g.tokens splits).flatMap (·.comments) = g.lexemes.filterMap Comment.ofLexeme? := by
  have hnone : Comment.ofLexeme? g.lexeme = none := by
    have hsignificant := h.significant
    unfold Comment.ofLexeme?
    generalize g.lexeme.kind = kind at hsignificant ⊢
    cases kind <;> first | rfl | cases hsignificant
  have hothers : others.flatMap (·.comments) = [] := List.flatMap_eq_nil_iff.2 h.bald
  rw [h.tokens_eq, List.flatMap_cons, h.comments, hothers, Group.lexemes, List.filterMap_append]
  simp [Group.comments, hnone]

theorem kept_of_mem_groups {text : String} {g : Group} (h : scan level text = .ok xs)
    (hg : g ∈ groups [] xs) : ∃ first others, g.Kept level splits first others := by
  obtain ⟨before, p, rfl, -, hbefore⟩ := scan_ok h
  obtain ⟨htrivia, hmem, hsignificant⟩ := mem_groups hg (by simp)
  rcases List.mem_append.1 hmem with hmem | hmem
  · have hgenuine := hbefore _ hmem
    cases hgt : g.lexeme.kind.startsWithGt with
    | false => exact ⟨_, _, kept_of_not_startsWithGt htrivia hsignificant (.inl hgenuine) hgt⟩
    | true =>
      obtain ⟨first, others, hkept⟩ := kept_of_startsWithGt htrivia hsignificant hgenuine hgt
      exact ⟨_, _, hkept⟩
  · have hend : IsEnd g.lexeme := by
      rw [List.mem_singleton.1 hmem]
      exact ⟨rfl, rfl⟩
    exact ⟨_, _, kept_of_not_startsWithGt htrivia hsignificant (.inr hend) hend.startsWithGt⟩

/-- The tokens of a row are segments of it, each with its own range. -/
theorem map_segmentOf_sublist (ts : List Token) :
    (bare ts).map segmentOf |>.Sublist (segments ts) := by
  induction ts with
  | nil => exact .slnil
  | cons t ts ih =>
    have hcons : (bare (t :: ts)).map segmentOf = [segmentOf t.toLexeme] ++
      (bare ts).map segmentOf := rfl
    rw [hcons, segments, List.flatMap_cons]
    exact (List.sublist_append_right _ _).append ih

theorem flatMap_comments {gs : List Group}
    (h : ∀ g ∈ gs, ∃ first others, g.Kept level splits first others) :
    (gs.flatMap (·.tokens splits)).flatMap (·.comments) =
      (gs.flatMap (·.lexemes)).filterMap Comment.ofLexeme? := by
  induction gs with
  | nil => rfl
  | cons g gs ih =>
    obtain ⟨first, others, hg⟩ := h g List.mem_cons_self
    rw [List.flatMap_cons, List.flatMap_cons, List.flatMap_append, List.filterMap_append,
      hg.flatMap_comments, ih fun g' hg' => h g' (List.mem_cons_of_mem _ hg')]

/-- Tokens of which only the last can be empty start one behind the other. -/
theorem pairwise_of_woven {initial : List Token} {last : Token}
    (h : Segment.Woven o (segments (initial ++ [last])) cs)
    (hinitial : ∀ t ∈ initial, Genuine level t.toLexeme) :
    (initial ++ [last]).Pairwise fun a b => a.start < b.start ∧ a.stop ≤ b.start := by
  have hsegments : ((bare (initial ++ [last])).map segmentOf).Pairwise
    fun a b => a.stop ≤ b.start :=
    h.pairwise.2.sublist (map_segmentOf_sublist _)
  have htokens : (initial ++ [last]).Pairwise fun a b => a.stop ≤ b.start :=
    List.pairwise_map.1 (List.pairwise_map.1 hsegments)
  have hnonempty : ∀ t ∈ initial, t.start < t.stop := by
    intro t ht
    have hne : t.text.toList ≠ [] := by simpa using (hinitial t ht).text_ne
    have hpos := utf8Length_pos hne
    rw [Lexeme.stop, utf8ByteSize_eq]
    omega
  obtain ⟨hfirst, -, hlast⟩ := List.pairwise_append.1 htokens
  refine List.pairwise_append.2 ⟨?_, List.pairwise_singleton _ _, ?_⟩
  · refine hfirst.imp_of_mem fun {a b} ha _ hab => ⟨?_, hab⟩
    exact Nat.lt_of_lt_of_le (hnonempty a ha) hab
  · intro a ha b hb
    have hab := hlast a ha b hb
    exact ⟨Nat.lt_of_lt_of_le (hnonempty a ha) hab, hab⟩

/--
The row of tokens of a text, whatever offsets its operators are to be cut at. Its tokens stand in
the text where they say, each in front of the next, and only the last of them is the end of the
file. They come in the groups of the lexemes, and those of each group are `Kept`; the comments are
those of the text in their order. Between comments and tokens there are only blanks, and the text is
found again from the row up to which blanks these are.
-/
theorem ofLexemes_lossless {text : String} {lexemes : List Lexeme} (splits : List Nat)
    (h : scan level text = .ok lexemes) :
    ∃ initial last, (ofLexemes lexemes splits).tokens.toList = initial ++ [last] ∧
      last.kind = .endOfFile ∧ (∀ t ∈ initial, t.kind ≠ .endOfFile) ∧
      (initial ++ [last]).Pairwise (fun a b => a.start < b.start ∧ a.stop ≤ b.start) ∧
      (∀ t ∈ initial ++ [last], slice? text.toList t.range = some t.text.toList) ∧
      lexemes = (groups [] lexemes).flatMap (·.lexemes) ∧
      initial ++ [last] = (groups [] lexemes).flatMap (·.tokens splits) ∧
      (∀ g ∈ groups [] lexemes, ∃ first others, g.Kept level splits first others) ∧
      (initial ++ [last]).flatMap (·.comments) = lexemes.filterMap Comment.ofLexeme? ∧
      Segment.Woven 0 (segments (initial ++ [last])) text.toList ∧
      Segment.Blanked text.toList (Segment.weave 0 (segments (initial ++ [last]))) := by
  obtain ⟨before, p, rfl, htiles, hbefore⟩ := scan_ok h
  have hend : IsEnd (endOfFile text.utf8ByteSize p) := ⟨rfl, rfl⟩
  obtain ⟨initial, last, hrow, hinitial⟩ := attachComments_concat splits hbefore hend []
  have hwoven := @woven_attachComments level splits before _ 0 _ hbefore htiles hend
    (by rw [Nat.zero_add, ← utf8ByteSize_eq]; rfl)
  have hgroups := attachComments_eq splits [] (before ++ [endOfFile text.utf8ByteSize p])
  rw [List.filterMap_nil] at hgroups
  have hlexemes : before ++ [endOfFile text.utf8ByteSize p] =
      (groups [] (before ++ [endOfFile text.utf8ByteSize p])).flatMap (·.lexemes) := by
    rw [flatMap_lexemes_groups hend.isTrivia, List.nil_append]
  rw [hrow] at hwoven hgroups
  have hkept : ∀ g ∈ groups [] (before ++ [endOfFile text.utf8ByteSize p]),
      ∃ first others, g.Kept level splits first others := fun g hg => kept_of_mem_groups h hg
  refine ⟨initial, _, hrow, rfl, fun t ht => (hinitial t ht).1.kind_ne,
    pairwise_of_woven hwoven fun t ht => (hinitial t ht).1, ?_, hlexemes, hgroups, hkept, ?_,
    hwoven, hwoven.blanked⟩
  · intro t ht
    have hmem : segmentOf t.toLexeme ∈ segments _ :=
      (map_segmentOf_sublist _).subset (List.mem_map_of_mem (List.mem_map_of_mem ht))
    exact @Segment.Woven.slice? _ [] _ hwoven _ hmem
  · rw [hgroups, flatMap_comments hkept, ← hlexemes]

/-- A comment in front of an operator that is cut twice, and one in front of the end of the file. -/
theorem ofLexemes_lossless_cut_twice : ∃ lexemes, scan .standard "a/*b*/>>>=//c" = .ok lexemes ∧
    (ofLexemes lexemes [8, 7, 3, 8]).tokens.toList.map
        (fun t => (t.start, t.text, t.comments.map (·.text))) =
      [(0, "a", []), (6, ">", ["/*b*/"]), (7, ">", []), (8, ">=", []), (13, "", ["//c"])] ∧
    ∃ initial last, (ofLexemes lexemes [8, 7, 3, 8]).tokens.toList = initial ++ [last] ∧
      last.kind = .endOfFile ∧
      (initial ++ [last]).Pairwise (fun a b => a.start < b.start ∧ a.stop ≤ b.start) ∧
      (initial ++ [last]).flatMap (·.comments) = lexemes.filterMap Comment.ofLexeme? ∧
      Segment.Woven 0 (segments (initial ++ [last])) "a/*b*/>>>=//c".toList := by
  have hscan : scan .standard "a/*b*/>>>=//c" = .ok
      [⟨.ident, "a", 0, ⟨1, 0⟩⟩, ⟨.blockComment, "/*b*/", 1, ⟨1, 1⟩⟩,
        ⟨.ushrEq, ">>>=", 6, ⟨1, 6⟩⟩, ⟨.lineComment, "//c", 10, ⟨1, 10⟩⟩,
        ⟨.endOfFile, "", 13, ⟨1, 13⟩⟩] :=
    toOption_eq_some.1 (by decide +kernel)
  obtain ⟨initial, last, hrow, hlast, -, hordered, -, -, -, -, hcomments, hwoven, -⟩ :=
    ofLexemes_lossless [8, 7, 3, 8] hscan
  exact ⟨_, hscan, by cbv, initial, last, hrow, hlast, hordered, hcomments, hwoven⟩

end TokenRow

end JavaAnalysis
