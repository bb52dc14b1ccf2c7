import JavaAnalysis.Proofs.Row.Cutting
import JavaAnalysis.Proofs.Row.Search

/-!
# Positions of lexemes

The position of a lexeme is found piece by piece, the lexemes before it being passed one after the
other. It is the position after all characters before it, because no lexeme ends inside the end of a
line that is `\r\n`: blanks go on as far as they can, and no other lexeme ends with `\r`. The pieces
of an operator stand on its line, one column for each character.
Main statements: `located_of_scan`, `at?_of_scan_error` and `located_tokensOf`.
-/

set_option autoImplicit false
set_option linter.dupNamespace false

namespace JavaAnalysis

namespace Position

/-- The position of an offset of a text, if a character or the end of the text is there. -/
def at? (text : List Char) (offset : Nat) : Option Position :=
  (splitAtOffset? text offset).map fun p => start.advance p.1

/-- No end of a line is cut in two between the texts. -/
def Unbroken (before after : List Char) : Prop :=
  before.getLast? = some '\r' → after.head? ≠ some '\n'

variable {before after text : List Char} {p : Position}

theorem at?_append (before after : List Char) :
    at? (before ++ after) (utf8Length before) = some (start.advance before) := by
  rw [at?, Segment.splitAtOffset?_append, Option.map_some]

theorem Unbroken.tail {c : Char} (h : Unbroken (c :: before) after) (hne : before ≠ []) :
    Unbroken before after := by
  intro hlast
  refine h ?_
  rw [← hlast]
  exact List.getLast?_append_of_ne_nil [c] hne

theorem Unbroken.append (h : Unbroken text after) (hne : text ≠ []) : Unbroken (before ++ text) after := by
  intro hlast
  rw [List.getLast?_append_of_ne_nil _ hne] at hlast
  exact h hlast

theorem Unbroken.take (h : Unbroken before (text ++ after)) : Unbroken before text := by
  intro hlast hhead
  refine h hlast ?_
  rw [List.head?_append, hhead]
  rfl

theorem advance_cons {c : Char} (h : Unbroken [c] after) :
    p.advance (c :: after) =
      if c = '\n' ∨ c = '\r' then p.nextLine.advance after else p.nextColumn.advance after := by
  rw [advance]
  rintro cs rfl rfl
  exact h rfl rfl

theorem unbroken_singleton {c : Char} {cs : List Char}
    (hpair : ∀ cs', c = '\r' → cs = '\n' :: cs' → False) (h : Unbroken (c :: cs) after) :
    Unbroken [c] (cs ++ after) := by
  intro hlast hhead
  obtain rfl : c = '\r' := by simpa using hlast
  cases cs with
  | nil => exact h rfl hhead
  | cons d ds =>
    obtain rfl : d = '\n' := by simpa using hhead
    exact hpair ds rfl rfl

/-- A text may be passed in two parts unless the end of a line is cut in two. -/
theorem advance_append (h : Unbroken before after) :
    p.advance (before ++ after) = (p.advance before).advance after := by
  fun_induction advance p before with
  | case1 => rfl
  | case2 p cs ih =>
    by_cases hcs : cs = []
    · subst hcs
      rfl
    · exact ih ((h.tail (List.cons_ne_nil _ _)).tail hcs)
  | case3 p c cs hpair hend ih =>
    rw [List.cons_append, advance_cons (unbroken_singleton hpair h), if_pos hend]
    by_cases hcs : cs = []
    · subst hcs
      rfl
    · exact ih (h.tail hcs)
  | case4 p c cs hpair hend ih =>
    rw [List.cons_append, advance_cons (unbroken_singleton hpair h), if_neg hend]
    by_cases hcs : cs = []
    · subst hcs
      rfl
    · exact ih (h.tail hcs)

/-- Characters that end no line take one column each. -/
theorem advance_of_inline (h : ∀ c ∈ text, c ≠ '\n' ∧ c ≠ '\r') :
    p.advance text = { p with column := p.column + text.length } := by
  induction text generalizing p with
  | nil => rfl
  | cons c cs ih =>
    obtain ⟨hn, hr⟩ := h c List.mem_cons_self
    have hunbroken : Unbroken [c] cs := fun hlast => absurd (by simpa using hlast) hr
    rw [advance_cons hunbroken, if_neg (by simp [hn, hr]),
      ih fun d hd => h d (List.mem_cons_of_mem _ hd)]
    simp only [nextColumn, List.length_cons, Nat.add_assoc, Nat.add_comm 1]

end Position

namespace Lexeme

open Position

/-! ## How lexemes end -/

/-- No `\r` is among the first characters. -/
def Inline (cs : List Char) (n : Nat) : Prop := '\r' ∉ cs.take n

theorem inline_zero (cs : List Char) : Inline cs 0 := List.not_mem_nil

theorem Inline.add {cs : List Char} {n m : Nat} (hn : Inline cs n) (hm : Inline (cs.drop n) m) :
    Inline cs (n + m) := by
  unfold Inline
  rw [List.take_add]
  exact fun hmem => (List.mem_append.1 hmem).elim hn hm

theorem inline_cons {c : Char} {cs : List Char} {n : Nat} (hc : c ≠ '\r') (h : Inline cs n) :
    Inline (c :: cs) (1 + n) := by
  unfold Inline
  rw [Nat.add_comm, List.take_succ_cons]
  exact fun hmem => (List.mem_cons.1 hmem).elim (fun heq => hc heq.symm) h

theorem inline_countWhile {p : Char → Bool} (hp : p '\r' = false) (cs : List Char) :
    Inline cs (countWhile p cs) := by
  unfold Inline
  rw [take_countWhile]
  intro hmem
  have hr := List.mem_takeWhile_imp hmem
  rw [hp] at hr
  cases hr

theorem inline_behind {p : Char → Bool} {f : List Char → Nat} (hp : p '\r' = false)
    (hf : ∀ cs, Inline cs (f cs)) (cs : List Char) : Inline cs (behind p f cs) := by
  cases cs with
  | nil => exact inline_zero _
  | cons c cs =>
    by_cases hc : p c = true
    · rw [behind, if_pos hc]
      refine inline_cons ?_ (hf cs)
      rintro rfl
      rw [hp] at hc
      cases hc
    · rw [behind, if_neg hc]
      exact inline_zero _

theorem inline_exponentLength {marker : Char} (hmarker : marker ≠ '\r') (cs : List Char) :
    Inline cs (exponentLength marker cs) := by
  rw [exponentLength_eq]
  have hlower : '\r'.toLower = '\r' := rfl
  refine inline_behind (by simpa [hlower] using hmarker.symm) (fun cs => ?_) cs
  exact (inline_behind rfl inline_zero cs).add (inline_countWhile rfl _)

theorem inline_suffix (floating : Bool) (cs : List Char) : Inline cs (suffix floating cs).2 := by
  unfold Inline suffix
  split
  · unfold floatSuffix
    split <;> simp
  · unfold intSuffix
    split <;> simp

theorem inline_endNumber {floating : Bool} {cs : List Char} {n : Nat} (h : Inline cs n) :
    Inline cs (endNumber floating n cs).2 :=
  h.add (inline_suffix floating _)

theorem inline_body {digit : Char → Bool} {marker : Char} (hdigit : digit '\r' = false)
    (hmarker : marker ≠ '\r') (cs : List Char) : Inline cs (body digit marker cs).2 :=
  ((inline_countWhile hdigit cs).add (inline_behind rfl (inline_countWhile hdigit) _)).add
    (inline_exponentLength hmarker _)

theorem inline_decimalNumber (cs : List Char) : Inline cs (decimalNumber cs).2 := by
  by_cases hdots : ∃ ds, cs.drop (countWhile isDigitPart cs) = '.' :: '.' :: ds
  · obtain ⟨ds, hdots⟩ := hdots
    rw [decimalNumber_of_dots hdots]
    exact inline_countWhile rfl cs
  · rw [decimalNumber_eq fun ds h => hdots ⟨ds, h⟩]
    exact (inline_body rfl (by decide) cs).add (inline_suffix _ _)

theorem inline_number (c : Char) (cs : List Char) : Inline cs (number c cs).2 := by
  by_cases hc : c = '0'
  · subst hc
    cases cs with
    | nil => exact List.not_mem_nil
    | cons d ds =>
      rw [number_zero]
      dsimp only
      split
      · rename_i hx
        rw [hexNumber_eq]
        refine Nat.add_comm 1 _ ▸ inline_cons ?_ (inline_endNumber (inline_body rfl (by decide) ds))
        rcases hx with rfl | rfl <;> decide
      split
      · exact inline_endNumber (inline_behind rfl (inline_countWhile rfl) _)
      · exact inline_decimalNumber _
  · have hnumber : number c = decimalNumber := by
      funext cs
      simp [number, hc]
    rw [hnumber]
    exact inline_decimalNumber cs

theorem inline_fraction (cs : List Char) : Inline cs (fraction cs).2 :=
  inline_endNumber ((inline_countWhile rfl cs).add (inline_exponentLength (by decide) _))

/-- A text ends with a character other than `\r`. -/
def Sealed (cs : List Char) : Prop := ∃ c, cs.getLast? = some c ∧ c ≠ '\r'

theorem Sealed.cons {cs : List Char} (h : Sealed cs) (c : Char) : Sealed (c :: cs) := by
  obtain ⟨d, hlast, hne⟩ := h
  exact ⟨d, by rw [List.getLast?_cons, hlast]; rfl, hne⟩

theorem Sealed.unbroken {cs : List Char} (h : Sealed cs) (after : List Char) : Unbroken cs after := by
  obtain ⟨c, hlast, hne⟩ := h
  intro hlast'
  rw [hlast, Option.some.injEq] at hlast'
  exact absurd hlast' hne

theorem sealed_of_not_mem {cs : List Char} (hne : cs ≠ []) (h : '\r' ∉ cs) : Sealed cs :=
  ⟨_, List.getLast?_eq_some_getLast hne, fun heq => h (heq ▸ List.getLast_mem hne)⟩

theorem sealed_of_inline {c : Char} {cs : List Char} {n : Nat} (hc : c ≠ '\r')
    (h : Inline cs n) : Sealed (c :: cs.take n) :=
  sealed_of_not_mem (List.cons_ne_nil _ _) fun hmem =>
    (List.mem_cons.1 hmem).elim (fun heq => hc heq.symm) h

theorem getLast?_quoted {quote : Char} {cs : List Char} {n : Nat}
    (h : quotedLength? quote cs = some n) : (cs.take n).getLast? = some quote := by
  fun_induction quotedLength? quote cs generalizing n with
  | case1 => cases h
  | case2 => cases h
  | case3 => cases h
  | case4 c cs hend ih =>
    obtain ⟨m, hm, rfl⟩ := Option.map_eq_some_iff.1 h
    rw [List.take_succ_cons, List.take_succ_cons, List.getLast?_cons_cons, List.getLast?_cons, ih hm]
    rfl
  | case5 => cases h
  | case6 cs hlast hpair hend =>
    cases h
    rfl
  | case7 c cs hlast hpair hend hquote ih =>
    obtain ⟨m, hm, rfl⟩ := Option.map_eq_some_iff.1 h
    rw [List.take_succ_cons, List.getLast?_cons, ih hm]
    rfl

theorem getLast?_textBlock {cs : List Char} {n : Nat} (h : textBlockLength? cs = some n) :
    (cs.take n).getLast? = some '"' := by
  fun_induction textBlockLength? cs generalizing n with
  | case1 => cases h
  | case2 => cases h
  | case3 c cs ih =>
    obtain ⟨m, hm, rfl⟩ := Option.map_eq_some_iff.1 h
    rw [List.take_succ_cons, List.take_succ_cons, List.getLast?_cons_cons, List.getLast?_cons, ih hm]
    rfl
  | case4 =>
    cases h
    rfl
  | case5 c cs hlast hpair hquotes ih =>
    obtain ⟨m, hm, rfl⟩ := Option.map_eq_some_iff.1 h
    rw [List.take_succ_cons, List.getLast?_cons, ih hm]
    rfl

theorem getLast?_blockComment {cs : List Char} {n : Nat} (h : blockCommentLength? cs = some n) :
    (cs.take n).getLast? = some '/' := by
  fun_induction blockCommentLength? cs generalizing n with
  | case1 => cases h
  | case2 =>
    cases h
    rfl
  | case3 c cs hend ih =>
    obtain ⟨m, hm, rfl⟩ := Option.map_eq_some_iff.1 h
    rw [List.take_succ_cons, List.getLast?_cons, ih hm]
    rfl

variable {level : LanguageLevel} {kind : TokenKind}

theorem getLast?_stringLine {cs : List Char} {n : Nat} (h : (match quotedLength? '"' cs with
      | some n => Except.ok (TokenKind.stringLiteral, n)
      | none => .error LexFault.unterminatedString) = .ok (kind, n)) :
    (cs.take n).getLast? = some '"' := by
  cases hlength : quotedLength? '"' cs with
  | none => simp [hlength] at h
  | some m =>
    obtain ⟨-, rfl⟩ : TokenKind.stringLiteral = kind ∧ m = n := by simpa [hlength] using h
    exact getLast?_quoted hlength

theorem getLast?_string {cs : List Char} {n : Nat} (h : string level cs = .ok (kind, n)) :
    (cs.take n).getLast? = some '"' := by
  unfold string at h
  dsimp only at h
  split at h
  · rename_i rest
    split at h
    · cases hlength : textBlockLength? rest with
      | none => simp [hlength] at h
      | some m =>
        obtain ⟨-, rfl⟩ : TokenKind.textBlock = kind ∧ m + 2 = n := by simpa [hlength] using h
        rw [List.take_succ_cons, List.take_succ_cons, List.getLast?_cons_cons, List.getLast?_cons,
          getLast?_textBlock hlength]
        rfl
    · exact getLast?_stringLine h
  · exact getLast?_stringLine h

theorem sealed_comment {cs : List Char} {n : Nat} (h : comment? level cs = some (.ok (kind, n))) :
    Sealed (cs.take n) := by
  unfold comment? at h
  split at h
  · rename_i ds
    obtain ⟨-, rfl⟩ := Prod.mk.inj (Except.ok.inj (Option.some.inj h))
    rw [Nat.add_comm, List.take_succ_cons]
    exact sealed_of_inline (by decide) (inline_countWhile rfl ds)
  · rename_i ds
    cases hlength : blockCommentLength? ds with
    | none => simp [hlength] at h
    | some m =>
      obtain ⟨-, rfl⟩ : _ ∧ 1 + m = n := by simpa [hlength] using h
      rw [Nat.add_comm, List.take_succ_cons]
      exact Sealed.cons ⟨'/', getLast?_blockComment hlength, by decide⟩ _
  · cases h

theorem operators_sealed : ∀ entry ∈ operators, entry.1 ≠ [] ∧ '\r' ∉ entry.1 := by decide

/-- No lexeme ends between the two characters of an end of a line. -/
theorem next_unbroken {c : Char} {inside rest : List Char}
    (h : next level c (inside ++ rest) = .ok (kind, inside.length)) : Unbroken (c :: inside) rest := by
  generalize hcs : inside ++ rest = cs at h
  generalize hn : inside.length = n at h
  have hinside : inside = cs.take n := by simp [← hcs, ← hn]
  have hrest : rest = cs.drop n := by simp [← hcs, ← hn]
  clear hcs hn
  subst hinside hrest
  cases next_cases h with
  | blanks =>
    intro _ hhead
    have hdrop : cs.drop (countWhile isBlank cs) = cs.dropWhile isBlank := by
      rw [countWhile]
      nth_rewrite 2 [← @List.takeWhile_append_dropWhile _ isBlank cs]
      exact List.drop_left
    have hnot := List.head?_dropWhile_not isBlank cs
    rw [← hdrop, hhead] at hnot
    cases hnot
  | number hc =>
    refine (sealed_of_inline ?_ (inline_number c cs)).unbroken _
    rintro rfl
    cases hc
  | fraction hc => exact (sealed_of_inline (by rw [hc]; decide) (inline_fraction cs)).unbroken _
  | comment hcomment => exact ((sealed_comment hcomment).cons c).unbroken _
  | charLiteral hlength =>
    exact (Sealed.cons ⟨_, getLast?_quoted hlength, by decide⟩ c).unbroken _
  | stringLiteral hstring =>
    exact (Sealed.cons ⟨_, getLast?_string hstring, by decide⟩ c).unbroken _
  | operator hop =>
    rw [take_operator hop]
    obtain ⟨hne, hmem⟩ := operators_sealed _ (operatorAt?_mem hop).1
    exact (sealed_of_not_mem hne hmem).unbroken _
  | word hc =>
    refine (sealed_of_inline ?_ (inline_countWhile ?_ cs)).unbroken _
    · rintro rfl
      revert hc
      decide
    · decide

/-! ## Where lexemes are -/

/-- A text is passed up to an offset, its position is that of the offset, and no line end is cut. -/
def Reached (text : List Char) (o : Nat) (p : Position) (left : List Char) : Prop :=
  ∃ before, text = before ++ left ∧ o = utf8Length before ∧ p = Position.start.advance before ∧
    Unbroken before left

/-- The lexeme stands in the text at its offset and has the position of its offset. -/
def Located (text : List Char) (x : Lexeme) : Prop :=
  ∃ after, Reached text x.start x.position (x.text.toList ++ after)

variable {text left : List Char} {x : Lexeme} {o : Nat} {p : Position}

theorem reached_start (text : List Char) : Reached text 0 .start text :=
  ⟨[], rfl, rfl, rfl, fun h => by cases h⟩

theorem Reached.at? (h : Reached text o p left) : at? text o = some p := by
  obtain ⟨before, rfl, rfl, rfl, -⟩ := h
  exact at?_append before left

theorem Reached.advance {cs rest : List Char} (h : Reached text o p (cs ++ rest)) (hne : cs ≠ [])
    (hcs : Unbroken cs rest) : Reached text (o + utf8Length cs) (p.advance cs) rest := by
  obtain ⟨before, rfl, rfl, rfl, hunbroken⟩ := h
  refine ⟨before ++ cs, by rw [List.append_assoc], (utf8Length_append _ _).symm, ?_, hcs.append hne⟩
  rw [advance_append hunbroken.take]

theorem Located.at?_start (h : Located text x) : Position.at? text x.start = some x.position := by
  obtain ⟨after, hreached⟩ := h
  exact hreached.at?

theorem Located.at?_stop (h : Located text x) :
    Position.at? text x.stop = some (x.position.advance x.text.toList) := by
  obtain ⟨after, before, rfl, hstart, hposition, hunbroken⟩ := h
  have hstop : x.stop = utf8Length (before ++ x.text.toList) := by
    rw [Lexeme.stop, hstart, utf8ByteSize_eq, utf8Length_append]
  rw [hstop, hposition, ← advance_append hunbroken.take, ← List.append_assoc]
  exact at?_append _ _

/-- A character of a lexeme has a position. -/
theorem Located.isSome_at? {cs rest : List Char} (h : Located text x)
    (hx : x.text.toList = cs ++ rest) :
    (Position.at? text (x.start + utf8Length cs)).isSome := by
  obtain ⟨after, before, rfl, hstart, -⟩ := h
  rw [hx, hstart, ← utf8Length_append, List.append_assoc, ← List.append_assoc before, at?_append]
  rfl

theorem Scans.located {o' : Nat} {p' : Position} {cs : List Char} {xs : List Lexeme}
    (h : Scans level o p cs xs o' p' left) (hreached : Reached text o p cs) :
    Reached text o' p' left ∧ ∀ x ∈ xs, Located text x := by
  induction h with
  | done => exact ⟨hreached, by simp⟩
  | @step o o' p p' c inside rest left kind xs first others ih =>
    have hnext : Reached text _ _ rest :=
      .advance hreached (List.cons_ne_nil c inside) (next_unbroken first)
    obtain ⟨hleft, hlocated⟩ := ih hnext
    refine ⟨hleft, List.forall_mem_cons.2 ⟨⟨rest, ?_⟩, hlocated⟩⟩
    rw [String.toList_ofList]
    exact hreached

/-- All lexemes of a text have the positions of their offsets. -/
theorem located_of_scan {text : String} {lexemes : List Lexeme} (h : scan level text = .ok lexemes) :
    ∀ x ∈ lexemes, Located text.toList x := by
  unfold scan at h
  rcases scanFrom_cases level 0 .start text.toList with
    ⟨before, o, p, hrun, hok⟩ | ⟨_, _, _, _, _, _, -, -, herr⟩
  · rw [hok] at h
    cases h
    obtain ⟨hend, hlocated⟩ := hrun.located (reached_start text.toList)
    intro x hx
    rcases List.mem_append.1 hx with hx | hx
    · exact hlocated x hx
    · rw [List.mem_singleton.1 hx]
      exact ⟨[], hend⟩
  · rw [herr] at h
    cases h

/-- The position of a fault is that of its offset. -/
theorem at?_of_scan_error {text : String} {e : LexError} (h : scan level text = .error e) :
    Position.at? text.toList e.offset = some e.position := by
  unfold scan at h
  rcases scanFrom_cases level 0 .start text.toList with
    ⟨_, _, _, -, hok⟩ | ⟨xs, o, p, c, rest, fault, hrun, -, herr⟩
  · rw [hok] at h
    cases h
  · rw [herr] at h
    cases h
    exact (hrun.located (reached_start text.toList)).1.at?

end Lexeme

namespace TokenRow

open Lexeme

variable {text : List Char} {x : Lexeme}

/-- The parts of an operator lie one behind the other. -/
theorem cutAt_append {start : Nat} {cs : List Char} {cuts : List Nat}
    (hcuts : cuts.Pairwise (· < ·)) (hinside : ∀ o ∈ cuts, start < o ∧ o < start + cs.length) :
    ∀ part ∈ cutAt start cs cuts, ∃ before after, cs = before ++ (part.2 ++ after) ∧
      part.1 = start + before.length := by
  induction cuts generalizing start cs with
  | nil =>
    intro part hpart
    rw [List.mem_singleton.1 hpart]
    exact ⟨[], [], by simp, rfl⟩
  | cons o os ih =>
    obtain ⟨hafter, hos⟩ := List.pairwise_cons.1 hcuts
    obtain ⟨hstart, hstop⟩ := hinside o List.mem_cons_self
    have hlater : ∀ q ∈ os, o < q ∧ q < o + (cs.drop (o - start)).length := by
      intro q hq
      have hlt := hafter q hq
      have hbound := (hinside q (List.mem_cons_of_mem _ hq)).2
      rw [List.length_drop]
      omega
    intro part hpart
    rcases List.mem_cons.1 hpart with rfl | hpart
    · exact ⟨[], cs.drop (o - start), (List.take_append_drop _ _).symm, rfl⟩
    · obtain ⟨before, after, hcs, hoffset⟩ := ih hos hlater part hpart
      refine ⟨cs.take (o - start) ++ before, after, ?_, ?_⟩
      · rw [List.append_assoc, ← hcs, List.take_append_drop]
      · rw [hoffset, List.length_append, List.length_take]
        omega

/-- No operator that starts with `>` ends a line. -/
theorem inline_of_part {cs : List Char} (h : cs <:+: longestGt) : ∀ c ∈ cs, c ≠ '\n' ∧ c ≠ '\r' := by
  have hall : ∀ c ∈ longestGt, c ≠ '\n' ∧ c ≠ '\r' := by simp [longestGt]
  exact fun c hc => hall c (h.subset hc)

theorem exists_mem_of_mapM {α β : Type} {f : α → Option β} {as : List α} {bs : List β} {b : β}
    (h : as.mapM f = some bs) (hb : b ∈ bs) : ∃ a ∈ as, f a = some b := by
  induction as generalizing bs with
  | nil =>
    cases h
    cases hb
  | cons a as ih =>
    simp only [List.mapM_cons, Option.bind_eq_bind, Option.bind_eq_some_iff, Option.pure_def,
      Option.some.injEq] at h
    obtain ⟨b', hb', bs', hbs', rfl⟩ := h
    rcases List.mem_cons.1 hb with rfl | hb
    · exact ⟨a, List.mem_cons_self, hb'⟩
    · obtain ⟨a', ha', hfa⟩ := ih hbs' hb
      exact ⟨a', List.mem_cons_of_mem _ ha', hfa⟩

/-- A piece of an operator has the position of its offset if the operator has. -/
theorem located_pieceOf? {before rest : List Char} {part : Nat × List Char} {t : Token}
    (htext : x.text.toList = before ++ (part.2 ++ rest)) (hpart : x.text.toList <:+: longestGt)
    (hstart : part.1 = x.start + before.length) (ht : pieceOf? x part = some t)
    (h : Located text x) : Located text t.toLexeme := by
  obtain ⟨after, hreached⟩ := h
  rw [htext, List.append_assoc, List.append_assoc] at hreached
  obtain ⟨-, hlexeme⟩ := pieceOf?_eq_some ht
  have hbefore : before <:+: longestGt :=
    (htext ▸ (List.prefix_append before _).isInfix).trans hpart
  have hpassed : Reached text part.1
      { x.position with column := x.position.column + (part.1 - x.start) }
      (part.2 ++ (rest ++ after)) := by
    by_cases hne : before = []
    · subst hne
      have hfirst : part.1 = x.start := hstart
      rw [hfirst, Nat.sub_self, Nat.add_zero]
      exact hreached
    · have hinline := inline_of_part hbefore
      have hsealed := sealed_of_not_mem hne fun hmem => (hinline _ hmem).2 rfl
      have hnext := hreached.advance hne (hsealed.unbroken _)
      rw [utf8Length_part hbefore, Position.advance_of_inline hinline] at hnext
      rw [hstart, Nat.add_sub_cancel_left]
      exact hnext
  refine ⟨rest ++ after, ?_⟩
  rw [hlexeme, String.toList_ofList]
  exact hpassed

/-- The pieces of a lexeme have the positions of their offsets if the lexeme has. -/
theorem located_tokensOf {level : LanguageLevel} (splits : List Nat) (comments : List Comment)
    (hx : Readable level x) (h : Located text x) :
    ∀ t ∈ tokensOf splits comments x, Located text t.toLexeme := by
  intro t ht
  cases hgt : x.kind.startsWithGt with
  | false =>
    rw [tokensOf_of_not_startsWithGt splits hx hgt] at ht
    rw [List.mem_singleton.1 ht]
    exact h
  | true =>
    have hgenuine : Genuine level x := hx.genuine fun hend => by
      rw [hend] at hgt
      cases hgt
    have hpart : x.text.toList <:+: longestGt := part_of_ofGtText? (hgenuine.gtText hgt)
    obtain ⟨first, others, hpieces, htokens, -⟩ :=
      tokensOf_of_startsWithGt splits hgenuine hgt comments
    obtain ⟨t', ht', hsame⟩ : ∃ t' ∈ first :: others, t'.toLexeme = t.toLexeme := by
      rw [htokens] at ht
      rcases List.mem_cons.1 ht with rfl | ht
      · exact ⟨first, List.mem_cons_self, rfl⟩
      · exact ⟨t, List.mem_cons_of_mem _ ht, rfl⟩
    obtain ⟨part, hmem, hpiece⟩ := exists_mem_of_mapM hpieces ht'
    have hinside : ∀ o ∈ cutsIn splits x, x.start < o ∧ o < x.start + x.text.toList.length := by
      intro o ho
      obtain ⟨-, -, hlt, hstop⟩ := mem_cutsIn.1 ho
      rw [Lexeme.stop, utf8ByteSize_eq, utf8Length_part hpart] at hstop
      exact ⟨hlt, hstop⟩
    obtain ⟨before, rest, htext, hstart⟩ := cutAt_append (pairwise_cutsIn splits x) hinside part hmem
    rw [← hsame]
    exact located_pieceOf? htext hpart hstart hpiece h

theorem readable_of_scan {level : LanguageLevel} {text : String} {lexemes : List Lexeme}
    (h : scan level text = .ok lexemes) : ∀ x ∈ lexemes, Readable level x := by
  obtain ⟨before, p, rfl, -, hbefore⟩ := scan_ok h
  exact readable_of_mem hbefore ⟨rfl, rfl⟩

/-- All tokens of a text have the positions of their offsets, and so have their comments. -/
theorem located_ofLexemes {level : LanguageLevel} {text : String} {lexemes : List Lexeme}
    (splits : List Nat) (h : scan level text = .ok lexemes) :
    ∀ t ∈ (ofLexemes lexemes splits).tokens.toList, Located text.toList t.toLexeme ∧
      ∀ c ∈ t.comments, Position.at? text.toList c.start = some c.position := by
  have hlocated := located_of_scan h
  obtain ⟨initial, last, hrow, -, -, -, -, -, -, -, hcomments, -, -⟩ := ofLexemes_lossless splits h
  intro t ht
  constructor
  · obtain ⟨x, hx, -, comments, hmem⟩ := mem_attachComments (List.mem_toArray.1 (Array.mem_def.2 ht))
    exact located_tokensOf splits comments (readable_of_scan h x hx) (hlocated x hx) t hmem
  · intro c hc
    rw [hrow] at ht
    have hmem : c ∈ lexemes.filterMap Comment.ofLexeme? :=
      hcomments ▸ List.mem_flatMap.2 ⟨t, ht, hc⟩
    obtain ⟨x, hx, hof⟩ := List.mem_filterMap.1 hmem
    obtain ⟨kind, -, rfl⟩ := Option.map_eq_some_iff.1 hof
    exact (hlocated x hx).at?_start

end TokenRow

end JavaAnalysis
