import JavaAnalysis.Proofs.Buffer.Undo
import JavaAnalysis.Parser.Statements
import JavaAnalysis.Proofs.Parser.Angles

/-!
# Parsing in place and over rows of lexemes

A state of the buffer and a place in a row of lexemes may be the same place of a file: `Stands` says
so. A parser that works in place `Realizes` one over rows of lexemes when from the same place they
fail alike, or give the same and end at the same place. Each of the steps of `InPlace` realizes the
one of its name, and coming back in place realizes the use of an old place.
-/

set_option autoImplicit false
set_option linter.dupNamespace false

namespace JavaAnalysis.Parser

open Lexeme Ast Buffer

/-- The buffer and the row of lexemes stand at the same place of a file. -/
structure Stands (b : Buffer) (s : State) : Prop where
  tokens_eq : b.tokens = s.lexemes.map Tok.ofLexeme
  pos_eq : b.pos = s.consumed.length
  previousStop_eq : b.previousStop = s.previousStop
  slices : ∀ x ∈ s.lexemes, slice? b.text.toList x.range = some x.text.toList
  spelled : b.Spelled
  final : s.rest.getLast? = some s.final
  final_kind : s.final.kind = .endOfFile

/-- The outcomes are alike, and where they are no failures they stand at the same place. -/
inductive Agree {α : Type} :
    Except SyntaxError α × Buffer → Except SyntaxError (α × State) → Prop where
  | ok {x : α} {c : Buffer} {t : State} (h : Stands c t) : Agree (.ok x, c) (.ok (x, t))
  | error (e : SyntaxError) (c : Buffer) : Agree (.error e, c) (.error e)

/-- From the same place the parsers do the same. -/
def Realizes {α : Type} (p : InPlace α) (q : Parser α) : Prop :=
  ∀ b s, Stands b s → Agree (p b) (q s)

variable {α β : Type} {b : Buffer} {s : State}

/-- The two parts of a piece of text are found at the two parts of its range. -/
theorem slice?_of_append {cs front back : List Char} {r : TextRange}
    (h : slice? cs r = some (front ++ back)) (hle : r.start ≤ r.stop) :
    slice? cs ⟨r.start, r.start + utf8Length front⟩ = some front ∧
      slice? cs ⟨r.start + utf8Length front, r.stop⟩ = some back := by
  simp only [slice?, Option.bind_eq_bind, Option.bind_eq_some_iff, Option.pure_def,
    Option.some.injEq] at h
  obtain ⟨⟨before, rest⟩, hrest, ⟨inside, after⟩, hinside, rfl⟩ := h
  obtain ⟨rfl, hstart⟩ := splitAtOffset?_eq_some hrest
  obtain ⟨rfl, hstop⟩ := splitAtOffset?_eq_some hinside
  have hfront := Segment.slice?_append before front (back ++ after)
  have hback := Segment.slice?_append (before ++ front) back after
  simp only [utf8Length_append, List.append_assoc] at hstart hstop hfront hback ⊢
  rw [hstart] at hfront hback
  rw [show r.start + utf8Length front + utf8Length back = r.stop by omega] at hback
  exact ⟨hfront, hback⟩

theorem toList_of_ofGtText? {text : String} {kind : TokenKind}
    (h : TokenKind.ofGtText? text = some kind) (hangle : kind.startsWithGt = true) :
    ∃ tail, text.toList = '>' :: tail := by
  unfold TokenKind.ofGtText? at h
  repeat' split at h
  all_goals first | exact ⟨_, by simp_all; rfl⟩ | skip
  all_goals cases h
  cases hangle

namespace Stands

theorem token_eq (h : Stands b s) (n : Nat) : b.token n = Tok.ofLexeme (s.lexeme n) := by
  have hne : s.rest ≠ [] := by
    rintro hnil
    simpa [hnil] using h.final
  have hlen : 0 < s.rest.length := List.length_pos_iff.2 hne
  rw [token, h.tokens_eq, h.pos_eq, List.length_map, List.getElem?_map, State.lexemes,
    List.length_append, List.length_reverse, State.lexeme]
  by_cases hn : n < s.rest.length
  · rw [Nat.min_eq_left (by omega), List.getElem?_append_right (by simp), List.length_reverse,
      Nat.add_sub_cancel_left, List.getElem?_eq_getElem hn]
    rfl
  · rw [Nat.min_eq_right (by omega), List.getElem?_append_right (by simp; omega),
      List.length_reverse, show s.consumed.length + s.rest.length - 1 - s.consumed.length =
        s.rest.length - 1 by omega, ← List.getLast?_eq_getElem?, h.final,
      List.getElem?_eq_none (by omega)]
    rfl

theorem kind_eq (h : Stands b s) (n : Nat) : b.kind n = s.kind n := by
  rw [Buffer.kind, h.token_eq]
  rfl

theorem start_eq (h : Stands b s) : b.start = s.start := by
  rw [Buffer.start, h.token_eq]
  rfl

theorem rangeFrom_eq (h : Stands b s) (start : Nat) : b.rangeFrom start = s.rangeFrom start := by
  rw [Buffer.rangeFrom, h.previousStop_eq]
  rfl

theorem rest_eq (h : Stands b s) : ∃ x xs, s.rest = x :: xs ∧ s.lexeme 0 = x := by
  cases hrest : s.rest with
  | nil => simpa [hrest] using h.final
  | cons x xs => exact ⟨x, xs, rfl, by simp [State.lexeme, hrest]⟩

theorem textOf_eq (h : Stands b s) : b.textOf (s.lexeme 0).range = (s.lexeme 0).text := by
  obtain ⟨x, xs, hrest, hx⟩ := h.rest_eq
  rw [hx, Buffer.textOf, h.slices x (by simp [State.lexemes, hrest]), Option.getD_some,
    String.ofList_toList]

theorem expected_eq (h : Stands b s) (what : String) :
    (expected what : Parser α) s = .error (b.expected what) := by
  rw [Buffer.expected, h.token_eq]
  show (if (s.lexeme 0).kind = .endOfFile then _ else _ : Parser α) s = _
  by_cases hkind : (s.lexeme 0).kind = .endOfFile
  · rw [if_pos hkind, if_pos (show (Tok.ofLexeme (s.lexeme 0)).kind = _ from hkind)]
    rfl
  · rw [if_neg hkind, if_neg (show (Tok.ofLexeme (s.lexeme 0)).kind ≠ _ from hkind)]
    rw [show (Tok.ofLexeme (s.lexeme 0)).range = (s.lexeme 0).range from rfl, h.textOf_eq]
    rfl

/-- What stands behind the first character of an operator, and where. -/
structure Tail (b : Buffer) (x : Lexeme) (tail : List Char) : Prop where
  toList_eq : x.text.toList = '>' :: tail
  slice_front : slice? b.text.toList ⟨x.start, x.start + 1⟩ = some ['>']
  slice_back : slice? b.text.toList ⟨x.start + 1, x.stop⟩ = some tail
  stop_eq : x.stop = x.start + 1 + utf8Length tail

variable {x : Lexeme} {xs : List Lexeme} {tail : List Char}

theorem exists_tail (h : Stands b s) (hrest : s.rest = x :: xs)
    (hangle : x.kind.startsWithGt = true) (hgt : x.kind ≠ .gt) : ∃ tail, Tail b x tail := by
  have hmem : x ∈ s.lexemes := by simp [State.lexemes, hrest]
  have hslice := h.slices x hmem
  have hkind := h.spelled (Tok.ofLexeme x) (h.tokens_eq ▸ List.mem_map_of_mem hmem) hangle hgt
  rw [Buffer.textOf, show slice? _ (Tok.ofLexeme x).range = _ from hslice, Option.getD_some,
    String.ofList_toList] at hkind
  obtain ⟨tail, htail⟩ := toList_of_ofGtText? hkind hangle
  rw [htail] at hslice
  rw [← List.singleton_append] at hslice
  obtain ⟨hfront, hback⟩ := slice?_of_append hslice (Nat.le_add_right _ _)
  refine ⟨tail, htail, hfront, hback, ?_⟩
  rw [stop, utf8ByteSize_eq, htail, utf8Length, Nat.add_assoc]
  rfl

theorem afterGt?_eq (htail : Tail b x tail) (hangle : x.kind.startsWithGt = true) :
    x.afterGt? = (TokenKind.ofGtText? (String.ofList tail)).map fun kind =>
      ⟨kind, String.ofList tail, x.start + 1, x.position.nextColumn⟩ := by
  rw [afterGt?, if_pos hangle, htail.toList_eq]
  rfl

theorem cut?_eq (h : Stands b s) (hrest : s.rest = x :: xs) (htail : Tail b x tail) :
    b.cut? = (TokenKind.ofGtText? (String.ofList tail)).map fun kind =>
      { b with
        tokens := s.consumed.reverse.map Tok.ofLexeme ++ ⟨.gt, ⟨x.start, x.start + 1⟩⟩ ::
          ⟨kind, ⟨x.start + 1, x.stop⟩⟩ :: xs.map Tok.ofLexeme
        cuts := b.pos :: b.cuts } := by
  have htoken : b.token 0 = Tok.ofLexeme x := by
    rw [h.token_eq]
    simp [State.lexeme, hrest]
  have hleft : b.textOf ⟨x.start + 1, x.stop⟩ = String.ofList tail := by
    rw [Buffer.textOf, htail.slice_back]
    rfl
  have hpos : b.pos = (s.consumed.reverse.map Tok.ofLexeme).length := by
    rw [List.length_map, List.length_reverse, h.pos_eq]
  have htokens : b.tokens = s.consumed.reverse.map Tok.ofLexeme ++ Tok.ofLexeme x ::
      xs.map Tok.ofLexeme := by
    rw [h.tokens_eq, State.lexemes, hrest, List.map_append, List.map_cons]
  rw [Buffer.cut?, htoken]
  simp only [Tok.ofLexeme, range, hleft]
  congr 1
  funext kind
  rw [htokens, hpos, List.set_append_right _ _ (Nat.le_refl _), Nat.sub_self, List.set_cons_zero,
    insertIdx_append]

/-- Behind the cut, the rest of the operator stands in front. -/
theorem of_cut (h : Stands b s) (hrest : s.rest = x :: xs) (htail : Tail b x tail)
    (hangle : x.kind.startsWithGt = true) {c : Buffer} {kind : TokenKind} (hspelled : c.Spelled)
    (hc : c = { b with
      tokens := s.consumed.reverse.map Tok.ofLexeme ++ ⟨.gt, ⟨x.start, x.start + 1⟩⟩ ::
        ⟨kind, ⟨x.start + 1, x.stop⟩⟩ :: xs.map Tok.ofLexeme
      cuts := b.pos :: b.cuts }) :
    Stands c.advanced { s with
      rest := ⟨kind, String.ofList tail, x.start + 1, x.position.nextColumn⟩ :: xs
      consumed := x.headGt :: s.consumed } := by
  have hhead : c.token 0 = ⟨.gt, ⟨x.start, x.start + 1⟩⟩ := by
    have hpos : b.pos = (s.consumed.reverse.map Tok.ofLexeme).length := by
      rw [List.length_map, List.length_reverse, h.pos_eq]
    rw [hc, token]
    simp [hpos]
  have hadvanced : c.advanced = { c with pos := b.pos + 1, previousStop := x.start + 1 } := by
    rw [Buffer.advanced, hhead, if_neg (by simp), hc]
  have hback : range ⟨kind, String.ofList tail, x.start + 1, x.position.nextColumn⟩ =
      ⟨x.start + 1, x.stop⟩ := by
    rw [range, stop, utf8ByteSize_ofList, htail.stop_eq]
  have hlater : xs ≠ [] := by
    rintro rfl
    obtain rfl : x = s.final := by simpa [hrest] using h.final
    rw [h.final_kind] at hangle
    cases hangle
  rw [hadvanced, hc]
  refine ⟨?_, ?_, rfl, fun z hz => ?_, ?_, ?_, h.final_kind⟩
  · simp only [State.lexemes, List.reverse_cons, List.append_assoc, List.singleton_append,
      List.map_append, List.map_cons]
    rw [Tok.ofLexeme, Tok.ofLexeme, hback]
    rfl
  · simp [h.pos_eq]
  · simp only [State.lexemes, List.reverse_cons, List.append_assoc, List.singleton_append,
      List.mem_append, List.mem_cons] at hz
    rcases hz with hz | rfl | rfl | hz
    · exact h.slices z (by simp [State.lexemes, hz])
    · have hfront : x.headGt.range = ⟨x.start, x.start + 1⟩ := rfl
      rw [hfront, headGt, show ">".toList = ['>'] by decide]
      exact htail.slice_front
    · rw [hback, String.toList_ofList]
      exact htail.slice_back
    · exact h.slices z (by simp [State.lexemes, hrest, hz])
  · subst hc
    exact hspelled
  · obtain ⟨y, ys, rfl⟩ := List.exists_cons_of_ne_nil hlater
    simpa [hrest] using h.final

/-- The operator ahead is cut in place where it is cut in the row of lexemes. -/
theorem cut (h : Stands b s) (hangle : (s.kind 0).startsWithGt = true) (hgt : s.kind 0 ≠ .gt) :
    (b.cut? = none ∧ (s.lexeme 0).afterGt? = none) ∨
    ∃ c y, b.cut? = some c ∧ (s.lexeme 0).afterGt? = some y ∧
      Stands c.advanced { s with
        rest := y :: s.rest.drop 1
        consumed := (s.lexeme 0).headGt :: s.consumed } := by
  obtain ⟨x, xs, hrest, hx⟩ := h.rest_eq
  rw [← h.kind_eq] at hangle hgt
  have hspelled := fun c => (Undoable.refl h.spelled).cut (d := c) hangle hgt
  rw [h.kind_eq, State.kind, hx] at hangle hgt
  obtain ⟨tail, htail⟩ := h.exists_tail hrest hangle hgt
  have hcut := h.cut?_eq hrest htail
  rw [hx, afterGt?_eq htail hangle]
  cases hleft : TokenKind.ofGtText? (String.ofList tail) with
  | none =>
    rw [hleft] at hcut
    exact .inl ⟨hcut, rfl⟩
  | some kind =>
    rw [hleft] at hcut
    refine .inr ⟨_, _, hcut, rfl, ?_⟩
    rw [hrest]
    exact h.of_cut hrest htail hangle (hspelled _ hcut).spelled rfl

/-- At the start of a file both stand in front of its first token. -/
theorem ofLexemes {level : LanguageLevel} {text : String} {lexemes : List Lexeme}
    (h : scan level text = .ok lexemes) :
    Stands (Buffer.ofLexemes text lexemes) (State.ofLexemes level lexemes) := by
  obtain ⟨before, p, rfl, -⟩ := scan_ok h
  have hlast : ((before ++ [endOfFile text.utf8ByteSize p]).filter fun x => !x.kind.isTrivia).getLast? =
      some (endOfFile text.utf8ByteSize p) := by
    rw [List.filter_append]
    exact List.getLast?_concat
  have hfinal : (State.ofLexemes level (before ++ [endOfFile text.utf8ByteSize p])).final =
      endOfFile text.utf8ByteSize p := by
    simp only [State.ofLexemes, hlast, Option.getD_some]
  exact ⟨rfl, rfl, rfl,
    fun x hx => slice?_of_located (located_of_scan h x (List.mem_of_mem_filter hx)),
    spelled_ofLexemes h, hlast.trans (congrArg some hfinal.symm), by rw [hfinal]; rfl⟩

/-- Coming back leads to the same place as before. -/
theorem back (h : Stands b s) {c : Buffer} (hmoves : b.Moves c) :
    Stands (c.restore b.checkpoint) s := by
  rwa [hmoves.restore_eq h.spelled]

/-- Both step over the next token. -/
theorem advance (h : Stands b s) : Agree (InPlace.advance b) (Parser.advance s) := by
  obtain ⟨x, xs, hrest, hx⟩ := h.rest_eq
  have htoken := h.token_eq 0
  rw [hx] at htoken
  rw [InPlace.run_advance, advance_eq hrest, htoken]
  refine .ok ?_
  by_cases hkind : x.kind = .endOfFile
  · rw [if_pos hkind, Buffer.advanced, htoken, if_pos (show (Tok.ofLexeme x).kind = _ from hkind)]
    exact h
  · rw [if_neg hkind, Buffer.advanced, htoken, if_neg (show (Tok.ofLexeme x).kind ≠ _ from hkind)]
    have hlexemes : State.lexemes { s with rest := xs, consumed := x :: s.consumed } = s.lexemes := by
      simp [State.lexemes, hrest]
    refine ⟨hlexemes ▸ h.tokens_eq, by simp [h.pos_eq], rfl, hlexemes ▸ h.slices, h.spelled, ?_,
      h.final_kind⟩
    cases xs with
    | nil =>
      -- the end of the file is not stepped over
      obtain rfl : x = s.final := by simpa [hrest] using h.final
      exact absurd h.final_kind hkind
    | cons y ys => simpa [hrest] using h.final

end Stands

theorem closeAngle_of_gt (hgt : s.kind 0 = .gt) :
    closeAngle s = (advance s >>= fun r => .ok ((), r.2)) := by
  show (if s.kind 0 = .gt then _ else _ : Parser Unit) s = _
  rw [if_pos hgt]
  rfl

theorem closeAngle_of_ne (hgt : s.kind 0 ≠ .gt) :
    closeAngle s = match (s.lexeme 0).afterGt? with
      | some y => .ok ((), { s with
          rest := y :: s.rest.drop 1
          consumed := (s.lexeme 0).headGt :: s.consumed })
      | none => expected "'>'" s := by
  show (if s.kind 0 = .gt then _ else _ : Parser Unit) s = _
  rw [if_neg hgt]
  show (match (s.lexeme 0).afterGt? with | some y => _ | none => _ : Parser Unit) s = _
  cases (s.lexeme 0).afterGt? <;> rfl

namespace Realizes

variable {p : InPlace α} {q : Parser α}

theorem pure (x : α) : Realizes (Pure.pure x) (Pure.pure x) := fun _ _ h => .ok h

theorem bind {f : α → InPlace β} {g : α → Parser β} (hp : Realizes p q)
    (hf : ∀ x, Realizes (f x) (g x)) : Realizes (p >>= f) (q >>= g) := by
  intro b s h
  have hpq := hp b s h
  rw [InPlace.run_bind, show (q >>= g) s = (q s >>= fun r => g r.1 r.2) from rfl]
  generalize p b = r, q s = r' at hpq
  cases hpq with
  | ok hstands => exact hf _ _ _ hstands
  | error e c => exact .error e c

theorem expected (what : String) :
    Realizes (InPlace.expected what : InPlace α) (Parser.expected what) := by
  intro b s h
  rw [h.expected_eq]
  exact .error _ _

theorem advance : Realizes InPlace.advance Parser.advance := fun _ _ h => h.advance

/-- Taking a closing angle bracket off an operator in place is to leave the rest of it in front. -/
theorem closeAngle : Realizes (InPlace.closeAngle >>= fun _ => Pure.pure ()) Parser.closeAngle := by
  intro b s h
  rw [InPlace.run_bind, InPlace.closeAngle, InPlace.run_get_bind, h.kind_eq]
  by_cases hgt : s.kind 0 = .gt
  · rw [if_pos hgt, closeAngle_of_gt hgt]
    have hadvance := h.advance
    generalize InPlace.advance b = r, Parser.advance s = r' at hadvance
    cases hadvance with
    | ok hstands => exact .ok hstands
    | error e c => exact .error e c
  · rw [if_neg hgt, closeAngle_of_ne hgt]
    by_cases hangle : (s.kind 0).startsWithGt = true
    · rw [if_pos hangle]
      rcases h.cut hangle hgt with ⟨hcut, hafter⟩ | ⟨c, y, hcut, hafter, hstands⟩
      · rw [hcut, hafter, h.expected_eq]
        exact .error _ _
      · rw [hcut, hafter]
        exact .ok hstands
    · have hnone : (s.lexeme 0).afterGt? = none := if_neg hangle
      rw [if_neg hangle, hnone, h.expected_eq]
      exact .error _ _

/-- Coming back in place is to use the old place again. -/
theorem speculate (hp : p.Tracked) (h : Realizes p q) :
    Realizes p.speculate (attempt q) := by
  intro b s hs
  have hpq := h b s hs
  rw [InPlace.run_speculate]
  unfold attempt
  generalize hrun : p b = r, q s = r' at hpq
  cases hpq with
  | ok hstands => exact .ok hstands
  | error e c => exact .ok (hs.back (hp.moves hrun))

/-- The look for a local variable finds the same in place. -/
theorem isAtLocalVar {type : InPlace TypeRef} {g : Grammar} (htracked : type.Tracked)
    (htype : Realizes type (Parser.type g)) :
    Realizes type.isAtLocalVar (Parser.isAtLocalVar g) := by
  intro b s h
  rw [InPlace.isAtLocalVar, InPlace.run_get_bind, h.kind_eq, h.kind_eq]
  show Agree _ ((if (PrimitiveKind.ofToken? (s.kind 0)).isSome then Pure.pure _
    else if s.kind 0 != .ident then Pure.pure _ else _ : Parser Bool) s)
  split
  · exact .ok h
  split
  · exact .ok h
  · have hagree := htype b s h
    simp only [InPlace.run_bind, InPlace.run_tryCatch]
    generalize hrun : type b = r, Parser.type g s = r' at hagree
    cases hagree with
    | error e c => exact .ok (h.back (htracked.moves hrun))
    | @ok x c t hstands =>
      have hfound : ∀ n, c.kind n = t.kind n := hstands.kind_eq
      simp only [InPlace.run_get, InPlace.run_pure, InPlace.run_restore, hfound]
      exact .ok (h.back (htracked.moves hrun))

end Realizes

/-- What follows the type of a cast. -/
def castOperand (g : Grammar) : Parser Expr := do
  match ← lambda? g with
  | some e => pure e
  | none => g.unary

theorem cast?_eq (g : Grammar) (s : State) :
    cast? g s = match castTarget g s with
      | .error _ => .ok (none, s)
      | .ok (type, t) => (castOperand g >>= fun operand => do
          return some (.cast (← rangeFrom s.start) type operand)) t := by
  rw [show cast? g s = (attempt (castTarget g) s >>= fun r => _) from rfl, attempt]
  cases castTarget g s with
  | error e => rfl
  | ok r =>
    obtain ⟨type, t⟩ := r
    show (lambda? g t >>= fun r => _) = ((lambda? g t >>= fun r => _) >>= fun r => _)
    rcases lambda? g t with e | ⟨_ | e, u⟩ <;> rfl

theorem castTarget_eq {g : Grammar} {t : State} {range : TextRange}
    (hadvance : advance s = .ok (range, t)) :
    castTarget g s = (castType g (PrimitiveKind.ofToken? (t.kind 0)).isSome t >>= fun r =>
      if r.2.kind 0 == .rParen && (((PrimitiveKind.ofToken? (t.kind 0)).isSome && !r.1.isArray) ||
        startsCastOperand (r.2.kind 1)) then advance r.2 >>= fun r' => .ok (r.1, r'.2)
      else expected "cast" r.2) := by
  show (advance s >>= fun r => _) = _
  rw [hadvance]
  show (castType g (PrimitiveKind.ofToken? (t.kind 0)).isSome t >>= fun r => _) = _
  congr 1
  funext r
  show (if _ then _ else _ : Parser TypeRef) r.2 = _
  split <;> rfl

namespace Stands

theorem kind_of_advance (h : Stands b s) (hkind : s.kind 0 ≠ .endOfFile) {range : TextRange}
    {t : State} (hadvance : Parser.advance s = .ok (range, t)) (n : Nat) :
    t.kind n = s.kind (n + 1) := by
  obtain ⟨x, xs, hrest, hx⟩ := h.rest_eq
  rw [advance_eq hrest, if_neg (by rwa [State.kind, hx] at hkind)] at hadvance
  cases hadvance
  simp [State.kind, State.lexeme, hrest]

variable {castType : Bool → InPlace TypeRef} {g : Grammar}

/-- The type of a cast is found in place where it is found over rows of lexemes. -/
theorem castTarget? (h : Stands b s) (hkind : s.kind 0 ≠ .endOfFile)
    (htype : ∀ primitive, Realizes (castType primitive) (Parser.castType g primitive)) :
    (∃ c e, InPlace.castTarget? castType b = (.ok none, c) ∧ castTarget g s = .error e) ∨
    ∃ type c t, InPlace.castTarget? castType b = (.ok (some type), c) ∧ Stands c t ∧
      castTarget g s = (Parser.advance t >>= fun r => .ok (type, r.2)) := by
  have hadvance := h.advance
  rw [InPlace.run_advance] at hadvance
  rw [InPlace.castTarget?, InPlace.run_get_bind]
  simp only [InPlace.run_bind, InPlace.run_advance, InPlace.run_tryCatch, InPlace.run_map,
    InPlace.run_get, InPlace.run_pure]
  generalize hs : Parser.advance s = r at hadvance
  cases hadvance with
  | @ok x c t hstands =>
    rw [castTarget_eq hs, h.kind_of_advance hkind hs, ← h.kind_eq]
    have hagree := htype (PrimitiveKind.ofToken? (b.kind 1)).isSome _ _ hstands
    generalize castType (PrimitiveKind.ofToken? (b.kind 1)).isSome b.advanced = r,
      Parser.castType g (PrimitiveKind.ofToken? (b.kind 1)).isSome t = r' at hagree
    cases hagree with
    | error e c => exact .inl ⟨c, e, rfl, rfl⟩
    | @ok type c u hstands =>
      have hfound : ∀ n, c.kind n = u.kind n := hstands.kind_eq
      simp only [hfound]
      cases hcast : (u.kind 0 == .rParen && (((PrimitiveKind.ofToken? (b.kind 1)).isSome &&
        !type.isArray) || startsCastOperand (u.kind 1))) with
      | false =>
        refine .inl ⟨c, c.expected "cast", by rw [Option.filter_some, hcast]; rfl, ?_⟩
        simp only [Bind.bind, Except.bind, Nat.zero_add, hcast, Bool.false_eq_true, if_false]
        exact hstands.expected_eq _
      | true =>
        refine .inr ⟨type, c, u, by rw [Option.filter_some, hcast]; rfl, hstands, ?_⟩
        simp only [Bind.bind, Except.bind, Nat.zero_add, hcast, if_true]

end Stands

/--
A cast is found in place where it is found over rows of lexemes, and it is the same: the operand may
be any parser that realizes that of the grammar.
-/
theorem Stands.cast? {castType : Bool → InPlace TypeRef} {operand : InPlace Expr} {g : Grammar}
    (h : Stands b s) (hkind : s.kind 0 ≠ .endOfFile)
    (htracked : ∀ primitive, (castType primitive).Tracked)
    (htype : ∀ primitive, Realizes (castType primitive) (Parser.castType g primitive))
    (hoperand : Realizes operand (castOperand g)) :
    Agree (InPlace.cast? castType operand b) (Parser.cast? g s) := by
  rw [InPlace.cast?, InPlace.run_get_bind, InPlace.run_bind, cast?_eq]
  rcases h.castTarget? hkind htype with ⟨c, e, hplace, herror⟩ | ⟨type, c, t, hplace, hstands, htarget⟩
  · obtain ⟨_, c', hmoves, hrun⟩ := InPlace.run_castTarget? htracked b
    obtain rfl : c' = c := (Prod.mk.inj (hrun.symm.trans hplace)).2
    rw [hplace, herror]
    exact .ok (h.back hmoves)
  · rw [hplace, htarget]
    have hadvance := hstands.advance
    rw [InPlace.run_advance] at hadvance
    simp only [InPlace.run_bind, InPlace.run_advance, InPlace.run_get, InPlace.run_pure]
    generalize Parser.advance t = r at hadvance
    cases hadvance with
    | @ok _ _ u hstands =>
      have hagree := hoperand _ _ hstands
      show Agree _ (castOperand g u >>= fun r => _)
      generalize operand c.advanced = r, castOperand g u = r' at hagree
      cases hagree with
      | error e d => exact .error e d
      | @ok x d v hstands =>
        show Agree (.ok (some (Expr.cast (d.rangeFrom b.start) type x)), d)
          (.ok (some (Expr.cast (v.rangeFrom s.start) type x), v))
        rw [h.start_eq, hstands.rangeFrom_eq]
        exact .ok hstands

end JavaAnalysis.Parser
