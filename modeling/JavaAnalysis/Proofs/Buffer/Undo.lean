import JavaAnalysis.Parser.Buffer
import JavaAnalysis.Proofs.Ensures
import JavaAnalysis.Proofs.Lexeme.Positions

/-!
# Coming back undoes every cut

Whatever a parser does in place is a sequence of steps forward, of closing angle brackets taken off
operators, and of speculations inside it that came back to where they began. `Moves` is that sequence
and `Undoable` its invariant: the log has grown in front, and joining what it tells of gives the old
tokens again. A cut is undone exactly because an operator is spelled as its kind says, so that the
kind of the joined token can be read off the text.
Main statement: `Moves.restore_eq`.
-/

set_option autoImplicit false
set_option linter.dupNamespace false

namespace JavaAnalysis.Parser

/-! ## Running a parser in place -/

namespace InPlace

variable {α β : Type}

theorem run_get_bind (f : Buffer → InPlace β) (b : Buffer) :
    (get >>= f : InPlace β) b = f b b := rfl

theorem run_get (b : Buffer) : (get : InPlace Buffer) b = (.ok b, b) := rfl

theorem run_pure (x : α) (b : Buffer) : (pure x : InPlace α) b = (.ok x, b) := rfl

theorem run_restore (k : Buffer.Checkpoint) (b : Buffer) : restore k b = (.ok (), b.restore k) := rfl

theorem run_advance (b : Buffer) : advance b = (.ok (b.token 0).range, b.advanced) := rfl

theorem run_bind (p : InPlace α) (f : α → InPlace β) (b : Buffer) :
    (p >>= f) b = match p b with
      | (.ok x, c) => f x c
      | (.error e, c) => (.error e, c) := by
  rw [show (p >>= f) b = (match p b with | (r, c) => ExceptT.bindCont f r c) from rfl]
  rcases p b with ⟨r | x, c⟩ <;> rfl

theorem run_map (p : InPlace α) (f : α → β) (b : Buffer) :
    (f <$> p) b = match p b with
      | (.ok x, c) => (.ok (f x), c)
      | (.error e, c) => (.error e, c) := by
  simp only [Functor.map, ExceptT.map, ExceptT.mk, Bind.bind, StateT.bind]
  rcases p b with ⟨r | x, c⟩ <;> rfl

theorem run_tryCatch (p : InPlace α) (f : SyntaxError → InPlace α) (b : Buffer) :
    (tryCatch p f : InPlace α) b = match p b with
      | (.ok x, c) => (.ok x, c)
      | (.error e, c) => f e c := by
  simp only [tryCatch, tryCatchThe, MonadExceptOf.tryCatch, ExceptT.tryCatch, ExceptT.mk, Bind.bind,
    StateT.bind]
  rcases p b with ⟨r | x, c⟩ <;> rfl

end InPlace

namespace Buffer

/-- What a parser can do in place between two states of the buffer. -/
inductive Moves : Buffer → Buffer → Prop where
  | refl (b : Buffer) : Moves b b
  | advance {b c : Buffer} (h : Moves b c) : Moves b (InPlace.advance c).2
  | closeAngle {b c : Buffer} (h : Moves b c) : Moves b (InPlace.closeAngle c).2
  /-- A speculation that begins at `c` and comes back from `d`. -/
  | back {b c d : Buffer} (h : Moves b c) (inner : Moves c d) : Moves b (d.restore c.checkpoint)

/-- Operators that can be cut are spelled as their kinds say. -/
def Spelled (b : Buffer) : Prop :=
  ∀ t ∈ b.tokens, t.kind.startsWithGt = true → t.kind ≠ .gt →
    TokenKind.ofGtText? (b.textOf t.range) = some t.kind

/-- The tokens and the log of `c` become those of `b` when the cuts made since are undone. -/
structure Undoable (b c : Buffer) : Prop where
  text_eq : c.text = b.text
  spelled : c.Spelled
  log : ∃ cuts, c.cuts = cuts ++ b.cuts ∧ cuts.foldl c.joinAt c.tokens = b.tokens

variable {b c d : Buffer}

/-! ## One step -/

theorem lt_of_ofGtText? {r : TextRange} {kind : TokenKind}
    (h : TokenKind.ofGtText? (b.textOf r) = some kind) : r.start < r.stop := by
  rw [← Nat.not_le]
  intro hle
  have hempty : b.textOf r = "" := by
    unfold textOf slice?
    cases hsplit : splitAtOffset? b.text.toList r.start with
    | none => rfl
    | some p => simp [Nat.sub_eq_zero_of_le hle, splitAtOffset?]
  rw [hempty] at h
  cases h

variable {before after : List Tok} {first second t : Tok}

theorem insertIdx_append :
    (before ++ first :: after).insertIdx (before.length + 1) second =
      before ++ first :: second :: after := by
  induction before with
  | nil => rfl
  | cons u before ih => simp [ih]

theorem set_eraseIdx_append :
    ((before ++ first :: second :: after).eraseIdx (before.length + 1)).set before.length t =
      before ++ t :: after := by
  induction before with
  | nil => rfl
  | cons u before ih => simp [ih]

/-- The neighbours of a cut are joined to the token that was cut. -/
theorem joinAt_append (hcover : first.range.cover second.range = t.range)
    (hkind : TokenKind.ofGtText? (b.textOf t.range) = some t.kind) :
    b.joinAt (before ++ first :: second :: after) before.length = before ++ t :: after := by
  simp only [joinAt, List.getElem?_append_right, Nat.le_refl, Nat.le_succ, Nat.sub_self,
    Nat.add_sub_cancel_left, List.getElem?_cons_zero, List.getElem?_cons_succ, hcover, hkind,
    Option.getD_some, set_eraseIdx_append]

theorem Undoable.refl (h : b.Spelled) : Undoable b b := ⟨rfl, h, [], rfl, rfl⟩

theorem Undoable.advanced (h : Undoable b c) : Undoable b c.advanced := by
  unfold Buffer.advanced
  simp only
  split
  · exact h
  · exact ⟨h.text_eq, h.spelled, h.log⟩

/-- An operator that is cut can be joined again, and what is left of it is spelled right. -/
theorem Undoable.cut (h : Undoable b c) (hgt : (c.kind 0).startsWithGt = true)
    (hne : c.kind 0 ≠ .gt) (hcut : c.cut? = some d) : Undoable b d := by
  obtain ⟨kind, hkind, rfl⟩ := Option.map_eq_some_iff.1 hcut
  obtain ⟨cuts, hcuts, hjoin⟩ := h.log
  by_cases hpos : c.pos < c.tokens.length
  · obtain ⟨before, t, after, htokens, hlength⟩ : ∃ before t after,
        c.tokens = before ++ t :: after ∧ c.pos = before.length := by
      refine ⟨c.tokens.take c.pos, c.tokens[c.pos], c.tokens.drop (c.pos + 1), ?_, ?_⟩
      · rw [← List.drop_eq_getElem_cons hpos, List.take_append_drop]
      · rw [List.length_take, Nat.min_eq_left (Nat.le_of_lt hpos)]
    have htoken : c.token 0 = t := by
      simp [token, htokens, hlength]
    have hmem : t ∈ c.tokens := by simp [htokens]
    rw [Buffer.kind, htoken] at hgt hne
    rw [htoken] at hkind
    have hjoined := h.spelled t hmem hgt hne
    have hlt := lt_of_ofGtText? hkind
    have hcut : ((c.tokens.set c.pos ⟨.gt, ⟨t.range.start, t.range.start + 1⟩⟩).insertIdx
        (c.pos + 1) ⟨kind, ⟨t.range.start + 1, t.range.stop⟩⟩) =
        before ++ ⟨.gt, ⟨t.range.start, t.range.start + 1⟩⟩ ::
          ⟨kind, ⟨t.range.start + 1, t.range.stop⟩⟩ :: after := by
      rw [htokens, hlength, List.set_append_right _ _ (Nat.le_refl _), Nat.sub_self,
        List.set_cons_zero, insertIdx_append]
    simp only [htoken, hcut]
    refine ⟨h.text_eq, fun u hu hgt hne => ?_, c.pos :: cuts, ?_, ?_⟩
    · simp only [List.mem_append, List.mem_cons] at hu
      rcases hu with hu | rfl | rfl | hu
      · exact h.spelled u (by simp [htokens, hu]) hgt hne
      · exact absurd rfl hne
      · exact hkind
      · exact h.spelled u (by simp [htokens, hu]) hgt hne
    · simp [hcuts]
    · simp only [List.foldl_cons]
      rw [← hjoin, htokens, hlength]
      refine congrArg (cuts.foldl c.joinAt) (joinAt_append ?_ hjoined)
      simp only [TextRange.cover]
      rw [Nat.min_eq_left (Nat.le_succ _), Nat.max_eq_right (Nat.le_of_lt hlt)]
  · have hsame : ((c.tokens.set c.pos ⟨.gt, ⟨(c.token 0).range.start,
        (c.token 0).range.start + 1⟩⟩).insertIdx (c.pos + 1)
        ⟨kind, ⟨(c.token 0).range.start + 1, (c.token 0).range.stop⟩⟩) = c.tokens := by
      rw [List.set_eq_of_length_le (by omega), List.insertIdx_of_length_lt (by omega)]
    have hnone : c.tokens[c.pos]? = none := List.getElem?_eq_none (by omega)
    simp only [hsame]
    refine ⟨h.text_eq, h.spelled, c.pos :: cuts, by simp [hcuts], ?_⟩
    rw [List.foldl_cons, joinAt, hnone]
    exact hjoin

theorem Undoable.advance (h : Undoable b c) : Undoable b (InPlace.advance c).2 := h.advanced

theorem Undoable.closeAngle (h : Undoable b c) : Undoable b (InPlace.closeAngle c).2 := by
  rw [InPlace.closeAngle, InPlace.run_get_bind]
  split
  · exact h.advanced
  · rename_i hne
    split
    · rename_i hgt
      cases hcut : c.cut? with
      | none => exact h
      | some d => exact (h.cut hgt hne hcut).advanced
    · exact h

/-- Coming back leads exactly to where the parser stood. -/
theorem Undoable.restore_eq (h : Undoable b c) : c.restore b.checkpoint = b := by
  obtain ⟨cuts, hcuts, hjoin⟩ := h.log
  have hsince : c.cuts.length - b.cuts.length = cuts.length := by
    rw [hcuts, List.length_append, Nat.add_sub_cancel]
  simp only [restore, checkpoint, hsince]
  rw [hcuts, List.take_left, List.drop_left, hjoin, h.text_eq]

/-! ## Any number of steps -/

/-- The induction is on the steps; a speculation that came back left nothing behind. -/
theorem Moves.undoable (h : Moves b c) : b.Spelled → Undoable b c := by
  induction h with
  | refl b => exact Undoable.refl
  | advance _ ih => exact fun hb => (ih hb).advance
  | closeAngle _ ih => exact fun hb => (ih hb).closeAngle
  | back _ _ ih ihInner =>
    intro hb
    have houter := ih hb
    rw [(ihInner houter.spelled).restore_eq]
    exact houter

theorem Moves.restore_eq (h : Moves b c) (hb : b.Spelled) : c.restore b.checkpoint = b :=
  (h.undoable hb).restore_eq

theorem Moves.trans (h : Moves b c) (h' : Moves c d) : Moves b d := by
  induction h' with
  | refl => exact h
  | advance _ ih => exact .advance (ih h)
  | closeAngle _ ih => exact .closeAngle (ih h)
  | back _ inner ih _ => exact .back (ih h) inner

end Buffer

end JavaAnalysis.Parser

/-!
## A failed speculation leaves no trace

A parser that only steps forward, takes closing angle brackets off operators and speculates is
`Tracked`: whether it succeeds or fails, it leaves the buffer in a state that it has moved to. What is
tried with such a parser and comes back leaves the buffer as it was, tokens, place and log.
Main statement: `restore_of_moves`.
-/

namespace JavaAnalysis.Parser

open Lexeme Ast

/-- The buffer in which the parser ends is one that it has moved to, also where it fails. -/
def InPlace.Tracked {α : Type} (p : InPlace α) : Prop := ∀ b : Buffer, b.Moves (p b).2

namespace InPlace.Tracked

variable {α β : Type} {p : InPlace α} {f : α → InPlace β} {b c : Buffer}

theorem moves (h : Tracked p) {r : Except SyntaxError α} (hp : p b = (r, c)) : b.Moves c := by
  have := h b
  rwa [hp] at this

theorem pure (x : α) : Tracked (Pure.pure x : InPlace α) := fun b => .refl b

theorem get_bind {f : Buffer → InPlace β} (h : ∀ b : Buffer, b.Moves (f b b).2) :
    Tracked (get >>= f : InPlace β) := h

theorem bind (hp : Tracked p) (hf : ∀ x, Tracked (f x)) : Tracked (p >>= f) := by
  intro b
  rw [run_bind]
  rcases h : p b with ⟨_ | x, c⟩
  · exact hp.moves h
  · exact (hp.moves h).trans (hf x c)

theorem expected (what : String) : Tracked (InPlace.expected what : InPlace α) :=
  fun b => .refl b

theorem advance : Tracked InPlace.advance := fun b => .advance (.refl b)

theorem closeAngle : Tracked InPlace.closeAngle := fun b => .closeAngle (.refl b)

end InPlace.Tracked

namespace InPlace

variable {α : Type} {b : Buffer}

theorem run_speculate (p : InPlace α) (b : Buffer) :
    speculate p b = match p b with
      | (.ok x, c) => (.ok (some x), c)
      | (.error _, c) => (.ok none, c.restore b.checkpoint) := by
  rw [speculate, run_get_bind, run_tryCatch, run_map]
  rcases p b with ⟨_ | x, c⟩ <;> rfl

theorem Tracked.speculate {p : InPlace α} (h : Tracked p) : Tracked (speculate p) := by
  intro b
  rw [run_speculate]
  rcases hp : p b with ⟨_ | x, c⟩
  · exact .back (.refl b) (h.moves hp)
  · exact h.moves hp

theorem Tracked.map {β : Type} {p : InPlace α} (h : Tracked p) (f : α → β) : Tracked (f <$> p) := by
  intro b
  rw [run_map]
  rcases hp : p b with ⟨_ | x, c⟩
  · exact h.moves hp
  · exact h.moves hp

/-- With something to fall back on, a parser succeeds. -/
theorem Tracked.exists_run_tryCatch {p : InPlace α} (h : Tracked p) (x : α) (b : Buffer) :
    ∃ y c, b.Moves c ∧ (tryCatch p fun _ => Pure.pure x : InPlace α) b = (.ok y, c) := by
  rw [run_tryCatch]
  rcases hp : p b with ⟨_ | y, c⟩
  · exact ⟨x, c, h.moves hp, rfl⟩
  · exact ⟨y, c, h.moves hp, rfl⟩

/-- Looking for a local variable is answered and leaves the buffer as it was. -/
theorem run_isAtLocalVar {type : InPlace TypeRef} (htype : Tracked type) (hb : b.Spelled) :
    ∃ found, isAtLocalVar type b = (.ok found, b) := by
  rw [isAtLocalVar, run_get_bind]
  split
  · exact ⟨_, rfl⟩
  split
  · exact ⟨_, rfl⟩
  have hlook := htype.bind fun _ => Tracked.get_bind fun t => (Tracked.pure (t.kind 0 == .ident &&
    (t.kind 1 == .eq || t.kind 1 == .semicolon || t.kind 1 == .comma || t.kind 1 == .lBracket ||
      t.kind 1 == .colon))) t
  obtain ⟨found, c, hmoves, hrun⟩ := hlook.exists_run_tryCatch false b
  refine ⟨found, ?_⟩
  rw [run_bind, hrun]
  exact congrArg (Prod.mk _) (hmoves.restore_eq hb)

theorem run_castTarget? {castType : Bool → InPlace TypeRef}
    (htype : ∀ primitive, Tracked (castType primitive)) (b : Buffer) :
    ∃ type? c, b.Moves c ∧ castTarget? castType b = (.ok type?, c) := by
  obtain ⟨type?, c, hmoves, hrun⟩ := ((htype (PrimitiveKind.ofToken? (b.kind 1)).isSome).map
    some).exists_run_tryCatch none b.advanced
  rw [castTarget?, run_get_bind]
  simp only [run_bind, run_advance, hrun]
  exact ⟨_, c, (Tracked.advance b).trans hmoves, rfl⟩

/-- Where no cast is found, the buffer is left as it was. -/
theorem eq_of_run_cast? {castType : Bool → InPlace TypeRef} {operand : InPlace Expr} {c : Buffer}
    (htype : ∀ primitive, Tracked (castType primitive)) (hb : b.Spelled)
    (h : cast? castType operand b = (.ok none, c)) : c = b := by
  rw [cast?, run_get_bind, run_bind] at h
  obtain ⟨type?, d, hmoves, htarget⟩ := run_castTarget? htype b
  rw [htarget] at h
  cases type? with
  | none =>
    obtain ⟨-, rfl⟩ := Prod.mk.inj h
    exact hmoves.restore_eq hb
  | some type =>
    -- a parenthesized type in front of an operand is a cast, or the operand fails
    simp only [run_bind, run_advance] at h
    rcases hrun : operand d.advanced with ⟨_ | x, d'⟩
    · rw [hrun] at h
      cases h
    · rw [hrun] at h
      cases h

end InPlace

namespace Buffer

variable {level : LanguageLevel} {text : String} {lexemes : List Lexeme} {b : Buffer}

/-- A lexeme is found in the text at its range. -/
theorem slice?_of_located {text : List Char} {x : Lexeme} (h : Located text x) :
    slice? text x.range = some x.text.toList := by
  obtain ⟨after, before, htext, hstart, -⟩ := h
  have hslice := Segment.slice?_append before x.text.toList after
  rwa [List.append_assoc, ← htext, ← hstart, ← utf8ByteSize_eq] at hslice

theorem spelled_ofLexemes (h : scan level text = .ok lexemes) : (ofLexemes text lexemes).Spelled := by
  rintro t ht hgt -
  obtain ⟨x, hx, rfl⟩ := List.mem_map.1 ht
  have hx := List.mem_of_mem_filter hx
  have hlocated := located_of_scan h x hx
  obtain ⟨before, p, rfl, -, hgenuine⟩ := scan_ok h
  rcases List.mem_append.1 hx with hmem | hmem
  · rw [Tok.ofLexeme, textOf, ofLexemes, slice?_of_located hlocated, Option.getD_some,
      String.ofList_toList]
    exact (hgenuine x hmem).gtText hgt
  · rw [List.mem_singleton.1 hmem] at hgt
    cases hgt

/--
In every state of the buffer that a parser reaches on a text, what it tries leaves no trace when it
comes back. After any steps forward, closing angle brackets taken off operators, and speculations
among them that came back, the buffer is restored to what it was: tokens with kinds and ranges, place,
end of the token before it, and log. So does a parser that is tried and fails, the look for a local
variable whatever it finds, and a cast that is not found, with any parsers for what they are made of.
-/
theorem restore_of_moves (hscan : scan level text = .ok lexemes)
    (hb : (ofLexemes text lexemes).Moves b) :
    (∀ c, b.Moves c → c.restore b.checkpoint = b) ∧
    (∀ (α : Type) (p : InPlace α), p.Tracked → ∀ e c, p b = (.error e, c) →
      p.speculate b = (.ok none, b)) ∧
    (∀ type : InPlace TypeRef, type.Tracked → ∃ found, type.isAtLocalVar b = (.ok found, b)) ∧
    ∀ (castType : Bool → InPlace TypeRef) (operand : InPlace Expr),
      (∀ primitive, (castType primitive).Tracked) →
      ∀ c, InPlace.cast? castType operand b = (.ok none, c) → c = b := by
  have hspelled := (hb.undoable (spelled_ofLexemes hscan)).spelled
  refine ⟨fun c hc => hc.restore_eq hspelled, fun α p hp e c herror => ?_,
    fun type htype => InPlace.run_isAtLocalVar htype hspelled,
    fun castType operand htype c h => InPlace.eq_of_run_cast? htype hspelled h⟩
  rw [InPlace.run_speculate, herror]
  exact congrArg _ ((hp.moves herror).restore_eq hspelled)

/-- In front of an operator that can be cut twice. -/
theorem restore_of_moves_ushr : ∃ lexemes b, scan .standard "a >>> b" = .ok lexemes ∧
    (ofLexemes "a >>> b" lexemes).Moves b ∧ b.kind 0 = .ushr ∧
    (∀ c, b.Moves c → c.restore b.checkpoint = b) ∧
    (∀ (α : Type) (p : InPlace α), p.Tracked → ∀ e c, p b = (.error e, c) →
      p.speculate b = (.ok none, b)) ∧
    (∀ type : InPlace TypeRef, type.Tracked → ∃ found, type.isAtLocalVar b = (.ok found, b)) ∧
    ∀ (castType : Bool → InPlace TypeRef) (operand : InPlace Expr),
      (∀ primitive, (castType primitive).Tracked) →
      ∀ c, InPlace.cast? castType operand b = (.ok none, c) → c = b := by
  have hkind : (scan .standard "a >>> b").toOption.map (fun lexemes =>
      (InPlace.advance (ofLexemes "a >>> b" lexemes)).2.kind 0) = some .ushr := by decide +kernel
  obtain ⟨lexemes, hlexemes, hushr⟩ := Option.map_eq_some_iff.1 hkind
  have hscan := toOption_eq_some.1 hlexemes
  have hmoves : (ofLexemes "a >>> b" lexemes).Moves
      (InPlace.advance (ofLexemes "a >>> b" lexemes)).2 := .advance (.refl _)
  exact ⟨lexemes, _, hscan, hmoves, hushr, restore_of_moves hscan hmoves⟩

end Buffer

end JavaAnalysis.Parser
