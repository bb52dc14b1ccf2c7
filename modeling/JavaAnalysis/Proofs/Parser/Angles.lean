import JavaAnalysis.Proofs.Parser.Primitives

/-!
# Lists in angle brackets

A closing angle bracket is a lexeme of its own or taken off the front of an operator, which is cut
there. Either way the lexemes of the parser are those of the file, cut where lists in angle brackets
have ended; and such a list starts and ends with its brackets.
Main statements: `closeAngle_closes`, `Took.angles`.
-/

set_option autoImplicit false
set_option linter.dupNamespace false

namespace JavaAnalysis.Parser

open Lexeme

variable {raw : List Lexeme} {s t u : State}

theorem text_of_gt {text : String} (h : TokenKind.ofGtText? text = some .gt) : text = ">" := by
  unfold TokenKind.ofGtText? at h
  repeat' split at h
  all_goals first | assumption | cases h

/-- What is left of an operator when its first `>` is taken off. -/
theorem rest_of_afterGt? {x y : Lexeme} (hx : TokenKind.ofGtText? x.text = some x.kind)
    (hy : x.afterGt? = some y) : TokenKind.ofGtText? y.text = some y.kind ∧
      y.start = x.start + 1 ∧ y.stop = x.stop ∧ x.kind.startsWithGt = true := by
  unfold afterGt? at hy
  split at hy
  · rename_i hgt
    obtain ⟨kind, hkind, rfl⟩ := Option.map_eq_some_iff.1 hy
    refine ⟨hkind, rfl, ?_, hgt⟩
    have hwidth : x.text.utf8ByteSize = 1 +
      (String.ofList (x.text.toList.drop 1)).utf8ByteSize := by
      have htext := TokenRow.part_of_ofGtText? hx
      have hrest : x.text.toList.drop 1 <:+: TokenRow.longestGt :=
        (List.drop_suffix 1 _).isInfix.trans htext
      have hne : x.text.toList ≠ [] := by
        intro hnil
        rw [String.toList_eq_nil_iff.1 hnil] at hx
        cases hx
      have hpos := List.length_pos_iff.2 hne
      rw [utf8ByteSize_eq, utf8ByteSize_ofList, TokenRow.utf8Length_part htext,
        TokenRow.utf8Length_part hrest, List.length_drop]
      omega
    simp only [Lexeme.stop]
    omega
  · cases hy

/-- A lexeme of the file inside which no cut lies stays as it is. -/
theorem pieces_of_significant (hs : Significant raw) {x : Lexeme} (hx : x ∈ raw) {cuts : List Nat}
    (hcuts : ∀ o ∈ cuts, ¬ (x.start < o ∧ o < x.stop)) : TokenRow.pieces cuts x = [x] := by
  cases hgt : x.kind.startsWithGt with
  | true => exact TokenRow.pieces_of_uncut (hs.gtText x hx) hcuts hgt
  | false =>
    rw [TokenRow.pieces, hs.whole x hx hgt]
    rfl

/-- A cut between lexemes makes no difference. -/
theorem Cut.idle {cuts : List Nat} {o : Nat} (h : Cut raw cuts s) (hle : o ≤ s.previousStop)
    (ho : ∀ x ∈ raw, ¬ (x.start < o ∧ o < x.stop)) : Cut raw (o :: cuts) s := by
  refine ⟨?_, List.forall_mem_cons.2 ⟨hle, h.le⟩⟩
  rw [h.lexemes_eq]
  refine List.flatMap_congr fun x hx => TokenRow.pieces_congr fun o' hstart hstop => ?_
  rw [List.mem_cons]
  refine ⟨.inr, fun hmem => hmem.resolve_left ?_⟩
  rintro rfl
  exact ho x hx ⟨hstart, hstop⟩

/-- What is left of the operator at which the parser stands is the last of its pieces. -/
theorem Cut.split (hs : Significant raw) {cuts : List Nat} {before after : List Lexeme}
    {x y : Lexeme} (h : Cut raw cuts s) (hraw : raw = before ++ x :: after)
    (hrest : s.rest = y :: after) (hle : s.previousStop ≤ y.start) (hstop : y.start ≤ x.stop) :
    ∃ init, TokenRow.pieces cuts x = init ++ [y] ∧
      s.consumed.reverse = before.flatMap (TokenRow.pieces cuts) ++ init ∧
      after.flatMap (TokenRow.pieces cuts) = after := by
  have hafter : after.flatMap (TokenRow.pieces cuts) = after := by
    have hone : ∀ z ∈ after, TokenRow.pieces cuts z = [z] := by
      intro z hz
      refine pieces_of_significant hs (by simp [hraw, hz]) fun o ho hinside => ?_
      have hfollow := hs.follow
      rw [hraw] at hfollow
      have hxz := (List.pairwise_cons.1 (List.pairwise_append.1 hfollow).2.1).1 z hz
      have := h.le o ho
      omega
    rw [List.flatMap_congr hone, List.flatMap_singleton']
  have hall := h.lexemes_eq
  rw [State.lexemes, hrest, hraw, List.flatMap_append, List.flatMap_cons, hafter,
    ← List.append_assoc, List.append_cons] at hall
  have hfront := List.append_cancel_right hall
  obtain ⟨init, last, hpieces⟩ : ∃ init last, TokenRow.pieces cuts x = init ++ [last] :=
    ⟨_, _, (List.dropLast_concat_getLast TokenRow.pieces_ne_nil).symm⟩
  rw [hpieces, ← List.append_assoc] at hfront
  obtain ⟨hconsumed, hlast⟩ := List.append_inj' hfront rfl
  rw [List.singleton_inj] at hlast
  exact ⟨init, hlast ▸ hpieces, hconsumed, hafter⟩

/-- The parser has taken a closing angle bracket, perhaps off the front of an operator. -/
structure Closes (raw : List Lexeme) (s t : State) : Prop where
  moved : Moved raw s t
  taken : ∃ x, t.consumed = x :: s.consumed ∧ x.kind = .gt ∧ x.stop = x.start + 1
  cut : ∀ cuts, Cut raw cuts s → Cut raw (t.previousStop :: cuts) t

/-- The operator at which the parser stands is of the kind that its text tells. -/
theorem At.gtText (hs : Significant raw) (h : At raw s) (hgt : (s.kind 0).startsWithGt = true) :
    TokenKind.ofGtText? (s.lexeme 0).text = some (s.kind 0) := by
  obtain ⟨before, x, after, y, hraw, hrest, -, -, hxy⟩ := h.place
  have hlexeme : s.lexeme 0 = y := by simp [State.lexeme, hrest]
  rw [State.kind, hlexeme] at hgt ⊢
  rcases hxy with rfl | hxy
  · exact hs.gtText y (by simp [hraw]) hgt
  · exact hxy.gtText

theorem advance_closes (hs : Significant raw) (h : At raw s) (hkind : s.kind 0 = .gt) :
    Ensures advance s fun _ t => Closes raw s t := by
  have hne : s.kind 0 ≠ .endOfFile := by simp [hkind]
  have htext := h.gtText hs (hkind ▸ rfl)
  obtain ⟨before, x, next, later, y, hraw, hrest, hbefore, hle, hstop, hnext, -⟩ := h.split hs hne
  have hlexeme : s.lexeme 0 = y := by simp [State.lexeme, hrest]
  rw [hkind, hlexeme] at htext
  have hwidth : y.stop = y.start + 1 := by
    rw [Lexeme.stop, text_of_gt htext]
    rfl
  have hfollow := hs.follow
  rw [hraw] at hfollow
  obtain ⟨-, hafter, hcross⟩ := List.pairwise_append.1 hfollow
  refine (advance_ensures hs h hne).mono ?_
  rintro range t ⟨-, ht⟩
  refine ⟨ht.step.toMoved, ?_, ?_⟩
  · refine ⟨y, hlexeme ▸ ht.consumed_eq, ?_, hwidth⟩
    rwa [State.kind, hlexeme] at hkind
  · intro cuts hcut
    -- The bracket ends where the lexeme of the file does, so the cut lies inside none.
    refine (ht.step.trail.cut cuts hcut).idle (Nat.le_refl _) fun z hz => ?_
    rw [ht.stop_eq, hlexeme, hstop]
    rw [hraw] at hz
    rcases List.mem_append.1 hz with hz | hz
    · have hzx := hbefore z hz
      omega
    · rcases List.mem_cons.1 hz with rfl | hz
      · omega
      · have hxz := (List.pairwise_cons.1 hafter).1 z hz
        omega

theorem closeAngle_closes (hs : Significant raw) (h : At raw s) :
    Ensures closeAngle s fun _ t => Closes raw s t := by
  unfold closeAngle
  refine Ensures.get (.ite (fun hgt => ?_) fun hgt => ?_)
  · exact (advance_closes hs h hgt).bind fun _ t ht => .pure ht
  · split
    · rename_i y hy
      have hop : (s.kind 0).startsWithGt = true := by
        unfold afterGt? at hy
        split at hy
        · assumption
        · cases hy
      have htext := h.gtText hs hop
      obtain ⟨before, x, after, y₀, hraw, hrest, hbefore, hle, hxy⟩ := h.place
      have hlexeme : s.lexeme 0 = y₀ := by simp [State.lexeme, hrest]
      have hstart : s.start = y₀.start := by rw [State.start, hlexeme]
      rw [State.kind, hlexeme] at hop htext
      rw [hlexeme] at hy ⊢
      obtain ⟨hkind, hfrom, hstop, -⟩ := rest_of_afterGt? htext hy
      obtain ⟨hgtx, hstop₀⟩ : x.kind.startsWithGt = true ∧ y₀.stop = x.stop := by
        rcases hxy with rfl | hxy
        · exact ⟨hop, rfl⟩
        · exact ⟨hxy.operator, hxy.stop_eq⟩
      have hcross : ∀ z ∈ after, x.stop ≤ z.start := by
        have hfollow := hs.follow
        rw [hraw] at hfollow
        exact (List.pairwise_cons.1 (List.pairwise_append.1 hfollow).2.1).1
      have hwidth : y.start ≤ y.stop := Nat.le_add_right _ _
      have hleft : Rest x y := by
        refine ⟨hgtx, hkind, ?_, hstop.trans hstop₀⟩
        rcases hxy with rfl | hxy
        · omega
        · have := hxy.start_lt
          omega
      intro _ t hrun
      cases hrun
      have hhead : y₀.headGt.stop = y₀.start + 1 := rfl
      refine ⟨⟨⟨h.final, before, x, after, y, hraw, by simp [hrest],
        fun z hz => ?_, ?_, .inr hleft⟩, ?_, ?_⟩, ⟨y₀.headGt, rfl, rfl, hhead⟩, fun cuts hcut =>
        ⟨?_, ?_⟩⟩
      · show z.stop ≤ y₀.headGt.stop
        have := hbefore z hz
        omega
      · show y₀.headGt.stop ≤ y.start
        omega
      · show s.start ≤ y.start
        omega
      · show s.previousStop ≤ y₀.headGt.stop
        omega
      · show (y₀.headGt :: s.consumed).reverse ++ y :: s.rest.drop 1 =
          raw.flatMap (TokenRow.pieces (y₀.headGt.stop :: cuts))
        obtain ⟨init, hpieces, hconsumed, hafter⟩ := hcut.split hs hraw hrest hle (by omega)
        have hcutx := TokenRow.pieces_cut hgtx (hs.gtText x (by simp [hraw]) hgtx) hpieces
          (fun o ho => Nat.le_trans (hcut.le o ho) hle) hy
        have hothers : ∀ z, z ∈ before ∨ z ∈ after →
            TokenRow.pieces (y₀.headGt.stop :: cuts) z = TokenRow.pieces cuts z := by
          refine fun z hz => TokenRow.pieces_congr fun o hlt hlt' => ?_
          rw [List.mem_cons]
          refine ⟨fun hmem => hmem.resolve_left ?_, .inr⟩
          rintro rfl
          rcases hz with hz | hz
          · have := hbefore z hz
            omega
          · have := hcross z hz
            omega
        rw [hraw, List.flatMap_append, List.flatMap_cons, hhead, hcutx, ← hhead,
          List.flatMap_congr fun z hz => hothers z (.inl hz),
          List.flatMap_congr fun z hz => hothers z (.inr hz), hafter, List.reverse_cons, hconsumed,
          hrest]
        simp
      · show ∀ o ∈ y₀.headGt.stop :: cuts, o ≤ y₀.headGt.stop
        refine List.forall_mem_cons.2 ⟨Nat.le_refl _, fun o ho => ?_⟩
        have := hcut.le o ho
        omega
    · exact expected_ensures

/-- A list between angle brackets tells of itself. -/
theorem Took.enclosed {sites : List Site} {v : State} (h : Took raw s t .lt)
    (hinside : Trail raw t u sites) (hclose : Closes raw u v) (kind : NodeKind) :
    Trail raw s v (sites ++ [.enclosing kind ⟨s.start, v.previousStop⟩]) := by
  obtain ⟨x, hx, hopen⟩ := h
  obtain ⟨y, hy, hgt, hwidth⟩ := hclose.taken
  obtain ⟨⟨xs, hxs, hkeys, hbacked⟩, hcut⟩ := hinside
  have hstop : y.stop = v.previousStop := by rw [State.previousStop, hy]
  have hconsumed : v.consumed = (y :: (xs ++ [x])) ++ s.consumed := by
    rw [hy, hxs, hx.consumed_eq]
    simp
  refine ⟨⟨_, hconsumed, ?_, ?_⟩, fun cuts hs => ?_⟩
  · have hnone : keys [Site.enclosing kind ⟨s.start, v.previousStop⟩] = [] := rfl
    rw [keys_append, hnone, List.append_nil]
    refine hkeys.trans (List.Sublist.subperm ?_)
    simp
  · rw [List.forall_mem_append, List.forall_mem_singleton]
    refine ⟨fun site hsite => (hbacked site hsite).mono ?_, ?_⟩
    · simp
    · exact ⟨⟨x, by simp, hopen, hx.start_eq.symm⟩, y, by simp, hgt, hstop, hwidth⟩
  · have hone : closers [Site.enclosing kind ⟨s.start, v.previousStop⟩] = [v.previousStop] := rfl
    refine (hclose.cut _ (hcut cuts (hx.cut cuts hs))).congr fun o => ?_
    simp only [closers_append, hone, List.mem_append, List.mem_cons]
    tauto

/-- Brackets with a list between them become a node. -/
theorem Took.angles {as : List Shape} {v : State} (h : Took raw s t .lt)
    (hinside : Reads raw t u as) (hclose : Closes raw u v) (kind : NodeKind)
    (hangled : kind.isAngled = true) :
    Takes raw s v [.plain kind ⟨s.start, v.previousStop⟩ as] := by
  have hfront := h.takes.append hinside
  have hanchored := hfront.anchored.mono hclose.moved.previousStop_le
  refine .of_node (hfront.step.trans hclose.moved) hanchored
    (Placed.mono _ (Nat.le_refl _) hclose.moved.previousStop_le hfront.placed) rfl hanchored ⟨?_, ?_⟩
  · have hsites := h.enclosed hinside.traced.trail hclose kind
    rw [shapeSites_cons, shapeSites_nil, List.append_nil]
    simpa [Shape.sites, NodeSpec.sites, NodeSpec.plain, angledSites, hangled] using hsites
  · exact wellRanged_plain.2 ⟨hanchored.le, hinside.traced.ranged⟩

end JavaAnalysis.Parser
