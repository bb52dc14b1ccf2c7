import JavaAnalysis.Proofs.Lexeme.Rescan

/-!
# The lexemes of a text are a partition of it

Cutting a text is a run of steps, each of which takes one lexeme off the front of what is left.
`Scans` is that run, whether it reaches the end of the text or stops at a fault before it. The
lexemes of a run tile the characters between its ends: they follow each other without gaps, and none
of them is empty. Main statement: `scan_partition`, which says so of the text as a whole, and of the
part in front of the fault where the text cannot be cut.
-/

set_option autoImplicit false

namespace JavaAnalysis

namespace Lexeme

/--
The steps that cut lexemes off a text at an offset and a position: the lexemes, and the offset, the
position and the text that are left. A step takes a character and as many of the characters behind
it as `next` says.
-/
inductive Scans (level : LanguageLevel) :
    Nat → Position → List Char → List Lexeme → Nat → Position → List Char → Prop where
  | done {o : Nat} {p : Position} {cs : List Char} : Scans level o p cs [] o p cs
  | step {o o' : Nat} {p p' : Position} {c : Char} {inside rest left : List Char}
      {kind : TokenKind} {xs : List Lexeme}
      (first : next level c (inside ++ rest) = .ok (kind, inside.length))
      (others : Scans level (o + utf8Length (c :: inside)) (p.advance (c :: inside))
        rest xs o' p' left) :
      Scans level o p (c :: (inside ++ rest))
        (⟨kind, String.ofList (c :: inside), o, p⟩ :: xs) o' p'
        left

/-- The lexemes hold the characters from an offset on, one after the other and none empty. -/
def Tiles : Nat → List Lexeme → List Char → Prop
  | _, [], cs => cs = []
  | offset, x :: xs, cs =>
    x.start = offset ∧ x.text ≠ "" ∧ ∃ rest, cs = x.text.toList ++ rest ∧ Tiles x.stop xs rest

variable {level : LanguageLevel} {o o' : Nat} {p p' : Position} {cs left : List Char}
  {xs : List Lexeme}

/-- A text is cut into lexemes up to its end, or up to a character that starts none. -/
theorem scanFrom_cases (level : LanguageLevel) (o : Nat) (p : Position) (cs : List Char) :
    (∃ xs o' p', Scans level o p cs xs o' p' [] ∧
      scanFrom level o p cs = .ok (xs ++ [endOfFile o' p'])) ∨
    ∃ xs o' p' c rest fault, Scans level o p cs xs o' p' (c :: rest) ∧
      next level c rest = .error fault ∧ scanFrom level o p cs = .error ⟨fault, o', p'⟩ := by
  fun_induction scanFrom level o p cs with
  | case1 o p => exact .inl ⟨[], o, p, .done, rfl⟩
  | case2 o p c cs fault h => exact .inr ⟨[], o, p, c, cs, fault, .done, h, rfl⟩
  | case3 o p c cs kind n h text lexeme rest ih =>
    obtain ⟨hle, -⟩ := next_take h
    have hfirst : next level c (cs.take n ++ cs.drop n) = .ok (kind, (cs.take n).length) := by
      rw [List.take_append_drop, List.length_take, Nat.min_eq_left hle]
      exact h
    have hcs : c :: cs = c :: (cs.take n ++ cs.drop n) := by rw [List.take_append_drop]
    rcases ih with ⟨xs, o', p', hrun, hok⟩ | ⟨xs, o', p', d, left, fault, hrun, hfault, herr⟩
    · refine .inl ⟨lexeme :: xs, o', p', ?_, ?_⟩
      · rw [hcs]
        exact .step hfirst hrun
      · rw [show rest = _ from hok]
        rfl
    · refine .inr ⟨lexeme :: xs, o', p', d, left, fault, ?_, hfault, ?_⟩
      · rw [hcs]
        exact .step hfirst hrun
      · rw [show rest = _ from herr]
        rfl

theorem Scans.tiles (h : Scans level o p cs xs o' p' left) :
    ∃ cut, cs = cut ++ left ∧ o' = o + utf8Length cut ∧ Tiles o xs cut := by
  induction h with
  | done => exact ⟨[], rfl, rfl, rfl⟩
  | @step o o' p p' c inside rest left kind xs first others ih =>
    obtain ⟨cut, rfl, rfl, htiles⟩ := ih
    refine ⟨c :: inside ++ cut, by simp, ?_, rfl, ?_, cut, ?_, ?_⟩
    · rw [utf8Length_append, Nat.add_assoc]
    · exact fun h => by simpa using congrArg String.toList h
    · rw [String.toList_ofList]
    · rw [Lexeme.stop, utf8ByteSize_ofList]
      exact htiles

theorem Scans.kind_ne_endOfFile (h : Scans level o p cs xs o' p' left) :
    ∀ x ∈ xs, x.kind ≠ .endOfFile := by
  induction h with
  | done => simp
  | step first others ih =>
    intro x hx
    rcases List.mem_cons.1 hx with rfl | hx
    · exact next_kind_ne_endOfFile first
    · exact ih x hx

theorem Tiles.flatMap_text (h : Tiles o xs cs) : xs.flatMap (·.text.toList) = cs := by
  induction xs generalizing o cs with
  | nil => exact h.symm
  | cons x xs ih =>
    obtain ⟨-, -, rest, rfl, hrest⟩ := h
    rw [List.flatMap_cons, ih hrest]

theorem Tiles.length_le (h : Tiles o xs cs) : xs.length ≤ cs.length := by
  induction xs generalizing o cs with
  | nil => simp
  | cons x xs ih =>
    obtain ⟨-, hne, rest, rfl, hrest⟩ := h
    have hpos : 0 < x.text.toList.length := by
      rw [List.length_pos_iff]
      exact fun h => hne (String.toList_inj.1 h)
    have := ih hrest
    simp only [List.length_cons, List.length_append]
    omega

/--
A text that can be cut is the texts of its lexemes, one behind the other from offset zero on, all
but the last of them not empty; the last one, and no other, is the end of the file and lies at the
end of the text. Where a text cannot be cut, the lexemes cut so far are such a partition of what
stands in front of the fault, which is the fault of the character there. No more steps are taken
than there are characters.
-/
theorem scan_partition (level : LanguageLevel) (text : String) :
    match scan level text with
    | .ok xs => ∃ before final, xs = before ++ [final] ∧ Tiles 0 before text.toList ∧
        (∀ x ∈ before, x.kind ≠ .endOfFile) ∧
        final.kind = .endOfFile ∧ final.text = "" ∧ final.start = text.utf8ByteSize ∧
        xs.flatMap (·.text.toList) = text.toList ∧ before.length ≤ text.toList.length
    | .error e => ∃ before cut c rest,
        Scans level 0 .start text.toList before e.offset e.position (c :: rest) ∧
        next level c rest = .error e.fault ∧
        text.toList = cut ++ c :: rest ∧ e.offset = utf8Length cut ∧ Tiles 0 before cut ∧
        (∀ x ∈ before, x.kind ≠ .endOfFile) ∧ before.length ≤ cut.length := by
  unfold scan
  rcases scanFrom_cases level 0 .start text.toList with
    ⟨xs, o', p', hrun, hok⟩ | ⟨xs, o', p', c, rest, fault, hrun, hfault, herr⟩
  · obtain ⟨cut, hcut, rfl, htiles⟩ := hrun.tiles
    rw [List.append_nil] at hcut
    subst hcut
    rw [hok]
    refine ⟨xs, _, rfl, htiles, hrun.kind_ne_endOfFile, rfl, rfl, ?_, ?_, htiles.length_le⟩
    · rw [endOfFile, utf8ByteSize_eq, Nat.zero_add]
    · rw [List.flatMap_append, htiles.flatMap_text]
      simp [endOfFile]
  · obtain ⟨cut, hcut, rfl, htiles⟩ := hrun.tiles
    rw [herr]
    exact ⟨xs, cut, c, rest, hrun, hfault, hcut, Nat.zero_add _, htiles, hrun.kind_ne_endOfFile,
      htiles.length_le⟩

/-! ## What the lexemes of a text are like -/

/-- What is true of each lexeme of a text in front of its end. -/
structure Genuine (level : LanguageLevel) (x : Lexeme) : Prop where
  text_ne : x.text ≠ ""
  kind_ne : x.kind ≠ .endOfFile
  /-- An operator that starts with a closing angle bracket is spelled as its kind says. -/
  gtText : x.kind.startsWithGt = true → TokenKind.ofGtText? x.text = some x.kind
  blank : x.kind = .whitespace → ∀ c ∈ x.text.toList, isBlank c = true
  /-- The text of the lexeme gives it again. -/
  scan_text : ∃ final, scan level x.text = .ok [⟨x.kind, x.text, 0, .start⟩, final] ∧
    final.kind = .endOfFile

theorem scan_of_next {c : Char} {cs : List Char} {kind : TokenKind}
    (h : next level c cs = .ok (kind, cs.length)) :
    ∃ final, scan level (String.ofList (c :: cs)) =
        .ok [⟨kind, String.ofList (c :: cs), 0, .start⟩, final] ∧ final.kind = .endOfFile := by
  refine ⟨endOfFile (0 + utf8Length (c :: cs)) (Position.start.advance (c :: cs)), ?_, rfl⟩
  rw [scan, String.toList_ofList, scanFrom, h]
  simp only [List.take_length, List.drop_length, scanFrom]
  rfl

theorem genuine_of_next {c : Char} {inside rest : List Char} {kind : TokenKind}
    (h : next level c (inside ++ rest) = .ok (kind, inside.length)) (o : Nat) (p : Position) :
    Genuine level ⟨kind, String.ofList (c :: inside), o, p⟩ where
  text_ne h := by simpa using congrArg String.toList h
  kind_ne := next_kind_ne_endOfFile h
  gtText hgt := by simpa using next_gtText h hgt
  blank hblank := by
    subst hblank
    simpa using next_blank h
  scan_text := scan_of_next (by simpa using (next_take h).2)

theorem Scans.genuine (h : Scans level o p cs xs o' p' left) : ∀ x ∈ xs, Genuine level x := by
  induction h with
  | done => simp
  | @step o _ p _ _ _ _ _ _ _ first others ih =>
    intro x hx
    rcases List.mem_cons.1 hx with rfl | hx
    · exact genuine_of_next first o p
    · exact ih x hx

/-- The lexemes of a text, in the form in which the rows of tokens made of them are looked at. -/
theorem scan_ok {text : String} (h : scan level text = .ok xs) :
    ∃ before p, xs = before ++ [endOfFile text.utf8ByteSize p] ∧ Tiles 0 before text.toList ∧
      ∀ x ∈ before, Genuine level x := by
  unfold scan at h
  rcases scanFrom_cases level 0 .start text.toList with
    ⟨before, o', p', hrun, hok⟩ | ⟨_, _, _, _, _, _, -, -, herr⟩
  · rw [hok] at h
    cases h
    obtain ⟨cut, hcut, rfl, htiles⟩ := hrun.tiles
    rw [List.append_nil] at hcut
    subst hcut
    refine ⟨before, p', ?_, htiles, hrun.genuine⟩
    rw [utf8ByteSize_eq, Nat.zero_add]
  · rw [herr] at h
    cases h

end Lexeme

end JavaAnalysis
