import JavaAnalysis.Proofs.Lexeme.Positions

/-!
# Cutting a text in two where a lexeme starts

A text that is cut where one of its lexemes starts gives the same lexemes in two parts: the part
behind the cut gives those from there on, and the part in front of it gives those before. The second
fact has one exception. Behind a decimal integer two dots are no decimal point, and the text that
ends between them reads the integer and the dot as one number. `joinDot` is that exception.
Main statement: `scan_of_mem_boundaries`.
-/

set_option autoImplicit false
set_option linter.dupNamespace false

namespace JavaAnalysis

namespace Lexeme

/-- The lexeme is an integer written in decimal. -/
def isDecimal (x : Lexeme) : Bool := x.kind == .intLiteral && !hasRadix x.text.toList

/-- An integer and the dot behind it, read as one number. -/
def withDot (x : Lexeme) : Lexeme := { x with kind := .doubleLiteral, text := x.text ++ "." }

/--
What becomes of the lexemes in front of a cut: they stay as they are, but a decimal integer and a
dot at their end are one number.
-/
def joinDot : List Lexeme → List Lexeme
  | [x, y] => if x.isDecimal && y.kind == .dot then [x.withDot] else [x, y]
  | x :: xs => x :: joinDot xs
  | [] => []

/-- Where a text may be cut: the starts of its lexemes, or its fault if it has one. -/
def boundaries (level : LanguageLevel) (text : String) : List Nat :=
  match scan level text with
  | .ok xs => xs.map (·.start)
  | .error e => [e.offset]

/-- The second lexeme is the first one, `k` bytes further on. -/
structure ShiftedBy (k : Nat) (x y : Lexeme) : Prop where
  kind : y.kind = x.kind
  text : y.text = x.text
  range : y.range = ⟨x.range.start + k, x.range.stop + k⟩

/-- The second text gives what the first one gives, `k` bytes further on. -/
def OutcomeShiftedBy (k : Nat) :
    Except LexError (List Lexeme) → Except LexError (List Lexeme) → Prop
  | .ok xs, .ok ys => List.Forall₂ (ShiftedBy k) xs ys
  | .error e, .error e' => e'.fault = e.fault ∧ e'.offset = e.offset + k
  | _, _ => False

variable {level : LanguageLevel} {o o' : Nat} {p p' : Position} {cs left : List Char}
  {xs ys : List Lexeme}

/-! ## Behind the cut -/

theorem shiftedBy_of_start (kind : TokenKind) (text : String) {o k : Nat} (p q : Position) :
    ShiftedBy k ⟨kind, text, o, p⟩ ⟨kind, text, o + k, q⟩ :=
  ⟨rfl, rfl, by simp only [range, stop, TextRange.mk.injEq, true_and]; omega⟩

theorem OutcomeShiftedBy.cons {k : Nat} {x y : Lexeme} (hx : ShiftedBy k x y) :
    ∀ {a b : Except LexError (List Lexeme)}, OutcomeShiftedBy k a b →
      OutcomeShiftedBy k (a.map (x :: ·)) (b.map (y :: ·))
  | .error _, .error _, h => h
  | .ok _, .ok _, h => List.Forall₂.cons hx h

/-- Where a text stands has no part in its lexemes. -/
theorem scanFrom_shiftedBy (level : LanguageLevel) (o k : Nat) (p q : Position) (cs : List Char) :
    OutcomeShiftedBy k (scanFrom level o p cs) (scanFrom level (o + k) q cs) := by
  fun_induction scanFrom level o p cs generalizing q with
  | case1 o p =>
    rw [scanFrom]
    exact List.Forall₂.cons (shiftedBy_of_start _ _ _ _) .nil
  | case2 o p c cs fault h =>
    simp only [scanFrom, h]
    exact ⟨rfl, rfl⟩
  | case3 o p c cs kind n h text lexeme rest ih =>
    have hrest := ih (q.advance text)
    rw [Nat.add_right_comm] at hrest
    simp only [scanFrom, h]
    exact hrest.cons (shiftedBy_of_start _ _ _ _)

/-- A text gives the lexemes of a run over its front, and then those of what is left. -/
theorem Scans.scanFrom (h : Scans level o p cs xs o' p' left) :
    scanFrom level o p cs = (scanFrom level o' p' left).map (xs ++ ·) := by
  induction h with
  | done => exact (id_map _).symm
  | @step o o' p p' c inside rest left kind xs first others ih =>
    rw [Lexeme.scanFrom, first]
    simp only [List.take_left, List.drop_left, ih]
    cases Lexeme.scanFrom level o' p' left <;> rfl

/-- A run may be stopped at each of its lexemes. -/
theorem Scans.exists_of_mem (h : Scans level o p cs xs o' p' left) {x : Lexeme} (hx : x ∈ xs) :
    ∃ ys mid, Scans level o p cs ys x.start x.position mid := by
  induction h with
  | done => cases hx
  | @step o o' p p' c inside rest left kind xs first others ih =>
    rcases List.mem_cons.1 hx with rfl | hx
    · exact ⟨[], _, .done⟩
    · obtain ⟨ys, mid, hrun⟩ := ih hx
      exact ⟨_, mid, .step first hrun⟩

theorem exists_scans_of_mem_boundaries {text : String} {k : Nat} (h : k ∈ boundaries level text) :
    ∃ before p back, Scans level 0 .start text.toList before k p back := by
  unfold boundaries scan at h
  rcases scanFrom_cases level 0 .start text.toList with
    ⟨xs, o, p, hrun, hok⟩ | ⟨xs, o, p, c, rest, fault, hrun, -, herr⟩
  · rw [hok] at h
    obtain ⟨x, hx, rfl⟩ := List.mem_map.1 h
    rcases List.mem_append.1 hx with hx | hx
    · obtain ⟨ys, mid, hrun⟩ := hrun.exists_of_mem hx
      exact ⟨ys, x.position, mid, hrun⟩
    · rw [List.mem_singleton.1 hx]
      exact ⟨xs, p, [], hrun⟩
  · rw [herr] at h
    rw [List.mem_singleton.1 h]
    exact ⟨xs, p, _, hrun⟩

/-! ## In front of the cut -/

theorem joinDot_pair {x y : Lexeme} (hx : x.isDecimal = true) (hy : y.kind = .dot) :
    joinDot [x, y] = [x.withDot] := by simp [joinDot, hx, hy]

theorem joinDot_cons {x : Lexeme} (h : x.isDecimal = true → ∀ y, y.kind = .dot → xs ≠ [y]) :
    joinDot (x :: xs) = x :: joinDot xs := by
  match xs, h with
  | [], _ => rfl
  | [y], h =>
    have hne : (x.isDecimal && y.kind == .dot) = false := by
      rw [Bool.eq_false_iff]
      intro hboth
      simp only [Bool.and_eq_true, beq_iff_eq] at hboth
      exact h hboth.1 y hboth.2 rfl
    simp [joinDot, hne]
  | _ :: _ :: _, _ => rfl

/-- The operator that is a single dot is the dot, and the dot is a single dot. -/
theorem operators_dot : ∀ entry ∈ operators, entry.1 = ['.'] ↔ entry.2 = .dot := by decide

variable {c : Char} {kind : TokenKind} {n : Nat}

/-- An integer starts with a digit. -/
theorem isDigit_of_next (h : next level c cs = .ok (.intLiteral, n)) : c.isDigit = true := by
  generalize hkind : TokenKind.intLiteral = kind at h
  cases next_cases h with
  | blanks => cases hkind
  | number hc => exact hc
  | fraction =>
    cases (@suffix_eq_intLiteral true _ hkind.symm).1
  | comment hcom => exact absurd (isComment_comment hcom) (by rw [← hkind]; decide)
  | charLiteral => cases hkind
  | stringLiteral hstr =>
    rcases string_kind hstr with hstr | hstr
    · cases hkind.trans hstr
    · cases hkind.trans hstr
  | operator hop =>
    have hnone : ∀ entry ∈ operators, entry.2 ≠ .intLiteral := by decide
    exact absurd hkind.symm (hnone _ (operatorAt?_mem hop).1)
  | word =>
    rcases wordKind_cases level _ with hword | hword
    · cases hkind.trans hword
    · exact absurd hword (by rw [← hkind]; decide)

theorem operatorOrWord_of_dot (h : dot level cs = .ok (kind, 0)) : operatorOrWord level '.' cs = .ok (kind, 0) := by
  cases cs with
  | nil => exact h
  | cons d ds =>
    by_cases hdigit : d.isDigit = true
    · have hpos : 1 ≤ (fraction (d :: ds)).2 := fraction_pos hdigit
      have hfrac : fraction (d :: ds) = (kind, 0) := by simpa [dot, hdigit] using h
      rw [hfrac] at hpos
      omega
    · simpa [dot, hdigit] using h

/-- A lexeme that takes one dot and nothing else is the dot. -/
theorem kind_of_next_dot (h : next level '.' cs = .ok (kind, 0)) : kind = .dot := by
  have hop := operatorOrWord_of_dot (show dot level cs = .ok (kind, 0) from h)
  unfold operatorOrWord at hop
  split at hop
  · rename_i text k hfound
    obtain ⟨rfl, hlen⟩ : k = kind ∧ text.length - 1 = 0 := by simpa using hop
    have htext := take_operator hfound
    rw [hlen, List.take_zero] at htext
    exact (operators_dot _ (operatorAt?_mem hfound).1).1 htext.symm
  · rw [if_neg (by decide)] at hop
    cases hop

/-- A run over one dot takes the dot. -/
theorem Scans.eq_dot (h : Scans level o p ('.' :: left) xs o' p' left) :
    (∃ y, xs = [y] ∧ y.kind = .dot) ∧ o' = o + utf8Length ['.'] ∧ p' = p.advance ['.'] := by
  generalize hcs : '.' :: left = cs at h
  cases h with
  | done => simpa using congrArg List.length hcs
  | @step _ _ _ _ c inside rest _ kind ys first others =>
    obtain ⟨rfl, hinside⟩ : '.' = c ∧ left = inside ++ rest := by simpa using hcs
    obtain ⟨cut, hrest, -, htiles⟩ := others.tiles
    -- what is left is as long as what stands behind the dot
    obtain ⟨rfl, rfl⟩ : inside = [] ∧ cut = [] := by
      have hlength := congrArg List.length hinside
      rw [hrest, List.length_append, List.length_append] at hlength
      exact ⟨List.eq_nil_of_length_eq_zero (by omega), List.eq_nil_of_length_eq_zero (by omega)⟩
    obtain rfl : ys = [] := List.eq_nil_of_length_eq_zero (Nat.le_zero.1 htiles.length_le)
    cases others
    exact ⟨⟨_, rfl, kind_of_next_dot first⟩, rfl, rfl⟩

/-- A run that takes the dot is a run over one dot. -/
theorem Scans.front_eq_dot {front : List Char} {y : Lexeme} (hy : y.kind = .dot)
    (h : Scans level o p (front ++ left) [y] o' p' left) : front = ['.'] := by
  generalize hcs : front ++ left = cs at h
  cases h with
  | @step _ _ _ _ c inside _ _ kind _ first others =>
    cases others
    have hdot : c :: inside = ['.'] := by
      obtain rfl : kind = .dot := hy
      rcases next_kind first with ⟨h, -⟩ | h | h | h | h | h
      · cases h
      · cases h
      · cases h
      · cases h
      · cases h
      · rw [List.take_left] at h
        exact (operators_dot _ h).2 rfl
    rw [← List.cons_append, hdot] at hcs
    exact List.append_cancel_right hcs

/-- Two dots stand behind the digits of an integer that a dot follows. -/
theorem cutsNumber_of_next {inside : List Char} {kind : TokenKind}
    (h : next level c (inside ++ '.' :: left) = .ok (kind, inside.length))
    (hdecimal : isDecimal ⟨kind, String.ofList (c :: inside), o, p⟩ = true) :
    CutsNumber c (inside ++ '.' :: left) (inside.length + 1) := by
  simp only [isDecimal, Bool.and_eq_true, beq_iff_eq, Bool.not_eq_true',
    String.toList_ofList] at hdecimal
  obtain ⟨rfl, hradix⟩ := hdecimal
  have hdigit := isDigit_of_next h
  rw [next_of_isDigit hdigit] at h
  have hnum := Except.ok.inj h
  have hle : (number c (inside ++ '.' :: left)).2 ≤ inside.length := by rw [hnum]
  have hwhole := hasRadix_take hle
  rw [List.take_left, hradix] at hwhole
  rw [number_of_hasRadix_eq_false hwhole.symm] at hnum
  exact ⟨hdigit, hwhole.symm, cutsDots_of_intLiteral hnum List.drop_left⟩

/-- A number that is cut between the dots behind it takes the first of them. -/
theorem next_of_cutsNumber {m : Nat} (h : CutsNumber c cs m)
    (hfirst : next level c cs = .ok (kind, n)) :
    (kind = .intLiteral ∧ hasRadix (c :: cs.take n) = false) ∧
      (m = n + 1 ∧ ∃ ds, cs.drop n = '.' :: '.' :: ds) ∧
      next level c (cs.take m) = .ok (.doubleLiteral, m) := by
  obtain ⟨hdigit, hradix, rfl, ds, hdots⟩ := h
  rw [next_of_isDigit hdigit] at hfirst ⊢
  have hnum := Except.ok.inj hfirst
  rw [number_of_hasRadix_eq_false hradix, decimalNumber_of_dots hdots] at hnum
  cases hnum
  have hkept : ∀ m, countWhile isDigitPart cs ≤ m → hasRadix (c :: cs.take m) = false :=
    fun m hm => by rw [hasRadix_take (by rwa [Except.ok.inj hfirst]), hradix]
  refine ⟨⟨rfl, hkept _ (Nat.le_refl _)⟩, ⟨rfl, ds, hdots⟩, ?_⟩
  rw [number_of_hasRadix_eq_false (hkept _ (Nat.le_succ _)),
    decimalNumber_take_of_cutsDots ⟨rfl, ds, hdots⟩]

/--
The front of a text that is cut behind a lexeme gives the lexemes in front of the cut. The induction
is on the run: a lexeme stays as it is unless the cut comes between the two dots behind it, and then
only one of them is in front of the cut.
-/
theorem Scans.front (h : Scans level o p cs xs o' p' left) :
    ∃ front, cs = front ++ left ∧ Scans level o p front (joinDot xs) o' p' [] := by
  induction h with
  | done => exact ⟨[], rfl, .done⟩
  | @step o o' p p' c inside rest left kind xs first others ih =>
    obtain ⟨front, rfl, hfront⟩ := ih
    refine ⟨c :: (inside ++ front), by simp, ?_⟩
    have htake : (inside ++ (front ++ left)).take (inside.length + front.length) =
        inside ++ front := by
      rw [← List.append_assoc, ← List.length_append, List.take_left]
    by_cases hcut : CutsNumber c (inside ++ (front ++ left)) (inside.length + front.length)
    · obtain ⟨⟨rfl, hradix⟩, ⟨hlen, ds, hdots⟩, hjoined⟩ := next_of_cutsNumber hcut first
      rw [List.take_left] at hradix
      rw [List.drop_left] at hdots
      obtain ⟨d, rfl⟩ := List.length_eq_one_iff.1 (Nat.add_left_cancel hlen)
      obtain ⟨rfl, rfl⟩ : d = '.' ∧ left = '.' :: ds := by simpa using hdots
      rw [htake] at hjoined
      have hunbroken : Position.Unbroken (c :: inside) ['.'] := (next_unbroken first).take
      obtain ⟨⟨y, rfl, hy⟩, rfl, rfl⟩ := others.eq_dot
      rw [joinDot_pair (by simp [isDecimal, hradix]) hy, Nat.add_assoc, ← utf8Length_append,
        ← Position.advance_append hunbroken, withDot, List.cons_append]
      have hnumber : next level c (inside ++ ['.'] ++ []) =
          .ok (.doubleLiteral, (inside ++ ['.']).length) := by simpa using hjoined
      have hrun := Scans.step (o := o) (p := p) hnumber .done
      rw [List.append_nil] at hrun
      rw [show String.ofList (c :: inside) ++ "." = String.ofList (c :: (inside ++ ['.'])) by
        rw [← List.cons_append, String.ofList_append]]
      exact hrun
    · have hfirst := (next_take_of_le first).2 _ (Nat.le_add_right _ _) hcut
      rw [htake] at hfirst
      rw [joinDot_cons]
      · exact .step hfirst hfront
      · rintro hdecimal y hy rfl
        obtain rfl := others.front_eq_dot hy
        exact hcut (cutsNumber_of_next first hdecimal)

/--
Cut at the start of one of its lexemes, or at its fault, a text gives in two parts what it gives as a
whole. The part behind the cut gives the lexemes from there on, or the fault, as many bytes further
on as there are in front of it. The part in front of it gives the lexemes before, with the one
exception of `joinDot`.
-/
theorem scan_of_mem_boundaries {text : String} {k : Nat} (h : k ∈ boundaries level text) :
    ∃ front back before p rest, text = front ++ back ∧ front.utf8ByteSize = k ∧
      Scans level 0 .start text.toList before k p back.toList ∧
      scan level front = .ok (joinDot before ++ [endOfFile k p]) ∧
      OutcomeShiftedBy k (scan level back) rest ∧
      scan level text = rest.map (before ++ ·) := by
  obtain ⟨before, p, back, hrun⟩ := exists_scans_of_mem_boundaries h
  obtain ⟨front, hcs, hfront⟩ := hrun.front
  obtain ⟨cut, hcut, hk, -⟩ := hfront.tiles
  refine ⟨String.ofList front, String.ofList back, before, p, scanFrom level k p back,
    ?_, ?_, ?_, ?_, ?_, ?_⟩
  · rw [← String.ofList_append, ← hcs, String.ofList_toList]
  · rw [utf8ByteSize_ofList, hcut, List.append_nil, hk, Nat.zero_add]
  · rwa [String.toList_ofList]
  · rw [scan, String.toList_ofList, hfront.scanFrom, Lexeme.scanFrom]
    rfl
  · have := scanFrom_shiftedBy level 0 k .start p back
    rw [Nat.zero_add] at this
    rwa [scan, String.toList_ofList]
  · exact hrun.scanFrom

/-- Between the dots behind an integer: the front of the text gives one number. -/
theorem scan_of_mem_boundaries_dots :
    2 ∈ boundaries .standard "1..x" ∧
      ∃ front back before p rest, "1..x" = front ++ back ∧ front.utf8ByteSize = 2 ∧
        Scans .standard 0 .start "1..x".toList before 2 p back.toList ∧
        scan .standard front = .ok (joinDot before ++ [endOfFile 2 p]) ∧
        OutcomeShiftedBy 2 (scan .standard back) rest ∧
        scan .standard "1..x" = rest.map (before ++ ·) :=
  have h : 2 ∈ boundaries .standard "1..x" := by decide +kernel
  ⟨h, scan_of_mem_boundaries h⟩

end Lexeme

end JavaAnalysis
