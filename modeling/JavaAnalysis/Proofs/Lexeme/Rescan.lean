import JavaAnalysis.Proofs.Lexeme.Kinds

/-!
# Lexemes do not depend on what follows them

A lexeme never reaches beyond the end of its text, and a text that is cut at its end or anywhere
behind it gives the same lexeme again: nothing behind it had a part in its kind or its length. The
second fact holds although many branches look one or two characters ahead, because each of them stops
at what it has seen there. There is one exception, of which `CutsDots` tells: two dots behind the
digits of a decimal number are no decimal point, but the first of them alone is one.
-/

set_option autoImplicit false

namespace JavaAnalysis

namespace Lexeme

/-! ## Lengths that are settled by what they cover -/

/--
A length read off the front of a text, perhaps with more, stays inside the text and does not change
when the text is cut at that length or behind it.
-/
def Settled {α : Type} (length : α → Nat) (f : List Char → α) : Prop :=
  ∀ cs, length (f cs) ≤ cs.length ∧ ∀ m, length (f cs) ≤ m → f (cs.take m) = f cs

/-- One length and then another. -/
def andThen (f g : List Char → Nat) (cs : List Char) : Nat := f cs + g (cs.drop (f cs))

/-- A length that counts only behind a first character of a certain kind. -/
def behind (p : Char → Bool) (f : List Char → Nat) : List Char → Nat
  | [] => 0
  | c :: cs => if p c then 1 + f cs else 0

theorem settled_zero : Settled id fun _ => 0 := fun _ => ⟨Nat.zero_le _, fun _ _ => rfl⟩

theorem settled_countWhile (p : Char → Bool) : Settled id (countWhile p) := by
  intro cs
  refine ⟨(List.takeWhile_prefix p).length_le, fun m hm => ?_⟩
  rw [countWhile, ← List.take_takeWhile, List.take_of_length_le hm, countWhile]

theorem Settled.behind {f : List Char → Nat} (hf : Settled id f) (p : Char → Bool) :
    Settled id (behind p f) := by
  intro cs
  cases cs with
  | nil => simp [Lexeme.behind]
  | cons c cs =>
    obtain ⟨hle, htake⟩ := hf cs
    simp only [id_eq] at hle htake
    by_cases hc : p c = true
    · simp only [Lexeme.behind, hc, if_true, id_eq, List.length_cons]
      refine ⟨by omega, fun m hm => ?_⟩
      obtain ⟨m, rfl⟩ : ∃ k, m = k + 1 := ⟨m - 1, by omega⟩
      simp only [List.take_succ_cons, hc, if_true]
      rw [htake m (by omega)]
    · simp only [Lexeme.behind, hc, id_eq]
      refine ⟨by simp, fun m _ => ?_⟩
      cases m with
      | zero => rfl
      | succ m => simp [hc]

theorem Settled.andThen {f g : List Char → Nat} (hf : Settled id f) (hg : Settled id g) :
    Settled id (andThen f g) := by
  intro cs
  obtain ⟨hfle, hftake⟩ := hf cs
  obtain ⟨hgle, hgtake⟩ := hg (cs.drop (f cs))
  simp only [id_eq, List.length_drop] at hfle hftake hgle hgtake
  simp only [Lexeme.andThen, id_eq]
  refine ⟨by omega, fun m hm => ?_⟩
  rw [hftake m (by omega), List.drop_take, hgtake (m - f cs) (by omega)]

/-! ## Numbers -/

def isSign (c : Char) : Bool := c == '+' || c == '-'

theorem exponentLength_eq (marker : Char) (cs : List Char) :
    exponentLength marker cs =
      behind (fun c => c.toLower == marker)
        (andThen (behind isSign fun _ => 0) (countWhile isDigitPart)) cs := by
  cases cs with
  | nil => rfl
  | cons c cs =>
    by_cases hc : c.toLower = marker
    · simp only [exponentLength, behind, hc, beq_self_eq_true, if_true]
      split
      · simp [andThen, behind, isSign]
        omega
      · simp [andThen, behind, isSign]
        omega
      · rename_i hplus hminus
        cases cs with
        | nil => rfl
        | cons d ds =>
          have hsign : isSign d = false := by
            simp only [isSign, Bool.or_eq_false_iff, beq_eq_false_iff_ne]
            exact ⟨fun h => hplus ds (h ▸ rfl), fun h => hminus ds (h ▸ rfl)⟩
          simp [andThen, behind, hsign]
    · simp [exponentLength, behind, hc]

theorem settled_exponentLength (marker : Char) : Settled id (exponentLength marker) := by
  rw [funext (exponentLength_eq marker)]
  exact ((settled_zero.behind _).andThen (settled_countWhile _)).behind _

theorem settled_intSuffix : Settled Prod.snd intSuffix := by
  intro cs
  unfold intSuffix
  split
  · exact ⟨by simp, fun m hm => by cases m <;> simp_all⟩
  · exact ⟨by simp, fun m hm => by cases m <;> simp_all⟩
  · refine ⟨by simp, fun m _ => ?_⟩
    cases m with
    | zero => rfl
    | succ m => cases cs <;> simp_all

theorem settled_floatSuffix : Settled Prod.snd floatSuffix := by
  intro cs
  unfold floatSuffix
  split
  · exact ⟨by simp, fun m hm => by cases m <;> simp_all⟩
  · exact ⟨by simp, fun m hm => by cases m <;> simp_all⟩
  · exact ⟨by simp, fun m hm => by cases m <;> simp_all⟩
  · exact ⟨by simp, fun m hm => by cases m <;> simp_all⟩
  · refine ⟨by simp, fun m _ => ?_⟩
    cases m with
    | zero => rfl
    | succ m => cases cs <;> simp_all

/-- The suffix of a number whose digits may turn out to be those of a floating-point literal. -/
def suffix (floating : Bool) (cs : List Char) : TokenKind × Nat :=
  if floating then floatSuffix cs else intSuffix cs

theorem settled_suffix (floating : Bool) : Settled Prod.snd (suffix floating) := by
  cases floating with
  | false => exact settled_intSuffix
  | true => exact settled_floatSuffix

theorem endNumber_eq (floating : Bool) (n : Nat) (cs : List Char) :
    endNumber floating n cs =
      ((suffix floating (cs.drop n)).1, n + (suffix floating (cs.drop n)).2) := rfl

/-- A settled length with a mark of its own stays settled with the suffix behind it. -/
theorem Settled.suffixed {f : List Char → Bool × Nat} {g : Bool → List Char → TokenKind × Nat}
    (hf : Settled Prod.snd f) (hg : ∀ floating, Settled Prod.snd (g floating)) :
    Settled Prod.snd fun cs =>
      ((g (f cs).1 (cs.drop (f cs).2)).1, (f cs).2 + (g (f cs).1 (cs.drop (f cs).2)).2) := by
  intro cs
  obtain ⟨hfle, hftake⟩ := hf cs
  obtain ⟨hgle, hgtake⟩ := hg (f cs).1 (cs.drop (f cs).2)
  rw [List.length_drop] at hgle
  refine ⟨by simp only; omega, fun m hm => ?_⟩
  simp only at hm ⊢
  rw [hftake m (by omega), List.drop_take, hgtake (m - (f cs).2) (by omega)]

/-- The digits of a number, with a fraction if there is one. -/
def digits (digit : Char → Bool) : List Char → Nat :=
  andThen (countWhile digit) (behind (· == '.') (countWhile digit))

/-- A number without its suffix, and whether it has a decimal point or an exponent. -/
def body (digit : Char → Bool) (marker : Char) (cs : List Char) : Bool × Nat :=
  let e := exponentLength marker (cs.drop (digits digit cs))
  (behind (· == '.') (countWhile digit) (cs.drop (countWhile digit cs)) != 0 || e != 0,
    digits digit cs + e)

theorem settled_body (digit : Char → Bool) (marker : Char) : Settled Prod.snd
    (body digit marker) := by
  intro cs
  have hdigits : Settled id (digits digit) :=
    (settled_countWhile digit).andThen ((settled_countWhile digit).behind _)
  obtain ⟨hdle, hdtake⟩ := hdigits cs
  obtain ⟨hele, hetake⟩ := settled_exponentLength marker (cs.drop (digits digit cs))
  have hn := (settled_countWhile digit cs).2
  have hp := ((settled_countWhile digit).behind (· == '.') (cs.drop (countWhile digit cs))).2
  have hsum : digits digit cs = countWhile digit cs +
    behind (· == '.') (countWhile digit) (cs.drop (countWhile digit cs)) := rfl
  simp only [id_eq, List.length_drop] at hdle hdtake hele hetake hn hp
  refine ⟨by simp only [body]; omega, fun m hm => ?_⟩
  simp only [body] at hm ⊢
  rw [hdtake m (by omega), hn m (by omega), List.drop_take, List.drop_take,
    hetake _ (by omega), hp _ (by omega)]

theorem hexNumber_eq (cs : List Char) :
    hexNumber cs =
      endNumber (body isHexDigitPart 'p' cs).1 (body isHexDigitPart 'p' cs).2 cs := by
  have hpos : ∀ k, (1 + k != 0) = true := fun k => by simp
  unfold hexNumber body digits andThen
  simp only
  split
  · rename_i ds hdrop
    simp [hdrop, behind, hpos, Nat.add_assoc]
  · rename_i hdot
    cases hdrop : cs.drop (countWhile isHexDigitPart cs) with
    | nil => simp [behind, hdrop]
    | cons d ds =>
      have hd : d ≠ '.' := fun h => hdot ds (h ▸ hdrop)
      simp [behind, hd, hdrop]

theorem settled_hexNumber : Settled Prod.snd hexNumber := by
  rw [funext hexNumber_eq]
  exact (settled_body isHexDigitPart 'p').suffixed settled_suffix

theorem settled_fraction : Settled Prod.snd fraction := by
  have hbody : Settled Prod.snd fun cs =>
      (true, andThen (countWhile isDigitPart) (exponentLength 'e') cs) := by
    intro cs
    obtain ⟨hle, htake⟩ := ((settled_countWhile isDigitPart).andThen
      (settled_exponentLength 'e')) cs
    exact ⟨hle, fun m hm => by simp only [htake m hm]⟩
  exact hbody.suffixed settled_suffix

/-- The next character makes a number floating-point. -/
def isFloatMarked : List Char → Bool
  | c :: _ => c == 'f' || c == 'F' || c == 'd' || c == 'D'
  | [] => false

/-- The suffix of a decimal number, which may say by itself that the number is floating-point. -/
def decimalSuffix (floating : Bool) (cs : List Char) : TokenKind × Nat :=
  suffix (floating || isFloatMarked cs) cs

theorem floatSuffix_of_isFloatMarked {cs : List Char} (h : isFloatMarked cs = true) :
    (floatSuffix cs).2 = 1 := by
  unfold isFloatMarked at h
  split at h
  · rename_i c ds
    simp only [Bool.or_eq_true, beq_iff_eq] at h
    rcases h with ((rfl | rfl) | rfl) | rfl <;> rfl
  · cases h

theorem settled_decimalSuffix (floating : Bool) : Settled Prod.snd (decimalSuffix floating) := by
  intro cs
  refine ⟨(settled_suffix _ cs).1, fun m hm => ?_⟩
  have htake : suffix (floating || isFloatMarked cs) (cs.take m) = decimalSuffix floating cs :=
    (settled_suffix _ cs).2 m hm
  have hmark : isFloatMarked (cs.take m) = isFloatMarked cs := by
    cases cs with
    | nil => rw [List.take_nil]
    | cons c cs =>
      cases m with
      | succ m => rfl
      | zero =>
        cases hmarked : isFloatMarked (c :: cs) with
        | false => rfl
        | true =>
          -- a mark is part of the suffix and cannot be cut off
          have := floatSuffix_of_isFloatMarked hmarked
          simp [decimalSuffix, hmarked, suffix, this] at hm
  rw [decimalSuffix, hmark, htake]

/-- Two dots behind the digits are no decimal point. -/
theorem decimalNumber_of_dots {cs ds : List Char}
    (h : cs.drop (countWhile isDigitPart cs) = '.' :: '.' :: ds) :
    decimalNumber cs = (.intLiteral, countWhile isDigitPart cs) := by
  simp [decimalNumber, h, exponentLength, endNumber, intSuffix]

/-- A decimal number behind which no two dots stand. -/
def plainDecimal (cs : List Char) : TokenKind × Nat :=
  let (floating, n) := body isDigitPart 'e' cs
  ((decimalSuffix floating (cs.drop n)).1, n + (decimalSuffix floating (cs.drop n)).2)

theorem settled_plainDecimal : Settled Prod.snd plainDecimal :=
  (settled_body isDigitPart 'e').suffixed settled_decimalSuffix

theorem decimalNumber_eq {cs : List Char}
    (h : ∀ ds, cs.drop (countWhile isDigitPart cs) ≠ '.' :: '.' :: ds) :
    decimalNumber cs = plainDecimal cs := by
  have hpos : ∀ k, (1 + k != 0) = true := fun k => by simp
  unfold decimalNumber plainDecimal body digits andThen
  simp only
  split
  · rename_i ds hdrop
    exact absurd hdrop (h ds)
  · rename_i ds _ hdrop
    simp [hdrop, behind, hpos, Nat.add_assoc, endNumber_eq, decimalSuffix]
  · rename_i hdot
    cases hdrop : cs.drop (countWhile isDigitPart cs) with
    | nil =>
      simp [behind, hdrop, endNumber_eq, decimalSuffix]
      exact ⟨rfl, rfl⟩
    | cons d ds =>
      have hd : d ≠ '.' := fun h => hdot ds (h ▸ hdrop)
      simp [behind, hd, hdrop, endNumber_eq, decimalSuffix]
      exact ⟨rfl, rfl⟩

/-- The text is cut between two dots that stand behind its digits. -/
def CutsDots (cs : List Char) (m : Nat) : Prop :=
  m = countWhile isDigitPart cs + 1 ∧
    ∃ ds, cs.drop (countWhile isDigitPart cs) = '.' :: '.' :: ds

theorem decimalNumber_le (cs : List Char) : (decimalNumber cs).2 ≤ cs.length := by
  by_cases hdots : ∃ ds, cs.drop (countWhile isDigitPart cs) = '.' :: '.' :: ds
  · obtain ⟨ds, hdots⟩ := hdots
    rw [decimalNumber_of_dots hdots]
    exact (settled_countWhile isDigitPart cs).1
  · rw [decimalNumber_eq fun ds h => hdots ⟨ds, h⟩]
    exact (settled_plainDecimal cs).1

theorem decimalNumber_take {cs : List Char} {m : Nat} (hm : (decimalNumber cs).2 ≤ m)
    (hcut : ¬ CutsDots cs m) : decimalNumber (cs.take m) = decimalNumber cs := by
  obtain ⟨hle, htake⟩ := settled_countWhile isDigitPart cs
  simp only [id_eq] at hle htake
  by_cases hdots : ∃ ds, cs.drop (countWhile isDigitPart cs) = '.' :: '.' :: ds
  · obtain ⟨ds, hdots⟩ := hdots
    rw [decimalNumber_of_dots hdots] at hm ⊢
    have hne : m ≠ countWhile isDigitPart cs + 1 := fun h => hcut ⟨h, ds, hdots⟩
    obtain rfl | ⟨j, rfl⟩ : m = countWhile isDigitPart cs ∨
        ∃ j, m = countWhile isDigitPart cs + (j + 2) := by
      rcases Nat.eq_or_lt_of_le hm with h | h
      · exact .inl h.symm
      · exact .inr ⟨m - countWhile isDigitPart cs - 2, by omega⟩
    · simp [decimalNumber, htake, exponentLength, endNumber, intSuffix]
    · -- both dots are kept
      have hkept := htake _ (Nat.le_add_right _ (j + 2))
      have hdots' : (cs.take (countWhile isDigitPart cs + (j + 2))).drop
          (countWhile isDigitPart (cs.take (countWhile isDigitPart cs + (j + 2)))) =
          '.' :: '.' :: ds.take j := by
        rw [hkept, List.drop_take, hdots]
        simp
      rw [decimalNumber_of_dots hdots', hkept]
  · have hcs : ∀ ds, cs.drop (countWhile isDigitPart cs) ≠ '.' :: '.' :: ds :=
      fun ds h => hdots ⟨ds, h⟩
    rw [decimalNumber_eq hcs] at hm ⊢
    have hn : countWhile isDigitPart cs ≤ m := by
      simp only [plainDecimal, body, digits, andThen] at hm
      omega
    have hkept : ∀ ds, (cs.take m).drop (countWhile isDigitPart (cs.take m)) ≠ '.' :: '.' :: ds := by
      intro ds h
      rw [htake _ hn, List.drop_take] at h
      refine hcs (ds ++ (cs.drop (countWhile isDigitPart cs)).drop
        (m - countWhile isDigitPart cs)) ?_
      rw [← List.cons_append, ← List.cons_append, ← h, List.take_append_drop]
    rw [decimalNumber_eq hkept, (settled_plainDecimal cs).2 m hm]

/-- One dot behind the digits and nothing behind it is a decimal point. -/
theorem decimalNumber_of_dot {cs : List Char} (h : cs.drop (countWhile isDigitPart cs) = ['.']) :
    decimalNumber cs = (.doubleLiteral, countWhile isDigitPart cs + 1) := by
  have hnone : cs.drop (countWhile isDigitPart cs + 1) = [] := by
    rw [← List.drop_drop, h]
    rfl
  have hzero : countWhile isDigitPart [] = 0 := rfl
  simp [decimalNumber, h, hzero, hnone, exponentLength, endNumber, floatSuffix]

/-- The first of two dots is a decimal point when the second one is cut off. -/
theorem decimalNumber_take_of_cutsDots {cs : List Char} {m : Nat} (h : CutsDots cs m) :
    decimalNumber (cs.take m) = (.doubleLiteral, m) := by
  obtain ⟨rfl, ds, hdots⟩ := h
  have hkept : countWhile isDigitPart (cs.take (countWhile isDigitPart cs + 1)) =
      countWhile isDigitPart cs := (settled_countWhile isDigitPart cs).2 _ (Nat.le_add_right _ 1)
  rw [decimalNumber_of_dot, hkept]
  rw [hkept, List.drop_take, hdots]
  simp

theorem suffix_eq_intLiteral {floating : Bool} {cs : List Char}
    (h : (suffix floating cs).1 = .intLiteral) :
    floating = false ∧ (suffix floating cs).2 = 0 := by
  cases floating with
  | true =>
    simp only [suffix, if_true, floatSuffix] at h
    split at h <;> cases h
  | false =>
    simp only [suffix, Bool.false_eq_true, if_false, intSuffix] at h ⊢
    split at h <;> simp_all

/-- A dot behind an integer is the first of two. -/
theorem cutsDots_of_intLiteral {cs ds : List Char} {n : Nat}
    (h : decimalNumber cs = (.intLiteral, n)) (hdot : cs.drop n = '.' :: ds) :
    CutsDots cs (n + 1) := by
  by_cases hdots : ∃ ds, cs.drop (countWhile isDigitPart cs) = '.' :: '.' :: ds
  · obtain ⟨ds, hdots⟩ := hdots
    rw [decimalNumber_of_dots hdots] at h
    cases h
    exact ⟨rfl, ds, hdots⟩
  · rw [decimalNumber_eq fun ds h => hdots ⟨ds, h⟩] at h
    obtain ⟨hkind, hlen⟩ := Prod.ext_iff.1 h
    simp only [plainDecimal, decimalSuffix] at hkind hlen
    -- an integer has no point, no exponent and no suffix
    obtain ⟨hfloating, hsuffix⟩ := suffix_eq_intLiteral hkind
    rw [hsuffix, Nat.add_zero] at hlen
    simp only [Bool.or_eq_false_iff, body, bne_eq_false_iff_eq] at hfloating hlen
    obtain ⟨⟨hpoint, hexponent⟩, -⟩ := hfloating
    have hn : countWhile isDigitPart cs = n := by
      rw [hexponent, Nat.add_zero] at hlen
      simpa [digits, andThen, hpoint] using hlen
    rw [hn, hdot] at hpoint
    simp [behind] at hpoint

/-- A binary number behind its zero. -/
def binaryNumber (cs : List Char) : TokenKind × Nat :=
  endNumber false (behind (fun c => c == 'b' || c == 'B') (countWhile isDigitPart) cs) cs

theorem settled_binaryNumber : Settled Prod.snd binaryNumber := by
  have hbody : Settled Prod.snd fun cs =>
      (false, behind (fun c => c == 'b' || c == 'B') (countWhile isDigitPart) cs) := by
    intro cs
    obtain ⟨hle, htake⟩ := (settled_countWhile isDigitPart).behind
      (fun c => c == 'b' || c == 'B') cs
    exact ⟨hle, fun m hm => by simp only [htake m hm]⟩
  exact hbody.suffixed settled_suffix

/-- A number behind the digit zero, by the character that follows. -/
theorem number_zero (cs : List Char) :
    number '0' cs = match cs with
      | [] => decimalNumber []
      | c :: ds =>
        if c = 'x' ∨ c = 'X' then ((hexNumber ds).1, (hexNumber ds).2 + 1)
        else if c = 'b' ∨ c = 'B' then binaryNumber (c :: ds)
        else decimalNumber (c :: ds) := by
  cases cs with
  | nil => rfl
  | cons c ds =>
    unfold number
    simp only [if_true]
    split <;> simp_all [binaryNumber, behind]

/-- The mark of a hexadecimal or a binary number stands in front. -/
def hasRadix : List Char → Bool
  | '0' :: c :: _ => c == 'x' || c == 'X' || c == 'b' || c == 'B'
  | _ => false

theorem number_of_hasRadix_eq_false {c : Char} {cs : List Char} (h : hasRadix (c :: cs) = false) :
    number c cs = decimalNumber cs := by
  by_cases hc : c = '0'
  · subst hc
    cases cs with
    | nil => rfl
    | cons d ds =>
      simp only [hasRadix, Bool.or_eq_false_iff, beq_eq_false_iff_ne] at h
      simp [number_zero, h]
  · simp [number, hc]

/-- A number with a mark is settled by what it covers, which the mark is part of. -/
theorem number_of_hasRadix {c d : Char} {ds : List Char} (h : hasRadix (c :: d :: ds) = true) :
    1 ≤ (number c (d :: ds)).2 ∧ (number c (d :: ds)).2 ≤ ds.length + 1 ∧
      ∀ m, (number c (d :: ds)).2 ≤ m + 1 →
        number c (d :: ds.take m) = number c (d :: ds) := by
  have hc : c = '0' := by
    unfold hasRadix at h
    split at h
    · simp_all
    · cases h
  subst hc
  by_cases hx : d = 'x' ∨ d = 'X'
  · obtain ⟨hle, htake⟩ := settled_hexNumber ds
    simp only [number_zero, hx, if_true]
    exact ⟨by omega, by omega, fun m hm => by rw [htake m (by omega)]⟩
  · have hb : d = 'b' ∨ d = 'B' := by
      simp only [hasRadix, Bool.or_eq_true, beq_iff_eq, or_assoc] at h
      exact (or_assoc.2 h).resolve_left hx
    obtain ⟨hle, htake⟩ := settled_binaryNumber (d :: ds)
    simp only [number_zero, hx, hb, if_true, if_false]
    refine ⟨?_, hle, fun m hm => ?_⟩
    · rcases hb with rfl | rfl <;> simp [binaryNumber, behind, endNumber_eq] <;> omega
    · rw [← List.take_succ_cons, htake (m + 1) hm]

theorem number_le (c : Char) (cs : List Char) : (number c cs).2 ≤ cs.length := by
  cases h : hasRadix (c :: cs) with
  | false =>
    rw [number_of_hasRadix_eq_false h]
    exact decimalNumber_le cs
  | true =>
    cases cs with
    | nil => simp [hasRadix] at h
    | cons d ds => exact (number_of_hasRadix h).2.1

/-- The mark of a number is kept with it, and none comes about when the text is cut behind it. -/
theorem hasRadix_take {c : Char} {cs : List Char} {m : Nat} (hm : (number c cs).2 ≤ m) :
    hasRadix (c :: cs.take m) = hasRadix (c :: cs) := by
  cases cs with
  | nil => rw [List.take_nil]
  | cons d ds =>
    cases m with
    | succ m =>
      rw [List.take_succ_cons]
      unfold hasRadix
      split <;> simp_all
    | zero =>
      cases h : hasRadix (c :: d :: ds) with
      | false => simp [hasRadix]
      | true =>
        have := (number_of_hasRadix h).1
        omega

theorem number_take {c : Char} {cs : List Char} {m : Nat} (hm : (number c cs).2 ≤ m)
    (hcut : hasRadix (c :: cs) = false → ¬ CutsDots cs m) :
    number c (cs.take m) = number c cs := by
  cases h : hasRadix (c :: cs) with
  | false =>
    rw [number_of_hasRadix_eq_false (by rw [hasRadix_take hm, h])]
    rw [number_of_hasRadix_eq_false h] at hm ⊢
    exact decimalNumber_take hm (hcut h)
  | true =>
    cases cs with
    | nil => rw [List.take_nil]
    | cons d ds =>
      obtain ⟨hpos, -, htake⟩ := number_of_hasRadix h
      obtain ⟨m, rfl⟩ : ∃ k, m = k + 1 := ⟨m - 1, by omega⟩
      exact htake m hm

/-! ## Quoted literals and comments -/

theorem quotedLength?_cons {quote c : Char} (h : c ≠ '\\') (cs : List Char) :
    quotedLength? quote (c :: cs) =
      if isLineEnd c then none
      else if c = quote then some 1 else (quotedLength? quote cs).map (· + 1) := by
  rw [quotedLength?]
  · exact fun hc _ => h hc
  · exact fun _ _ hc _ => h hc

/-- A backslash with nothing before it that would take it is the first of a pair or the last. -/
theorem ne_backslash {c : Char} {cs : List Char} (hlast : c = '\\' → cs = [] → False)
    (hpair : ∀ d ds, c = '\\' → cs = d :: ds → False) : c ≠ '\\' := by
  intro hc
  cases cs with
  | nil => exact hlast hc rfl
  | cons d ds => exact hpair d ds hc rfl

theorem quotedLength?_take {quote : Char} {cs : List Char} {n : Nat}
    (h : quotedLength? quote cs = some n) :
    n ≤ cs.length ∧ ∀ m, n ≤ m → quotedLength? quote (cs.take m) = some n := by
  fun_induction quotedLength? quote cs generalizing n with
  | case1 => cases h
  | case2 => cases h
  | case3 => cases h
  | case4 c cs hend ih =>
    obtain ⟨n, hn, rfl⟩ := Option.map_eq_some_iff.1 h
    obtain ⟨hle, htake⟩ := ih hn
    refine ⟨by simp only [List.length_cons]; omega, fun m hm => ?_⟩
    obtain ⟨m, rfl⟩ : ∃ k, m = k + 2 := ⟨m - 2, by omega⟩
    simp [quotedLength?, hend, htake m (by omega)]
  | case5 => cases h
  | case6 cs hlast hpair hend =>
    cases h
    refine ⟨by simp, fun m hm => ?_⟩
    obtain ⟨m, rfl⟩ : ∃ k, m = k + 1 := ⟨m - 1, by omega⟩
    simp [quotedLength?_cons (ne_backslash hlast hpair), hend]
  | case7 c cs hlast hpair hend hne ih =>
    obtain ⟨n, hn, rfl⟩ := Option.map_eq_some_iff.1 h
    obtain ⟨hle, htake⟩ := ih hn
    refine ⟨by simp only [List.length_cons]; omega, fun m hm => ?_⟩
    obtain ⟨m, rfl⟩ : ∃ k, m = k + 1 := ⟨m - 1, by omega⟩
    simp [quotedLength?_cons (ne_backslash hlast hpair), hend, hne, htake m (by omega)]

theorem textBlockLength?_take {cs : List Char} {n : Nat} (h : textBlockLength? cs = some n) :
    n ≤ cs.length ∧ ∀ m, n ≤ m → textBlockLength? (cs.take m) = some n := by
  fun_induction textBlockLength? cs generalizing n with
  | case1 => cases h
  | case2 => cases h
  | case3 c cs ih =>
    obtain ⟨n, hn, rfl⟩ := Option.map_eq_some_iff.1 h
    obtain ⟨hle, htake⟩ := ih hn
    refine ⟨by simp only [List.length_cons]; omega, fun m hm => ?_⟩
    obtain ⟨m, rfl⟩ : ∃ k, m = k + 2 := ⟨m - 2, by omega⟩
    simp [textBlockLength?, htake m (by omega)]
  | case4 =>
    cases h
    refine ⟨by simp, fun m hm => ?_⟩
    obtain ⟨m, rfl⟩ : ∃ k, m = k + 3 := ⟨m - 3, by omega⟩
    simp [textBlockLength?]
  | case5 c cs hlast hpair hquotes ih =>
    obtain ⟨n, hn, rfl⟩ := Option.map_eq_some_iff.1 h
    obtain ⟨hle, htake⟩ := ih hn
    have hc := ne_backslash hlast hpair
    refine ⟨by simp only [List.length_cons]; omega, fun m hm => ?_⟩
    obtain ⟨m, rfl⟩ : ∃ k, m = k + 1 := ⟨m - 1, by omega⟩
    rw [List.take_succ_cons, textBlockLength?, htake m (by omega), Option.map_some]
    · exact fun h _ => hc h
    · exact fun _ _ h _ => hc h
    · -- three quotes in the part that is kept would be three quotes in the whole
      intro tail hquote htail
      refine hquotes (tail ++ cs.drop m) hquote ?_
      rw [← List.cons_append, ← List.cons_append, ← htail, List.take_append_drop]

theorem string_take {level : LanguageLevel} {cs : List Char} {kind : TokenKind} {n : Nat}
    (h : string level cs = .ok (kind, n)) :
    n ≤ cs.length ∧ ∀ m, n ≤ m → string level (cs.take m) = .ok (kind, n) := by
  by_cases hblock : ∃ rest, cs = '"' :: '"' :: rest ∧ level.supports .textBlocks = true
  · obtain ⟨rest, rfl, hlevel⟩ := hblock
    simp only [string, hlevel, if_true] at h
    cases hlen : textBlockLength? rest with
    | none => simp [hlen] at h
    | some n =>
      simp only [hlen, Except.ok.injEq, Prod.mk.injEq] at h
      obtain ⟨rfl, rfl⟩ := h
      obtain ⟨hle, htake⟩ := textBlockLength?_take hlen
      refine ⟨by simp only [List.length_cons]; omega, fun m hm => ?_⟩
      obtain ⟨m, rfl⟩ : ∃ k, m = k + 2 := ⟨m - 2, by omega⟩
      simp [string, hlevel, htake m (by omega)]
  · have hline : ∀ ds, (¬ ∃ rest, ds = '"' :: '"' :: rest ∧ level.supports .textBlocks = true) →
        string level ds =
          (quotedLength? '"' ds).elim (.error .unterminatedString) fun n => .ok (.stringLiteral, n) := by
      intro ds hds
      unfold string
      simp only
      split
      · rename_i rest
        have hlevel : level.supports .textBlocks = false := by
          cases hl : level.supports .textBlocks with
          | false => rfl
          | true => exact absurd ⟨rest, rfl, hl⟩ hds
        cases quotedLength? '"' ('"' :: '"' :: rest) <;> simp [hlevel]
      · cases quotedLength? '"' ds <;> rfl
    rw [hline cs hblock] at h
    cases hlen : quotedLength? '"' cs with
    | none => simp [hlen] at h
    | some n =>
      rw [hlen] at h
      cases h
      obtain ⟨hle, htake⟩ := quotedLength?_take hlen
      refine ⟨hle, fun m hm => ?_⟩
      rw [hline, htake m hm, Option.elim]
      rintro ⟨rest, hrest, hlevel⟩
      refine hblock ⟨rest ++ cs.drop m, ?_, hlevel⟩
      rw [← List.cons_append, ← List.cons_append, ← hrest, List.take_append_drop]

theorem blockCommentLength?_take {cs : List Char} {n : Nat} (h : blockCommentLength? cs = some n) :
    2 ≤ n ∧ n ≤ cs.length ∧ ∀ m, n ≤ m → blockCommentLength? (cs.take m) = some n := by
  fun_induction blockCommentLength? cs generalizing n with
  | case1 => cases h
  | case2 =>
    cases h
    refine ⟨Nat.le_refl _, by simp, fun m hm => ?_⟩
    obtain ⟨m, rfl⟩ : ∃ k, m = k + 2 := ⟨m - 2, by omega⟩
    simp [blockCommentLength?]
  | case3 c cs hend ih =>
    obtain ⟨n, hn, rfl⟩ := Option.map_eq_some_iff.1 h
    obtain ⟨htwo, hle, htake⟩ := ih hn
    refine ⟨by omega, by simp only [List.length_cons]; omega, fun m hm => ?_⟩
    obtain ⟨m, rfl⟩ : ∃ k, m = k + 1 := ⟨m - 1, by omega⟩
    rw [List.take_succ_cons, blockCommentLength?, htake m (by omega), Option.map_some]
    intro tail hc htail
    refine hend (tail ++ cs.drop m) hc ?_
    rw [← List.cons_append, ← htail, List.take_append_drop]

/-- A comment to the end of its line is one of markdown if it starts with a third slash. -/
def lineCommentKind (level : LanguageLevel) (cs : List Char) : TokenKind :=
  if cs.head? = some '/' ∧ level.supports .markdownDocComments = true then .markdownComment
  else .lineComment

theorem comment?_slash (level : LanguageLevel) (cs : List Char) :
    comment? level ('/' :: cs) =
      some (.ok (lineCommentKind level cs, 1 + countWhile (fun c => !isLineEnd c) cs)) := by
  unfold comment? lineCommentKind
  cases cs with
  | nil => rfl
  | cons c cs =>
    by_cases hc : c = '/'
    · subst hc
      simp
    · simp [hc]

/-- A comment between slashes documents what follows if it starts with a second star. -/
def blockCommentKind (cs : List Char) : TokenKind :=
  if cs[0]? = some '*' ∧ cs[1]? ≠ some '/' then .docComment else .blockComment

theorem comment?_star (level : LanguageLevel) (cs : List Char) :
    comment? level ('*' :: cs) = some (match blockCommentLength? cs with
      | some n => .ok (blockCommentKind cs, 1 + n)
      | none => .error .unterminatedBlockComment) := by
  cases hlen : blockCommentLength? cs with
  | none => simp [comment?, hlen]
  | some n =>
    simp only [comment?, blockCommentKind, hlen]
    rcases cs with _ | ⟨c, _ | ⟨d, ds⟩⟩
    · simp
    · by_cases hc : c = '*' <;> simp [hc]
    · by_cases hc : c = '*' <;> by_cases hd : d = '/' <;> simp [hc, hd]

theorem lineCommentKind_take {level : LanguageLevel} {cs : List Char} {m : Nat}
    (hm : countWhile (fun c => !isLineEnd c) cs ≤ m) :
    lineCommentKind level (cs.take m) = lineCommentKind level cs := by
  cases cs with
  | nil => rw [List.take_nil]
  | cons c cs =>
    cases m with
    | succ m => rfl
    | zero =>
      have hslash : c ≠ '/' := by
        rintro rfl
        simp [countWhile, isLineEnd] at hm
      simp [lineCommentKind, hslash]

theorem blockCommentKind_take {cs : List Char} {m : Nat} (hm : 2 ≤ m) :
    blockCommentKind (cs.take m) = blockCommentKind cs := by
  simp only [blockCommentKind]
  rw [List.getElem?_take_of_lt (by omega), List.getElem?_take_of_lt (by omega)]

theorem comment?_take {level : LanguageLevel} {cs : List Char} {kind : TokenKind} {n : Nat}
    (h : comment? level cs = some (.ok (kind, n))) :
    n ≤ cs.length ∧ ∀ m, n ≤ m → comment? level (cs.take m) = some (.ok (kind, n)) := by
  have hcases : ∃ ds, cs = '/' :: ds ∨ cs = '*' :: ds := by
    unfold comment? at h
    split at h
    · exact ⟨_, .inl rfl⟩
    · exact ⟨_, .inr rfl⟩
    · cases h
  obtain ⟨ds, rfl | rfl⟩ := hcases
  · obtain ⟨hle, htake⟩ := settled_countWhile (fun c => !isLineEnd c) ds
    simp only [id_eq] at hle htake
    rw [comment?_slash] at h
    obtain ⟨rfl, rfl⟩ : lineCommentKind level ds = kind ∧
      1 + countWhile (fun c => !isLineEnd c) ds = n := by simpa using h
    refine ⟨by simp only [List.length_cons]; omega, fun m hm => ?_⟩
    obtain ⟨m, rfl⟩ : ∃ k, m = k + 1 := ⟨m - 1, by omega⟩
    rw [List.take_succ_cons, comment?_slash, lineCommentKind_take (by omega),
      htake m (by omega)]
  · rw [comment?_star] at h
    cases hlen : blockCommentLength? ds with
    | none => simp [hlen] at h
    | some k =>
      obtain ⟨rfl, rfl⟩ : blockCommentKind ds = kind ∧ 1 + k = n := by simpa [hlen] using h
      obtain ⟨htwo, hle, htake⟩ := blockCommentLength?_take hlen
      refine ⟨by simp only [List.length_cons]; omega, fun m hm => ?_⟩
      obtain ⟨m, rfl⟩ : ∃ j, m = j + 1 := ⟨m - 1, by omega⟩
      rw [List.take_succ_cons, comment?_star, htake m (by omega), blockCommentKind_take (by omega)]

/-! ## Words and operators -/

/-- An operator is still found where less follows it. -/
theorem operatorAt?_take {cs text : List Char} {kind : TokenKind} {m : Nat}
    (h : operatorAt? cs = some (text, kind)) (hm : text.length ≤ m) :
    operatorAt? (cs.take m) = some (text, kind) := by
  obtain ⟨-, hpre⟩ := operatorAt?_mem h
  unfold operatorAt? at h ⊢
  obtain ⟨-, before, after, htable, hbefore⟩ := List.find?_eq_some_iff_append.1 h
  refine List.find?_eq_some_iff_append.2 ⟨?_, before, after, htable, fun entry hentry => ?_⟩
  · rw [List.isPrefixOf_iff_prefix, List.prefix_take_iff]
    exact ⟨hpre, hm⟩
  · have hnot := hbefore entry hentry
    simp only [Bool.not_eq_true', ← Bool.not_eq_true, List.isPrefixOf_iff_prefix] at hnot ⊢
    exact fun hsub => hnot (hsub.trans (List.take_prefix m cs))

/-- Where no operator starts, none starts when less follows. -/
theorem operatorAt?_take_eq_none {cs : List Char} (n : Nat) (h : operatorAt? cs = none) :
    operatorAt? (cs.take n) = none := by
  unfold operatorAt? at h ⊢
  rw [List.find?_eq_none] at h ⊢
  intro entry hentry hsub
  refine h entry hentry ?_
  rw [List.isPrefixOf_iff_prefix] at hsub ⊢
  exact hsub.trans (List.take_prefix n cs)

theorem operatorOrWord_take {level : LanguageLevel} {c : Char} {cs : List Char}
    {kind : TokenKind} {n : Nat} (h : operatorOrWord level c cs = .ok (kind, n)) :
    n ≤ cs.length ∧ ∀ m, n ≤ m → operatorOrWord level c (cs.take m) = .ok (kind, n) := by
  unfold operatorOrWord at h
  split at h
  · rename_i text k hop
    obtain ⟨rfl, rfl⟩ : k = kind ∧ text.length - 1 = n := by simpa using h
    have hlen := (operatorAt?_mem hop).2.length_le
    rw [List.length_cons] at hlen
    refine ⟨by omega, fun m hm => ?_⟩
    have hcut := operatorAt?_take (m := m + 1) hop (by omega)
    rw [List.take_succ_cons] at hcut
    simp only [operatorOrWord, hcut]
  · rename_i hop
    split at h
    · rename_i hstart
      obtain ⟨rfl, rfl⟩ : wordKind level
          (String.ofList (c :: cs.take (countWhile isIdentifierPart cs))) = kind ∧
          countWhile isIdentifierPart cs = n := by simpa using h
      obtain ⟨hle, htake⟩ := settled_countWhile isIdentifierPart cs
      simp only [id_eq] at hle htake
      refine ⟨hle, fun m hm => ?_⟩
      have hcut := operatorAt?_take_eq_none (m + 1) hop
      rw [List.take_succ_cons] at hcut
      unfold operatorOrWord
      simp only [hcut, hstart, if_true, htake m hm, List.take_take, Nat.min_eq_left hm]
    · cases h

/-! ## Lexemes -/

theorem comment?_take_eq_none {level : LanguageLevel} {cs : List Char} (n : Nat)
    (h : comment? level cs = none) : comment? level (cs.take n) = none := by
  cases cs with
  | nil => simpa using h
  | cons c cs =>
    cases n with
    | zero => rfl
    | succ n =>
      have hslash : c ≠ '/' := fun hc => by simp [hc, comment?_slash] at h
      have hstar : c ≠ '*' := fun hc => by simp [hc, comment?_star] at h
      simp [comment?, hslash, hstar]

/-- A decimal point with a digit behind it starts a number. -/
def dot (level : LanguageLevel) (cs : List Char) : Except LexFault (TokenKind × Nat) :=
  match cs with
  | d :: _ => if d.isDigit then .ok (fraction cs) else operatorOrWord level '.' cs
  | [] => operatorOrWord level '.' cs

theorem fraction_pos {d : Char} {ds : List Char} (h : d.isDigit = true) :
    1 ≤ (fraction (d :: ds)).2 := by
  simp only [fraction, endNumber_eq, countWhile, isDigitPart, h, Bool.true_or,
    List.takeWhile_cons_of_pos, List.length_cons]
  omega

theorem dot_take {level : LanguageLevel} {cs : List Char} {kind : TokenKind} {n : Nat}
    (h : dot level cs = .ok (kind, n)) :
    n ≤ cs.length ∧ ∀ m, n ≤ m → dot level (cs.take m) = .ok (kind, n) := by
  cases cs with
  | nil =>
    have hop : operatorOrWord level '.' [] = .ok (kind, n) := h
    exact ⟨(operatorOrWord_take hop).1, fun m _ => by rw [List.take_nil]; exact h⟩
  | cons d ds =>
    by_cases hdigit : d.isDigit = true
    · have hfrac : fraction (d :: ds) = (kind, n) := by simpa [dot, hdigit] using h
      obtain ⟨hle, htake⟩ := settled_fraction (d :: ds)
      rw [hfrac] at hle htake
      have hpos : 1 ≤ (fraction (d :: ds)).2 := fraction_pos hdigit
      rw [hfrac] at hpos
      refine ⟨hle, fun m hm => ?_⟩
      obtain ⟨m, rfl⟩ : ∃ k, m = k + 1 := ⟨m - 1, by omega⟩
      have hcut := htake (m + 1) hm
      rw [List.take_succ_cons] at hcut ⊢
      simp [dot, hdigit, hcut]
    · have hop : operatorOrWord level '.' (d :: ds) = .ok (kind, n) := by
        simpa [dot, hdigit] using h
      obtain ⟨hle, htake⟩ := operatorOrWord_take hop
      refine ⟨hle, fun m hm => ?_⟩
      have hcut := htake m hm
      cases m with
      | zero => exact hcut
      | succ m =>
        rw [List.take_succ_cons] at hcut ⊢
        simp [dot, hdigit, hcut]

/-- The text behind its first character is cut between the two dots behind a decimal number. -/
def CutsNumber (c : Char) (cs : List Char) (m : Nat) : Prop :=
  c.isDigit = true ∧ hasRadix (c :: cs) = false ∧ CutsDots cs m

theorem next_of_isDigit {c : Char} (hdigit : c.isDigit = true) (level : LanguageLevel)
    (cs : List Char) : next level c cs = .ok (number c cs) := by
  have hblank : isBlank c = false := by
    cases hc : isBlank c with
    | false => rfl
    | true =>
      simp only [isBlank, Bool.or_eq_true, beq_iff_eq] at hc
      rcases hc with (((rfl | rfl) | rfl) | rfl) | rfl <;> cases hdigit
  simp [next, hblank, hdigit]

/-- A lexeme lies inside its text, and the text gives it again when it is cut behind it. -/
theorem next_take_of_le {level : LanguageLevel} {c : Char} {cs : List Char} {kind : TokenKind}
    {n : Nat} (h : next level c cs = .ok (kind, n)) :
    n ≤ cs.length ∧
      ∀ m, n ≤ m → ¬ CutsNumber c cs m → next level c (cs.take m) = .ok (kind, n) := by
  unfold next at h ⊢
  split at h
  · rename_i hblank
    obtain ⟨rfl, rfl⟩ : TokenKind.whitespace = kind ∧ countWhile isBlank cs = n := by simpa using h
    obtain ⟨hle, htake⟩ := settled_countWhile isBlank cs
    simp only [id_eq] at hle htake
    exact ⟨hle, fun m hm _ => by rw [if_pos hblank, htake m hm]⟩
  rename_i hblank
  simp only [if_neg hblank]
  split at h
  · rename_i hdigit
    have hnum : number c cs = (kind, n) := Except.ok.inj h
    have hlen : (number c cs).2 = n := by rw [hnum]
    refine ⟨hlen ▸ number_le c cs, fun m hm hcut => ?_⟩
    rw [if_pos hdigit, number_take (hlen ▸ hm) fun hradix hdots => hcut ⟨hdigit, hradix, hdots⟩,
      hnum]
  rename_i hdigit
  simp only [if_neg hdigit]
  split at h
  · cases hcom : comment? level cs with
    | none =>
      obtain ⟨hle, htake⟩ := operatorOrWord_take (by simpa [hcom] using h)
      exact ⟨hle, fun m hm _ => by simpa [comment?_take_eq_none m hcom] using htake m hm⟩
    | some result =>
      have hok : comment? level cs = some (.ok (kind, n)) := by simpa [hcom] using h
      obtain ⟨hle, htake⟩ := comment?_take hok
      exact ⟨hle, fun m hm _ => by simp [htake m hm]⟩
  · obtain ⟨hle, htake⟩ := dot_take h
    exact ⟨hle, fun m hm _ => htake m hm⟩
  · cases hlen : quotedLength? '\'' cs with
    | none => simp [hlen] at h
    | some k =>
      obtain ⟨rfl, rfl⟩ : TokenKind.charLiteral = kind ∧ k = n := by simpa [hlen] using h
      obtain ⟨hle, htake⟩ := quotedLength?_take hlen
      exact ⟨hle, fun m hm _ => by simp [htake m hm]⟩
  · obtain ⟨hle, htake⟩ := string_take h
    exact ⟨hle, fun m hm _ => htake m hm⟩
  · obtain ⟨hle, htake⟩ := operatorOrWord_take h
    exact ⟨hle, fun m hm _ => htake m hm⟩

/-- A lexeme lies inside its text, and its characters give it again. -/
theorem next_take {level : LanguageLevel} {c : Char} {cs : List Char} {kind : TokenKind} {n : Nat}
    (h : next level c cs = .ok (kind, n)) :
    n ≤ cs.length ∧ next level c (cs.take n) = .ok (kind, n) := by
  obtain ⟨hle, htake⟩ := next_take_of_le h
  refine ⟨hle, htake n (Nat.le_refl _) ?_⟩
  -- a number with two dots behind it ends in front of them
  rintro ⟨hdigit, hradix, hn, ds, hdots⟩
  rw [next_of_isDigit hdigit, number_of_hasRadix_eq_false hradix,
    decimalNumber_of_dots hdots] at h
  cases h
  omega

end Lexeme

end JavaAnalysis
