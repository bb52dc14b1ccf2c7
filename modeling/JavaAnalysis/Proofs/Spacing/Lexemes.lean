import JavaAnalysis.Proofs.Row.Search
import JavaAnalysis.Proofs.Spacing.Composition
import Mathlib.Order.Monotone.Basic

/-!
# Moving lexemes

Two files with the same significant lexemes differ in nothing but the places of these. Both come from
one row of lexemes without any gaps between them, of which each file is spread by a shift of its own
that keeps bytes in order and the bytes of a lexeme together. From one file to the other the ends of
lexemes, and the places inside them, go along with the lexemes.
-/

set_option autoImplicit false
set_option linter.dupNamespace false

namespace JavaAnalysis

open Lexeme TokenRow

/-! ## Order -/

namespace Shift

variable {f : Shift} {a b : Nat}

theorem stop_lt_stop_iff (hf : StrictMono f.start) : f.stop a < f.stop b ↔ a < b := by
  cases a <;> cases b <;> simp [stop, hf.lt_iff_lt]

theorem stop_le_stop_iff (hf : StrictMono f.start) : f.stop a ≤ f.stop b ↔ a ≤ b := by
  rw [← Nat.not_lt, ← Nat.not_lt, stop_lt_stop_iff hf]

theorem stop_le_start_iff (hf : StrictMono f.start) : f.stop a ≤ f.start b ↔ a ≤ b := by
  cases a with
  | zero => simp [stop]
  | succ a => exact hf.lt_iff_lt

theorem start_lt_stop_iff (hf : StrictMono f.start) : f.start a < f.stop b ↔ a < b := by
  rw [← Nat.not_le, ← Nat.not_le, stop_le_start_iff hf]

end Shift

/-! ## Lexemes and where they go -/

/-- Two lexemes are the same apart from their places. -/
structure Lexeme.Same (x y : Lexeme) : Prop where
  kind_eq : y.kind = x.kind
  text_eq : y.text = x.text

/-- The second lexeme is the first one where the shift takes it, byte by byte. -/
structure Lexeme.Moved (f : Shift) (x y : Lexeme) : Prop extends Same x y where
  start_eq : y.start = f.start x.start
  inside : ∀ d < x.text.utf8ByteSize, f.start (x.start + d) = y.start + d

namespace Lexeme.Moved

variable {f : Shift} {x y : Lexeme}

/-- The end of a lexeme goes along with it, unless it is empty. -/
theorem stop_eq (h : Moved f x y) (hne : 0 < x.text.utf8ByteSize) : y.stop = f.stop x.stop := by
  obtain ⟨n, hn⟩ : ∃ n, x.text.utf8ByteSize = n + 1 := ⟨x.text.utf8ByteSize - 1, by omega⟩
  have hlast := h.inside n (by omega)
  have hstop : f.stop x.stop = f.start (x.start + n) + 1 := by
    unfold Lexeme.stop
    rw [hn, ← Nat.add_assoc]
    rfl
  rw [hstop, hlast, Lexeme.stop, h.text_eq, hn, Nat.add_assoc]

theorem range_eq (h : Moved f x y) (hne : 0 < x.text.utf8ByteSize) : y.range = f.range x.range := by
  unfold Lexeme.range Shift.range
  rw [h.start_eq, h.stop_eq hne]

end Lexeme.Moved

/-- A row consists of significant lexemes if the row that it is spread to does. -/
theorem Lexeme.filter_of_moved {f : Shift} {xs ys : List Lexeme}
    (h : List.Forall₂ (Lexeme.Moved f) xs ys)
    (hys : ∀ y ∈ ys, y.kind.isTrivia = false) : xs.filter (fun x => !x.kind.isTrivia) = xs := by
  induction h with
  | nil => rfl
  | @cons x y _ _ hxy _ ih =>
    have hx : x.kind.isTrivia = false := hxy.kind_eq ▸ hys y List.mem_cons_self
    rw [List.filter_cons_of_pos (by simp [hx]), ih fun y hy => hys y (List.mem_cons_of_mem _ hy)]

/-- Lexemes that follow each other without gaps from an offset on, up to the end of a file. -/
inductive Lexeme.Tight : Nat → List Lexeme → Prop where
  | last {n : Nat} {x : Lexeme} (start_eq : x.start = n) (final : IsEnd x) : Tight n [x]
  | cons {n : Nat} {x : Lexeme} {xs : List Lexeme} (start_eq : x.start = n)
      (kind_ne : x.kind ≠ .endOfFile) (nonempty : 0 < x.text.utf8ByteSize)
      (rest : Tight x.stop xs) : Tight n (x :: xs)

/-- Lexemes that follow each other from an offset on, perhaps with gaps, up to the end of a file. -/
inductive Lexeme.Loose : Nat → List Lexeme → Prop where
  | last {n : Nat} {x : Lexeme} (start_le : n ≤ x.start) (final : IsEnd x) : Loose n [x]
  | cons {n : Nat} {x : Lexeme} {xs : List Lexeme} (start_le : n ≤ x.start)
      (kind_ne : x.kind ≠ .endOfFile) (nonempty : 0 < x.text.utf8ByteSize)
      (rest : Loose x.stop xs) : Loose n (x :: xs)

theorem Lexeme.Tight.loose {n : Nat} {xs : List Lexeme} (h : Tight n xs) : Loose n xs := by
  induction h with
  | last hstart hfinal => exact .last (Nat.le_of_eq hstart.symm) hfinal
  | cons hstart hkind hne _ ih => exact .cons (Nat.le_of_eq hstart.symm) hkind hne ih

/-- The significant lexemes of a file follow each other. -/
theorem Lexeme.Significant.loose {raw : List Lexeme} (h : Significant raw) : Loose 0 raw := by
  obtain ⟨before, last, hraw, hend, hbefore⟩ := h.final
  have hfollow := h.follow
  have hnonempty := h.nonempty
  have hstart : ∀ x ∈ raw, 0 ≤ x.start := fun _ _ => Nat.zero_le _
  clear h
  subst hraw
  generalize 0 = n at hstart
  induction before generalizing n with
  | nil => exact .last (hstart last List.mem_cons_self) hend
  | cons x before ih =>
    obtain ⟨hx, hrest⟩ := List.pairwise_cons.1 hfollow
    have hkind := hbefore x List.mem_cons_self
    have hwidth := hnonempty x List.mem_cons_self hkind
    refine .cons (hstart x List.mem_cons_self) hkind (by unfold Lexeme.stop at hwidth; omega) ?_
    exact ih (fun y hy => hbefore y (List.mem_cons_of_mem _ hy)) hrest
      (fun y hy => hnonempty y (List.mem_cons_of_mem _ hy)) x.stop hx

/-- The lexemes put one behind the other from an offset on. -/
def Lexeme.tighten : Nat → List Lexeme → List Lexeme
  | _, [] => []
  | n, x :: xs => { x with start := n } :: tighten (n + x.text.utf8ByteSize) xs

theorem Lexeme.Loose.tighten {m n : Nat} {xs : List Lexeme} (h : Loose m xs) :
    Tight n (tighten n xs) := by
  induction h generalizing n with
  | last _ hfinal => exact .last rfl ⟨hfinal.kind, hfinal.text⟩
  | cons _ hkind hne _ ih => exact .cons rfl hkind hne ih

/-- The lexemes of a tight row are those that it was made of, and so are those of a like row. -/
theorem Lexeme.same_tighten {xs ys : List Lexeme} (h : List.Forall₂ Same xs ys) (n : Nat) :
    List.Forall₂ Same (Lexeme.tighten n xs) ys := by
  induction h generalizing n with
  | nil => exact .nil
  | cons hxy _ ih => exact .cons ⟨hxy.kind_eq, hxy.text_eq⟩ (ih _)

theorem Lexeme.exists_same_of_mem_tighten {xs : List Lexeme} {n : Nat} {x : Lexeme}
    (h : x ∈ Lexeme.tighten n xs) : ∃ y ∈ xs, Same x y := by
  induction xs generalizing n with
  | nil => cases h
  | cons z zs ih =>
    rcases List.mem_cons.1 h with rfl | h
    · exact ⟨z, List.mem_cons_self, rfl, rfl⟩
    · obtain ⟨y, hy, hxy⟩ := ih h
      exact ⟨y, List.mem_cons_of_mem _ hy, hxy⟩

/-! ## From one file to another -/

/-- An offset goes along with the last of the given places that is not behind it. -/
def carry (o : Nat) (start : Nat) (pairs : List (Nat × Nat)) : Nat :=
  pairs.foldl (fun n p => if p.1 ≤ o then p.2 + (o - p.1) else n) start

/-- The places at which lexemes start that stand for each other. -/
def startPairs (xs ys : List Lexeme) : List (Nat × Nat) :=
  List.zipWith (fun x y => (x.start, y.start)) xs ys

/-- From a row of lexemes to another: what belongs to a lexeme goes with it. -/
def Shift.between (xs ys : List Lexeme) : Shift := ⟨fun o => carry o o (startPairs xs ys)⟩

variable {f : Shift} {x y : Lexeme} {xs ys zs : List Lexeme} {a b c o p : Nat}

theorem carry_nil : carry o p (startPairs [] ys) = p := rfl

theorem carry_cons : carry o p (startPairs (x :: xs) (y :: ys)) =
    carry o (if x.start ≤ o then y.start + (o - x.start) else p) (startPairs xs ys) := rfl

/-- Lexemes behind a place do not matter to it. -/
theorem carry_of_lt (h : Loose a xs) (hsame : List.Forall₂ Same xs ys) (ho : o < a) :
    carry o p (startPairs xs ys) = p := by
  induction h generalizing ys with
  | last hle _ =>
    obtain ⟨y, _, -, hnil, rfl⟩ := List.forall₂_cons_left_iff.1 hsame
    cases hnil
    rw [carry_cons, if_neg (by omega), carry_nil]
  | cons hle _ _ _ ih =>
    obtain ⟨y, ys, -, hrest, rfl⟩ := List.forall₂_cons_left_iff.1 hsame
    rw [carry_cons, if_neg (by omega)]
    exact ih hrest (by unfold Lexeme.stop; omega)

/-- A tight row is spread in order. -/
theorem carry_lt (h : Tight a xs) (hsame : List.Forall₂ Same xs ys) (hys : Loose b ys)
    {o o' p p' : Nat} (ho : o < o') (hp : p < p') (hb : o < a → p < b) :
    carry o p (startPairs xs ys) < carry o' p' (startPairs xs ys) := by
  induction h generalizing b p p' ys with
  | last hstart _ =>
    obtain ⟨y, _, -, hnil, rfl⟩ := List.forall₂_cons_left_iff.1 hsame
    cases hnil
    rw [carry_cons, carry_cons, carry_nil, carry_nil]
    cases hys <;> split <;> split <;> omega
  | @cons n x xs hstart _ _ hxs ih =>
    obtain ⟨y, ys, hxy, hrest, rfl⟩ := List.forall₂_cons_left_iff.1 hsame
    rw [carry_cons, carry_cons]
    cases hys with
    | last _ hend =>
      cases hrest
      cases hxs
    | cons hle _ _ hys =>
      have hwidth : y.text.utf8ByteSize = x.text.utf8ByteSize := by rw [hxy.text_eq]
      refine ih hrest hys ?_ ?_
      · split <;> split <;> omega
      · unfold Lexeme.stop
        split <;> omega

theorem Shift.strictMono_between (h : Tight 0 xs) (hsame : List.Forall₂ Same xs ys)
    (hys : Loose 0 ys) : StrictMono (Shift.between xs ys).start :=
  fun _ _ ho => carry_lt h hsame hys ho ho (fun h => absurd h (Nat.not_lt_zero _))

/-- A shift that agrees with the places of a row of lexemes moves all of these. -/
theorem moved_of_eq_carry (h : Tight a xs) (hsame : List.Forall₂ Same xs ys)
    (hf : ∀ o, a ≤ o → ∃ p, f.start o = carry o p (startPairs xs ys)) :
    List.Forall₂ (Lexeme.Moved f) xs ys := by
  induction h generalizing ys with
  | last hstart hend =>
    obtain ⟨y, _, hxy, hnil, rfl⟩ := List.forall₂_cons_left_iff.1 hsame
    cases hnil
    refine .cons ⟨hxy, ?_, fun d hd => ?_⟩ .nil
    · obtain ⟨p, hp⟩ := hf _ (Nat.le_of_eq hstart.symm)
      rw [hp, carry_cons, if_pos (Nat.le_refl _), carry_nil]
      omega
    · simp [hend.text] at hd
  | @cons n x xs hstart _ hne hxs ih =>
    obtain ⟨y, ys, hxy, hrest, rfl⟩ := List.forall₂_cons_left_iff.1 hsame
    have hinside : ∀ d < x.text.utf8ByteSize, f.start (x.start + d) = y.start + d := by
      intro d hd
      obtain ⟨p, hp⟩ := hf (x.start + d) (by omega)
      rw [hp, carry_cons, if_pos (by omega),
        carry_of_lt hxs.loose hrest (by unfold Lexeme.stop; omega)]
      omega
    refine .cons ⟨hxy, ?_, hinside⟩ (ih hrest fun o ho => ?_)
    · exact (hinside 0 hne).symm
    · have hle : n ≤ o := by
        unfold Lexeme.stop at ho
        omega
      obtain ⟨p, hp⟩ := hf o hle
      exact ⟨_, hp.trans carry_cons⟩

theorem Shift.moved_between (h : Tight 0 xs) (hsame : List.Forall₂ Same xs ys) :
    List.Forall₂ (Lexeme.Moved (Shift.between xs ys)) xs ys :=
  moved_of_eq_carry h hsame fun _ _ => ⟨_, rfl⟩

/-- From a tight row to a second and then to a third is from the first to the third. -/
theorem carry_carry (h : Tight a xs) (hxy : List.Forall₂ Same xs ys)
    (hxz : List.Forall₂ Same xs zs) (hys : Loose b ys) {p q r : Nat}
    (hfront : o < a → p < b ∧ q = r) :
    carry (carry o p (startPairs xs ys)) q (startPairs ys zs) = carry o r (startPairs xs zs) := by
  induction h generalizing b p q r ys zs with
  | last hstart _ =>
    obtain ⟨y, _, -, hnil, rfl⟩ := List.forall₂_cons_left_iff.1 hxy
    cases hnil
    obtain ⟨z, _, -, hnil, rfl⟩ := List.forall₂_cons_left_iff.1 hxz
    cases hnil
    simp only [carry_cons, carry_nil]
    cases hys <;> split <;> split <;> omega
  | @cons n x xs hstart _ _ hxs ih =>
    obtain ⟨y, ys, hsame, hrest, rfl⟩ := List.forall₂_cons_left_iff.1 hxy
    obtain ⟨z, zs, -, hrest', rfl⟩ := List.forall₂_cons_left_iff.1 hxz
    have hwidth : y.text.utf8ByteSize = x.text.utf8ByteSize := by rw [hsame.text_eq]
    cases hys with
    | last _ hend =>
      cases hrest
      cases hxs
    | cons hle _ _ hys =>
      simp only [carry_cons]
      refine ih hrest hrest' hys fun ho => ?_
      rw [carry_of_lt hxs.loose hrest ho]
      unfold Lexeme.stop at ho ⊢
      split <;> split <;> omega

theorem Shift.between_composes (h : Tight 0 xs) (hxy : List.Forall₂ Same xs ys)
    (hxz : List.Forall₂ Same xs zs) (hys : Loose 0 ys) :
    (Shift.between xs ys).Composes (Shift.between ys zs) (Shift.between xs zs) :=
  ⟨fun _ => carry_carry h hxy hxz hys fun h => absurd h (Nat.not_lt_zero _)⟩

end JavaAnalysis
