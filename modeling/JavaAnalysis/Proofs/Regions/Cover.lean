import JavaAnalysis.Proofs.Regions.Ast
import JavaAnalysis.Proofs.Regions.Written

/-!
# Regions over rows of lexemes

What it means that regions lie over a row of lexemes: each starts with a lexeme and ends with one,
they follow each other, and the regions inside each lie over its own lexemes in the same way. From
that it follows that regions are nested and that their starts never go back. What has no region of
its own has to be found among the lexemes as well: the operators of an expression, the commas of a
declaration, the brackets of an array type.
-/

set_option autoImplicit false

namespace JavaAnalysis.Ast

/-- What is told of the lexemes of a region beside the regions inside it. -/
def Region.Spelled : Region → List Lexeme → Prop
  | .part (.expr e) _, xs => e.isOperation = true → e.Grouped ∧ e.Reads xs
  | .part (.typeRef t) _, xs => t.Written xs
  | .part (.variables d) _, xs => d.Written xs
  | _, _ => True

/-- Nothing is told of the lexemes of the region but what regions are inside it. -/
class Region.Plain (r : Region) : Prop where
  spelled : ∀ xs, r.Spelled xs

/-- The regions lie over runs of a row of lexemes, one behind the other, and so do those inside. -/
inductive Over : List Lexeme → List Region → Prop where
  | nil : Over [] []
  /-- A lexeme that lies in none of the regions. -/
  | lexeme {xs : List Lexeme} {rs : List Region} (x : Lexeme) : Over xs rs → Over (x :: xs) rs
  | region {x y : Lexeme} {xs ys : List Lexeme} {r : Region} {rs : List Region} :
    xs.head? = some x → xs.getLast? = some y → r.range = ⟨x.start, y.stop⟩ → r.Spelled xs →
    Over xs r.inside → Over ys rs → Over (xs ++ ys) (r :: rs)

namespace Region

/-- The region lies over just these lexemes, of which there is one at least. -/
structure Spans (r : Region) (xs : List Lexeme) : Prop where
  ends : r.range.Covers xs
  spelled : r.Spelled xs
  inside : Over xs r.inside

/-- The region starts where a lexeme starts and ends where that one or a later one ends. -/
def Delimited (r : Region) (xs : List Lexeme) : Prop :=
  ∃ ys x y, ys <:+: xs ∧ ys.head? = some x ∧ ys.getLast? = some y ∧ r.range = ⟨x.start, y.stop⟩

/-- The region lies inside another. -/
def Within (r outer : Region) : Prop :=
  outer.range.start ≤ r.range.start ∧ r.range.stop ≤ outer.range.stop

/-- The first region ends before the second one starts. -/
def Before (a b : Region) : Prop := a.range.stop ≤ b.range.start

/-- What lies directly inside a region lies within it, one thing behind the other. -/
structure Nested (r : Region) : Prop where
  within : ∀ c ∈ r.inside, c.Within r
  ordered : r.inside.Pairwise Before

variable {r r' : Region} {xs : List Lexeme}

theorem all_eq (r : Region) : r.all = r :: allOf r.inside := by
  cases r <;> simp only [all, inside]

theorem Spans.ne_nil (h : r.Spans xs) : xs ≠ [] := by
  rintro rfl
  obtain ⟨x, y, hx, -⟩ := h.ends
  cases hx

/-- Two regions with the same range and the same regions inside lie over the same lexemes. -/
theorem Spans.recast (h : r.Spans xs) [r'.Plain] (hrange : r'.range = r.range)
    (hinside : r'.inside = r.inside) : r'.Spans xs :=
  ⟨hrange ▸ h.ends, Plain.spelled xs, hinside ▸ h.inside⟩

end Region

open Region

/-! ## Plain regions -/

section

variable {xs : List Lexeme} {rs : List Region}

instance (r : TextRange) : (detail r rs).Plain := ⟨fun _ => trivial⟩

instance (r : TextRange) : (leaf r).Plain := ⟨fun _ => trivial⟩

instance (r : TextRange) : (patternModifiers r rs).Plain := ⟨fun _ => trivial⟩

instance (name : Ident) : name.region.Plain := ⟨fun _ => trivial⟩

instance (name : QualifiedName) : name.region.Plain := ⟨fun _ => trivial⟩

instance (use : AnnotationUse) : use.region.Plain := ⟨fun _ => by
  cases use
  simp! [Spelled]⟩

instance (decl : MethodDecl) : decl.region.Plain := ⟨fun _ => by
  cases decl
  simp! [Spelled]⟩

instance (decl : TypeDecl) : decl.region.Plain := ⟨fun _ => by
  cases decl
  simp! [Spelled]⟩

instance (block : Block) : block.region.Plain := ⟨fun _ => by
  cases block
  simp! [Spelled]⟩

instance (p : Param) : p.region.Plain := ⟨fun _ => by
  cases p
  simp! [Spelled]⟩

instance (body : ClassBody) : body.region.Plain := ⟨fun _ => by
  cases body
  simp! [Spelled]⟩

instance (p : Pattern) : p.region.Plain := ⟨fun _ => by
  cases p
  simp! [Spelled]⟩

instance (m : Member) : m.region.Plain := ⟨fun _ => by cases m <;> simp! [Spelled]⟩

instance (s : Stmt) : s.region.Plain := ⟨fun _ => by cases s <;> simp! [Spelled]⟩

instance (package : PackageDecl) : package.region.Plain := ⟨fun _ => trivial⟩

instance (decl : ImportDecl) : decl.region.Plain := ⟨fun _ => trivial⟩

theorem TypeRef.region_eq (t : TypeRef) : ∃ rs, t.region = part (.typeRef t) rs := by
  rcases t with _ | _ | ⟨_, _ | _, _⟩ | _ | _ | _ | _ | _ <;> simp [TypeRef.region]

/-- A type that is no array has nothing to be found among its lexemes. -/
theorem TypeRef.plain_region {t : TypeRef} (h : t.isArray = false) : t.region.Plain := by
  obtain ⟨rs, hregion⟩ := t.region_eq
  rw [hregion]
  refine ⟨fun xs => ?_⟩
  cases t with
  | array => cases h
  | _ => trivial

theorem Expr.region_eq (e : Expr) : ∃ rs, e.region = part (.expr e) rs := by
  cases e <;> simp!

/-- An expression that is no operator has nothing to be found among its lexemes. -/
theorem Expr.plain_region {e : Expr} (h : e.isOperation = false) : e.region.Plain := by
  obtain ⟨rs, hregion⟩ := e.region_eq
  rw [hregion]
  refine ⟨fun xs hoperation => ?_⟩
  rw [h] at hoperation
  cases hoperation

/-- An expression reads as the lexemes that its region lies over. -/
theorem Region.Spans.reads {e : Expr} (h : (part (.expr e) rs).Spans xs) :
    e.Grouped ∧ e.Reads xs := by
  cases hoperation : e.isOperation with
  | false => exact ⟨Expr.grouped_of_not_isOperation hoperation, .operand hoperation h.ends⟩
  | true => exact h.spelled hoperation

end

namespace Over

variable {xs ys : List Lexeme} {r r' : Region} {as bs rs : List Region}

theorem bare (xs : List Lexeme) : Over xs [] := by
  induction xs with
  | nil => exact .nil
  | cons x xs ih => exact .lexeme x ih

theorem cons (h : r.Spans xs) (hrest : Over ys rs) : Over (xs ++ ys) (r :: rs) := by
  obtain ⟨x, y, hx, hy, hrange⟩ := h.ends
  exact .region hx hy hrange h.spelled h.inside hrest

theorem append (h : Over xs as) (h' : Over ys bs) : Over (xs ++ ys) (as ++ bs) := by
  induction h with
  | nil => exact h'
  | lexeme x _ ih => exact .lexeme x ih
  | region hx hy hrange hspelled hinside _ _ ih =>
    rw [List.append_assoc]
    exact .region hx hy hrange hspelled hinside ih

theorem single (h : r.Spans xs) : Over xs [r] := by
  have hone := cons h .nil
  rwa [List.append_nil] at hone

/-- Another region may stand in the place of the first one. -/
theorem head (h : Over xs (r :: rs)) (hr : ∀ ys, r.Spans ys → r'.Spans ys) :
    Over xs (r' :: rs) := by
  generalize hall : r :: rs = all at h
  induction h with
  | nil => cases hall
  | lexeme x _ ih => exact .lexeme x (ih hall)
  | region hx hy hrange hspelled hinside hrest =>
    cases hall
    exact cons (hr _ ⟨⟨_, _, hx, hy, hrange⟩, hspelled, hinside⟩) hrest

/-- Every region, at any depth, lies over a run of the row. -/
theorem spans (h : Over xs rs) : ∀ r ∈ allOf rs, ∃ run, run <:+: xs ∧ r.Spans run := by
  induction h with
  | nil => simp [allOf]
  | lexeme x _ ih =>
    intro r hr
    obtain ⟨run, hrun, hspans⟩ := ih r hr
    exact ⟨run, hrun.trans (List.suffix_cons x _).isInfix, hspans⟩
  | @region x y xs ys r rs hx hy hrange hspelled hinside _ ihinside ih =>
    intro a ha
    rw [allOf, all_eq, List.cons_append, List.mem_cons, List.mem_append] at ha
    rcases ha with rfl | ha | ha
    · exact ⟨xs, (List.prefix_append xs ys).isInfix, ⟨x, y, hx, hy, hrange⟩, hspelled, hinside⟩
    · obtain ⟨run, hrun, hspans⟩ := ihinside a ha
      exact ⟨run, hrun.trans (List.prefix_append xs ys).isInfix, hspans⟩
    · obtain ⟨run, hrun, hspans⟩ := ih a ha
      exact ⟨run, hrun.trans (List.suffix_append xs ys).isInfix, hspans⟩

/-- Every region, at any depth, starts and ends with lexemes of the row. -/
theorem delimited (h : Over xs rs) : ∀ r ∈ allOf rs, r.Delimited xs := by
  intro r hr
  obtain ⟨run, hrun, hspans⟩ := h.spans r hr
  obtain ⟨x, y, hends⟩ := hspans.ends
  exact ⟨run, x, y, hrun, hends⟩

end Over

/-! ## Rows whose lexemes follow each other -/

section

variable {xs ys : List Lexeme} {r : Region} {rs : List Region} {x y z : Lexeme}

/-- The lexemes follow each other without overlap. -/
def Follow (xs : List Lexeme) : Prop := xs.Pairwise fun a b => a.stop ≤ b.start

theorem Follow.first_le (h : Follow xs) (hx : xs.head? = some x) (hz : z ∈ xs) :
    x.start ≤ z.start := by
  cases xs with
  | nil => cases hx
  | cons a as =>
    cases hx
    rcases List.mem_cons.1 hz with rfl | hz
    · exact Nat.le_refl _
    · have hnext := (List.pairwise_cons.1 h).1 z hz
      have hwidth : x.start ≤ x.stop := Nat.le_add_right _ _
      omega

theorem Follow.le_last (h : Follow xs) (hy : xs.getLast? = some y) (hz : z ∈ xs) :
    z.stop ≤ y.stop := by
  obtain ⟨init, rfl⟩ := List.getLast?_eq_some_iff.1 hy
  rcases List.mem_append.1 hz with hz | hz
  · have hnext := (List.pairwise_append.1 h).2.2 z hz y (List.mem_singleton_self y)
    have hwidth : y.start ≤ y.stop := Nat.le_add_right _ _
    omega
  · exact Nat.le_of_eq (congrArg Lexeme.stop (List.mem_singleton.1 hz))

/-- A region lies between the first and the last lexeme of its row. -/
theorem Region.Delimited.bounds (h : r.Delimited xs) (hfollow : Follow xs) :
    ∃ a ∈ xs, ∃ b ∈ xs, r.range = ⟨a.start, b.stop⟩ ∧ a.start ≤ b.start := by
  obtain ⟨run, a, b, hrun, ha, hb, hrange⟩ := h
  have hmem := hrun.subset
  have hrunFollow : Follow run := List.Pairwise.sublist hrun.sublist hfollow
  exact ⟨a, hmem (List.mem_of_head? ha), b, hmem (List.mem_of_getLast? hb), hrange,
    hrunFollow.first_le ha (List.mem_of_getLast? hb)⟩

theorem Region.Spans.le (h : r.Spans xs) (hfollow : Follow xs) : r.range.start ≤ r.range.stop := by
  obtain ⟨x, y, hx, hy, hrange⟩ := h.ends
  have hle := hfollow.first_le hx (List.mem_of_getLast? hy)
  have hwidth : y.start ≤ y.stop := Nat.le_add_right _ _
  rw [hrange]
  exact Nat.le_trans hle hwidth

/-- Regions over a run of lexemes lie between its first and its last one. -/
theorem Over.within (h : Over xs rs) (hfollow : Follow xs) (hx : xs.head? = some x)
    (hy : xs.getLast? = some y) :
    ∀ r ∈ allOf rs, x.start ≤ r.range.start ∧ r.range.stop ≤ y.stop := by
  intro r hr
  obtain ⟨a, ha, b, hb, hrange, -⟩ := (h.delimited r hr).bounds hfollow
  rw [hrange]
  exact ⟨hfollow.first_le hx ha, hfollow.le_last hy hb⟩

theorem mem_allOf {r : Region} {rs : List Region} (h : r ∈ rs) : r ∈ allOf rs := by
  induction rs with
  | nil => cases h
  | cons a as ih =>
    rw [allOf, all_eq]
    rcases List.mem_cons.1 h with rfl | h
    · simp
    · exact List.mem_append_right _ (ih h)

/-- All that lies over the front part ends before what lies over the back part starts. -/
theorem Over.apart {as bs : List Region} (h : Over xs as) (h' : Over ys bs)
    (hfollow : Follow (xs ++ ys)) :
    ∀ a ∈ allOf as, ∀ b ∈ allOf bs, a.Before b := by
  intro a ha b hb
  obtain ⟨hxs, hys, hcross⟩ := List.pairwise_append.1 hfollow
  obtain ⟨_, _, last, hlast, harange, -⟩ := (h.delimited a ha).bounds hxs
  obtain ⟨first, hfirst, _, _, hbrange, -⟩ := (h'.delimited b hb).bounds hys
  have hcrossing := hcross last hlast first hfirst
  rwa [Region.Before, harange, hbrange]

/-- Regions over a row follow each other. -/
theorem Over.ordered (h : Over xs rs) (hfollow : Follow xs) : rs.Pairwise Before := by
  induction h with
  | nil => exact .nil
  | lexeme x _ ih => exact ih (List.pairwise_cons.1 hfollow).2
  | @region x y xs ys r rs hx hy hrange hspelled hinside hrest _ ih =>
    refine .cons (fun b hb => ?_) (ih (List.pairwise_append.1 hfollow).2.1)
    have hspans : r.Spans xs := ⟨⟨x, y, hx, hy, hrange⟩, hspelled, hinside⟩
    exact (Over.single hspans).apart hrest hfollow r (by simp [allOf, all_eq]) b (mem_allOf hb)

/-- Regions over a row are nested at every depth. -/
theorem Over.nested (h : Over xs rs) (hfollow : Follow xs) : ∀ r ∈ allOf rs, r.Nested := by
  induction h with
  | nil => simp [allOf]
  | lexeme x _ ih => exact ih (List.pairwise_cons.1 hfollow).2
  | @region x y xs ys r rs hx hy hrange _ hinside _ ihinside ih =>
    obtain ⟨hxs, hys, -⟩ := List.pairwise_append.1 hfollow
    intro a ha
    rw [allOf, all_eq, List.cons_append, List.mem_cons, List.mem_append] at ha
    rcases ha with rfl | ha | ha
    · refine ⟨fun c hc => ?_, hinside.ordered hxs⟩
      rw [Region.Within, hrange]
      exact hinside.within hxs hx hy c (mem_allOf hc)
    · exact ihinside hxs a ha
    · exact ih hys a ha

/-- Taken in order, each region before those inside it, the starts of regions never go back. -/
theorem Over.starts (h : Over xs rs) (hfollow : Follow xs) :
    (allOf rs).Pairwise fun a b => a.range.start ≤ b.range.start := by
  induction h with
  | nil => exact .nil
  | lexeme x _ ih => exact ih (List.pairwise_cons.1 hfollow).2
  | @region x y xs ys r rs hx hy hrange hspelled hinside hrest ihinside ih =>
    obtain ⟨hxs, hys, -⟩ := List.pairwise_append.1 hfollow
    have hspans : r.Spans xs := ⟨⟨x, y, hx, hy, hrange⟩, hspelled, hinside⟩
    have hall : allOf [r] = r :: allOf r.inside := by simp [allOf, all_eq]
    rw [allOf, all_eq]
    refine List.pairwise_append.2 ⟨.cons (fun a ha => ?_) (ihinside hxs), ih hys, fun a ha b hb => ?_⟩
    · rw [hrange]
      exact (hinside.within hxs hx hy a ha).1
    · have hbefore := (Over.single hspans).apart hrest hfollow a (hall ▸ ha) b hb
      obtain ⟨first, hfirst, last, hlast, harange, hle⟩ :=
        ((Over.single hspans).delimited a (hall ▸ ha)).bounds hxs
      have hwidth : last.start ≤ last.stop := Nat.le_add_right _ _
      rw [Region.Before, harange] at hbefore
      rw [harange]
      exact Nat.le_trans hle (Nat.le_trans hwidth hbefore)

end

/-! ## Brackets -/

/-- The brackets of an array type are written inside it. -/
theorem TypeRef.exists_pair (t : TypeRef) {xs : List Lexeme} (h : t.region.Spans xs) :
    ∀ b ∈ t.brackets, ∃ zs, zs <:+: xs ∧ (Piece.pair b).Written zs := by
  cases t with
  | array r element pair =>
    rw [TypeRef.region] at h
    rw [TypeRef.brackets, List.forall_mem_append]
    obtain ⟨ys, zs, rfl, hpair⟩ := h.spelled
    refine ⟨fun b hb => ?_, List.forall_mem_singleton.2
      ⟨zs, (List.suffix_append ys zs).isInfix, hpair⟩⟩
    obtain ⟨run, hrun, helement⟩ := h.inside.spans element.region (mem_allOf List.mem_cons_self)
    obtain ⟨ws, hws, hb⟩ := element.exists_pair helement b hb
    exact ⟨ws, hws.trans hrun, hb⟩
  | _ =>
    intro b hb
    simp [TypeRef.brackets] at hb

end JavaAnalysis.Ast
