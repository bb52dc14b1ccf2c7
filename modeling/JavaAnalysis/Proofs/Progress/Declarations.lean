import JavaAnalysis.Proofs.Parser.Declarations
import JavaAnalysis.Proofs.Progress.Expressions

/-!
# Progress over declarations

A member that is read takes something, even if it is a stray semicolon, and so does each enum constant
and each variable of a declaration.
-/

set_option autoImplicit false
set_option linter.dupNamespace false

namespace JavaAnalysis.Parser

open Ast TwoRuns

variable {c : TwoRuns} {m : Nat} {g g' : Grammar} {s s' : State}

theorem typeDeclAhead?_twin (h : c.Twin s s') : s'.typeDeclAhead? = s.typeDeclAhead? := by
  rw [h.twin_eq]
  rfl

/-! ## Variables -/

theorem varFragment_settles (hg : Ready c m g g') (h : c.Twin s s') (hm : 8 * s.left + 4 < m)
    (name : Ident) :
    c.Settles (varFragment g name) (varFragment g' name) s s' fun _ t => t.left ≤ s.left := by
  refine (brackets_settles h).bind fun pairs u u' h₁ hle₁ => ?_
  refine (eat_settles_le h₁ (by decide)).bind fun found u₂ u₂' h₂ hle₂ => ?_
  refine .meet (fun _ t => t.left ≤ s.left) (fun init u₃ u₃' h₃ hle₃ => ?_)
    (fun _ hrest => ?_) fun _ => .pure h₂ (by omega)
  · exact .rangeFrom h₃ (.pure h₃ hle₃)
  · have hinit : c.Settles (some <$> g.varInit) (some <$> g'.varInit) u₂ u₂'
        fun _ t => t.left ≤ s.left := (hg.varInit h₂ (by omega)).map fun _ t hlt => by omega
    exact hinit.bind hrest

theorem namedFragment_settles (hg : Ready c m g g') (h : c.Twin s s') (hm : 8 * s.left ≤ m) :
    c.Settles (ident >>= varFragment g) (ident >>= varFragment g') s s'
      fun _ t => t.left < s.left := by
  refine (ident_settles h).bind fun name u u' h₁ hlt₁ => ?_
  exact (varFragment_settles hg h₁ (by omega) name).mono fun _ t hle => by omega

theorem moreFragments_settles (hg : Ready c m g g') (h : c.Twin s s') (hm : 8 * s.left ≤ m) :
    c.Settles (moreFragments g) (moreFragments g') s s' fun _ t => t.left ≤ s.left := by
  refine (eat_settles_le h (by decide)).bind fun found u u' h₁ hle₁ => .ite (fun _ => ?_)
    fun _ => .pure h₁ hle₁
  have hfragment : c.Onward (s.left + 1) (ident >>= varFragment g) (ident >>= varFragment g') :=
    fun t t' ht hlt => namedFragment_settles hg ht (by omega)
  exact (separated_settles (by decide) hfragment h₁ (by omega)).mono fun _ t hlt => by omega

theorem varFragments_settles (hg : Ready c m g g') (h : c.Twin s s') (hm : 8 * s.left + 4 < m)
    (first : Ident) :
    c.Settles (varFragments g first) (varFragments g' first) s s' fun _ t => t.left ≤ s.left := by
  refine (varFragment_settles hg h hm first).bind fun fragment u u' h₁ hle₁ => ?_
  exact (moreFragments_settles hg h₁ (by omega)).bind fun others u₂ u₂' h₂ hle₂ => .pure h₂ (by omega)

theorem varDecl_settles (hg : Ready c m g g') (h : c.Twin s s') (hm : 8 * s.left + 4 < m)
    (start : Nat) (ms : List Modifier) (type : TypeRef) (first : Ident) :
    c.Settles (varDecl g start ms type first) (varDecl g' start ms type first) s s'
      fun _ t => t.left < s.left := by
  refine (varFragments_settles hg h hm first).bind fun fragments u u' h₁ hle₁ => ?_
  refine (expect_settles h₁ (by decide)).bind fun _ u₂ u₂' h₂ hlt₂ => ?_
  exact .rangeFrom h₂ (.pure h₂ (by omega))

/-! ## Members -/

theorem methodRest_settles (hg : Ready c m g g') (h : c.Twin s s') (hm : 8 * s.left ≤ m)
    (start : Nat) (ms : List Modifier) (typeParams : Option TextRange × List TypeParam)
    (returnType : Option TypeRef) (name : Ident) :
    c.Settles (methodRest g start ms typeParams returnType name)
      (methodRest g' start ms typeParams returnType name) s s' fun _ t => t.left < s.left := by
  refine (formalParams_settles hg h hm).bind fun p u u' h₁ hlt₁ => ?_
  refine (brackets_settles h₁).bind fun pairs u₂ u₂' h₂ hle₂ => ?_
  refine (eat_settles_le h₂ (by decide)).bind fun found u₃ u₃' h₃ hle₃ => ?_
  refine .meet (fun _ t => t.left < s.left) (fun thrown u₄ u₄' h₄ hlt₄ => ?_)
    (fun _ hrest => (typeList_settles hg h₃ (by omega)).bind fun thrown u₄ u₄' h₄ hlt₄ =>
      hrest thrown u₄ u₄' h₄ (by omega)) fun _ => .pure h₃ (by omega)
  refine (eat_settles_le h₄ (by decide)).bind fun found u₅ u₅' h₅ hle₅ => ?_
  refine .meet (fun _ t => t.left < s.left)
    (fun value u₆ u₆' h₆ hlt₆ => .ifAt h₆ (fun _ => ?_) fun _ => ?_)
    (fun _ hrest => ?_) fun _ => .pure h₅ (by omega)
  · refine (hg.block h₆ (by omega)).bind fun body u₇ u₇' h₇ hlt₇ => ?_
    exact .rangeFrom h₇ (.pure h₇ (by omega))
  · refine (expect_settles h₆ (by decide)).bind fun _ u₇ u₇' h₇ hlt₇ => ?_
    exact .rangeFrom h₇ (.pure h₇ (by omega))
  · have hvalue : c.Settles (some <$> g.elementValue) (some <$> g'.elementValue) u₅ u₅'
        fun _ t => t.left < s.left := (hg.elementValue h₅ (by omega)).map fun _ t hlt => by omega
    exact hvalue.bind hrest

theorem memberRest_settles (hg : Ready c m g g') (owner : TypeDeclKind) (h : c.Twin s s')
    (hm : 8 * s.left ≤ m) (start : Nat) (ms : List Modifier)
    (typeParams : Option TextRange × List TypeParam) :
    c.Settles (memberRest g owner start ms typeParams) (memberRest g' owner start ms typeParams) s s'
      fun _ t => t.left < s.left := by
  refine .get ?_
  rw [h.kind_eq, h.kind_eq]
  refine .ite (fun _ => ?_) fun _ => .ite (fun _ => ?_) fun _ => ?_
  · refine (ident_settles h).bind fun name u u' h₁ hlt₁ => ?_
    exact (methodRest_settles hg h₁ (by omega) start ms typeParams none name).map
      fun _ t hlt => Nat.lt_trans hlt hlt₁
  · refine (ident_settles h).bind fun name u u' h₁ hlt₁ => ?_
    refine (hg.block h₁ (by omega)).bind fun body u₂ u₂' h₂ hlt₂ => ?_
    exact .rangeFrom h₂ (.pure h₂ (by omega))
  · refine (type_settles hg h hm).bind fun type u u' h₁ hlt₁ => ?_
    refine (ident_settles h₁).bind fun name u₂ u₂' h₂ hlt₂ => .ifAt h₂ (fun _ => ?_) fun _ => ?_
    · exact (methodRest_settles hg h₂ (by omega) start ms typeParams (some type) name).map
        fun _ t hlt => by omega
    · refine .ite (fun _ => expected_settles h₂ _) fun _ => ?_
      exact (varDecl_settles hg h₂ (by omega) start ms type name).map fun _ t hlt => by omega

theorem member?_settles (hg : Ready c m g g') (owner : TypeDeclKind) (h : c.Twin s s')
    (hm : 8 * s.left < m) :
    c.Settles (member? g owner) (member? g' owner) s s' fun _ t => t.left < s.left := by
  refine .get ?_
  dsimp only
  rw [h.kind_eq, h.kind_eq, h.start_eq]
  refine ifEat_settles h (by decide) (fun t t' ht hlt => .pure ht hlt) (.ite (fun _ => ?_) fun _ => ?_)
  · refine (eat_settles_le h (by decide)).bind fun isStatic u u' h₁ hle₁ => ?_
    refine (hg.block h₁ (by omega)).bind fun body u₂ u₂' h₂ hlt₂ => ?_
    exact .rangeFrom h₂ (.pure h₂ (by omega))
  · refine (modifiers_settles hg h hm).bind fun ms u u' h₁ hle₁ => .get ?_
    rw [typeDeclAhead?_twin h₁]
    refine .ite (fun _ => ?_) fun _ => ?_
    · exact (hg.typeDecl s.start ms h₁ (by omega)).bind fun decl u₂ u₂' h₂ hlt₂ =>
        .pure h₂ (by omega)
    · refine (typeParams_settles hg h₁ (by omega)).bind fun typeParams u₂ u₂' h₂ hle₂ => ?_
      exact (memberRest_settles hg owner h₂ (by omega) s.start ms typeParams).map
        fun _ t hlt => by omega

theorem members_settles (hg : Ready c m g g') (owner : TypeDeclKind) (h : c.Twin s s')
    (hm : 8 * s.left < m) :
    c.Settles (members g owner) (members g' owner) s s' fun _ t => t.left ≤ s.left := by
  have hmember : c.Onward (s.left + 1) (member? g owner) (member? g' owner) :=
    fun t t' ht hlt => member?_settles hg owner ht (by omega)
  exact (many_settles (fun _ _ => rfl) hmember h (by omega)).bind
    fun all u u' h₁ hle₁ => .pure h₁ hle₁

theorem classBody_settles (hg : Ready c m g g') (kind : TypeDeclKind) (h : c.Twin s s')
    (hm : 8 * s.left ≤ m) :
    c.Settles (classBody g kind) (classBody g' kind) s s' fun _ t => t.left < s.left := by
  refine .startHere h ((expect_settles h (by decide)).bind fun _ u u' h₁ hlt₁ => ?_)
  refine (members_settles hg kind h₁ (by omega)).bind fun ms u₂ u₂' h₂ hle₂ => ?_
  refine (expect_settles h₂ (by decide)).bind fun _ u₃ u₃' h₃ hlt₃ => ?_
  exact .rangeFrom h₃ (.pure h₃ (by omega))

theorem enumConstant_settles (hg : Ready c m g g') (h : c.Twin s s') (hm : 8 * s.left < m) :
    c.Settles (enumConstant g) (enumConstant g') s s' fun _ t => t.left < s.left := by
  refine .startHere h ((modifiers_settles hg h hm).bind fun ms u u' h₁ hle₁ => ?_)
  refine (ident_settles h₁).bind fun name u₂ u₂' h₂ hlt₂ => .isAt h₂ ?_
  refine .meet (fun _ t => t.left < s.left) (fun p u₃ u₃' h₃ hlt₃ => ?_) (fun _ hrest => ?_)
    fun _ => .pure h₂ (by omega)
  · refine (classBody?_settles hg h₃ (by omega)).bind fun body u₄ u₄' h₄ hle₄ => ?_
    exact .rangeFrom h₄ (.pure h₄ (by omega))
  · refine (arguments_settles hg h₂ (by omega)).bind fun p u₃ u₃' h₃ hlt₃ => ?_
    exact .pure_bind (hrest (some p.1, p.2) u₃ u₃' h₃ (by omega))

theorem enumBody_settles (hg : Ready c m g g') (h : c.Twin s s') (hm : 8 * s.left ≤ m) :
    c.Settles (enumBody g) (enumBody g') s s' fun _ t => t.left < s.left := by
  refine .startHere h ((expect_settles h (by decide)).bind fun _ u u' h₁ hlt₁ => ?_)
  have hconstant : c.Onward s.left (enumConstant g) (enumConstant g') :=
    fun t t' ht hlt => enumConstant_settles hg ht (by omega)
  refine (terminated_settles (by decide) (fun _ _ => rfl) hconstant h₁ hlt₁).bind
    fun constants u₂ u₂' h₂ hle₂ => ?_
  refine (eat_settles_le h₂ (by decide)).bind fun found u₃ u₃' h₃ hle₃ => ?_
  refine .meet (fun _ t => t.left < s.left) (fun ms u₄ u₄' h₄ hlt₄ => ?_) (fun _ hrest => ?_)
    fun _ => .pure h₃ (by omega)
  · refine (expect_settles h₄ (by decide)).bind fun _ u₅ u₅' h₅ hlt₅ => ?_
    exact .rangeFrom h₅ (.pure h₅ (by omega))
  · refine (members_settles hg _ h₃ (by omega)).bind fun ms u₄ u₄' h₄ hle₄ => ?_
    exact hrest ms u₄ u₄' h₄ (by omega)

/-! ## Types -/

theorem typeDecl_settles (hg : Ready c m g g') (h : c.Twin s s') (hm : 8 * s.left ≤ m) (start : Nat)
    (ms : List Modifier) :
    c.Settles (typeDecl g start ms) (typeDecl g' start ms) s s' fun _ t => t.left < s.left := by
  refine .get ?_
  rw [typeDeclAhead?_twin h]
  cases hahead : s.typeDeclAhead? with
  | none => exact expected_settles h _
  | some found =>
    obtain ⟨kind, n⟩ := found
    obtain ⟨⟨k, rfl⟩, hfirm⟩ := isFirm_of_typeDeclAhead? hahead
    refine (advanceBy_settles h (by omega) (ne_endOfFile_of_isFirm hfirm)).bind
      fun _ u u' h₁ hlt₁ => ?_
    refine (ident_settles h₁).bind fun name u₂ u₂' h₂ hlt₂ => ?_
    refine (typeParams_settles hg h₂ (by omega)).bind fun typeParams u₃ u₃' h₃ hle₃ => ?_
    refine .meet (fun _ t => t.left < s.left) (fun components u₄ u₄' h₄ hlt₄ => ?_)
      (fun _ hrest => ?_) fun _ => .pure h₃ (by omega)
    · refine (eat_settles_le h₄ (by decide)).bind fun found u₅ u₅' h₅ hle₅ => ?_
      refine .meet (fun _ t => t.left < s.left) (fun supers u₆ u₆' h₆ hlt₆ => ?_)
        (fun _ hrest => .ite (fun _ => ?_) fun _ => ?_) fun _ => .pure h₅ (by omega)
      · refine (eat_settles_le h₆ (by decide)).bind fun found u₇ u₇' h₇ hle₇ => ?_
        refine .meet (fun _ t => t.left < s.left) (fun interfaces u₈ u₈' h₈ hlt₈ => .get ?_)
          (fun _ hrest => (typeList_settles hg h₇ (by omega)).bind fun interfaces u₈ u₈' h₈ hlt₈ =>
            hrest interfaces u₈ u₈' h₈ (by omega)) fun _ => .pure h₇ (by omega)
        have hword : u₈'.isWord 0 "permits" = u₈.isWord 0 "permits" := by
          rw [h₈.twin_eq]
          rfl
        rw [hword]
        refine .meet (fun _ t => t.left < s.left) (fun permitted u₉ u₉' h₉ hlt₉ => ?_)
          (fun _ hrest => ?_) fun _ => .pure h₈ hlt₈
        · refine .ite (fun _ => ?_) fun _ => ?_
          · refine (enumBody_settles hg h₉ (by omega)).bind fun body u₁₀ u₁₀' h₁₀ hlt₁₀ => ?_
            exact .rangeFrom h₁₀ (.pure h₁₀ (by omega))
          · refine (classBody_settles hg kind h₉ (by omega)).bind fun body u₁₀ u₁₀' h₁₀ hlt₁₀ => ?_
            exact .rangeFrom h₁₀ (.pure h₁₀ (by omega))
        · refine (advance_settles_le h₈).bind fun _ u₉ u₉' h₉ hle₉ => ?_
          refine (typeList_settles hg h₉ (by omega)).bind fun permitted u₁₀ u₁₀' h₁₀ hlt₁₀ => ?_
          exact hrest permitted u₁₀ u₁₀' h₁₀ (by omega)
      · refine (typeList_settles hg h₅ (by omega)).bind fun supers u₆ u₆' h₆ hlt₆ => ?_
        exact hrest supers u₆ u₆' h₆ (by omega)
      · have hsuper : c.Settles (List.singleton <$> g.type) (List.singleton <$> g'.type) u₅ u₅'
            fun _ t => t.left < s.left := (hg.type h₅ (by omega)).map fun _ t hlt => by omega
        exact hsuper.bind hrest
    · refine (formalParams_settles hg h₃ (by omega)).bind fun p u₄ u₄' h₄ hlt₄ => ?_
      exact .pure_bind (hrest (some p.1, p.2) u₄ u₄' h₄ (by omega))

end JavaAnalysis.Parser
