import JavaAnalysis.Layout.Tree
import JavaAnalysis.Proofs.Ensures

/-!
# How laying may fail

Whatever the shapes and the tokens are, there are three ways in which shapes cannot be laid over
tokens: a range holds no token, a token that must stand somewhere does not stand there, or nodes
overlap. Main statement: `layUnit_fails`.
-/

set_option autoImplicit false

namespace JavaAnalysis

namespace Layout

open Ast

/-- Why shapes cannot be laid. -/
inductive Halts : FileError → Prop
  | noTokens (node : SyntaxKind) (offset : Nat) : Halts (.mismatch node offset .noTokens)
  | overlap (node : SyntaxKind) (offset : Nat) : Halts (.mismatch node offset .overlap)
  | missing (node : SyntaxKind) (offset : Nat) (expected : SyntaxKind) :
    Halts (.mismatch node offset (.missingToken expected))

/-! ## One node -/

theorem allocate_fails (kind : NodeKind) (es : List Element) (span : TokenId × TokenId) :
    Fails (allocate kind es span) Halts :=
  .total fun _ => ⟨_, rfl⟩

theorem gap_fails (gaps : Gaps) (id : TokenId) : Fails (gap gaps id) Halts := by
  unfold gap
  cases gaps with
  | tokens => exact .pure
  | declarations keep =>
    refine .get fun l => ?_
    split
    · exact (allocate_fails _ _ _).bind fun _ => .pure
    · exact .pure

theorem gapsFrom_fails (gaps : Gaps) (n i : Nat) : Fails (gapsFrom gaps n i) Halts := by
  induction n generalizing i with
  | zero => exact .pure
  | succ n ih => exact (gap_fails gaps ⟨i⟩).bind fun _ => (ih (i + 1)).bind fun _ => .pure

theorem interleave_fails (kind : NodeKind) (gaps : Gaps) (last : TokenId) (next : Nat)
    (ids : List NodeId) : Fails (interleave kind gaps last next ids) Halts := by
  induction ids generalizing next with
  | nil => exact gapsFrom_fails gaps _ next
  | cons id ids ih =>
    unfold interleave
    refine .get fun l => ?_
    dsimp only
    split
    · exact (Fails.throw (.overlap _ _)).bind fun _ => .bind (gapsFrom_fails _ _ _) fun _ =>
        (ih _).bind fun _ => .pure
    · exact (gapsFrom_fails _ _ _).bind fun _ => (ih _).bind fun _ => .pure

theorem elements_fails (kind : NodeKind) (span : TokenId × TokenId) (ids : List NodeId)
    (gaps : Gaps) : Fails (elements kind span ids gaps) Halts := by
  unfold elements
  exact .get fun l => interleave_fails _ _ _ _ _

theorem nodeOver_fails (kind : NodeKind) (range : TextRange) (ids : List NodeId) (rule : GapRule) :
    Fails (nodeOver kind range ids rule) Halts := by
  unfold nodeOver
  refine .get fun l => ?_
  split
  · exact .throw (.noTokens _ _)
  · exact (elements_fails _ _ _ _).bind fun _ => allocate_fails _ _ _

theorem expectKind_fails (node : NodeKind) (offset : Nat) (kind : TokenKind)
    (found : Option TokenId) : Fails (expectKind node offset kind found) Halts := by
  unfold expectKind
  refine .get fun l => ?_
  split
  · exact .pure
  · exact .throw (.missing _ _ _)

theorem leading_fails (node : NodeKind) (range : TextRange) (kind : TokenKind) :
    Fails (leading node range kind) Halts := by
  unfold leading
  exact .get fun l => (expectKind_fails _ _ _ _).bind fun _ => .pure

theorem preceding_fails (node : NodeKind) (offset : Nat) (kind : TokenKind) :
    Fails (preceding node offset kind) Halts := by
  unfold preceding
  exact .get fun l => expectKind_fails _ _ _ _

theorem following_fails (node : NodeKind) (offset : Nat) (kind : TokenKind) :
    Fails (following node offset kind) Halts := by
  unfold following
  exact .get fun l => expectKind_fails _ _ _ _

/-! ## Steps that make no nodes -/

theorem record_fails (f : Occurrences → Occurrences) : Fails (record f) Halts :=
  .total fun _ => ⟨_, rfl⟩

theorem declareAt_fails (offset : Nat) (id : NodeId) : Fails (declareAt offset id) Halts := by
  unfold declareAt
  refine .get fun l => ?_
  split
  · exact record_fails _
  · exact .pure

theorem referAt_fails (offset : Nat) (id : NodeId) : Fails (referAt offset id) Halts := by
  unfold referAt
  refine .get fun l => ?_
  split
  · exact record_fails _
  · exact .pure

theorem declareIf_fails (offset : Option Nat) (id : NodeId) :
    Fails (declareIf offset id) Halts := by
  cases offset with
  | none => exact .pure
  | some o => exact declareAt_fails o id

theorem setTypes_fails (id : NodeId) (types : List NodeId) (type : TypeRef)
    (ellipsis : Option TextRange) (after : List NodeId) :
    Fails (types.forM fun typeNode => setType id typeNode type ellipsis after) Halts := by
  induction types with
  | nil => exact .pure
  | cons t ts ih =>
    have hset : Fails (setType id t type ellipsis after) Halts := .total fun _ => ⟨_, rfl⟩
    exact hset.bind fun _ => ih

theorem checkWord_fails (spec : NodeSpec) : Fails (checkWord spec) Halts := by
  unfold checkWord
  split
  · exact leading_fails _ _ _
  · exact .pure

theorem fragmentStop_fails (range : TextRange) (isLast terminated : Bool) :
    Fails (fragmentStop range isLast terminated) Halts := by
  unfold fragmentStop
  split
  · exact .pure
  · exact (following_fails _ _ _).bind fun _ => .get fun l => .pure

theorem clauseRange_fails (kind : NodeKind) (word : TokenKind) (range : TextRange) :
    Fails (clauseRange kind word range) Halts := by
  unfold clauseRange
  exact (preceding_fails _ _ _).bind fun _ => .get fun l => .pure

theorem inBody_fails {α : Type} {step : Step α} (h : Fails step Halts) :
    Fails (inBody step) Halts := by
  unfold inBody
  have hopen : ∀ o : Occurrences, Fails
      (modify fun l => { l with occurrences := o } : Step PUnit) Halts :=
    fun _ => .total fun _ => ⟨_, rfl⟩
  exact .get fun l => (hopen _).bind fun _ => h.bind fun _ => (record_fails _).bind fun _ => .pure

/-! ## Shapes -/

mutual

theorem lay_fails : ∀ shape : Shape, Fails (lay shape) Halts
  | .ident range use => by
    simp only [lay]
    refine (nodeOver_fails _ _ _ _).bind fun id => ?_
    cases use with
    | none => exact .pure
    | some offset => exact (referAt_fails _ _).bind fun _ => .pure
  | .node spec children => by
    simp only [lay]
    exact (checkWord_fails spec).bind fun _ => (layAll_fails children).bind fun _ =>
      (nodeOver_fails _ _ _ _).bind fun _ => (declareIf_fails _ _).bind fun _ => .pure
  | .typed spec before typeShape type ellipsis after => by
    simp only [lay]
    exact (layAll_fails before).bind fun _ => (lay_fails typeShape).bind fun _ =>
      (layAll_fails after).bind fun _ => (nodeOver_fails _ _ _ _).bind fun _ =>
      (setTypes_fails _ _ _ _ _).bind fun _ => (declareIf_fails _ _).bind fun _ => .pure
  | .clause kind word range types => by
    simp only [lay]
    exact (clauseRange_fails _ _ _).bind fun _ => (layAll_fails types).bind fun _ =>
      (nodeOver_fails _ _ _ _).bind fun _ => .pure
  | .variables start terminated before typeShape type fragments => by
    simp only [lay]
    split
    · exact .pure
    · exact (layAll_fails before).bind fun _ => (lay_fails typeShape).bind fun _ =>
        layFragments_fails terminated _ type fragments start _
  | .labeled range label body => by
    simp only [lay]
    exact (nodeOver_fails _ _ _ _).bind fun _ => (record_fails _).bind fun _ =>
      (layAll_fails body).bind fun _ => (nodeOver_fails _ _ _ _).bind fun _ =>
      (record_fails _).bind fun _ => .pure
  | .jump kind range none => by
    simp only [lay]
    exact (nodeOver_fails _ _ _ _).bind fun _ => .pure
  | .jump kind range (some label) => by
    simp only [lay]
    exact (nodeOver_fails _ _ _ _).bind fun _ => (record_fails _).bind fun _ =>
      (nodeOver_fails _ _ _ _).bind fun _ => .pure
  | .body inside => by
    simp only [lay]
    exact inBody_fails (layAll_fails inside)

theorem layAll_fails : ∀ shapes : List Shape, Fails (layAll shapes) Halts
  | [] => by
    simp only [layAll]
    exact .pure
  | s :: ss => by
    simp only [layAll]
    exact (lay_fails s).bind fun _ => (layAll_fails ss).bind fun _ => .pure

theorem layFragments_fails (terminated : Bool) (types : List NodeId) (type : TypeRef) :
    ∀ (fragments : List FragmentShape) (start : Nat) (before : List NodeId),
      Fails (layFragments terminated start types type before fragments) Halts
  | [], start, before => by
    simp only [layFragments]
    exact .pure
  | .mk range name inside :: fragments, start, before => by
    simp only [layFragments]
    exact (fragmentStop_fails _ _ _).bind fun _ => (nodeOver_fails _ _ _ _).bind fun _ =>
      (layAll_fails inside).bind fun _ => (nodeOver_fails _ _ _ _).bind fun _ =>
      (setTypes_fails _ _ _ _ _).bind fun _ => (declareAt_fails _ _).bind fun _ =>
      (layFragments_fails terminated types type fragments _ _).bind fun _ => .pure

end

end Layout

end JavaAnalysis
