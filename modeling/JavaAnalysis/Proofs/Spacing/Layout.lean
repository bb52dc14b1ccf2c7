import JavaAnalysis.Proofs.Ensures
import JavaAnalysis.Layout.Tree
import JavaAnalysis.Proofs.Spacing.Shapes

/-!
# Two layouts in step

The nodes of a file that was moved are laid over its tokens as those of the file itself were: each
step finds the same tokens, makes the same nodes and enters the same occurrences, or fails where the
other one fails. `Mirror` says so of two steps; it is shown for the single steps, and by induction
over the shapes for a whole layout. Main statement: `layUnit_mirror`.
-/

set_option autoImplicit false
set_option linter.dupNamespace false

namespace JavaAnalysis

namespace Layout

open Ast

/-- The second layout is the first one over tokens that were moved. -/
structure Moved (f : Shift) (l m : Layout) : Prop where
  row : l.row.Moved f m.row
  draft_eq : m.draft = l.draft
  spans_eq : m.spans = l.spans
  occurrences_eq : m.occurrences = l.occurrences
  bound : ∀ o, m.boundAt? (f.start o) = l.boundAt? o

/-- Both steps fail, or neither does: then their results are related, and the layouts correspond. -/
def MirrorAt (f : Shift) {α : Type} (R : α → α → Prop) (p q : Step α) (l m : Layout) : Prop :=
  match p l, q m with
  | .ok (a, l'), .ok (b, m') => R a b ∧ Moved f l' m'
  | .error _, .error _ => True
  | _, _ => False

/-- Two steps that do the same from all layouts that correspond. -/
def Mirror (f : Shift) {α : Type} (R : α → α → Prop) (p q : Step α) : Prop :=
  ∀ l m, Moved f l m → MirrorAt f R p q l m

variable {f : Shift} {α β : Type} {R : α → α → Prop} {S : β → β → Prop} {l m : Layout}

/-! ## Steps after steps -/

namespace Mirror

theorem pure {a b : α} (h : R a b) : Mirror f R (Pure.pure a) (Pure.pure b) :=
  fun _ _ hm => ⟨h, hm⟩

theorem throw (e e' : FileError) :
    Mirror f R (MonadExcept.throw e) (MonadExcept.throw e') := fun _ _ _ => trivial

/-- Behind a failure nothing is done. -/
theorem throwThen (e e' : FileError) (F G : α → Step β) :
    Mirror f S (MonadExcept.throw e >>= F) (MonadExcept.throw e' >>= G) := fun _ _ _ => trivial

theorem bind {p q : Step α} {F G : α → Step β} (h : Mirror f R p q)
    (hthen : ∀ a b, R a b → Mirror f S (F a) (G b)) : Mirror f S (p >>= F) (q >>= G) := by
  intro l m hm
  have hfirst := h l m hm
  have hbind : ∀ (p : Step α) (F : α → Step β) l, (p >>= F) l = (p l >>= fun r => F r.1 r.2) :=
    fun _ _ _ => rfl
  unfold MirrorAt at hfirst ⊢
  rw [hbind, hbind]
  cases hp : p l with
  | error e =>
    cases hq : q m with
    | error e' => trivial
    | ok r => simp only [hp, hq] at hfirst
  | ok r =>
    cases hq : q m with
    | error e => simp only [hp, hq] at hfirst
    | ok r' =>
      simp only [hp, hq] at hfirst
      exact hthen _ _ hfirst.1 _ _ hfirst.2

/-- Steps after steps that give the same. -/
theorem andThen {p q : Step α} {F G : α → Step β} (h : Mirror f Eq p q)
    (hthen : ∀ a, Mirror f S (F a) (G a)) : Mirror f S (p >>= F) (q >>= G) :=
  h.bind fun a _ hab => hab ▸ hthen a

theorem get {F G : Layout → Step β} (h : ∀ l m, Moved f l m → Mirror f S (F l) (G m)) :
    Mirror f S (MonadState.get >>= F) (MonadState.get >>= G) :=
  fun l m hm => h l m hm l m hm

theorem modify {g h : Layout → Layout} (hgh : ∀ l m, Moved f l m → Moved f (g l) (h m)) :
    Mirror f Eq (modify g) (modify h) :=
  fun l m hm => ⟨rfl, hgh l m hm⟩

theorem ite {c d : Prop} [Decidable c] [Decidable d] {p q p' q' : Step α} (hcd : d ↔ c)
    (hyes : Mirror f R p q) (hno : Mirror f R p' q') :
    Mirror f R (if c then p else p') (if d then q else q') := by
  by_cases hc : c
  · rw [if_pos hc, if_pos (hcd.2 hc)]
    exact hyes
  · rw [if_neg hc, if_neg (mt hcd.1 hc)]
    exact hno

/-- The same step for each of some nodes. -/
theorem forM {step step' : NodeId → Step PUnit} (h : ∀ id, Mirror f Eq (step id) (step' id))
    (ids : List NodeId) : Mirror f Eq (ids.forM step) (ids.forM step') := by
  induction ids with
  | nil => exact .pure rfl
  | cons id ids ih => exact (h id).andThen fun _ => ih

end Mirror

namespace Moved

variable (h : Moved f l m)
include h

theorem token_kind (id : TokenId) : (m.token id).kind = (l.token id).kind := h.row.kind_eq id

theorem spanOf_eq (id : NodeId) : m.spanOf id = l.spanOf id := by rw [spanOf, spanOf, h.spans_eq]

/-- The semicolon behind the constants is looked for by order alone. -/
theorem ofRule {rule rule' : GapRule} (hr : rule.Moved f rule') :
    Gaps.ofRule m rule' = Gaps.ofRule l rule := by
  cases hr with
  | tokens => rfl
  | declarations => rfl
  | @enumBody r r' hr members =>
    simp only [Gaps.ofRule, separator?, h.row.firstOfKind?_eq hr]
    cases hfound : l.row.firstOfKind? r (SyntaxKind.token TokenKind.semicolon) with
    | none => rfl
    | some id =>
      have hstop : (m.token id).stop = f.stop (l.token id).stop :=
        h.row.stop_eq (TokenRow.lt_count_of_firstOfKind? hfound)
      cases members with
      | none => rfl
      | some start =>
        simp only [Option.filter_some, Option.map_some, Option.all_some, hstop,
          Shift.stop_le_start_iff h.row.ascending]

end Moved

/-! ## Single steps -/

theorem allocate_mirror (kind : NodeKind) (es : List Element) (span : TokenId × TokenId) :
    Mirror f Eq (allocate kind es span) (allocate kind es span) := fun l m h =>
  ⟨by rw [h.draft_eq], h.row, by rw [h.draft_eq], by rw [h.spans_eq], h.occurrences_eq, h.bound⟩

theorem gap_mirror (gaps : Gaps) (id : TokenId) : Mirror f Eq (gap gaps id) (gap gaps id) := by
  cases gaps with
  | tokens => exact .pure rfl
  | declarations keep =>
    refine .get fun l m h => .ite (by rw [h.token_kind]) ?_ (.pure rfl)
    exact (allocate_mirror _ _ _).andThen fun _ => .pure rfl

theorem gapsFrom_mirror (gaps : Gaps) (n i : Nat) :
    Mirror f Eq (gapsFrom gaps n i) (gapsFrom gaps n i) := by
  induction n generalizing i with
  | zero => exact .pure rfl
  | succ n ih => exact (gap_mirror gaps _).andThen fun _ => (ih _).andThen fun _ => .pure rfl

theorem interleave_mirror (kind : NodeKind) (gaps : Gaps) (last : TokenId) (next : Nat)
    (children : List NodeId) :
    Mirror f Eq (interleave kind gaps last next children)
      (interleave kind gaps last next children) := by
  induction children generalizing next with
  | nil => exact gapsFrom_mirror _ _ _
  | cons child children ih =>
    unfold interleave
    refine .get fun l m h => ?_
    rw [h.spanOf_eq]
    generalize l.spanOf child = span
    obtain ⟨first, final⟩ := span
    refine .ite Iff.rfl (.throwThen _ _ _ _) ?_
    exact (gapsFrom_mirror _ _ _).andThen fun _ => (ih _).andThen fun _ => .pure rfl

theorem elements_mirror (kind : NodeKind) (span : TokenId × TokenId) (children : List NodeId)
    (gaps : Gaps) : Mirror f Eq (elements kind span children gaps)
      (elements kind span children gaps) := by
  refine .get fun l m h => ?_
  simp only [h.spanOf_eq]
  exact interleave_mirror _ _ _ _ _

theorem nodeOver_mirror (kind : NodeKind) {range range' : TextRange}
    (hr : f.TakesRange range range') (children : List NodeId) {rule rule' : GapRule}
    (hrule : rule.Moved f rule') : Mirror f Eq (nodeOver kind range children rule)
      (nodeOver kind range' children rule') := by
  refine .get fun l m h => ?_
  rw [h.row.span?_eq hr, h.ofRule hrule]
  cases l.row.span? range with
  | none => exact .throw _ _
  | some span => exact (elements_mirror _ _ _ _).andThen fun _ => allocate_mirror _ _ _

theorem leaf_mirror (kind : NodeKind) {range range' : TextRange}
    (hr : f.TakesRange range range') : Mirror f Eq (leaf kind range) (leaf kind range') :=
  nodeOver_mirror kind hr [] .tokens

theorem expectKind_mirror (node : NodeKind) (o o' : Nat) (kind : TokenKind)
    (found : Option TokenId) : Mirror f Eq (expectKind node o kind found)
      (expectKind node o' kind found) := by
  refine .get fun l m h => ?_
  simp only [h.token_kind]
  split
  · exact .pure rfl
  · exact .throw _ _

theorem leading_mirror (node : NodeKind) {range range' : TextRange}
    (hr : f.TakesRange range range') (kind : TokenKind) :
    Mirror f Eq (leading node range kind) (leading node range' kind) := by
  refine .get fun l m h => ?_
  rw [h.row.firstInside?_eq hr]
  exact (expectKind_mirror _ _ _ _ _).andThen fun _ => .pure rfl

theorem record_mirror (g : Occurrences → Occurrences) : Mirror f Eq (record g) (record g) :=
  .modify fun _ _ h => ⟨h.row, h.draft_eq, h.spans_eq, by rw [h.occurrences_eq], h.bound⟩

theorem declareAt_mirror (o : Nat) (id : NodeId) :
    Mirror f Eq (declareAt o id) (declareAt (f.start o) id) := by
  refine .get fun l m h => ?_
  rw [h.bound]
  cases l.boundAt? o with
  | none => exact .pure rfl
  | some b => exact record_mirror _

theorem referAt_mirror (o : Nat) (id : NodeId) :
    Mirror f Eq (referAt o id) (referAt (f.start o) id) := by
  refine .get fun l m h => ?_
  rw [h.bound]
  cases l.boundAt? o with
  | none => exact .pure rfl
  | some b => exact record_mirror _

theorem declareIf_mirror (o : Option Nat) (id : NodeId) :
    Mirror f Eq (declareIf o id) (declareIf (o.map f.start) id) := by
  cases o with
  | none => exact .pure rfl
  | some o => exact declareAt_mirror o id

theorem inBody_mirror {p q : Step α} (h : Mirror f Eq p q) :
    Mirror f Eq (inBody p) (inBody q) := by
  refine .get fun l m hm => ?_
  rw [hm.occurrences_eq]
  refine Mirror.andThen (.modify fun _ _ h =>
    ⟨h.row, h.draft_eq, h.spans_eq, rfl, h.bound⟩) fun _ => ?_
  exact h.andThen fun _ => (record_mirror _).andThen fun _ => .pure rfl

/-! ## Declared types -/

section

variable (h : Moved f l m)
include h

theorem Moved.typeDimensions_eq (type : TypeRef) :
    m.typeDimensions (type.shift f) = l.typeDimensions type := by
  fun_induction typeDimensions l type with
  | case1 r element brackets ih =>
    rw [TypeRef.shift, typeDimensions, ih, h.row.span?_eq (f.takes_range brackets)]
  | case2 type hne =>
    cases type with
    | array r element brackets => exact absurd rfl (hne r element brackets)
    | _ => rfl

theorem Moved.baseWithin_eq (n : Nat) (id : NodeId) : m.baseWithin n id = l.baseWithin n id := by
  induction n generalizing id with
  | zero => rfl
  | succ n ih => simp only [baseWithin, h.draft_eq, ih]

theorem Moved.declaredType_eq (typeNode : NodeId) (type : TypeRef) (ellipsis : Option TextRange)
    (after : List NodeId) :
    m.declaredType typeNode (type.shift f) (ellipsis.map f.range) after =
      l.declaredType typeNode type ellipsis after := by
  have hellipsis : m.ellipsisDimensions (ellipsis.map f.range) = l.ellipsisDimensions ellipsis := by
    cases ellipsis with
    | none => rfl
    | some r => simp [ellipsisDimensions, h.row.firstInside?_eq (f.takes_range r)]
  have hname : m.nameDimensions after = l.nameDimensions after := by
    simp only [nameDimensions, h.draft_eq, h.spanOf_eq]
  simp only [declaredType, h.baseWithin_eq, h.typeDimensions_eq, hellipsis, hname]

end

theorem setType_mirror (id typeNode : NodeId) (type : TypeRef) (ellipsis : Option TextRange)
    (after : List NodeId) : Mirror f Eq (setType id typeNode type ellipsis after)
      (setType id typeNode (type.shift f) (ellipsis.map f.range) after) :=
  .modify fun l m h => ⟨h.row, by simp only [h.declaredType_eq, h.draft_eq], h.spans_eq,
    h.occurrences_eq, h.bound⟩

/-! ## Shapes -/

theorem checkWord_mirror {s t : NodeSpec} (h : s.Moved f t) :
    Mirror f Eq (checkWord s) (checkWord t) := by
  unfold checkWord
  rw [h.word_eq, h.kind_eq]
  cases s.word with
  | none => exact .pure rfl
  | some word => exact leading_mirror _ h.range _

theorem expectKind_run (node : NodeKind) (o : Nat) (kind : TokenKind) (found : Option TokenId)
    (l : Layout) : expectKind node o kind found l =
      match found.filter fun id => (l.token id).kind == kind with
      | some id => .ok (id, l)
      | none => .error (.missing node o kind) := by
  unfold expectKind
  rw [get_bind_run]
  cases found.filter fun id => (l.token id).kind == kind <;> rfl

/-- A token that must be of some kind is read where it is found. -/
theorem expectKind_token_run (node : NodeKind) (o : Nat) (kind : TokenKind)
    (found : Option TokenId) (l : Layout) (g : Token → β) :
    (expectKind node o kind found >>= fun id => MonadState.get >>= fun l =>
      (Pure.pure (g (l.token id)) : Step β)) l =
    match found.filter fun id => (l.token id).kind == kind with
    | some id => .ok (g (l.token id), l)
    | none => .error (.missing node o kind) := by
  show (expectKind node o kind found l >>= fun r => .ok (g (r.2.token r.1), r.2)) = _
  rw [expectKind_run]
  cases found.filter fun id => (l.token id).kind == kind <;> rfl

theorem preceding_token_run (node : NodeKind) (o : Nat) (kind : TokenKind) (l : Layout)
    (g : Token → β) :
    (preceding node o kind >>= fun id => MonadState.get >>= fun l =>
      (Pure.pure (g (l.token id)) : Step β)) l =
    match (l.row.before? o).filter fun id => (l.token id).kind == kind with
    | some id => .ok (g (l.token id), l)
    | none => .error (.missing node o kind) := by
  unfold preceding
  simp only [bind_assoc, get_bind_run]
  exact expectKind_token_run node o kind _ l g

theorem following_token_run (node : NodeKind) (o : Nat) (kind : TokenKind) (l : Layout)
    (g : Token → β) :
    (following node o kind >>= fun id => MonadState.get >>= fun l =>
      (Pure.pure (g (l.token id)) : Step β)) l =
    match (l.row.after? o).filter fun id => (l.token id).kind == kind with
    | some id => .ok (g (l.token id), l)
    | none => .error (.missing node o kind) := by
  unfold following
  simp only [bind_assoc, get_bind_run]
  exact expectKind_token_run node o kind _ l g

/-- What is read off a token that is found, and that must be of a kind. -/
theorem mirrorAt_of_token (h : Moved f l m) {p q : Step β} {kind : TokenKind} {e e' : FileError}
    {found found' : Option TokenId} (hsame : found' = found) (g g' : Token → β)
    (hp : p l = match found.filter fun id => (l.token id).kind == kind with
      | some id => .ok (g (l.token id), l)
      | none => .error e)
    (hq : q m = match found'.filter fun id => (m.token id).kind == kind with
      | some id => .ok (g' (m.token id), m)
      | none => .error e')
    (hfound : ∀ id ∈ found, (l.token id).kind = kind → S (g (l.token id)) (g' (m.token id))) :
    MirrorAt f S p q l m := by
  subst hsame
  have hfilter : found'.filter (fun id => (m.token id).kind == kind) =
      found'.filter fun id => (l.token id).kind == kind := by simp only [h.token_kind]
  unfold MirrorAt
  rw [hp, hq, hfilter]
  cases hid : found'.filter fun id => (l.token id).kind == kind with
  | none => trivial
  | some id =>
    obtain ⟨hmem, hkind⟩ := Option.filter_eq_some_iff.1 hid
    exact ⟨hfound id hmem (by simpa using hkind), h⟩

/-- Where a variable ends goes along with the token behind it. -/
theorem fragmentStop_mirror (r : TextRange) (isLast terminated : Bool) :
    Mirror f f.Takes (fragmentStop r isLast terminated)
      (fragmentStop (f.range r) isLast terminated) := by
  refine .ite Iff.rfl (.pure (.stop _)) fun l m h => ?_
  have hafter : m.row.after? (f.stop r.stop) = l.row.after? r.stop := h.row.after?_eq (.stop _)
  have hl := following_token_run .variableDecl r.stop (if isLast then .semicolon else .comma) l
    fun t => t.stop
  have hm := following_token_run .variableDecl (f.stop r.stop)
    (if isLast then .semicolon else .comma) m fun t => t.stop
  refine mirrorAt_of_token h hafter (fun t => t.stop) (fun t => t.stop) hl hm
    fun id hid hkind => ?_
  have hlt : id.index < l.row.count := TokenRow.lt_count_of_after? hid fun hend => by
    have hkind' := hkind.symm.trans hend
    cases isLast <;> cases hkind'
  have hstop : (m.token id).stop = f.stop (l.token id).stop := h.row.stop_eq hlt
  exact hstop ▸ .stop _

theorem clauseRange_mirror (kind : NodeKind) (word : TokenKind) {r r' : TextRange}
    (hr : f.TakesRange r r') : Mirror f f.TakesRange (clauseRange kind word r)
      (clauseRange kind word r') := by
  intro l m h
  unfold clauseRange
  have hl := preceding_token_run kind r.start word l fun t => (⟨t.start, r.stop⟩ : TextRange)
  have hm := preceding_token_run kind r'.start word m fun t => (⟨t.start, r'.stop⟩ : TextRange)
  refine mirrorAt_of_token h (h.row.before?_eq hr.start) (fun t => (⟨t.start, r.stop⟩ : TextRange))
    (fun t => (⟨t.start, r'.stop⟩ : TextRange)) hl hm fun id hid _ => ?_
  have hlt : id.index < l.row.tokens.size :=
    Nat.lt_of_lt_of_le (TokenRow.lt_count_of_before? hid) h.row.count_le
  have hstart : (m.token id).start = f.start (l.token id).start := h.row.start_eq hlt
  exact ⟨hstart ▸ .start _, hr.stop⟩

theorem isEmpty_moved {fs gs : List FragmentShape} (h : List.Forall₂ (FragmentShape.Moved f) fs gs) :
    gs.isEmpty = fs.isEmpty := by
  cases h <;> rfl

mutual

theorem lay_mirror : ∀ {s t : Shape}, s.Moved f t → Mirror f Eq (lay s) (lay t)
  | .ident r use, _, .ident hr _ => by
    unfold lay
    refine (leaf_mirror _ hr).andThen fun id => ?_
    cases use with
    | none => exact Mirror.andThen (.pure rfl) fun _ => .pure rfl
    | some o => exact (referAt_mirror o id).andThen fun _ => .pure rfl
  | .node spec children, _, .node hs hcs => by
    unfold lay
    refine (checkWord_mirror hs).andThen fun _ => (layAll_mirror hcs).andThen fun ids => ?_
    rw [hs.kind_eq, hs.declares_eq]
    refine (nodeOver_mirror _ hs.range ids hs.gaps).andThen fun id => ?_
    exact (declareIf_mirror _ id).andThen fun _ => .pure rfl
  | .typed spec before typeShape type ellipsis after, _, .typed hs hbefore hx _ _ hafter => by
    unfold lay
    refine (layAll_mirror hbefore).andThen fun before => (lay_mirror hx).andThen fun types => ?_
    refine (layAll_mirror hafter).andThen fun after => ?_
    rw [hs.kind_eq, hs.declares_eq]
    refine (nodeOver_mirror _ hs.range _ hs.gaps).andThen fun id => ?_
    refine (Mirror.forM (fun typeNode => setType_mirror id typeNode type ellipsis after)
      types).andThen fun _ => ?_
    exact (declareIf_mirror _ id).andThen fun _ => .pure rfl
  | .clause kind word r types, _, .clause _ _ hr htypes => by
    unfold lay
    refine (clauseRange_mirror kind.node word hr).bind fun _ _ hr => ?_
    refine (layAll_mirror htypes).andThen fun ids => ?_
    exact (nodeOver_mirror _ hr ids .tokens).andThen fun _ => .pure rfl
  | .variables start terminated before typeShape type fragments, _,
      .variables _ _ hbefore hx _ hfs => by
    unfold lay
    rw [isEmpty_moved hfs]
    refine .ite Iff.rfl (.pure rfl) ?_
    refine (layAll_mirror hbefore).andThen fun before => (lay_mirror hx).andThen fun types => ?_
    exact layFragments_mirror terminated types type hfs (.start start) _
  | .labeled r label body, _, .labeled hr _ hbody => by
    unfold lay
    refine (leaf_mirror _ (f.takes_range _)).andThen fun id => ?_
    refine (record_mirror _).andThen fun _ => (layAll_mirror hbody).andThen fun body => ?_
    refine (nodeOver_mirror _ hr _ .tokens).andThen fun labeled => ?_
    exact (record_mirror _).andThen fun _ => .pure rfl
  | .jump kind r none, _, .jump _ hr _ => by
    unfold lay
    exact (leaf_mirror _ hr).andThen fun _ => .pure rfl
  | .jump kind r (some label), _, .jump _ hr _ => by
    unfold lay
    refine (leaf_mirror _ (f.takes_range _)).andThen fun id => (record_mirror _).andThen fun _ => ?_
    exact (nodeOver_mirror _ hr _ .tokens).andThen fun _ => .pure rfl
  | .body inside, _, .body h => by
    unfold lay
    exact inBody_mirror (layAll_mirror h)

theorem layAll_mirror : ∀ {ss ts : List Shape}, List.Forall₂ (Shape.Moved f) ss ts →
    Mirror f Eq (layAll ss) (layAll ts)
  | [], _, .nil => .pure rfl
  | s :: ss, _, .cons h hs => by
    unfold layAll
    exact (lay_mirror h).andThen fun _ => (layAll_mirror hs).andThen fun _ => .pure rfl

theorem layFragments_mirror (terminated : Bool) (types : List NodeId) (type : TypeRef) :
    ∀ {fs gs : List FragmentShape}, List.Forall₂ (FragmentShape.Moved f) fs gs →
    ∀ {start start' : Nat}, f.Takes start start' → ∀ before : List NodeId,
      Mirror f Eq (layFragments terminated start types type before fs)
        (layFragments terminated start' types (type.shift f) before gs)
  | [], _, .nil, _, _, _, _ => .pure rfl
  | .mk r name inside :: fs, _ :: gs, .cons (.mk _ _ hinside) hfs, _, _, hstart, before => by
    unfold layFragments
    rw [isEmpty_moved hfs]
    refine (fragmentStop_mirror r _ terminated).bind fun stop stop' hstop => ?_
    refine (leaf_mirror _ (f.takes_range _)).andThen fun id => ?_
    refine (layAll_mirror hinside).andThen fun inside => ?_
    refine (nodeOver_mirror _ ⟨hstart, hstop⟩ _ .tokens).andThen fun decl => ?_
    refine (Mirror.forM (fun typeNode => setType_mirror decl typeNode type none inside)
      types).andThen fun _ => ?_
    refine (declareAt_mirror name.range.start decl).andThen fun _ => ?_
    refine (layFragments_mirror terminated types type hfs ?_ []).andThen fun _ => .pure rfl
    cases hfs with
    | nil => exact hstop
    | cons h _ =>
      cases h
      exact .start _

end

/-- A file that was moved is laid over its tokens as before. -/
theorem layUnit_mirror (hf : StrictMono f.start) {unit : CompilationUnit}
    (hstart : unit.range.start = 0) :
    Mirror f Eq (layUnit unit) (layUnit (unit.shift f)) := by
  refine (layAll_mirror (unit.shapes_moved hf)).andThen fun children => .get fun l m h => ?_
  have hspan : m.row.span? (unit.shift f).range = l.row.span? unit.range :=
    h.row.span?_eq ⟨hstart ▸ .stop 0, .start _⟩
  rw [hspan, h.row.final_eq]
  cases l.row.span? unit.range with
  | none => exact Mirror.andThen (.pure rfl) fun _ => allocate_mirror _ _ _
  | some span => exact (elements_mirror _ _ _ _).andThen fun _ => allocate_mirror _ _ _

end Layout

end JavaAnalysis
