import JavaAnalysis.ParsedUnit
import JavaAnalysis.Proofs.Binding.Table
import JavaAnalysis.Proofs.Resolve.Bodies
import JavaAnalysis.Proofs.Resolve.Imports

/-!
# Scopes around the walk

Each step of the walk leaves the scopes around it as they are, but for the innermost one, which it
may extend by the names that are declared directly there. A construct with a scope of its own adds
nothing to the one around it, and no scope is left at the end of a file. What is declared in the
initializer of a class is found elsewhere all the same: it becomes a member of the class.

Main statement: `resolve_scopes`.
-/

set_option autoImplicit false
set_option linter.dupNamespace false

namespace JavaAnalysis.Ast

/-! ## The names that come into the scope around a piece of syntax -/

mutual

/-- The patterns in the arguments of an annotation declare what surrounds the annotation. -/
def AnnotationUse.scopeNames : AnnotationUse → List String
  | .mk _ _ _ args => elementScopeNames args

def elementScopeNames : List ElementValue → List String
  | [] => []
  | .mk _ _ value :: args => value.scopeNames ++ elementScopeNames args

def modifierScopeNames : List Modifier → List String
  | [] => []
  | .word _ _ :: ms => modifierScopeNames ms
  | .annotated use :: ms => use.scopeNames ++ modifierScopeNames ms

def annotationScopeNames : List AnnotationUse → List String
  | [] => []
  | use :: uses => use.scopeNames ++ annotationScopeNames uses

def VarDecl.scopeNames : VarDecl → List String
  | .mk _ ms _ fragments => modifierScopeNames ms ++ fragmentScopeNames fragments

def fragmentScopeNames : List VarFragment → List String
  | [] => []
  | .mk _ name _ init :: fragments =>
    optionalScopeNames init ++ name.text :: fragmentScopeNames fragments

def Pattern.scopeNames : Pattern → List String
  | .mk _ ms _ name => modifierScopeNames ms ++ [name.text]

def stmtScopeNames : List Stmt → List String
  | [] => []
  | s :: ss => s.scopeNames ++ stmtScopeNames ss

/-- Bodies of loops and branches have scopes of their own; conditions have not. -/
def Stmt.scopeNames : Stmt → List String
  | .block _ => []
  | .localVar decl => decl.scopeNames
  | .localType decl => [decl.name.text]
  | .expression _ e => e.scopeNames
  | .ifThen _ cond _ => cond.scopeNames
  | .ifThenElse _ cond _ _ => cond.scopeNames
  | .whileLoop _ cond _ => cond.scopeNames
  | .doLoop _ _ cond => cond.scopeNames
  | .forLoop _ _ _ _ _ => []
  | .forEach _ _ iterable _ => iterable.scopeNames
  | .returning _ e => optionalScopeNames e
  | .breaking _ _ => []
  | .continuing _ _ => []
  | .yielding _ e => e.scopeNames
  | .labeled _ _ _ => []
  | .throwing _ e => e.scopeNames
  | .trying _ _ _ _ _ _ => []
  | .switching _ selector _ _ => selector.scopeNames
  | .synchronizing _ lock _ => lock.scopeNames
  | .asserting _ cond message => cond.scopeNames ++ optionalScopeNames message
  | .empty _ => []

/-- Within a switch, a case with an arrow or a pattern has a scope of its own. -/
def caseScopeNames : List SwitchCase → List String
  | [] => []
  | .mk _ labels arrow body :: cases =>
    (if arrow || labels.any CaseLabel.isPattern then []
      else labelScopeNames labels ++ stmtScopeNames body) ++ caseScopeNames cases

def labelScopeNames : List CaseLabel → List String
  | [] => []
  | .default _ :: labels => labelScopeNames labels
  | .values _ values :: labels => exprScopeNames values ++ labelScopeNames labels
  | .pattern _ pattern guard :: labels =>
    pattern.scopeNames ++ optionalScopeNames guard ++ labelScopeNames labels

def exprScopeNames : List Expr → List String
  | [] => []
  | e :: es => e.scopeNames ++ exprScopeNames es

def optionalScopeNames : Option Expr → List String
  | none => []
  | some e => e.scopeNames

def dimScopeNames : List DimExpr → List String
  | [] => []
  | .mk _ size :: dims => optionalScopeNames size ++ dimScopeNames dims

/-- Patterns declare what surrounds the expression, unless a lambda, a class or a switch does. -/
def Expr.scopeNames : Expr → List String
  | .literal _ _ => []
  | .name _ => []
  | .fieldAccess _ target _ => target.scopeNames
  | .methodCall _ target _ _ _ _ args => exprScopeNames args ++ optionalScopeNames target
  | .newObject _ outer _ _ args _ => optionalScopeNames outer ++ exprScopeNames args
  | .newArray _ _ dims _ init => dimScopeNames dims ++ exprScopeNames init
  | .arrayInit _ items => exprScopeNames items
  | .arrayAccess _ array index => array.scopeNames ++ index.scopeNames
  | .unary _ _ operand => operand.scopeNames
  | .binary _ _ lhs rhs => lhs.scopeNames ++ rhs.scopeNames
  | .assign _ _ target value => value.scopeNames ++ target.scopeNames
  | .conditional _ cond yes no => cond.scopeNames ++ yes.scopeNames ++ no.scopeNames
  | .instanceOf _ operand _ => operand.scopeNames
  | .instanceOfPattern _ operand pattern => operand.scopeNames ++ pattern.scopeNames
  | .cast _ _ operand => operand.scopeNames
  | .paren _ inner => inner.scopeNames
  | .this _ => []
  | .super _ => []
  | .classLiteral _ _ => []
  | .lambdaExpr _ _ _ _ _ => []
  | .lambdaBlock _ _ _ _ _ => []
  | .methodRef _ target _ => target.scopeNames
  | .switching _ selector _ _ => selector.scopeNames
  | .annotated use => use.scopeNames
  | .type _ => []

end

/-- The annotations of a method stand in the scope around it. -/
def MethodDecl.scopeNames : MethodDecl → List String
  | .mk _ ms _ _ _ _ _ _ _ _ _ _ => modifierScopeNames ms

end JavaAnalysis.Ast

namespace JavaAnalysis.Binder

open Ast

variable {α β : Type} {names more : List String} {b b' : Binder}

/-! ## Steps that add names to the innermost scope -/

/-- The scopes after names have come into the innermost one, the latest in front. -/
def ScopesGrown (names : List String) : List Scope → List Scope → Prop
  | [], after => after = []
  | s :: ss, after => ∃ added : List (String × BindingId), added.map Prod.fst = names.reverse ∧
      after = { s with entries := added ++ s.entries } :: ss

theorem ScopesGrown.refl (scopes : List Scope) : ScopesGrown [] scopes scopes := by
  cases scopes with
  | nil => rfl
  | cons s ss => exact ⟨[], rfl, rfl⟩

theorem ScopesGrown.eq_of_nil {scopes after : List Scope} (h : ScopesGrown [] scopes after) :
    after = scopes := by
  cases scopes with
  | nil => exact h
  | cons s ss =>
    obtain ⟨added, hadded, rfl⟩ := h
    rw [List.reverse_nil, List.map_eq_nil_iff] at hadded
    rw [hadded, List.nil_append]

theorem ScopesGrown.trans {scopes between after : List Scope}
    (h : ScopesGrown names scopes between) (h' : ScopesGrown more between after) :
    ScopesGrown (names ++ more) scopes after := by
  cases scopes with
  | nil =>
    have hbetween : between = [] := h
    subst hbetween
    exact h'
  | cons s ss =>
    obtain ⟨added, hadded, rfl⟩ := h
    obtain ⟨added', hadded', rfl⟩ := h'
    refine ⟨added' ++ added, ?_, by rw [List.append_assoc]⟩
    rw [List.map_append, hadded, hadded', List.reverse_append]

/-- The step adds these names to the innermost scope, and leaves the scopes as they are beyond. -/
def Enters (names : List String) (x : Binding.Walk α) : Prop :=
  ∀ b, ScopesGrown names b.scopes (x b).2.scopes

namespace Enters

variable {x : Binding.Walk α} {f : α → Binding.Walk β}

theorem pure (a : α) : Enters [] (Pure.pure a : Binding.Walk α) := fun b => .refl b.scopes

theorem bind (hx : Enters names x) (hf : ∀ a, Enters more (f a)) :
    Enters (names ++ more) (x >>= f) := fun b => (hx b).trans (hf _ _)

theorem of_eq (h : ∀ b, (x b).2.scopes = b.scopes) : Enters [] x := fun b => by
  rw [h b]
  exact .refl b.scopes

theorem eq_of_nil (h : Enters [] x) (b : Binder) : (x b).2.scopes = b.scopes := (h b).eq_of_nil

/-- Nothing is added in front. -/
theorem quiet_bind (hx : Enters [] x) (hf : ∀ a, Enters names (f a)) : Enters names (x >>= f) :=
  hx.bind hf

/-- Nothing is added behind. -/
theorem bind_quiet (hx : Enters names x) (hf : ∀ a, Enters [] (f a)) : Enters names (x >>= f) := by
  have hboth := hx.bind hf
  rwa [List.append_nil] at hboth

theorem get {f : Binder → Binding.Walk α} (hf : ∀ b, Enters names (f b)) :
    Enters names (MonadState.get >>= f) := fun b => hf b b

/-- Whatever a step does in a scope of its own, nothing is seen of it outside. -/
theorem inScope (kind : ScopeKind) (x : Binding.Walk α) : Enters [] (Binder.inScope kind x) :=
  fun b => .refl b.scopes

theorem enter (name : String) (id : BindingId) : Enters [name] (Binder.enter name id) := by
  rintro ⟨_, _, _, _, _, _, scopes, _, _, _⟩
  cases scopes with
  | nil => rfl
  | cons s ss => exact ⟨[(name, id)], rfl, rfl⟩

end Enters

/-! ## Names that are used -/

/-- Looking names up, binding them and reporting them touches no scope. -/
def scopeless : Discipline Mention.IsUse where
  Answers _ _ := True
  Demands _ := True
  Holds := Enters []
  pure := .pure
  bind := .quiet_bind
  get _ := .get
  inScope {_ x} kind _ := .inScope kind x
  lookupType name hf := .quiet_bind (.of_eq fun b => by
    obtain ⟨imports, -, hplace⟩ := lookupType_place name b
    rw [hplace]) fun _ => hf _ trivial
  lookupImported name p := .of_eq fun b => by
    obtain ⟨imports, -, hplace⟩ := lookupImported_place name p b
    rw [hplace]
  refer {m} id _ _ := .of_eq fun b => by
    obtain ⟨used, hplace, -⟩ := markUsed_place id { b with bound := b.bound.insert m.offset id }
    show (markUsed id { b with bound := b.bound.insert m.offset id }).2.scopes = b.scopes
    rw [hplace]
  pass _ _ _ := .of_eq fun _ => rfl
  declare h := h.elim
  allocate _ _ := .of_eq fun _ => rfl
  complete _ _ _ := .of_eq fun _ => rfl
  enter _ _ h := h.elim
  addTopLevel _ _ := .of_eq fun _ => rfl
  markOpen _ := .of_eq fun _ => rfl
  markUntyped _ := .of_eq fun _ => rfl
  report _ _ _ _ _ _ := .of_eq fun _ => rfl
  remark _ _ _ _ _ := .of_eq fun _ => rfl

mutual

/-- A type declares nothing. -/
theorem TypeRef.mentions_isUse : ∀ (t : TypeRef) (qualifying : Bool),
    Known Mention.IsUse (t.mentions qualifying)
  | .primitive _ _, _ => known_nil
  | .inferred _, _ => known_nil
  | .named _ none _ _ args, _ => known_cons.2 ⟨trivial, typeMentions_isUse args⟩
  | .named _ (some q) _ _ args, _ =>
    known_append.2 ⟨TypeRef.mentions_isUse q true, known_cons.2 ⟨trivial, typeMentions_isUse args⟩⟩
  | .array _ element _, _ => TypeRef.mentions_isUse element false
  | .wildcard _, _ => known_nil
  | .bounded _ _ bound, _ => TypeRef.mentions_isUse bound false
  | .union _ alternatives, _ => typeMentions_isUse alternatives
  | .intersection _ bounds, _ => typeMentions_isUse bounds

theorem typeMentions_isUse : ∀ ts : List TypeRef, Known Mention.IsUse (typeMentions ts)
  | [] => known_nil
  | t :: ts => known_append.2 ⟨TypeRef.mentions_isUse t false, typeMentions_isUse ts⟩

end

theorem innerMentions_isUse (t : TypeRef) : Known Mention.IsUse t.innerMentions := by
  unfold TypeRef.innerMentions
  split
  · exact known_cons.2 ⟨trivial, typeMentions_isUse _⟩
  · exact known_nil

theorem resolveType_scopes (qualifying : Bool) (t : TypeRef) :
    Enters [] (resolveType qualifying t) :=
  resolveType_holds scopeless t qualifying (TypeRef.mentions_isUse t qualifying)

theorem resolveTypes_scopes (ts : List TypeRef) : Enters [] (resolveTypes ts) :=
  resolveTypes_holds scopeless ts (typeMentions_isUse ts)

theorem resolveInnerType_scopes (outer : Option BindingId) (t : TypeRef) :
    Enters [] (resolveInnerType outer t) :=
  resolveInnerType_holds scopeless outer t (innerMentions_isUse t)

theorem memberName_isUse (name : Ident) : Mention.IsUse (.member false name) := trivial

theorem valueQualifier_scopes (use : NameUse) (e : Expr) : Enters [] (valueQualifier use e) :=
  .get fun _ => .pure _

/-- A missing method is reported whatever its arguments declare. -/
theorem reportMissingMethod_scopes (name : Ident) (args : List Expr) (owner : String) :
    Enters [] (reportMissingMethod name args owner) := .of_eq fun _ => rfl

theorem resolveSimpleCall_scopes (name : Ident) (args : List Expr) :
    Enters [] (resolveSimpleCall name args) := by
  unfold resolveSimpleCall
  split
  · exact resolveConstructorCall_holds scopeless args.length (memberName_isUse name)
  · refine (lookupMethod_holds scopeless name.text args.length).quiet_bind fun lookup => ?_
    refine (referIfFound_holds scopeless (m := .member false name) trivial trivial
      lookup).quiet_bind fun _ => ?_
    split
    · exact .get fun _ => reportMissingMethod_scopes _ _ _
    · exact .pure _

theorem resolveMemberCall_scopes (qualifier : Qualifier) (name : Ident) (args : List Expr) :
    Enters [] (resolveMemberCall qualifier name args) := by
  unfold resolveMemberCall
  split
  · exact .pure _
  refine .get fun b => ?_
  split
  · exact scopeless.refer (m := .member false name) _ trivial trivial
  split
  · exact reportMissingMethod_scopes _ _ _
  · exact .pure _

theorem checkExhaustive_scopes (range : TextRange) (selector : Expr) (cases : List SwitchCase) :
    Enters [] (checkExhaustive range selector cases) := by
  unfold checkExhaustive
  refine .get fun b => ?_
  split
  · exact .of_eq fun _ => rfl
  · exact .pure _

/-! ## Names that are declared -/

theorem declareLocal_scopes (kind : BindingKind) (modifiers : List Modifier)
    (type : Option TypeRef) (lookup : Lookup) (name : Ident) (brackets : Nat) :
    Enters [name.text] (declareLocal kind modifiers type lookup name brackets) := by
  have hrest : ∀ id, Enters [name.text] (do
      enter name.text id
      bind name.range.start id) := fun id =>
    (Enters.enter name.text id).bind_quiet fun _ => .of_eq fun _ => rfl
  unfold declareLocal
  refine .get fun b => .quiet_bind (.of_eq fun _ => rfl) fun id => ?_
  split
  · exact .quiet_bind (.of_eq fun _ => rfl) fun _ => hrest id
  · exact hrest id

theorem declareTypeName_scopes (owner : Option BindingId) (kind : TypeDeclKind)
    (modifiers : List Modifier) (name : Ident) :
    Enters [] (declareTypeName owner kind modifiers name) := by
  unfold declareTypeName
  refine .get fun b => .quiet_bind (.of_eq fun _ => rfl) fun id => ?_
  refine .quiet_bind (.of_eq fun _ => rfl) fun _ => ?_
  split
  · exact .quiet_bind (.of_eq fun _ => rfl) fun _ => .pure _
  · exact .pure _

mutual

/-- Declaring types brings no name into scope yet. -/
theorem declareType_scopes : ∀ (decl : TypeDecl) (owner : Option BindingId),
    Enters [] (declareType owner decl)
  | .mk _ kind modifiers name _ _ _ _ _ _ _ (.mk _ _ members), owner =>
    (declareTypeName_scopes owner kind modifiers name).quiet_bind fun id =>
      declareTypesIn_scopes members id

theorem declareTypesIn_scopes : ∀ (members : List Member) (owner : BindingId),
    Enters [] (declareTypesIn owner members)
  | [], _ => .pure _
  | .type decl :: members, owner =>
    (declareType_scopes decl (some owner)).quiet_bind fun _ => declareTypesIn_scopes members owner
  | .field _ :: members, owner => declareTypesIn_scopes members owner
  | .method _ :: members, owner => declareTypesIn_scopes members owner
  | .initializer _ _ _ :: members, owner => declareTypesIn_scopes members owner

end

theorem boundAt?_insert_isSome {offset o : Nat} {id : BindingId}
    (h : (b.boundAt? offset).isSome) :
    (boundAt? { b with bound := b.bound.insert o id } offset).isSome := by
  rw [boundAt?_insert]
  split
  · rfl
  · exact h

/-- A name stays bound once it is. -/
def binding (offset : Nat) : Discipline fun _ => True where
  Answers _ _ := True
  Demands _ := True
  Holds := Stays fun b => (b.boundAt? offset).isSome
  pure := .pure
  bind := .bind
  get _ := .get
  inScope kind h := .inScope (fun _ _ hb => hb) h kind
  lookupType name h := .lookupType (fun _ _ _ hb => hb) name fun _ _ => h _ trivial
  lookupImported name p := .lookupImported (fun _ _ _ hb => hb) name p
  refer id _ _ := .bind (fun _ hb => boundAt?_insert_isSome hb) fun _ =>
    .markUsed (fun _ _ hb => hb) id
  pass _ _ _ := fun _ hb => boundAt?_insert_isSome hb
  declare _ hf := fun _ hb => hf _ _ (boundAt?_insert_isSome hb)
  allocate _ _ := fun _ hb => hb
  complete _ _ _ := fun _ hb => hb
  enter name id _ := .enter (fun _ _ hb => hb) name id
  addTopLevel _ _ := fun _ hb => hb
  markOpen _ := fun _ hb => hb
  markUntyped _ := fun _ hb => hb
  report _ _ _ _ _ _ := fun _ hb => hb
  remark _ _ _ _ _ := fun _ hb => hb

/-- The name of a type is bound once the type is declared. -/
theorem declareType_bound (decl : TypeDecl) (owner : Option BindingId) (b : Binder) :
    ((declareType owner decl b).2.boundAt? decl.name.range.start).isSome := by
  obtain ⟨_, kind, modifiers, name, _, _, _, _, _, _, _, ⟨_, _, members⟩⟩ := decl
  refine declareTypesIn_holds (binding name.range.start) members _ (fun _ _ => trivial) _ ?_
  have hbound : ∀ (b : Binder) (id : BindingId),
      (boundAt? { b with bound := b.bound.insert name.range.start id } name.range.start).isSome :=
    fun b id => by
      rw [boundAt?_insert, if_pos rfl]
      rfl
  show ((declareTypeName owner kind modifiers name b).2.boundAt? name.range.start).isSome
  cases owner <;> exact hbound _ _

/-- A name that is bound may be brought into scope. -/
theorem enterAgain_scopes (name : Ident) (h : (b.boundAt? name.range.start).isSome) :
    ScopesGrown [name.text] b.scopes (enterAgain [name] b).2.scopes := by
  obtain ⟨id, hid⟩ := Option.isSome_iff_exists.1 h
  have henter : enterAgain [name] b = (enter name.text id >>= fun _ => enterAgain []) b := by
    conv => lhs; unfold enterAgain
    rw [get_bind_apply, hid]
  rw [henter]
  exact (Enters.enter name.text id).bind_quiet (fun _ => .pure _) b

/-- What is declared inside a type is declared in a scope of its own. -/
theorem declareMembers_scopes (decl : TypeDecl) : Enters [] (declareMembers decl) := by
  obtain ⟨_, kind, _, name, _, typeParams, _, components, supers, interfaces, permitted,
    ⟨_, constants, members⟩⟩ := decl
  refine .get fun b => ?_
  split
  · exact .pure _
  · exact .inScope _ _

theorem resolveTypeBody_scopes (decl : TypeDecl) : Enters [] (resolveTypeBody decl) := by
  obtain ⟨_, kind, _, name, _, typeParams, _, components, supers, interfaces, permitted,
    ⟨_, constants, members⟩⟩ := decl
  refine .get fun b => ?_
  split
  · exact .pure _
  · exact .inScope _ _

theorem resolveAnonymous_scopes (parent : Option BindingId) (body : Option ClassBody) :
    Enters [] (resolveAnonymous parent body) := by
  cases body with
  | none => exact .pure _
  | some body =>
    obtain ⟨range, constants, members⟩ := body
    have hdeclare : Enters [] (declareAnonymous range.start parent) := by
      unfold declareAnonymous
      refine .get fun b => .quiet_bind (.of_eq fun _ => rfl) fun id => ?_
      refine .quiet_bind (.of_eq fun _ => rfl) fun _ => ?_
      split
      · exact .quiet_bind (.of_eq fun _ => rfl) fun _ => .pure _
      · exact .pure _
    exact hdeclare.quiet_bind fun id => (declareTypesIn_scopes members id).quiet_bind fun _ =>
      .inScope _ _

/-! ## Statements and expressions -/

theorem scopeNames_of_isThis {e : Expr} (h : e.isThis = true) : e.scopeNames = [] := by
  unfold Expr.isThis at h
  split at h
  · rfl
  · cases h

theorem resolveBlock_scopes (block : Block) : Enters [] (resolveBlock block) := by
  obtain ⟨_, stmts⟩ := block
  exact .inScope _ _

theorem resolveCatches_scopes (catches : List CatchClause) : Enters [] (resolveCatches catches) := by
  induction catches with
  | nil => exact .pure _
  | cons clause catches ih =>
    obtain ⟨_, param, body⟩ := clause
    exact (Enters.inScope _ _).quiet_bind fun _ => ih

mutual

theorem resolveAnnotation_scopes : ∀ use : AnnotationUse,
    Enters use.scopeNames ( resolveAnnotation use)
  | .mk _ name _ args =>
    (resolveMarkerName_holds scopeless name trivial).quiet_bind fun _ =>
      resolveElementValues_scopes args

theorem resolveElementValues_scopes : ∀ args : List ElementValue,
    Enters (elementScopeNames args) (resolveElementValues args)
  | [] => .pure _
  | .mk _ _ value :: args =>
    (resolveExpr_scopes value .value).bind fun _ => resolveElementValues_scopes args

theorem resolveModifiers_scopes : ∀ ms : List Modifier,
    Enters (modifierScopeNames ms) (resolveModifiers ms)
  | [] => .pure _
  | .word _ _ :: ms => resolveModifiers_scopes ms
  | .annotated use :: ms =>
    (resolveAnnotation_scopes use).bind fun _ => resolveModifiers_scopes ms

theorem declareLocals_scopes : ∀ decl : VarDecl, Enters decl.scopeNames (declareLocals decl)
  | .mk _ ms type fragments =>
    (resolveModifiers_scopes ms).bind fun _ => (resolveType_scopes false type).quiet_bind fun _ =>
      declareFragments_scopes fragments ms type _

theorem declareFragments_scopes : ∀ (fragments : List VarFragment) (ms : List Modifier)
    (type : TypeRef) (lookup : Lookup),
    Enters (fragmentScopeNames fragments) (declareFragments ms type lookup fragments)
  | [], _, _, _ => .pure _
  | .mk _ name brackets init :: fragments, ms, type, lookup =>
    (resolveOptional_scopes init).bind fun _ =>
      (declareLocal_scopes .localVariable ms (some type) lookup name brackets.length).bind fun _ =>
        declareFragments_scopes fragments ms type lookup

theorem declarePattern_scopes : ∀ pattern : Pattern,
    Enters pattern.scopeNames (declarePattern pattern)
  | .mk _ ms type name =>
    (resolveModifiers_scopes ms).bind fun _ => (resolveType_scopes false type).quiet_bind fun _ =>
      declareLocal_scopes .localVariable ms (some type) _ name 0

theorem resolveStmts_scopes : ∀ stmts : List Stmt, Enters (stmtScopeNames stmts) (resolveStmts stmts)
  | [] => .pure _
  | s :: ss => (resolveStmt_scopes s).bind fun _ => resolveStmts_scopes ss

theorem resolveStmt_scopes : ∀ s : Stmt, Enters s.scopeNames (resolveStmt s)
  | .block body => resolveBlock_scopes body
  | .localVar decl => declareLocals_scopes decl
  | .localType decl => by
    refine .get fun owner b => ?_
    have hdeclare := (declareType_scopes decl owner.currentOwner?).eq_of_nil b
    have henter := enterAgain_scopes decl.name (declareType_bound decl owner.currentOwner? b)
    rw [hdeclare] at henter
    have hbody : Enters [] (do
        declareMembers decl
        resolveTypeBody decl) :=
      (declareMembers_scopes decl).quiet_bind fun _ => resolveTypeBody_scopes decl
    exact henter.trans (hbody _)
  | .expression _ e => (resolveExpr_scopes e .value).bind_quiet fun _ => .pure _
  | .ifThen _ cond _ => (resolveExpr_scopes cond .value).bind_quiet fun _ => .inScope _ _
  | .ifThenElse _ cond _ _ =>
    (resolveExpr_scopes cond .value).bind_quiet fun _ => (Enters.inScope _ _).quiet_bind fun _ =>
      .inScope _ _
  | .whileLoop _ cond _ => (resolveExpr_scopes cond .value).bind_quiet fun _ => .inScope _ _
  | .doLoop _ _ cond =>
    (Enters.inScope _ _).quiet_bind fun _ => (resolveExpr_scopes cond .value).bind_quiet fun _ =>
      .pure _
  | .forLoop _ _ _ _ _ => .inScope _ _
  | .forEach _ _ iterable _ =>
    (resolveExpr_scopes iterable .value).bind_quiet fun _ => .inScope _ _
  | .returning _ e => resolveOptional_scopes e
  | .breaking _ _ => .pure _
  | .continuing _ _ => .pure _
  | .yielding _ e => (resolveExpr_scopes e .value).bind_quiet fun _ => .pure _
  | .labeled _ _ _ => .inScope _ _
  | .throwing _ e => (resolveExpr_scopes e .value).bind_quiet fun _ => .pure _
  | .trying _ _ _ _ catches final => by
    rw [resolveStmt_trying]
    refine (Enters.inScope _ _).quiet_bind fun _ => ?_
    refine (resolveCatches_scopes catches).quiet_bind fun _ => ?_
    cases final with
    | none => exact .pure _
    | some block => exact resolveBlock_scopes block
  | .switching _ selector _ _ =>
    (resolveExpr_scopes selector .value).bind_quiet fun _ => .get fun _ => .inScope _ _
  | .synchronizing _ lock body =>
    (resolveExpr_scopes lock .value).bind_quiet fun _ => resolveBlock_scopes body
  | .asserting _ cond message =>
    (resolveExpr_scopes cond .value).bind fun _ => resolveOptional_scopes message
  | .empty _ => .pure _

theorem resolveCases_scopes : ∀ (cases : List SwitchCase) (enumType : Option BindingId),
    Enters (caseScopeNames cases) (resolveCases enumType cases)
  | [], _ => .pure _
  | .mk _ labels arrow body :: cases, enumType => by
    have hplain : Enters (labelScopeNames labels ++ stmtScopeNames body) (do
        resolveLabels enumType labels
        resolveStmts body) :=
      (resolveLabels_scopes labels enumType).bind fun _ => resolveStmts_scopes body
    simp! only [caseScopeNames]
    split
    · exact (Enters.inScope _ _).bind fun _ => resolveCases_scopes cases enumType
    · exact hplain.bind fun _ => resolveCases_scopes cases enumType

theorem resolveLabels_scopes : ∀ (labels : List CaseLabel) (enumType : Option BindingId),
    Enters (labelScopeNames labels) (resolveLabels enumType labels)
  | [], _ => .pure _
  | .default _ :: labels, enumType => resolveLabels_scopes labels enumType
  | .values _ values :: labels, enumType =>
    (resolveCaseValues_scopes values enumType).bind fun _ => resolveLabels_scopes labels enumType
  | .pattern _ pattern guard :: labels, enumType => by
    simp only [labelScopeNames, List.append_assoc]
    exact (declarePattern_scopes pattern).bind fun _ => (resolveOptional_scopes guard).bind fun _ =>
      resolveLabels_scopes labels enumType

theorem resolveCaseValues_scopes : ∀ (values : List Expr) (enumType : Option BindingId),
    Enters (exprScopeNames values) (resolveCaseValues enumType values)
  | [], _ => .pure _
  | value :: values, enumType => by
    unfold resolveCaseValues
    split
    · rename_i heq
      cases heq
    · rename_i name _ heq
      cases heq
      have huse : Mention.IsUse (.simple .value name) := trivial
      exact (resolveCaseName_holds scopeless enumType huse).bind fun _ =>
        resolveCaseValues_scopes values enumType
    · rename_i heq
      cases heq
      exact (resolveExpr_scopes value .value).bind fun _ => resolveCaseValues_scopes values enumType

theorem resolveExprs_scopes : ∀ es : List Expr, Enters (exprScopeNames es) (resolveExprs es)
  | [] => .pure _
  | e :: es => (resolveExpr_scopes e .value).bind fun _ => resolveExprs_scopes es

theorem resolveOptional_scopes : ∀ e : Option Expr,
    Enters (optionalScopeNames e) (resolveOptional e)
  | none => .pure _
  | some e => (resolveExpr_scopes e .value).bind_quiet fun _ => .pure _

theorem resolveDims_scopes : ∀ dims : List DimExpr, Enters (dimScopeNames dims) (resolveDims dims)
  | [] => .pure _
  | .mk _ size :: dims => (resolveOptional_scopes size).bind fun _ => resolveDims_scopes dims

theorem resolveExpr_scopes : ∀ (e : Expr) (use : NameUse), Enters e.scopeNames (resolveExpr use e)
  | .literal _ _, _ => valueQualifier_scopes _ _
  | .name _, use => resolveName_holds scopeless use trivial
  | .fieldAccess _ target name, use => by
    refine .get fun b => ?_
    split
    · rename_i field hfield
      have hthis := assigned_of_assignedField? hfield
      rw [Bool.and_eq_true] at hthis
      simp! only [scopeNames_of_isThis hthis.2]
      exact .quiet_bind (.of_eq fun _ => rfl) fun _ => .pure _
    · exact (resolveExpr_scopes target .qualifier).bind_quiet fun q =>
        select_holds scopeless q (memberName_isUse name)
  | .methodCall _ none _ typeArgs name _ args, use => by
    refine (resolveTypes_scopes typeArgs).quiet_bind fun _ => ?_
    refine (resolveExprs_scopes args).bind fun _ => ?_
    exact (resolveSimpleCall_scopes name args).quiet_bind fun _ => valueQualifier_scopes use _
  | .methodCall _ (some target) _ typeArgs name _ args, use => by
    refine (resolveTypes_scopes typeArgs).quiet_bind fun _ => ?_
    refine (resolveExprs_scopes args).bind fun _ => ?_
    refine (resolveExpr_scopes target .qualifier).bind_quiet fun q => ?_
    exact (resolveMemberCall_scopes q name args).quiet_bind fun _ => valueQualifier_scopes use _
  | .newObject _ none type _ args body, use => by
    refine (resolveType_scopes false type).quiet_bind fun _ => ?_
    refine (resolveExprs_scopes args).bind_quiet fun _ => ?_
    exact (resolveAnonymous_scopes _ body).quiet_bind fun _ => valueQualifier_scopes use _
  | .newObject _ (some outer) type _ args body, use => by
    refine (resolveExpr_scopes outer .value).bind fun _ => .get fun b => ?_
    refine (resolveInnerType_scopes _ type).quiet_bind fun _ => ?_
    refine (resolveExprs_scopes args).bind_quiet fun _ => ?_
    exact (resolveAnonymous_scopes _ body).quiet_bind fun _ => valueQualifier_scopes use _
  | .newArray _ element dims _ init, use => by
    refine (resolveType_scopes false element).quiet_bind fun _ => ?_
    refine (resolveDims_scopes dims).bind fun _ => ?_
    exact (resolveExprs_scopes init).bind_quiet fun _ => valueQualifier_scopes use _
  | .arrayInit _ items, use =>
    (resolveExprs_scopes items).bind_quiet fun _ => valueQualifier_scopes use _
  | .arrayAccess _ array index, use =>
    (resolveExpr_scopes array .value).bind fun _ =>
      (resolveExpr_scopes index .value).bind_quiet fun _ => valueQualifier_scopes use _
  | .unary _ _ operand, use =>
    (resolveExpr_scopes operand .value).bind_quiet fun _ => valueQualifier_scopes use _
  | .binary _ _ lhs rhs, use =>
    (resolveExpr_scopes lhs .value).bind fun _ =>
      (resolveExpr_scopes rhs .value).bind_quiet fun _ => valueQualifier_scopes use _
  | .assign _ _ target value, use =>
    (resolveExpr_scopes value .value).bind fun _ =>
      (resolveExpr_scopes target _).bind_quiet fun _ => valueQualifier_scopes use _
  | .conditional _ cond yes no, use => by
    simp! only [List.append_assoc]
    exact (resolveExpr_scopes cond .value).bind fun _ =>
      (resolveExpr_scopes yes .value).bind fun _ =>
        (resolveExpr_scopes no .value).bind_quiet fun _ => valueQualifier_scopes use _
  | .instanceOf _ operand type, use =>
    (resolveExpr_scopes operand .value).bind_quiet fun _ =>
      (resolveType_scopes false type).quiet_bind fun _ => valueQualifier_scopes use _
  | .instanceOfPattern _ operand pattern, use =>
    (resolveExpr_scopes operand .value).bind fun _ =>
      (declarePattern_scopes pattern).bind_quiet fun _ => valueQualifier_scopes use _
  | .cast _ type operand, use =>
    (resolveType_scopes false type).quiet_bind fun _ =>
      (resolveExpr_scopes operand .value).bind_quiet fun _ => valueQualifier_scopes use _
  | .paren _ inner, use =>
    (resolveExpr_scopes inner .value).bind_quiet fun _ => valueQualifier_scopes use _
  | .this _, _ => .get fun _ => .pure _
  | .super _, use => valueQualifier_scopes use _
  | .classLiteral _ type, use =>
    (resolveType_scopes false type).quiet_bind fun _ => valueQualifier_scopes use _
  | .lambdaExpr _ _ _ _ _, use =>
    (Enters.inScope _ _).quiet_bind fun _ => valueQualifier_scopes use _
  | .lambdaBlock _ _ _ _ _, use =>
    (Enters.inScope _ _).quiet_bind fun _ => valueQualifier_scopes use _
  | .methodRef _ target name, use =>
    (resolveExpr_scopes target .qualifier).bind_quiet fun q =>
      (resolveMethodRef_holds scopeless q fun n _ => memberName_isUse n).quiet_bind fun _ =>
        valueQualifier_scopes use _
  | .switching range selector _ cases, use =>
    (resolveExpr_scopes selector .value).bind_quiet fun _ =>
      (checkExhaustive_scopes range selector cases).quiet_bind fun _ => .get fun _ =>
        (Enters.inScope _ _).quiet_bind fun _ => valueQualifier_scopes use _
  | .annotated marker, use =>
    (resolveAnnotation_scopes marker).bind_quiet fun _ => valueQualifier_scopes use _
  | .type type, _ => by
    refine (resolveType_scopes false type).quiet_bind fun lookup => ?_
    split
    · exact .pure _
    · exact .pure _

end

/-! ## Declarations and files -/

theorem resolveAnnotations_scopes (uses : List AnnotationUse) :
    Enters (annotationScopeNames uses) (resolveAnnotations uses) := by
  induction uses with
  | nil => exact .pure _
  | cons use uses ih => exact (resolveAnnotation_scopes use).bind fun _ => ih

/-- A method is walked through in a scope of its own, but for its annotations. -/
theorem resolveMethod_scopes (decl : MethodDecl) (b : Binder) :
    ScopesGrown (if (b.boundAt? decl.name.range.start).isSome then decl.scopeNames else [])
      b.scopes (resolveMethod decl b).2.scopes := by
  obtain ⟨_, modifiers, _, typeParams, _, name, paramsRange, params, _, _, defaultValue, body⟩ :=
    decl
  rw [resolveMethod_mk, get_bind_apply]
  show ScopesGrown (if (b.boundAt? name.range.start).isSome then _ else _) _ _
  cases b.boundAt? name.range.start with
  | none => exact .refl _
  | some id =>
    exact ((resolveModifiers_scopes modifiers).bind_quiet fun _ => .inScope _ _) b

theorem declareTypes_scopes (decls : List TypeDecl) : Enters [] (declareTypes decls) := by
  induction decls with
  | nil => exact .pure _
  | cons decl decls ih => exact (declareType_scopes decl none).quiet_bind fun _ => ih

theorem declareAllMembers_scopes (decls : List TypeDecl) : Enters [] (declareAllMembers decls) := by
  induction decls with
  | nil => exact .pure _
  | cons decl decls ih => exact (declareMembers_scopes decl).quiet_bind fun _ => ih

theorem resolveTypeBodies_scopes (decls : List TypeDecl) : Enters [] (resolveTypeBodies decls) := by
  induction decls with
  | nil => exact .pure _
  | cons decl decls ih => exact (resolveTypeBody_scopes decl).quiet_bind fun _ => ih

theorem passes_scopes (types : List TypeDecl) : Enters [] (passes types) :=
  (declareTypes_scopes types).quiet_bind fun _ => (declareAllMembers_scopes types).quiet_bind
    fun _ => resolveTypeBodies_scopes types

theorem scopes_foldl_withImport (imports : List ImportDecl) (b : Binder) :
    (imports.foldl withImport b).scopes = b.scopes := by
  induction imports generalizing b with
  | nil => rfl
  | cons i is ih => exact ih (b.withImport i)

/-- No scope is left at the end of a file. -/
theorem resolveUnit_scopes (unit : CompilationUnit) (package : Option String) :
    (resolveUnit unit (start package)).2.scopes = [] := by
  have hpackage : (afterPackage unit (start package)).scopes = [] := by
    unfold afterPackage
    cases unit.package with
    | none => rfl
    | some p => exact resolveAnnotations_scopes p.annotations (start package)
  rw [resolveUnit_eq, (passes_scopes unit.types).eq_of_nil, scopes_foldl_withImport, hpackage]

/--
Whatever is walked through, from any place: of the scopes around it only the innermost changes, by
the names that are declared directly there. Types, blocks, catch clauses and the bodies of classes
add nothing, and at the end of a file no scope is left.
-/
theorem resolve_scopes (unit : CompilationUnit) (package : Option String) :
    (∀ qualifying t, Enters [] (resolveType qualifying t)) ∧
    (∀ use, Enters use.scopeNames ( resolveAnnotation use)) ∧
    (∀ use e, Enters e.scopeNames (resolveExpr use e)) ∧
    (∀ s, Enters s.scopeNames (resolveStmt s)) ∧
    (∀ block, Enters [] (resolveBlock block)) ∧
    (∀ catches, Enters [] (resolveCatches catches)) ∧
    (∀ enumType cases, Enters (caseScopeNames cases) (resolveCases enumType cases)) ∧
    (∀ decl, Enters [] (declareMembers decl)) ∧
    (∀ decl, Enters [] (resolveTypeBody decl)) ∧
    (∀ parent body, Enters [] (resolveAnonymous parent body)) ∧
    (∀ decl b, ScopesGrown
      (if (b.boundAt? decl.name.range.start).isSome then decl.scopeNames else [])
      b.scopes (resolveMethod decl b).2.scopes) ∧
    (resolveUnit unit (start package)).2.scopes = [] :=
  ⟨resolveType_scopes, resolveAnnotation_scopes, fun use e => resolveExpr_scopes e use,
    resolveStmt_scopes, resolveBlock_scopes, resolveCatches_scopes,
    fun enumType cases => resolveCases_scopes cases enumType, declareMembers_scopes,
    resolveTypeBody_scopes, resolveAnonymous_scopes, resolveMethod_scopes,
    resolveUnit_scopes unit package⟩

end JavaAnalysis.Binder

namespace JavaAnalysis.ParsedUnit

/-- A variable in an initializer, and a method that names it. -/
def leakingInitializer : SourceInput :=
  ⟨"A.java", "class A\x7b\x7bint y=1;\x7dint f()\x7breturn y;\x7d\x7d", .standard⟩

/-- The variable becomes a member of the class, so that the method finds it. -/
theorem leakingInitializer_bound :
    ∃ id, [13, 33].map (ofInput leakingInitializer).resolution.boundAt? = [some id, some id] := by
  refine ⟨⟨323⟩, ?_⟩
  -- The name is looked up among the rows of the table, which are read as a list.
  delta ofInput ofText Resolution.ofUnit Binder.resolveUnit Binder.resolveTypeBodies
    Binder.resolveTypeBodies._f Binder.resolveTypeBody Binder.resolveExpr._f Binder.resolveName
    Binder.resolveSimpleName Binder.lookupVariable Binder.variableIn? Bindings.findMember?
    Bindings.supertypes
  rw [Bindings.links_eq_foldl, Bindings.members_eq_foldr]
  decide +kernel

end JavaAnalysis.ParsedUnit
