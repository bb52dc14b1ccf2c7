import JavaAnalysis.Proofs.Resolve.Names

/-!
# Names in expressions

A discipline holds for what is done with a name in an expression, once the parts before it are
bound. What is read on the way depends on known names only.
-/

set_option autoImplicit false

namespace JavaAnalysis.Binder

open Ast

variable {known : Mention → Prop} {b b' : Binder} {name : Ident}

/-! ## What is read of names that are bound -/

namespace Matches

variable (h : Matches known b b')

include h

theorem valueType?_eq (id : BindingId) : b'.valueType? id = b.valueType? id := by
  rw [h.eq]
  rfl

theorem boundType?_eq {m : Mention} (hm : known m) (hname : m.offset = name.range.start) :
    b'.boundType? name = b.boundType? name := by
  unfold boundType?
  rw [← hname, h.boundAt?_eq m hm]
  simp only [h.valueType?_eq]

theorem boundClass?_eq {t : TypeRef} {qualifying : Bool}
    (ht : Known known (t.mentions qualifying)) :
    b'.boundClass? t = b.boundClass? t := by
  unfold boundClass?
  split
  · rename_i q name _ _
    cases q with
    | none =>
      simp only [TypeRef.mentions, known_cons] at ht
      exact h.boundAt?_eq _ ht.1
    | some q =>
      simp only [TypeRef.mentions, known_append, known_cons] at ht
      exact h.boundAt?_eq _ ht.2.1
  · rfl

theorem boundClass?_inner_eq {t : TypeRef} (ht : Known known t.innerMentions) :
    b'.boundClass? t = b.boundClass? t := by
  unfold boundClass?
  split
  · simp only [TypeRef.innerMentions, known_cons] at ht
    exact h.boundAt?_eq _ ht.1
  · rfl

/-- The class of a new object, which may have a body. -/
theorem newObjectType?_eq {t : TypeRef} {body : Option ClassBody}
    (ht : b'.boundClass? t = b.boundClass? t) (hbody : Known known (anonymousMentions body))
    (range argsRange : TextRange) (outer : Option Expr) (args : List Expr) :
    b'.exprType? (.newObject range outer t argsRange args body) =
      b.exprType? (.newObject range outer t argsRange args body) := by
  cases body with
  | none => simp! only [ht]
  | some body =>
    obtain ⟨brace, constants, members⟩ := body
    simp! only [known_append, known_cons] at hbody
    simp! only [ht, h.declared_eq hbody.2.1]

/-- The type that a call returns. -/
theorem callType?_eq (hname : known (.member false name)) (range : TextRange)
    (target : Option Expr) (typeArgsRange : Option TextRange) (typeArgs : List TypeRef)
    (argsRange : TextRange) (args : List Expr) :
    b'.exprType? (.methodCall range target typeArgsRange typeArgs name argsRange args) =
      b.exprType? (.methodCall range target typeArgsRange typeArgs name argsRange args) := by
  have hbound : b'.boundAt? name.range.start = b.boundAt? name.range.start :=
    h.boundAt?_eq _ hname
  simp! only [hbound]
  rw [h.eq]

theorem exprType?_eq : ∀ (e : Expr) {use : NameUse}, Known known (e.mentions use) →
    b'.exprType? e = b.exprType? e
  | .name name, _, he => by
    simp! only [known_cons] at he
    simp! only
    exact h.boundType?_eq he.1 rfl
  | .fieldAccess _ _ name, _, he => by
    simp! only [known_append, known_cons] at he
    simp! only
    exact h.boundType?_eq he.2.1 rfl
  | .methodCall range none typeArgsRange typeArgs name argsRange args, _, he => by
    simp! only [known_append, known_cons] at he
    exact h.callType?_eq he.2.1 _ _ _ _ _ _
  | .methodCall range (some target) typeArgsRange typeArgs name argsRange args, _, he => by
    simp! only [known_append, known_cons] at he
    exact h.callType?_eq he.2.1 _ _ _ _ _ _
  | .newObject range none t argsRange args body, _, he => by
    simp! only [known_append] at he
    exact h.newObjectType?_eq (h.boundClass?_eq he.1.1) he.2 _ _ _ _
  | .newObject range (some outer) t argsRange args body, _, he => by
    simp! only [known_append] at he
    exact h.newObjectType?_eq (h.boundClass?_inner_eq he.1.1.2) he.2 _ _ _ _
  | .paren _ e, _, he => by
    simp! only at he
    simp! only
    exact exprType?_eq e he
  | .cast _ t _, _, he => by
    simp! only [known_append] at he
    simp! only
    exact h.boundClass?_eq he.1
  | .conditional _ _ yes _, _, he => by
    simp! only [known_append] at he
    simp! only
    exact exprType?_eq yes he.1.2
  | .assign _ _ target _, _, he => by
    simp! only [known_append] at he
    simp! only
    exact exprType?_eq target he.1
  | .literal _ kind, _, _ => by
    rw [h.eq]
    cases kind <;> rfl
  | .this _, _, _ => by
    rw [h.eq]
    rfl
  | .super _, _, _ => by
    rw [h.eq]
    rfl
  | .newArray _ _ _ _ _, _, _ => rfl
  | .arrayInit _ _, _, _ => rfl
  | .arrayAccess _ _ _, _, _ => rfl
  | .unary _ _ _, _, _ => rfl
  | .binary _ _ _ _, _, _ => rfl
  | .instanceOf _ _ _, _, _ => rfl
  | .instanceOfPattern _ _ _, _, _ => rfl
  | .classLiteral _ _, _, _ => rfl
  | .lambdaExpr _ _ _ _ _, _, _ => rfl
  | .lambdaBlock _ _ _ _ _, _, _ => rfl
  | .methodRef _ _ _, _, _ => rfl
  | .switching _ _ _ _, _, _ => rfl
  | .annotated _, _, _ => rfl
  | .type _, _, _ => rfl

theorem enumOf?_eq {e : Expr} (he : Known known (e.mentions .value)) :
    b'.enumOf? e = b.enumOf? e := by
  unfold enumOf?
  rw [h.exprType?_eq e he, h.eq]

theorem isUntyped_eq {e : Expr} (he : Known known (e.mentions .value)) :
    b'.isUntyped e = b.isUntyped e := by
  unfold isUntyped
  split
  · rename_i name
    simp! only [known_cons] at he
    have hname : b'.boundAt? name.range.start = b.boundAt? name.range.start :=
      h.boundAt?_eq _ he.1
    rw [hname, h.eq]
  · rfl

theorem describeArg_eq {e : Expr} (he : Known known (e.mentions .value)) :
    b'.describeArg e = b.describeArg e := by
  unfold describeArg
  rw [h.exprType?_eq e he]
  cases e with
  | name name =>
    simp! only [known_cons] at he
    have hname : b'.boundAt? name.range.start = b.boundAt? name.range.start :=
      h.boundAt?_eq _ he.1
    simp only [hname]
    rw [h.eq]
  | _ =>
    rw [h.eq]

end Matches

/-- The arguments of a call are known one by one. -/
theorem known_exprMentions {es : List Expr} (h : Known known (exprMentions es)) :
    ∀ e ∈ es, Known known (e.mentions .value) := by
  induction es with
  | nil => simp
  | cons e es ih =>
    simp! only [known_append] at h
    exact List.forall_mem_cons.2 ⟨h.1, ih h.2⟩

variable (d : Discipline known)

theorem valueQualifier_holds (use : NameUse) {e : Expr} {as : NameUse}
    (h : Known known (e.mentions as)) : d.Holds (valueQualifier use e) := by
  unfold valueQualifier
  refine d.get (fun b b' hb => ?_) fun b => d.pure _
  rw [hb.exprType?_eq e h]

/-! ## Simple names -/

/-- That nothing is found for a simple name may be reported if it can be missing. -/
theorem missing_of_answers {m : Mention} {text : String} (hm : m.unqualified? = some text)
    {lookup : Lookup} (hlookup : d.Answers text lookup) (hmissing : lookup = .missing) :
    ∀ name, m.unqualified? = some name → d.Answers name .missing := by
  intro name hname
  rw [hm, Option.some.injEq] at hname
  rwa [← hname, ← hmissing]

theorem resolveSimpleName_holds {use : NameUse} (h : known (.simple use name)) :
    d.Holds (resolveSimpleName name) := by
  unfold resolveSimpleName
  refine d.bind (lookupVariable_holds d _) fun asVariable => ?_
  split
  · refine d.lookupType _ fun lookup hlookup => ?_
    refine d.bind (referIfFound_holds d h trivial lookup) fun _ => ?_
    split
    · rename_i hmissing
      exact d.report _ _ (by decide) (.inr rfl) h (missing_of_answers d rfl hlookup hmissing)
    · exact d.pure _
  · rename_i hfound
    simp only [pure_bind, if_neg hfound]
    exact d.bind (referIfFound_holds d h trivial _) fun _ => d.pure _

theorem resolveTargetName_holds (h : known (.simple .target name)) :
    d.Holds (resolveTargetName name) := by
  unfold resolveTargetName
  refine d.bind (lookupVariable_holds d _) fun lookup => ?_
  cases lookup with
  | found id => exact d.pass id h rfl
  | unknown => exact d.pure _
  | missing => exact resolveSimpleName_holds d h

theorem resolveQualifierName_holds {use : NameUse} (h : known (.simple use name)) :
    d.Holds (resolveQualifierName name) := by
  unfold resolveQualifierName
  refine d.bind (lookupVariable_holds d _) fun asVariable => ?_
  cases asVariable with
  | found id =>
    refine d.bind (d.refer id h trivial) fun _ => ?_
    exact d.get (.of_blind fun _ _ _ => rfl) fun b => d.pure _
  | unknown => exact d.pure _
  | missing =>
    refine d.lookupType _ fun asType hlookup => ?_
    cases asType with
    | found id => exact d.bind (d.refer id h trivial) fun _ => d.pure _
    | unknown => exact d.pure _
    | missing =>
      show d.Holds (if startsLowercase name.text then _ else _)
      split
      · exact d.pure _
      · have hmissing := missing_of_answers d (m := .simple use name) rfl hlookup rfl
        exact d.bind (d.report _ _ (by decide) (.inr rfl) h hmissing) fun _ => d.pure _

theorem resolveName_holds (use : NameUse) (h : known (.simple use name)) :
    d.Holds (resolveName use name) := by
  unfold resolveName
  cases use with
  | value => exact d.bind (resolveSimpleName_holds d h) fun _ => d.pure _
  | target => exact d.bind (resolveTargetName_holds d h) fun _ => d.pure _
  | qualifier => exact resolveQualifierName_holds d h

/-! ## Selected names -/

theorem selectFromPackage_holds (package : String) {assigned : Bool}
    (h : known (.member assigned name)) :
    d.Holds (selectFromPackage package name) := by
  unfold selectFromPackage
  refine d.get (.of_blind fun _ _ _ => rfl) fun b => ?_
  split
  · exact d.bind (d.refer _ h trivial) fun _ => d.pure _
  · exact d.pure _

theorem selectMember_holds (type : BindingId) {assigned : Bool}
    (h : known (.member assigned name)) :
    d.Holds (selectMember type name) := by
  unfold selectMember
  refine d.get (.of_blind fun _ _ _ => rfl) fun b => ?_
  split
  · exact d.bind (d.refer _ h trivial) fun _ => d.pure _
  split
  · exact d.bind (d.refer _ h trivial) fun _ => d.pure _
  split
  · exact d.bind (d.remark _ _ _ (.inl rfl) fun h => absurd h (by decide)) fun _ => d.pure _
  · exact d.pure _

theorem select_holds (qualifier : Qualifier) {assigned : Bool}
    (h : known (.member assigned name)) :
    d.Holds (select qualifier name) := by
  unfold select
  split
  · exact selectFromPackage_holds d _ h
  · exact d.pure _
  split
  · rename_i hthis
    exact d.bind (d.pass _ h (.inr (eq_of_beq hthis))) fun _ => d.pure _
  split
  · exact d.get (.of_blind fun _ _ _ => rfl) fun b => d.pure _
  · exact selectMember_holds d _ h

/-! ## Calls -/

theorem reportMissingMethod_holds (name : Ident) {args : List Expr} (owner : String)
    (h : Known known (exprMentions args)) : d.Holds (reportMissingMethod name args owner) := by
  unfold reportMissingMethod
  refine d.get (fun b b' hb => ?_) fun b => d.remark _ _ _ (.inr (.inl rfl)) nofun
  have hargs : args.map b'.describeArg = args.map b.describeArg :=
    List.map_congr_left fun e he => hb.describeArg_eq (known_exprMentions h e he)
  rw [hargs]

theorem resolveConstructorCall_holds (arity : Nat) (h : known (.member false name)) :
    d.Holds (resolveConstructorCall name arity) := by
  unfold resolveConstructorCall
  refine d.get (.of_blind fun _ _ _ => rfl) fun b => ?_
  dsimp only
  split
  · exact d.refer _ h trivial
  · exact d.pure _

theorem resolveSimpleCall_holds {args : List Expr} (h : known (.member false name))
    (hargs : Known known (exprMentions args)) : d.Holds (resolveSimpleCall name args) := by
  unfold resolveSimpleCall
  split
  · exact resolveConstructorCall_holds d _ h
  · refine d.bind (lookupMethod_holds d _ _) fun lookup => ?_
    refine d.bind (referIfFound_holds d h trivial lookup) fun _ => ?_
    split
    · exact d.get (.of_blind fun _ _ _ => rfl) fun b => reportMissingMethod_holds d _ _ hargs
    · exact d.pure _

theorem resolveMemberCall_holds (qualifier : Qualifier) {args : List Expr}
    (h : known (.member false name)) (hargs : Known known (exprMentions args)) :
    d.Holds (resolveMemberCall qualifier name args) := by
  unfold resolveMemberCall
  split
  · exact d.pure _
  refine d.get (.of_blind fun _ _ _ => rfl) fun b => ?_
  split
  · exact d.refer _ h trivial
  split
  · exact reportMissingMethod_holds d _ _ hargs
  · exact d.pure _

theorem resolveMethodRef_holds (qualifier : Qualifier) {name : Option Ident}
    (h : ∀ n ∈ name, known (.member false n)) : d.Holds (resolveMethodRef qualifier name) := by
  unfold resolveMethodRef
  split
  · refine d.get (.of_blind fun _ _ _ => rfl) fun b => ?_
    split
    · exact d.refer _ (h _ rfl) trivial
    · exact d.pure _
  · exact d.pure _

/-! ## Cases and annotations -/

theorem resolveCaseName_holds (enumType : Option BindingId) {use : NameUse}
    (h : known (.simple use name)) : d.Holds (resolveCaseName enumType name) := by
  unfold resolveCaseName
  split
  · refine d.get (.of_blind fun _ _ _ => rfl) fun b => ?_
    split
    · exact d.refer _ h trivial
    · exact d.pure _
  · exact d.bind (lookupVariable_holds d _) fun _ => referIfFound_holds d h trivial _

theorem checkExhaustive_holds (range : TextRange) {selector : Expr} (cases : List SwitchCase)
    (h : Known known (selector.mentions .value)) (hd : d.Demands range) :
    d.Holds (checkExhaustive range selector cases) := by
  unfold checkExhaustive
  refine d.get (fun b b' hb => ?_) fun b => ?_
  · rw [hb.isUntyped_eq h]
  split
  · exact d.remark _ _ _ (.inr (.inr rfl)) fun _ => hd
  · exact d.pure _

theorem resolveMarkerName_holds (name : QualifiedName) (h : known (.marker name)) :
    d.Holds (resolveMarkerName name) := by
  have hreport : ∀ lookup : Lookup,
      (lookup = .missing → ∀ text, (Mention.marker name).unqualified? = some text →
        d.Answers text .missing) → d.Holds (do
      referIfFound name.range.start lookup
      if lookup = .missing then reportMissingType name.toDotted name.range) := by
    intro lookup hmissing
    refine d.bind (referIfFound_holds d h trivial lookup) fun _ => ?_
    split
    · rename_i hlookup
      exact d.report _ _ (by decide) (.inl rfl) h (hmissing hlookup)
    · exact d.pure _
  unfold resolveMarkerName
  split
  · rename_i segment hsegments
    have hsimple : (Mention.marker name).unqualified? = some segment.text := by
      simp only [Mention.unqualified?, hsegments]
    exact d.lookupType _ fun lookup hlookup => hreport lookup (missing_of_answers d hsimple hlookup)
  · rename_i hsegments
    have hdotted : (Mention.marker name).unqualified? = none := by
      simp only [Mention.unqualified?]
    exact d.bind (lookupBuiltIn_holds d _) fun lookup => hreport lookup fun _ text htext => by
      rw [hdotted] at htext
      cases htext

end JavaAnalysis.Binder
