import JavaAnalysis.Proofs.Resolve.Mentions
import JavaAnalysis.Proofs.Sites.Ast

/-!
# The sites of the names that are mentioned

Each name that a part of a file mentions stands at a site of its own, in the order of the sites, and
is declared or used there as it is mentioned. Declarations without variables are set aside, since
no site stands for their modifiers and their type.
-/

set_option autoImplicit false
set_option linter.dupNamespace false

namespace JavaAnalysis.Ast

open Binder (NameUse)

/-- What the site of a mentioned name is there for. -/
def Mention.role : Mention → SiteRole
  | .declared o => .declares o
  | m => .uses m.offset

/-- The mentioned names stand at sites, each at one of its own. -/
def StandAt (ms : List Mention) (sites : List Site) : Prop :=
  (∀ site ∈ sites, site.role ≠ .vacant) → (ms.map Mention.role).Sublist (sites.map Site.role)

namespace StandAt

variable {ms ns : List Mention} {as bs : List Site} {m : Mention} {site : Site}

theorem nil (sites : List Site) : StandAt [] sites := fun _ => List.nil_sublist _

theorem append (h : StandAt ms as) (h' : StandAt ns bs) : StandAt (ms ++ ns) (as ++ bs) := by
  intro hvacant
  rw [List.forall_mem_append] at hvacant
  rw [List.map_append, List.map_append]
  exact (h hvacant.1).append (h' hvacant.2)

theorem cons (hrole : m.role = site.role) (h : StandAt ms as) :
    StandAt (m :: ms) (site :: as) := by
  intro hvacant
  rw [List.forall_mem_cons] at hvacant
  rw [List.map_cons, List.map_cons, hrole]
  exact (h hvacant.2).cons_cons _

theorem single (hrole : m.role = site.role) : StandAt [m] [site] := (nil []).cons hrole

/-- Sites of other things may follow. -/
theorem skip (h : StandAt ms as) (bs : List Site) : StandAt ms (as ++ bs) := by
  have happend := h.append (nil bs)
  rwa [List.append_nil] at happend

theorem hide (h : StandAt ms as) : StandAt ms (as.map Site.hide) := by
  intro hvacant
  rw [List.forall_mem_map] at hvacant
  rw [List.map_map]
  exact h hvacant

theorem exists_site (h : StandAt ms as) (hvacant : ∀ site ∈ as, site.role ≠ .vacant)
    (hm : m ∈ ms) : ∃ site ∈ as, site.role = m.role :=
  List.mem_map.1 ((h hvacant).subset (List.mem_map_of_mem hm))

end StandAt

theorem Mention.eq_of_role {m : Mention} {o : Nat} (h : m.role = .declares o) :
    m = .declared o := by
  cases m with
  | declared _ => rw [SiteRole.declares.inj h]
  | _ => cases h

/-- The name at a site is known by where it starts. -/
theorem Mention.key?_of_role {m : Mention} {site : Site} (h : site.role = m.role) :
    site.key? = some m.offset := by
  rw [Site.key?, h]
  cases m <;> rfl

/-- Mentioned names start where the names at sites do, in their order. -/
theorem StandAt.sublist_keys {ms : List Mention} {sites : List Site} (h : StandAt ms sites)
    (hvacant : ∀ site ∈ sites, site.role ≠ .vacant) :
    (ms.map Mention.offset).Sublist (sites.filterMap Site.key?) := by
  obtain ⟨named, hnamed, hroles⟩ := List.sublist_map_iff.1 (h hvacant)
  have hkeys : ∀ {ms : List Mention} {named : List Site},
      ms.map Mention.role = named.map Site.role → named.filterMap Site.key? = ms.map Mention.offset := by
    intro ms named hroles
    induction ms generalizing named with
    | nil =>
      rw [List.map_eq_nil_iff.1 hroles.symm]
      rfl
    | cons m ms ih =>
      obtain ⟨site, rest, rfl, hrole, hrest⟩ := List.map_eq_cons_iff.1 hroles.symm
      rw [List.filterMap_cons_some (Mention.key?_of_role hrole), ih hrest.symm, List.map_cons]
  rw [← hkeys hroles]
  exact hnamed.filterMap _

mutual

theorem TypeRef.stand : ∀ (t : TypeRef) (qualifying : Bool),
    StandAt (t.mentions qualifying) t.sites
  | .primitive _ _, _ => .nil _
  | .inferred _, _ => .nil _
  | .named _ none _ _ args, _ => ((typeStand args).cons rfl).skip _
  | .named _ (some q) _ _ args, _ => ((q.stand true).append ((typeStand args).cons rfl)).skip _
  | .array _ element _, _ => element.stand false
  | .wildcard _, _ => .nil _
  | .bounded _ _ bound, _ => bound.stand false
  | .union _ alternatives, _ => typeStand alternatives
  | .intersection _ bounds, _ => typeStand bounds

theorem typeStand : ∀ ts : List TypeRef, StandAt (typeMentions ts) (typeSites ts)
  | [] => .nil _
  | t :: ts => (t.stand false).append (typeStand ts)

end

/-- The type of an inner object has no site for what stands before its name. -/
theorem TypeRef.innerStand (t : TypeRef) : StandAt t.innerMentions t.sites := by
  cases t with
  | named _ q _ _ args =>
    cases q with
    | none =>
      simp only [TypeRef.innerMentions, TypeRef.sites]
      exact ((typeStand args).cons rfl).skip _
    | some q =>
      simp only [TypeRef.innerMentions, TypeRef.sites, List.append_assoc]
      exact (StandAt.nil q.sites).append (((typeStand args).cons rfl).skip _)
  | _ => exact .nil _

mutual

theorem AnnotationUse.stand : ∀ use : AnnotationUse, StandAt use.mentions use.sites
  | .mk _ _ _ args => (elementStand args).cons rfl

theorem elementStand : ∀ args : List ElementValue,
    StandAt (elementMentions args) (elementSites args)
  | [] => .nil _
  | .mk _ _ value :: args => (value.stand .value).append (elementStand args)

theorem annotationStand : ∀ uses : List AnnotationUse,
    StandAt (annotationMentions uses) (annotationSites uses)
  | [] => .nil _
  | use :: uses => use.stand.append (annotationStand uses)

theorem modifierStand : ∀ ms : List Modifier, StandAt (modifierMentions ms) (modifierSites ms)
  | [] => .nil _
  | .word _ _ :: ms => modifierStand ms
  | .annotated use :: ms => use.stand.append (modifierStand ms)

theorem TypeDecl.stand : ∀ decl : TypeDecl, StandAt decl.mentions decl.sites
  | .mk _ _ ms _ paramsRange typeParams _ components supers interfaces permitted
      (.mk _ constants members) => by
    simp! only
    have hparams := ((modifierStand ms).append (typeParamStand typeParams)).skip
      (angled .typeParameters paramsRange)
    have hparents := ((hparams.append (paramStand components)).append (typeStand supers)).append
      (typeStand interfaces)
    have hheader := hparents.append (typeStand permitted)
    exact ((hheader.append (constantStand constants)).append (memberStand members)).append
      (.single rfl)

theorem anonymousStand : ∀ body : Option ClassBody,
    StandAt (anonymousMentions body) (anonymousSites body)
  | none => .nil _
  | some (.mk _ constants members) =>
    ((constantStand constants).append (memberStand members)).append (.single rfl)

theorem constantStand : ∀ constants : List EnumConstant,
    StandAt (constantMentions constants) (constantSites constants)
  | [] => .nil _
  | .mk _ ms _ _ args body :: constants =>
    (((modifierStand ms).append (exprStand args)).append (anonymousStand body)).append
      ((constantStand constants).cons rfl)

theorem memberStand : ∀ members : List Member,
    StandAt (memberMentions members) (memberSites members)
  | [] => .nil _
  | .field decl :: members => decl.stand.append (memberStand members)
  | .method decl :: members => decl.stand.append (memberStand members)
  | .initializer _ _ body :: members => body.stand.append (memberStand members)
  | .type decl :: members => decl.stand.append (memberStand members)

theorem MethodDecl.stand : ∀ decl : MethodDecl, StandAt decl.mentions decl.sites
  | .mk _ ms paramsRange typeParams returnType _ _ params _ thrown defaultValue body => by
    simp! only
    have hparams := ((modifierStand ms).append (typeParamStand typeParams)).skip
      (angled .typeParameters paramsRange)
    have hsignature := ((hparams.append (typeStand returnType.toList)).append
      (paramStand params)).append (typeStand thrown)
    exact ((hsignature.append (optionalStand defaultValue)).append (optionalBlockStand body)).append
      (.single rfl)

theorem typeParamStand : ∀ params : List TypeParam,
    StandAt (typeParamMentions params) (typeParamSites params)
  | [] => .nil _
  | .mk _ marks _ bounds :: params =>
    ((annotationStand marks).append (typeStand bounds)).append ((typeParamStand params).cons rfl)

theorem paramStand : ∀ params : List Param, StandAt (paramMentions params) (paramSites params)
  | [] => .nil _
  | p :: ps => p.stand.append (paramStand ps)

theorem Param.stand : ∀ p : Param, StandAt p.mentions p.sites
  | .mk _ ms type _ _ _ => ((modifierStand ms).append (typeStand type.toList)).append (.single rfl)

theorem VarDecl.stand : ∀ decl : VarDecl, StandAt decl.mentions decl.sites
  | .mk range _ _ [] => fun hvacant => by
    simp! only at hvacant
    exact absurd rfl (hvacant (.vacancy range.start) (by simp))
  | .mk _ ms type (fragment :: fragments) =>
    ((modifierStand ms).append (type.stand false)).append (fragmentStand (fragment :: fragments) _ _)

theorem fragmentStand : ∀ (fragments : List VarFragment) (terminated : Bool) (start : Nat),
    StandAt (fragmentMentions fragments) (fragmentSites terminated start fragments)
  | [], _, _ => .nil _
  | .mk _ _ _ init :: fragments, _, _ =>
    (optionalStand init).append ((fragmentStand fragments _ _).cons rfl)

theorem Block.stand : ∀ block : Block, StandAt block.mentions block.sites
  | .mk _ stmts => stmtStand stmts

theorem optionalBlockStand : ∀ body : Option Block,
    StandAt (optionalBlockMentions body) (blockSites body)
  | none => .nil _
  | some block => block.stand

theorem stmtStand : ∀ stmts : List Stmt, StandAt (stmtMentions stmts) (stmtSites stmts)
  | [] => .nil _
  | s :: ss => s.stand.append (stmtStand ss)

theorem Stmt.stand : ∀ s : Stmt, StandAt s.mentions s.sites
  | .localVar decl => decl.stand
  | .block body => body.stand
  | .localType decl => decl.stand
  | .expression _ e => e.stand .value
  | .ifThen _ cond body => (cond.stand .value).append body.stand
  | .ifThenElse _ cond body alternative =>
    ((cond.stand .value).append body.stand).append alternative.stand
  | .whileLoop _ cond body => (cond.stand .value).append body.stand
  | .doLoop _ body cond => body.stand.append (cond.stand .value)
  | .forLoop _ init cond update body =>
    (((forInitStand init).append (optionalStand cond)).append (exprStand update)).append body.stand
  | .forEach _ var iterable body => (var.stand.append (iterable.stand .value)).append body.stand
  | .returning _ e => optionalStand e
  | .breaking _ _ => .nil _
  | .continuing _ _ => .nil _
  | .yielding _ e => e.stand .value
  | .labeled _ _ body => body.stand
  | .throwing _ e => e.stand .value
  | .trying _ _ resources body catches final =>
    (((resourceStand resources).append body.stand).append (catchStand catches)).append
      (optionalBlockStand final)
  | .switching _ selector _ cases => (selector.stand .value).append (caseStand cases)
  | .synchronizing _ lock body => (lock.stand .value).append body.stand
  | .asserting _ cond message => (cond.stand .value).append (optionalStand message)
  | .empty _ => .nil _

theorem forInitStand : ∀ init : ForInit, StandAt (forInitMentions init) (forInitSites init)
  | .absent => .nil _
  | .decl decl => decl.stand
  | .exprs es => exprStand es

theorem resourceStand : ∀ resources : List Resource,
    StandAt (resourceMentions resources) (resourceSites resources)
  | [] => .nil _
  | .decl decl :: resources => decl.stand.append (resourceStand resources)
  | .expr e :: resources => (e.stand .value).append (resourceStand resources)

theorem catchStand : ∀ catches : List CatchClause,
    StandAt (catchMentions catches) (catchSites catches)
  | [] => .nil _
  | .mk _ param body :: catches => (param.stand.append body.stand).append (catchStand catches)

theorem caseStand : ∀ cases : List SwitchCase, StandAt (caseMentions cases) (caseSites cases)
  | [] => .nil _
  | .mk _ labels _ body :: cases =>
    ((labelStand labels).append (stmtStand body)).append (caseStand cases)

theorem labelStand : ∀ labels : List CaseLabel, StandAt (labelMentions labels) (labelSites labels)
  | [] => .nil _
  | .default _ :: labels => labelStand labels
  | .values _ values :: labels => (exprStand values).append (labelStand labels)
  | .pattern _ pattern guard :: labels =>
    (pattern.stand.append (optionalStand guard)).append (labelStand labels)

theorem Pattern.stand : ∀ pattern : Pattern, StandAt pattern.mentions pattern.sites
  | .mk _ ms type _ => ((modifierStand ms).hide.append (type.stand false)).append (.single rfl)

theorem exprStand : ∀ es : List Expr, StandAt (exprMentions es) (exprSites es)
  | [] => .nil _
  | e :: es => (e.stand .value).append (exprStand es)

theorem optionalStand : ∀ e : Option Expr, StandAt (optionalMentions e) (optionalSites e)
  | none => .nil _
  | some e => e.stand .value

theorem dimStand : ∀ dims : List DimExpr, StandAt (dimMentions dims) (dimSites dims)
  | [] => .nil _
  | .mk _ size :: dims => (optionalStand size).append (dimStand dims)

theorem Expr.stand : ∀ (e : Expr) (use : NameUse), StandAt (e.mentions use) e.sites
  | .literal _ _, _ => .nil _
  | .name _, _ => .single rfl
  | .this _, _ => .nil _
  | .super _, _ => .nil _
  | .fieldAccess _ target _, _ => (target.stand .qualifier).append (.single rfl)
  | .methodCall _ none _ typeArgs _ _ args, _ =>
    ((typeStand typeArgs).skip _).append ((exprStand args).cons rfl)
  | .methodCall _ (some target) _ typeArgs _ _ args, _ =>
    (((target.stand .qualifier).append (typeStand typeArgs)).skip _).append
      ((exprStand args).cons rfl)
  | .newObject _ none type _ args body, _ =>
    ((type.stand false).append (exprStand args)).append (anonymousStand body)
  | .newObject _ (some outer) type _ args body, _ =>
    (((outer.stand .value).append type.innerStand).append (exprStand args)).append
      (anonymousStand body)
  | .newArray _ element dims _ init, _ =>
    ((element.stand false).append (dimStand dims)).append (exprStand init)
  | .arrayInit _ items, _ => exprStand items
  | .arrayAccess _ array index, _ => (array.stand .value).append (index.stand .value)
  | .unary _ _ operand, _ => operand.stand .value
  | .binary _ _ lhs rhs, _ => (lhs.stand .value).append (rhs.stand .value)
  | .assign _ _ target value, _ => (target.stand _).append (value.stand .value)
  | .conditional _ cond yes no, _ =>
    ((cond.stand .value).append (yes.stand .value)).append (no.stand .value)
  | .instanceOf _ operand type, _ => (operand.stand .value).append (type.stand false)
  | .instanceOfPattern _ operand pattern, _ => (operand.stand .value).append pattern.stand
  | .cast _ type operand, _ => (type.stand false).append (operand.stand .value)
  | .paren _ inner, _ => inner.stand .value
  | .classLiteral _ type, _ => type.stand false
  | .lambdaExpr _ _ params _ body, _ => (paramStand params).append (body.stand .value)
  | .lambdaBlock _ _ params _ body, _ => (paramStand params).append body.stand
  | .methodRef _ target none, _ => (target.stand .qualifier).append (.nil _)
  | .methodRef _ target (some _), _ => (target.stand .qualifier).append (.single rfl)
  | .switching _ selector _ cases, _ => (selector.stand .value).append (caseStand cases)
  | .annotated use, _ => use.stand
  | .type type, _ => type.stand false

end

theorem declStand (decls : List TypeDecl) : StandAt (declMentions decls) (declSites decls) := by
  induction decls with
  | nil => exact .nil _
  | cons decl decls ih => exact decl.stand.append ih

theorem importStand (decls : List ImportDecl) :
    StandAt (importMentions decls) (decls.flatMap ImportDecl.sites) := by
  induction decls with
  | nil => exact .nil _
  | cons decl decls ih =>
    rw [List.flatMap_cons]
    cases hstatic : decl.isStatic with
    | true =>
      simp only [importMentions, ImportDecl.sites, hstatic, if_true, List.nil_append]
      exact ih
    | false =>
      simp only [importMentions, ImportDecl.sites, hstatic, Bool.false_eq_true, if_false]
      exact ih.cons rfl

/-- All names of a file stand at its sites. -/
theorem CompilationUnit.stand (unit : CompilationUnit) : StandAt unit.mentions unit.sites := by
  have hpackage : StandAt unit.packageMentions ((unit.package.map PackageDecl.sites).getD []) := by
    unfold packageMentions
    cases unit.package with
    | none => exact .nil _
    | some package => exact annotationStand package.annotations
  exact (hpackage.append (importStand unit.imports)).append (declStand unit.types)

end JavaAnalysis.Ast
