import JavaAnalysis.Resolve

/-!
# The walk through a file

The annotations of the package come first, then the imports are entered one by one, and then the
types of the file are walked through in three passes.
-/

set_option autoImplicit false

namespace JavaAnalysis

theorem Bindings.size_push (t : Bindings) (data : Binding) : (t.push data).size = t.size + 1 :=
  Array.size_push data

namespace Binder

open Ast

variable {α : Type}

/-- What is walked through behind the imports of a file. -/
def passes (types : List TypeDecl) : Binding.Walk Unit := do
  declareTypes types
  declareAllMembers types
  resolveTypeBodies types

theorem get_bind_apply (f : Binder → Binding.Walk α) (b : Binder) :
    (MonadState.get >>= f : Binding.Walk α) b = f b b := rfl

theorem resolveMethod_mk (range : TextRange) (modifiers : List Modifier)
    (typeParamsRange : Option TextRange) (typeParams : List TypeParam)
    (returnType : Option TypeRef) (name : Ident) (paramsRange : Option TextRange)
    (params : List Param) (brackets : List TextRange) (thrown : List TypeRef)
    (defaultValue : Option Expr) (body : Option Block) :
    resolveMethod (.mk range modifiers typeParamsRange typeParams returnType name paramsRange params
      brackets thrown defaultValue body) = (do
        match (← get).boundAt? name.range.start with
        | none => return ()
        | some id =>
          resolveModifiers modifiers
          inScope (.method id) do
            enterAgain (typeParams.map TypeParam.name)
            enterParams params
            if paramsRange.isNone then enterComponents
            resolveOptional defaultValue
            match body with
            | none => return ()
            | some block => resolveBlock block) := by
  cases body <;> rfl

theorem resolveStmt_trying (range : TextRange) (resourcesRange : Option TextRange)
    (resources : List Resource) (body : Block) (catches : List CatchClause)
    (final : Option Block) :
    resolveStmt (.trying range resourcesRange resources body catches final) = (do
      inScope .block do
        resolveResources resources
        resolveBlock body
      resolveCatches catches
      match final with
      | none => return ()
      | some block => resolveBlock block) := by
  cases final <;> rfl

theorem boundAt?_insert (b : Binder) (offset : Nat) (id : BindingId) (o : Nat) :
    boundAt? { b with bound := b.bound.insert offset id } o =
      if offset = o then some id else b.boundAt? o := by
  simp [boundAt?, Std.TreeMap.getElem?_insert]

/-- Before the walk starts, no name is bound. -/
theorem boundAt?_start (package : Option String) (o : Nat) :
    (start package).boundAt? o = none := by
  simp [boundAt?, start]

theorem enter_place (name : String) (id : BindingId) (b : Binder) :
    ∃ scopes, (enter name id b).2 = { b with scopes } := by
  obtain ⟨_, _, _, _, _, _, scopes, _, _, _⟩ := b
  cases scopes with
  | nil => exact ⟨_, rfl⟩
  | cons s ss => exact ⟨_, rfl⟩

/-- What is used stays used. -/
theorem markUsed_place (id : BindingId) (b : Binder) :
    ∃ used, (markUsed id b).2 = { b with used } ∧ id ∈ used ∧ ∀ i ∈ b.used, i ∈ used := by
  by_cases hid : id ∈ b.used
  · exact ⟨b.used, if_pos hid, hid, fun _ hi => hi⟩
  · exact ⟨id :: b.used, if_neg hid, List.mem_cons_self, fun _ hi => List.mem_cons_of_mem _ hi⟩

/-- The entry of an import of the file. -/
def importEntry (b : Binder) (decl : ImportDecl) : ImportEntry where
  qualified := decl.name.toDotted
  simple := if decl.onDemand then none else decl.name.segments.getLast?.map Ident.text
  isStatic := decl.isStatic
  target := b.importTarget decl
  used := false

/-- The place after one import. -/
def withImport (b : Binder) (decl : ImportDecl) : Binder :=
  { b with
    imports := b.imports ++ [b.importEntry decl]
    bound := match b.importTarget decl with
      | some id => if decl.isStatic then b.bound else b.bound.insert decl.name.range.start id
      | none => b.bound }

theorem declareImports_eq (decls : List ImportDecl) (b : Binder) :
    (declareImports decls b).2 = decls.foldl withImport b := by
  induction decls generalizing b with
  | nil => rfl
  | cons decl decls ih =>
    rw [List.foldl_cons, ← ih]
    conv => lhs; unfold declareImports
    simp only [get_bind_apply]
    unfold withImport importEntry
    cases b.importTarget decl with
    | none => rfl
    | some id =>
      cases decl.isStatic <;> rfl

theorem length_withImport (b : Binder) (decl : ImportDecl) :
    (b.withImport decl).imports.length = b.imports.length + 1 := by
  simp [Binder.withImport]

theorem length_foldl_withImport (decls : List ImportDecl) (b : Binder) :
    (decls.foldl withImport b).imports.length = b.imports.length + decls.length := by
  induction decls generalizing b with
  | nil => rfl
  | cons decl decls ih =>
    rw [List.foldl_cons, ih, length_withImport, List.length_cons]
    omega

/-- The place behind the annotations of the package of a file. -/
def afterPackage (unit : CompilationUnit) (b : Binder) : Binder :=
  match unit.package with
  | some package => (resolveAnnotations package.annotations b).2
  | none => b

/-- A file is walked through from behind its package, then its imports. -/
theorem resolveUnit_eq (unit : CompilationUnit) (b : Binder) :
    (resolveUnit unit b).2 =
      (passes unit.types (unit.imports.foldl withImport (afterPackage unit b))).2 := by
  rw [← declareImports_eq]
  unfold resolveUnit afterPackage
  cases unit.package <;> rfl

end Binder

end JavaAnalysis
