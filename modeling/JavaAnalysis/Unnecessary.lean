import JavaAnalysis.Ast.Outline
import JavaAnalysis.Resolve

/-!
# Unnecessary code

Warnings about what could be left out of a file: declarations that nothing refers to, casts to the
type a value has already, and branches that are never taken.
-/

set_option autoImplicit false

namespace JavaAnalysis

open Ast

/-- The part is a jump to the label. -/
def Ast.Part.jumpsTo (label : String) : Part → Bool
  | .stmt (.breaking _ (some l)) => l.text == label
  | .stmt (.continuing _ (some l)) => l.text == label
  | _ => false

/-- A jump inside the part does not reach a label of that name outside it. -/
def Ast.Part.hides (label : String) : Part → Bool
  | .type _ => true
  | .member _ => true
  | .stmt (.labeled _ l _) => l.text == label
  | .expr (.lambdaExpr _ _ _ _ _) => true
  | .expr (.lambdaBlock _ _ _ _ _) => true
  | _ => false

mutual

/-- A jump in a part of a file goes to a label of the given name outside that part. -/
def Ast.Outline.refersTo (label : String) : Outline → Bool
  | .mk part inside => part.jumpsTo label || (!part.hides label && anyRefersTo label inside)

def Ast.Outline.anyRefersTo (label : String) : List Outline → Bool
  | [] => false
  | o :: os => o.refersTo label || anyRefersTo label os

end

namespace Resolution

/-- The binding that a declared name got. -/
def declared? (r : Resolution) (name : Ident) : Option BindingId := r.boundAt? name.range.start

def isUsed (r : Resolution) (id : BindingId) : Bool := r.used.contains id

def isPrivate (r : Resolution) (id : BindingId) : Bool :=
  (r.bindings.get? id).any fun data => data.modifiers.contains .private

/-- The name of the type around a binding. -/
def enclosingName? (r : Resolution) (id : BindingId) : Option String :=
  (r.bindings.enclosingType? id).map r.bindings.name

/-- The name of a member with its type in front. -/
def memberName (r : Resolution) (id : BindingId) : String :=
  match r.enclosingName? id with
  | some owner => owner ++ "." ++ r.bindings.name id
  | none => r.bindings.name id

def unusedImports (r : Resolution) (imports : List ImportDecl) : List Problem :=
  (imports.zip r.importsUsed).filterMap fun (i, used) =>
    if used then none
    else
      let message := s!"The import {i.name.toDotted} is never used"
      some (.unnecessary .unusedImport message i.name.range)

def unusedLocals (r : Resolution) (decl : VarDecl) : List Problem :=
  decl.fragments.filterMap fun fragment => do
    let name := fragment.name
    let id ← r.declared? name
    if r.isUsed id then none
    else some (.unnecessary .unusedLocal
      s!"The value of the local variable {name.text} is not used" name.range)

def unusedFields (r : Resolution) (decl : VarDecl) : List Problem :=
  decl.fragments.filterMap fun fragment => do
    let name := fragment.name
    let id ← r.declared? name
    if r.isPrivate id && !r.isUsed id && name.text != "serialVersionUID" then
      some (.unnecessary .unusedPrivateField
        s!"The value of the field {r.memberName id} is not used" name.range)
    else none

def unusedMethod? (r : Resolution) (decl : MethodDecl) : Option Problem := do
  let name := decl.name
  let id ← r.declared? name
  if decl.isConstructor || !r.isPrivate id || r.isUsed id then none
  else
    let params := ", ".intercalate (((r.bindings.get? id).map (·.params)).getD [])
    let owner := (r.enclosingName? id).getD ""
    some (.unnecessary .unusedPrivateMethod
      s!"The method {name.text}({params}) from the type {owner} is never used locally" name.range)

def unusedType? (r : Resolution) (decl : TypeDecl) : Option Problem := do
  let name := decl.name
  let id ← r.declared? name
  if r.isPrivate id && !r.isUsed id then
    some (.unnecessary .unusedPrivateType
      s!"The type {r.memberName id} is never used locally" name.range)
  else none

/-- Private members that nothing refers to. -/
def unusedMembers (r : Resolution) : Member → List Problem
  | .field decl => r.unusedFields decl
  | .method decl => (r.unusedMethod? decl).toList
  | .type decl => (r.unusedType? decl).toList
  | .initializer _ _ _ => []

def unusedLabel? (label : Ident) (body : Stmt) : Option Problem :=
  if body.outline.refersTo label.text then none
  else some (.unnecessary .unusedLabel
    s!"The label {label.text} is never explicitly referenced" label.range)

/-- A branch that is never taken, for the condition is the literal `value`. -/
def deadBranch? (value : LiteralKind) (cond : Expr) (branch : Stmt) : Option Problem :=
  match cond.stripParens with
  | .literal _ kind =>
    if kind = value then some (.unnecessary .deadCode "Dead code" branch.range) else none
  | _ => none

def unnecessaryInStmt (r : Resolution) : Stmt → List Problem
  | .localVar decl => r.unusedLocals decl
  | .forEach _ decl _ _ => r.unusedLocals decl
  | .forLoop _ (.decl decl) _ _ _ => r.unusedLocals decl
  | .labeled _ label body => (unusedLabel? label body).toList
  | .ifThen _ cond body => (deadBranch? .false cond body).toList
  | .ifThenElse _ cond body alternative =>
    (deadBranch? .false cond body).toList ++ (deadBranch? .true cond alternative).toList
  | _ => []

/-- The spelling of the type that a value is known to have. -/
def knownTypeName? (r : Resolution) (e : Expr) : Option String :=
  match e.stripParens with
  | .name name => do
    let data ← r.bindings.get? (← r.boundAt? name.range.start)
    if data.kind.isVariable then data.typeName else none
  | .literal _ .string => some "String"
  | .literal _ .textBlock => some "String"
  | _ => none

/-- A cast of a value to the type it has. -/
def redundantCast? (r : Resolution) : Expr → Option Problem
  | .cast _ (.inferred _) _ => none
  | .cast range type operand =>
    let name := type.display
    if r.knownTypeName? operand = some name then
      some (.unnecessary .redundantCast s!"Unnecessary cast from {name} to {name}" range)
    else none
  | _ => none

/-- What could be left out of a part of a file, the parts inside it aside. -/
def unnecessaryIn (r : Resolution) : Part → List Problem
  | .member m => r.unusedMembers m
  | .stmt s => r.unnecessaryInStmt s
  | .expr e => (r.redundantCast? e).toList
  | _ => []

/-- All that could be left out of a file, in the order of the text. -/
def unnecessary (r : Resolution) (unit : CompilationUnit) : List Problem :=
  let found := r.unusedImports unit.imports ++
    (Outline.partsOf unit.outlines).flatMap r.unnecessaryIn
  found.mergeSort fun a b => a.range.start ≤ b.range.start

end Resolution

end JavaAnalysis
