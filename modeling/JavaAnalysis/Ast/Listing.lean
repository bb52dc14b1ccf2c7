import JavaAnalysis.Ast.Outline
import JavaAnalysis.Binding.Table
import JavaAnalysis.Resolve

/-!
# Listings

The outline of a file as lines of text, one for each part, indented by its depth. A line shows the
kind of the part, its names with what they are bound to, and its range.
-/

set_option autoImplicit false

namespace JavaAnalysis.Ast

def TypeDeclKind.name : TypeDeclKind → String
  | .classType => "Class"
  | .interfaceType => "Interface"
  | .annotationType => "Annotation"
  | .enumType => "Enum"
  | .recordType => "Record"

def LiteralKind.name : LiteralKind → String
  | .int => "Int"
  | .long => "Long"
  | .float => "Float"
  | .double => "Double"
  | .char => "Char"
  | .string => "String"
  | .textBlock => "TextBlock"
  | .true => "True"
  | .false => "False"
  | .null => "Null"

def UnaryOp.name : UnaryOp → String
  | .plus => "Plus"
  | .minus => "Minus"
  | .not => "Not"
  | .bitNot => "BitNot"
  | .preInc => "PreInc"
  | .preDec => "PreDec"
  | .postInc => "PostInc"
  | .postDec => "PostDec"

def BinaryOp.name : BinaryOp → String
  | .or => "Or"
  | .and => "And"
  | .bitOr => "BitOr"
  | .bitXor => "BitXor"
  | .bitAnd => "BitAnd"
  | .eq => "Eq"
  | .ne => "Ne"
  | .lt => "Lt"
  | .gt => "Gt"
  | .le => "Le"
  | .ge => "Ge"
  | .shl => "Shl"
  | .shr => "Shr"
  | .ushr => "UShr"
  | .add => "Add"
  | .sub => "Sub"
  | .mul => "Mul"
  | .div => "Div"
  | .rem => "Rem"

def AssignOp.name : AssignOp → String
  | .assign => "Assign"
  | .add => "Add"
  | .sub => "Sub"
  | .mul => "Mul"
  | .div => "Div"
  | .rem => "Rem"
  | .bitAnd => "BitAnd"
  | .bitOr => "BitOr"
  | .bitXor => "BitXor"
  | .shl => "Shl"
  | .shr => "Shr"
  | .ushr => "UShr"

end JavaAnalysis.Ast

namespace JavaAnalysis.Resolution

open Ast

/-- What the name at an offset is bound to, or a dash. -/
def referenceAt (r : Resolution) (offset : Nat) : String :=
  match r.boundAt? offset with
  | some id => r.bindings.reference id
  | none => "-"

/-- A name with what it is bound to. -/
def nameText (r : Resolution) (name : Ident) : String :=
  name.text ++ " " ++ r.referenceAt name.range.start

/-- What a class body is bound to, if there is one. -/
def bodyText (r : Resolution) : Option ClassBody → String
  | some body => r.referenceAt body.range.start
  | none => "-"

def bracketsText (brackets : List TextRange) : String :=
  "dims=[" ++ ", ".intercalate (brackets.map TextRange.render) ++ "]"

def labelText : Option Ident → String
  | some label => label.text
  | none => "-"

/-- The kind of a statement. -/
def stmtText : Stmt → String
  | .block _ => "Block"
  | .localVar _ => "LocalVar"
  | .localType _ => "LocalType"
  | .expression _ _ => "Expr"
  | .ifThen _ _ _ => "If else=false"
  | .ifThenElse _ _ _ _ => "If else=true"
  | .whileLoop _ _ _ => "While"
  | .doLoop _ _ _ => "Do"
  | .forLoop _ _ _ _ _ => "For"
  | .forEach _ _ _ _ => "ForEach"
  | .returning _ _ => "Return"
  | .breaking _ label => "Break " ++ labelText label
  | .continuing _ label => "Continue " ++ labelText label
  | .yielding _ _ => "Yield"
  | .labeled _ label _ => "Labeled " ++ label.text
  | .throwing _ _ => "Throw"
  | .trying _ _ _ _ catches final => s!"Try catches={catches.length} finally={final.isSome}"
  | .switching _ _ _ cases => s!"Switch default={SwitchCase.anyDefault cases}"
  | .synchronizing _ _ _ => "Synchronized"
  | .asserting _ _ _ => "Assert"
  | .empty _ => "Empty"

/-- The kind of an expression, with its names and what they are bound to. -/
def exprText (r : Resolution) : Expr → String
  | .literal _ kind => "Literal " ++ kind.name
  | .name name => "Name " ++ r.nameText name
  | .fieldAccess _ _ name => "FieldAccess " ++ r.nameText name
  | .methodCall _ _ _ _ name argsRange _ =>
    s!"MethodCall {r.nameText name} args={argsRange.render}"
  | .newObject _ outer _ _ _ body => s!"New outer={outer.isSome} {r.bodyText body}"
  | .newArray _ _ dims _ _ => s!"NewArray dims={dims.length}"
  | .arrayInit _ _ => "ArrayInit"
  | .arrayAccess _ _ _ => "ArrayAccess"
  | .unary _ op _ => s!"Unary {op.name} {op.token.name}"
  | .binary _ op _ _ => s!"Binary {op.name} {op.token.name}"
  | .assign _ op _ _ => s!"Assign {op.name} {op.token.name}"
  | .conditional _ _ _ _ => "Conditional"
  | .instanceOf _ _ _ => "InstanceOf type"
  | .instanceOfPattern _ _ pattern => "InstanceOf " ++ r.nameText pattern.name
  | .cast _ _ _ => "Cast"
  | .paren _ _ => "Paren"
  | .this _ => "This"
  | .super _ => "Super"
  | .classLiteral _ _ => "ClassLiteral"
  | .lambdaExpr _ _ _ parenthesized _ => s!"Lambda parens={parenthesized}"
  | .lambdaBlock _ _ _ parenthesized _ => s!"Lambda parens={parenthesized}"
  | .methodRef _ _ (some name) => "MethodRef " ++ r.nameText name
  | .methodRef _ _ none => "MethodRef new"
  | .switching _ _ _ cases => s!"Switch default={SwitchCase.anyDefault cases}"
  | .annotated _ => "Annotation"
  | .type _ => "Type"

/-- The kind of a type. -/
def typeText : TypeRef → String
  | .primitive _ kind => "Primitive " ++ kind.token.name
  | .inferred _ => "Var"
  | .named _ _ _ _ _ => "Named"
  | .array _ element brackets => s!"Array {brackets.render} of {element.base.display}"
  | .wildcard _ => "Wildcard"
  | .bounded _ _ _ => "Wildcard"
  | .union _ _ => "Union"
  | .intersection _ _ => "Intersection"

def memberText : Member → String
  | .field _ => "Field"
  | .method _ => "Method"
  | .initializer _ true _ => "StaticInitializer"
  | .initializer _ false _ => "Initializer"
  | .type _ => "Type"

/-- The line of a part, and the lines of its declared names, which stand one level deeper. -/
def partLines (r : Resolution) : Part → String × List String
  | .type (.mk range kind modifiers name _ typeParams _ _ _ _ _ body) =>
    let isPublic := (ModifierSet.ofModifiers modifiers).contains .public
    let bound := r.referenceAt name.range.start
    (s!"type {kind.name} {name.text} {range.render} public={isPublic} {bound}",
      typeParams.map (fun p => "typeparam " ++ r.nameText p.name) ++
      body.constants.map fun c =>
        let bound := r.referenceAt c.name.range.start
        s!"constant {c.name.text} {c.range.render} {bound} {r.bodyText c.body?}")
  | .member m => (s!"member {memberText m} {m.range.render}", [])
  | .variables decl =>
    (s!"var {decl.range.render}", decl.fragments.map fun f =>
      let bound := r.referenceAt f.name.range.start
      s!"fragment {f.name.text} {f.range.render} {bracketsText f.brackets} {bound}")
  | .method decl =>
    let form := s!"constructor={decl.isConstructor} compact={decl.isCompact}"
    let bound := r.referenceAt decl.name.range.start
    (s!"method {decl.name.text} {decl.range.render} {form} {bracketsText decl.brackets} {bound}",
      [])
  | .param p =>
    let bound := r.referenceAt p.name.range.start
    let brackets := bracketsText p.brackets
    (s!"param {p.name.text} {p.range.render} varargs={p.isVarargs} {brackets} {bound}", [])
  | .annotated use =>
    (s!"annotation {use.name.toDotted} {use.range.render} {r.referenceAt use.name.range.start}", [])
  | .block b => (s!"block {b.range.render}", [])
  | .stmt s => (s!"stmt {stmtText s} {s.range.render}", [])
  | .expr e => (s!"expr {r.exprText e} {e.range.render}", [])
  | .typeRef t =>
    let bound := match t with
      | .named _ _ name _ _ => r.referenceAt name.range.start
      | _ => "-"
    (s!"ty {typeText t} {t.display} {t.range.render} {bound}", [])

def indented (depth : Nat) (line : String) : String :=
  String.ofList (List.replicate depth ' ') ++ line

mutual

def outlineLines (r : Resolution) (depth : Nat) : Outline → List String
  | .mk part inside =>
    let (line, names) := r.partLines part
    indented depth line :: names.map (indented (depth + 1)) ++ outlinesLines r (depth + 1) inside

def outlinesLines (r : Resolution) (depth : Nat) : List Outline → List String
  | [] => []
  | o :: os => outlineLines r depth o ++ outlinesLines r depth os

end

/-- The listing of a file. -/
def listing (r : Resolution) (unit : CompilationUnit) : List String :=
  let package := match unit.package with
    | some p => [s!" package {p.name.toDotted} {p.range.render}"]
    | none => []
  let imports := unit.imports.map fun i =>
    let bound := if i.isStatic then "-" else r.referenceAt i.name.range.start
    s!" import {i.name.toDotted} static={i.isStatic} all={i.onDemand} {i.range.render} {bound}"
  s!"unit {unit.range.render}" :: package ++ imports ++ r.outlinesLines 1 unit.outlines

end JavaAnalysis.Resolution
