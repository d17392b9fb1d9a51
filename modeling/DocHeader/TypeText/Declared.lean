import DocHeader.Syntax.Focus
import DocHeader.TypeText.Basic

/-!
# Types of declarations

The type a node is documented with: the written one before the one the checker found,
in canonical form, with the sign its modifiers call for.

## Main definitions

* `Focus.typeText`, `Focus.returnTypeText` — the type and the return type.
* `Focus.typeSign` — the sign of an optional, definite, rest or generator node.
* `Focus.renderType`, `Focus.renderReturn?` — what the header shows.
-/

namespace DocHeader.Focus

/-- The written type of a node; for a setter that of its first parameter. -/
def writtenType? (f : Focus) : Option String :=
  match f.info.annotation with
  | some type => some type
  | none =>
    if f.kind == "SetAccessor" then f.parameters.head?.bind fun p => p.info.annotation else none

/-- The type of a node. -/
def typeText (f : Focus) : String :=
  TypeText.canonical (f.writtenType?.or f.info.inferredType)

/-- The return type of a function. -/
def returnTypeText (f : Focus) : String :=
  TypeText.canonical (f.info.annotation.or f.info.inferredReturn)

/-- Whether a node is a generator function, or is initialized with one. -/
def holdsGenerator (f : Focus) : Bool :=
  if functionValueKinds.contains f.kind then f.info.generator
  else (f.functionValue?.map fun value => value.info.generator).getD false

/-- The sign in front of a node's type: optional before definite before rest before
generator. Only parameters show that they are rest elements. -/
def typeSign (f : Focus) : String :=
  if f.info.optional then "?"
  else if f.info.definite then "!"
  else if f.info.rest && f.kind == "Parameter" then "..."
  else if f.holdsGenerator then "*"
  else ""

/-- The type of a node with its sign. -/
def renderType (parenthesize : Bool) (f : Focus) : String :=
  TypeText.wrap parenthesize f.typeText f.typeSign

/-- The return type of a function; nothing for one without a result. -/
def renderReturn? (parenthesize : Bool) (f : Focus) : Option String :=
  if f.returnTypeText == TypeText.noValue then none
  else some (TypeText.wrap parenthesize f.returnTypeText "")

end DocHeader.Focus
