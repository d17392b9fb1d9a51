import DocHeader.Header.Build

/-!
# Headers of nodes with wrongly typed fields

The fields of a node may hold values of the wrong type. Many do no harm: a value that is not
shown, or is pasted into a longer text, counts for what is shown of it. Others stop the build
of the header: a type that is no text cannot be trimmed, a name that is no text cannot be
written behind a tag.

What stops a build is found here ahead of it, by the stages of the build. What has been asked
by then has been asked.

Names that are no texts are compared, measured and put to a source of descriptions as what is
shown of them.

## Main definitions

* `Snag` — what stops a build, and how far it gets.
* `Builder.snag?` — the snag of a declaration.
* `Builder.attempt` — the closed draft of a declaration without a snag.
-/

namespace DocHeader

/-- How far a build gets. -/
inductive Reach where
  | nothing
  /-- The declaration has been described. -/
  | declaration
  /-- So have its type parameters and its parameters. -/
  | parameters
  /-- There are all lines, and they cannot be written. -/
  | lines
  deriving DecidableEq, Repr

/-- What stops a build. -/
structure Snag where
  reach : Reach
  fault : FieldFault
  deriving DecidableEq, Repr

namespace Focus

/-! ## While the lines are put together -/

/-- Whether the type of a node is no text. An empty value is none either. -/
def hasOddType (f : Focus) : Bool :=
  if f.info.annotation.isSome then (f.info.misfit? "type").isSome
  else
    let first := if f.kind == "SetAccessor" then f.parameters.head? else none
    match first.filter fun p => p.info.annotation.isSome with
    | some p => (p.info.misfit? "type").isSome
    | none => (f.info.misfit? "inferredType").isSome

/-- Whether the return type of a function is no text. -/
def hasOddReturn (f : Focus) : Bool :=
  if f.info.annotation.isSome then (f.info.misfit? "type").isSome
  else (f.info.misfit? "returnType").isSome

/-- Whether the type of a parameter, or of a named element that it is taken apart into, is no
text. -/
def hasOddPart (p : Focus) : Bool :=
  p.hasOddType ||
    match p.bindingPattern? with
    | some pattern => pattern.bindingElements.any fun element =>
        ((given? element.info.propertyName).or (given? element.info.name)).isSome &&
          element.hasOddType
    | none => false

/-- Whether type arguments cannot be appended to a heritage type. To a list of anything the
characters of a text can be appended. -/
def hasOddArguments (reference : Focus) : Bool :=
  !reference.info.typeArguments.isEmpty &&
    ((reference.info.misfit? "typeArguments").any (· matches .array _) ||
      reference.info.givesMisfit "expression" &&
        !(reference.info.misfit? "expression").any (· matches .array _))

/-- The types that the heritage clauses of a declaration list. -/
def heritageReferences (f : Focus) : List Focus :=
  f.heritageClauses.flatMap fun clause => clause.childrenOfKind ["ExpressionWithTypeArguments"]

/-- Whether an initializer that is no text comes before the first that is a string literal. -/
def hasOddMember (f : Focus) : Bool :=
  ((f.childrenOfKind ["EnumMember"]).find? fun member =>
      isStringLiteral (member.info.initializer.getD "") ||
        member.info.givesMisfit "initializer").any
    fun member => member.info.givesMisfit "initializer"

/-! ## While the lines are written -/

/-- How the writing of a value that is no text fails; in a snippet it is escaped before. -/
def pasteFault (snippet : Bool) : FieldFault := if snippet then .attribute else .type

/-- How the writing of a field fails, when it holds no text. -/
def pasteFaults (snippet : Bool) (f : Focus) (field : String) : List FieldFault :=
  if f.info.givesMisfit field then [pasteFault snippet] else []

/-- How the writing of the lines of heritage clauses fails. A tag that is a list or an object
is written all the same, as only its length is asked for. -/
def heritageFaults (snippet : Bool) (f : Focus) : List FieldFault :=
  f.heritageClauses.flatMap fun clause =>
    (clause.childrenOfKind ["ExpressionWithTypeArguments"]).flatMap fun reference =>
      (if clause.info.givesMisfit "token" &&
          (clause.info.misfit? "token").any (fun j => j matches .bool _ | .number _)
        then [.type] else []) ++
      pasteFaults snippet reference "expression"

/-- How the writing of the lines of type parameters fails. A name goes into a longer text when
there is a default. -/
def templateFaults (s : Settings) (snippet : Bool) (signature : Focus) : List FieldFault :=
  signature.typeParameters.flatMap fun t =>
    (if s.flag .includeTypes then pasteFaults snippet t "constraint" else []) ++
      if (given? t.info.default).isSome then [] else pasteFaults snippet t "name"

/-- How the writing of the lines of parameters fails. A name goes into a longer text when the
parameter may be left out. -/
def parameterFaults (snippet : Bool) (signature : Focus) : List FieldFault :=
  (documentedParameters signature).flatMap fun p =>
    if p.bindingPattern?.isSome || (given? p.info.initializer).isSome || p.info.optional then []
    else pasteFaults snippet p "name"

end Focus

namespace Builder

variable {σ : Type}

/-- What stops the build of the lines that the kind of a declaration calls for. -/
def kindSnag? (b : Builder σ) (f : Focus) (kind : DeclarationKind) : Option Snag :=
  let s := b.settings
  let when (condition : Bool) (snag : Snag) : Option Snag := if condition then some snag else none
  match kind with
  | .classLike => when (f.heritageReferences.any Focus.hasOddArguments) ⟨.declaration, .type⟩
  | .enumeration => when f.hasOddMember ⟨.declaration, .attribute⟩
  | .property | .accessor | .variable =>
    when (s.flag .includeTypes && f.kind != "EnumMember" && f.hasOddType)
      ⟨.declaration, .attribute⟩
  | .method =>
    let signature := signatureOf f
    when ((s.flag .includeTypes && (documentedParameters signature).any Focus.hasOddPart) ||
        s.flag .includeReturn && signature.hasOddReturn) ⟨.parameters, .attribute⟩
  | .constructor =>
    when (s.flag .includeTypes && (documentedParameters f).any Focus.hasOddPart)
      ⟨.parameters, .attribute⟩
  | .typeAlias | .file => none

/-- How the writing of the lines that the kind of a declaration calls for fails, line by
line. -/
def lineFaults (b : Builder σ) (f : Focus) (kind : DeclarationKind) (snippet : Bool) :
    List FieldFault :=
  let s := b.settings
  match kind with
  | .classLike =>
    f.pasteFaults snippet "name" ++ f.heritageFaults snippet ++ f.templateFaults s snippet
  | .typeAlias => f.pasteFaults snippet "name" ++ f.templateFaults s snippet
  | .method =>
    let signature := signatureOf f
    signature.templateFaults s snippet ++ signature.parameterFaults snippet
  | .constructor => f.parameterFaults snippet
  | .enumeration | .property | .accessor | .variable | .file => []

/-- What stops the build of the header of a declaration. -/
def snag? (b : Builder σ) (f : Focus) (kind : DeclarationKind) (snippet : Bool) : Option Snag :=
  match if kind = .accessor then pairedAccessor? f else none with
  | some paired => if paired.info.givesMisfit "jsDoc" then some ⟨.nothing, .attribute⟩ else none
  | none =>
    if f.node.hasModifier "override" then none
    else (b.kindSnag? f kind).or ((b.lineFaults f kind snippet).head?.map (Snag.mk .lines))

/-- What is asked for by a build that gets no further. -/
def buildUpTo (b : Builder σ) (f : Focus) (kind : DeclarationKind) : Reach → Logged σ Unit
  | .nothing => pure ()
  | .declaration => do
    let _ ← ask (b.source.declaration f kind) emptyRegion
  | .parameters => do
    let _ ← ask (b.source.declaration f kind) emptyRegion
    if kind = .method then
      let _ ← b.askTemplates f (signatureOf f) kind
    let _ ← b.askParameters f (signatureOf f) kind
  | .lines => do
    let _ ← b.lines f kind

/-- The closed draft of a declaration, when nothing stops the build and the writing of it. -/
def attempt (b : Builder σ) (f : Focus) (snippet : Bool) : Logged σ (Except BuildError Draft) :=
  match b.kindOf f with
  | .error e => pure (.error e)
  | .ok kind =>
    match b.snag? f kind snippet with
    | none => b.build f
    | some snag => do
      b.buildUpTo f kind snag.reach
      pure (.error (.mistyped snag.fault))

end Builder

end DocHeader
