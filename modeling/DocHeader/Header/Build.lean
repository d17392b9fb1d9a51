import DocHeader.Calendar
import DocHeader.Declaration.Classify
import DocHeader.Description.Source
import DocHeader.Header.Existing
import DocHeader.TypeText.Declared

/-!
# Building headers

The header of a declaration, line by line: description, author and date, modifiers, the
tags of its kind, heritage, type parameters, parameters, the return value, and the tags
of the user. Two declarations get less: an accessor whose opposite has a header repeats
its description, and an overriding member points to what it inherits.

Each group of lines is a function of the settings, the node and the descriptions given;
`Builder.build` asks for the descriptions in the order of the lines. A failing request
is noted and leaves its descriptions open.

## Main definitions

* `Builder` — settings, a source of descriptions and the date.
* `Builder.build` — the closed draft of a declaration.
* `Builder.buildText` — the text inserted in front of it.
-/

namespace DocHeader

/-- How the use of a field of the wrong type fails. -/
inductive FieldFault where
  /-- Values are put together whose types do not go together. -/
  | type
  /-- A value is asked for what only texts can do. -/
  | attribute
  deriving DecidableEq, Repr

/-- Why there is no header for a node. -/
inductive BuildError where
  /-- The node cannot be documented. -/
  | unsupportedKind (kind : String)
  /-- A field that the header shows is of the wrong type. -/
  | mistyped (fault : FieldFault)
  deriving DecidableEq, Repr

/-- The wording of an error. -/
def BuildError.message : BuildError → String
  | .unsupportedKind kind => "Unsupported declaration kind: " ++ kind
  | .mistyped _ => "syntax tree field of the wrong type"

/-! ## Descriptions -/

/-- A description of several lines as one phrase for each line that is not blank. -/
def descriptionLines (description : Phrase) : List Phrase :=
  if description.shown.toList.contains '\n' then
    ((textLines description.shown).filter hasContent).map fun line =>
      description.withText (trimmed line)
  else [description]

/-- One description for each name: those given, then open ones. -/
def fitDescriptions (count : Nat) (given : List Phrase) : List Phrase :=
  given.take count ++ List.replicate (count - given.length) emptyRegion

/-! ## Groups of lines -/

/-- No delimiters around a value. -/
def bare : String × String := ("", "")

/-- The name of the author that stands for an editable one. -/
def authorPlaceholder : String := "author"

/-- The author line, when an author is set. -/
def authorLines (s : Settings) : List TagLine :=
  let author := s.text .author
  if author.isEmpty then []
  else
    let value := if author == authorPlaceholder then Phrase.region author else .plain author
    [{ tag := some "author", value := some value, delimiters := bare, align := false }]

/-- The date line, when a format is set. -/
def dateLines (s : Settings) (today : CivilTime) : List TagLine :=
  let format := s.text .dateFormat
  if format.isEmpty then []
  else
    [{ tag := some "date", value := some (.plain (today.format format)), delimiters := bare,
       align := false }]

/-- The empty line after the description, when it is asked for. -/
def separatorLines (s : Settings) : List TagLine :=
  if s.flag .emptyLineAfterHeader then [.blank] else []

/-- The lines a header begins with. -/
def openingLines (s : Settings) (today : CivilTime) (description : Phrase) : List TagLine :=
  (descriptionLines description).map (fun line => .ofText (some line)) ++ authorLines s ++
    dateLines s today ++ separatorLines s

/-- The modifiers that are documented as tags. -/
def modifierTags : List String :=
  ["export", "public", "private", "protected", "static", "abstract", "async", "readonly"]

/-- The modifiers of a declaration: those of the statement that owns its header, its own
that are not among them, and `async` of the function it holds. -/
def declaredModifiers (f : Focus) : List String :=
  let modifiers := f.anchor.info.modifiers
  let modifiers :=
    if f.owner?.isSome then
      modifiers ++ f.info.modifiers.filter fun m => !modifiers.contains m
    else modifiers
  let holdsAsync := (f.functionValue?.map fun value => value.node.hasModifier "async").getD false
  if holdsAsync && !modifiers.contains "async" then modifiers ++ ["async"] else modifiers

/-- Whether the settings let a modifier show. -/
def showsModifier (s : Settings) (modifier : String) : Bool :=
  modifierTags.contains modifier &&
    (modifier != "export" || s.flag .includeExport) && (modifier != "async" || s.flag .includeAsync)

/-- One line for each documented modifier. -/
def modifierLines (s : Settings) (f : Focus) : List TagLine :=
  ((declaredModifiers f).filter (showsModifier s)).map TagLine.ofTag

/-- The lines of a class or an interface. -/
def classLines (f : Focus) : List TagLine :=
  TagLine.ofTag (if f.kind == "InterfaceDeclaration" then "interface" else "class") ::
    match given? f.info.name with
    | some name => [{ tag := some "typedef", value := some (.plain name) }]
    | none => []

/-- The line of a type alias. -/
def aliasLines (f : Focus) : List TagLine :=
  [{ tag := some "typedef", value := some (.plain (f.info.name.getD "")) }]

/-- Whether an initializer is a string literal. -/
def isStringLiteral (initializer : String) : Bool :=
  match initializer.toList with
  | c :: _ => TypeText.isQuotation c
  | [] => false

/-- The line of an enumeration, which counts as one of strings when a member is. -/
def enumLines (s : Settings) (f : Focus) : List TagLine :=
  let ofStrings := (f.childrenOfKind ["EnumMember"]).any fun member =>
    isStringLiteral (member.info.initializer.getD "")
  let value := if ofStrings then "string" else "number"
  [{ tag := some "enum", value := if s.flag .includeTypes then some (.plain value) else none }]

/-- The type of a node as a value, when types are shown. -/
def typeValue (s : Settings) (f : Focus) : Option Phrase :=
  if s.flag .includeTypes then some (.plain (f.renderType (s.flag .parenthesizeCompoundTypes)))
  else none

/-- The type line of a property, an accessor or a variable. Members of enumerations
have none. -/
def typeLines (s : Settings) (f : Focus) : List TagLine :=
  if !s.flag .includeTypes || f.kind == "EnumMember" then []
  else [{ tag := some "type", value := typeValue s f }]

/-- A heritage type as it is shown. -/
def heritageText (reference : Focus) : String :=
  let base := (given? reference.info.expression).getD reference.info.text
  if reference.info.typeArguments.isEmpty then base
  else base ++ "<" ++ joinWith ", " reference.info.typeArguments ++ ">"

/-- One line for each type of each heritage clause. -/
def heritageLines (f : Focus) : List TagLine :=
  f.heritageClauses.flatMap fun clause =>
    (clause.childrenOfKind ["ExpressionWithTypeArguments"]).map fun reference =>
      { tag := some ((given? clause.info.token).getD "extends")
        value := some (.plain (heritageText reference)) }

/-- The names of type parameters. -/
def templateNames (templates : List Focus) : List String :=
  templates.map fun t => t.info.name.getD ""

/-- The line of a type parameter. -/
def templateLine (s : Settings) (template : Focus) (name : String) (description : Phrase) :
    TagLine :=
  let name := match given? template.info.default with
    | some default => "[" ++ name ++ "=" ++ default ++ "]"
    | none => name
  { tag := some "template"
    value := if s.flag .includeTypes then template.info.constraint.map .plain else none
    name := some (.plain name)
    description := some description }

/-- The lines of type parameters with their descriptions. -/
def templateLines (s : Settings) : List Focus → List String → List Phrase → List TagLine
  | t :: ts, name :: names, d :: ds => templateLine s t name d :: templateLines s ts names ds
  | _, _, _ => []

/-- The parameters that are documented: all but the one called `this`. -/
def documentedParameters (signature : Focus) : List Focus :=
  signature.parameters.filter fun p => p.info.name != some "this"

/-- The names of parameters; destructured ones are numbered from `k` on. -/
def parameterNames (k : Nat) : List Focus → List String
  | [] => []
  | p :: rest =>
    if p.bindingPattern?.isSome then ("param" ++ toString k) :: parameterNames (k + 1) rest
    else p.info.name.getD "" :: parameterNames k rest

/-- A name in brackets with its initializer, if it has one. -/
def withInitializer (name : String) (initializer : Option String) : Option String :=
  (given? initializer).map fun init => "[" ++ name ++ "=" ++ init ++ "]"

/-- The name of a parameter as it is shown: in brackets when it may be left out. -/
def parameterLabel (p : Focus) (name : String) : String :=
  (withInitializer name p.info.initializer).getD
    (if p.info.optional then "[" ++ name ++ "]" else name)

/-- The line of an element of a destructured parameter, when it has a name. -/
def elementLine? (s : Settings) (owner : String) (element : Focus) : Option TagLine :=
  ((given? element.info.propertyName).or (given? element.info.name)).map fun name =>
    let qualified := owner ++ "." ++ name
    { tag := some "param"
      value := typeValue s element
      name := some (.plain ((withInitializer qualified element.info.initializer).getD qualified))
      description := some emptyRegion }

/-- The line of a parameter and those of the elements it is taken apart into. -/
def parameterLine (s : Settings) (p : Focus) (name : String) (description : Phrase) :
    List TagLine :=
  { tag := some "param"
    value := typeValue s p
    name := some (.plain (parameterLabel p name))
    description := some description } ::
  match p.bindingPattern? with
  | some pattern => pattern.bindingElements.filterMap (elementLine? s name)
  | none => []

/-- The lines of parameters with their descriptions. -/
def parameterLines (s : Settings) : List Focus → List String → List Phrase → List TagLine
  | p :: ps, name :: names, d :: ds => parameterLine s p name d ++ parameterLines s ps names ds
  | _, _, _ => []

/-- The line of the return value. -/
def returnLine (s : Settings) (type : String) (description : Phrase) : TagLine :=
  { tag := some "returns"
    value := if s.flag .includeTypes then some (.plain type) else none
    description := some description }

/-- The first applicable entry of each tag name, with the names seen before left out. -/
def applicableTags (kind : DeclarationKind) (seen : List String) :
    List CustomTag → List CustomTag
  | [] => []
  | t :: rest =>
    if seen.contains t.tag || !t.appliesTo kind then applicableTags kind seen rest
    else t :: applicableTags kind (t.tag :: seen) rest

/-- The line of a tag of the user. -/
def customTagLine (t : CustomTag) : TagLine :=
  { tag := some t.tag, value := some (.region t.placeholder), delimiters := bare,
    forceRegion := true }

/-- The lines of the tags of the user. -/
def customTagLines (s : Settings) (kind : DeclarationKind) : List TagLine :=
  (applicableTags kind [] s.customTags).map customTagLine

/-! ## Accessor pairs -/

/-- The kind of the other accessor of a pair. -/
def oppositeAccessor (kind : String) : String :=
  if kind == "GetAccessor" then "SetAccessor" else "GetAccessor"

/-- The opposite accessor of the same name, when it has a header. -/
def pairedAccessor? (f : Focus) : Option Focus :=
  f.parent?.bind fun parent =>
    (parent.childrenOfKind [oppositeAccessor f.kind]).find? fun sibling =>
      sibling.info.name == f.info.name && sibling.hasHeader

/-- The lines of an accessor that repeats the description of its opposite. -/
def reusedLines (s : Settings) (paired : Focus) : List TagLine :=
  let lines := descriptionOf (paired.headerText?.getD "")
  let separator := if lines.isEmpty then [] else separatorLines s
  lines.map (fun line => if hasContent line then .ofText (some (.plain line)) else .blank) ++
    separator ++ [.ofTag "inheritdoc"]

/-! ## The builder -/

/-- What headers are built with. -/
structure Builder (σ : Type) where
  settings : Settings
  source : DescriptionSource σ
  today : CivilTime

namespace Builder

variable {σ : Type}

/-- The answer to a request, or what stands in for it when the source fails. -/
def ask {α : Type} (request : Logged σ (Except DescriptionFailure α)) (otherwise : α) :
    Logged σ α := do
  match ← request with
  | .ok answer => pure answer
  | .error e =>
    Logged.warn ("Description source failed: " ++ e.message)
    pure otherwise

/-- One description for each name. -/
def askNames (b : Builder σ) (f : Focus) (kind : DeclarationKind) (generics : Bool)
    (names : List String) : Logged σ (List Phrase) := do
  let given ← ask (b.source.parameters f kind generics names) []
  pure (fitDescriptions names.length given)

/-- The lines of the type parameters of a signature. -/
def askTemplates (b : Builder σ) (f signature : Focus) (kind : DeclarationKind) :
    Logged σ (List TagLine) := do
  let templates := signature.typeParameters
  if templates.isEmpty then pure []
  else
    let names := templateNames templates
    let descriptions ← b.askNames f kind true names
    pure (templateLines b.settings templates names descriptions)

/-- The lines of the parameters of a signature. -/
def askParameters (b : Builder σ) (f signature : Focus) (kind : DeclarationKind) :
    Logged σ (List TagLine) := do
  let parameters := documentedParameters signature
  if parameters.isEmpty then pure []
  else
    let names := parameterNames 0 parameters
    let descriptions ← b.askNames f kind false names
    pure (parameterLines b.settings parameters names descriptions)

/-- The line of the return value of a signature, when it has one and it is shown. -/
def askReturn (b : Builder σ) (f signature : Focus) : Logged σ (List TagLine) := do
  if !b.settings.flag .includeReturn then pure []
  else
    match signature.renderReturn? (b.settings.flag .parenthesizeCompoundTypes) with
    | none => pure []
    | some type =>
      let description ← ask (b.source.returns f) emptyRegion
      pure [returnLine b.settings type description]

/-- The function whose signature a function declaration shows. -/
def signatureOf (f : Focus) : Focus :=
  if f.isFunctionVariable then f.functionValue?.getD f else f

/-- The lines that the kind of a declaration calls for. -/
def kindLines (b : Builder σ) (f : Focus) (kind : DeclarationKind) : Logged σ (List TagLine) := do
  let s := b.settings
  match kind with
  | .classLike =>
    let templates ← b.askTemplates f f kind
    pure (classLines f ++ heritageLines f ++ templates)
  | .typeAlias =>
    let templates ← b.askTemplates f f kind
    pure (aliasLines f ++ templates)
  | .enumeration => pure (enumLines s f)
  | .property | .accessor | .variable => pure (typeLines s f)
  | .method =>
    let signature := signatureOf f
    let templates ← b.askTemplates f signature kind
    let parameters ← b.askParameters f signature kind
    let returns ← b.askReturn f signature
    let generator := if signature.info.generator then [TagLine.ofTag "generator"] else []
    pure (generator ++ templates ++ parameters ++ returns)
  | .constructor =>
    let parameters ← b.askParameters f f kind
    pure (TagLine.ofTag "constructor" :: parameters)
  | .file => pure [.ofTag "file"]

/-- The lines of a declaration that describes itself. -/
def ownLines (b : Builder σ) (f : Focus) (kind : DeclarationKind) : Logged σ (List TagLine) := do
  let description ← ask (b.source.declaration f kind) emptyRegion
  let opening := openingLines b.settings b.today description
  if f.node.hasModifier "override" then
    pure (opening ++ [.ofTag "override", .ofTag "inheritdoc"])
  else
    let lines ← b.kindLines f kind
    pure (opening ++ modifierLines b.settings f ++ lines ++ customTagLines b.settings kind)

/-- All lines of a declaration, blank ones at the ends included. -/
def lines (b : Builder σ) (f : Focus) (kind : DeclarationKind) : Logged σ (List TagLine) :=
  match if kind = .accessor then pairedAccessor? f else none with
  | some paired => pure (reusedLines b.settings paired)
  | none => b.ownLines f kind

/-- The kind a node is documented as under the settings. -/
def kindOf (b : Builder σ) (f : Focus) : Except BuildError DeclarationKind :=
  match f.declarationKind? (b.settings.flag .functionVariablesAsFunctions) with
  | some kind => .ok kind
  | none => .error (.unsupportedKind f.kind)

/-- The closed draft of a declaration. -/
def build (b : Builder σ) (f : Focus) : Logged σ (Except BuildError Draft) :=
  match b.kindOf f with
  | .error e => pure (.error e)
  | .ok kind => do
    let lines ← b.lines f kind
    pure (.ok ({ kind, lines : Draft }).close)

/-- How the headers of a declaration are written. -/
def style (b : Builder σ) (indent : String) (snippet : Bool) : Style :=
  { layout := b.settings.layout, indent, snippet
    singleLine := b.settings.flag .singleLineComments }

/-- The text of a draft in front of a declaration of a source text. -/
def renderAt (b : Builder σ) (draft : Draft) (f : Focus) (source : String) (snippet : Bool) :
    String :=
  draft.render (b.style (indentationAt source f.insertionOffset) snippet)

/-- The text inserted in front of a declaration of a source text. -/
def buildText (b : Builder σ) (f : Focus) (source : String) (snippet : Bool) :
    Logged σ (Except BuildError String) := do
  let draft ← b.build f
  pure (draft.map fun d => b.renderAt d f source snippet)

end Builder

end DocHeader
