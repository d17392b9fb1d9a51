import DocHeader.Header.Draft

/-!
# Rendering of headers

The text of a header: a block comment with one line for each tag line, or a comment on
a single line when there is at most one. In a snippet the editable regions become
numbered stops, and the characters with a meaning in snippets are escaped.

The values, names and descriptions of aligned lines start at the columns of the layout
where the text before them leaves room. Only what the user will see counts for columns,
not the markup of a stop.

## Main definitions

* `Layout` — the start columns.
* `snippetEscape` — a text with no meaning as a snippet.
* `TagLine.render` — one line, with the number of the next stop.
* `Draft.render` — the whole header, up to the place where the declaration begins.
-/

namespace DocHeader

/-- The start columns of values, names and descriptions; zero asks for none. -/
structure Layout where
  value : Int := 0
  name : Int := 0
  description : Int := 0
  deriving DecidableEq, Repr, Inhabited

/-- How a header is written. -/
structure Style where
  layout : Layout := {}
  /-- The white space every line after the first begins with. -/
  indent : String := ""
  /-- Whether regions become numbered stops. -/
  snippet : Bool := false
  /-- Whether a header of one line stays on one line. -/
  singleLine : Bool := false
  deriving DecidableEq, Repr, Inhabited

/-- The written form of a character in a snippet. -/
def snippetChar (c : Char) : List Char :=
  if c == '\\' || c == '$' || c == '\x7d' then ['\\', c] else [c]

/-- A text with no meaning as a snippet. -/
def snippetEscape (s : String) : String := .ofList (s.toList.flatMap snippetChar)

/-- The stop with number `stop` and an initial text. -/
def stopMarkup (stop : Nat) (text : String) : String :=
  if text.isEmpty then "$\x7b" ++ toString stop ++ "\x7d"
  else "$\x7b" ++ toString stop ++ ":" ++ snippetEscape text ++ "\x7d"

/-- The markup of a phrase and the number of the next stop. -/
def Phrase.markup (snippet force : Bool) (stop : Nat) (p : Phrase) : String × Nat :=
  if !snippet then (p.shown, stop)
  else if p.isRegion || force then (stopMarkup stop p.shown, stop + 1)
  else (snippetEscape p.shown, stop)

/-- A piece of a line: what it shows, how it is written, and where it should start. -/
structure Segment where
  shown : String
  markup : String
  column : Int
  deriving DecidableEq, Repr

namespace TagLine

/-- Whether the value has a place on the line. -/
def showsValue (snippet : Bool) (line : TagLine) : Bool :=
  !(shownText line.value).isEmpty || (snippet && line.forceRegion)

/-- Whether the description has a place on the line: an empty region has one too. -/
def showsDescription (snippet : Bool) (line : TagLine) : Bool :=
  !(shownText line.description).isEmpty ||
    (snippet && (line.description.map Phrase.isRegion).getD false)

/-- The value with its delimiters. -/
def valueSegment (layout : Layout) (snippet : Bool) (stop : Nat) (line : TagLine) : Segment × Nat :=
  let p := line.value.getD (.plain "")
  let (markup, next) := p.markup snippet line.forceRegion stop
  let (opening, closing) := line.delimiters
  let written (s : String) : String := if snippet then snippetEscape s else s
  let markup := written opening ++ markup ++ written closing
  (⟨opening ++ p.shown ++ closing, markup, layout.value⟩, next)

/-- A name or a description. -/
def phraseSegment (column : Int) (snippet : Bool) (stop : Nat) (p : Phrase) : Segment × Nat :=
  let (markup, next) := p.markup snippet false stop
  (⟨p.shown, markup, column⟩, next)

/-- The value, when it has a place on the line, and the number of the next stop. -/
def valueSegments (layout : Layout) (snippet : Bool) (stop : Nat) (line : TagLine) :
    List Segment × Nat :=
  if line.showsValue snippet then
    let (s, next) := line.valueSegment layout snippet stop
    ([s], next)
  else ([], stop)

/-- The name, when there is one, and the number of the next stop. -/
def nameSegments (layout : Layout) (snippet : Bool) (stop : Nat) (line : TagLine) :
    List Segment × Nat :=
  match line.name with
  | some p =>
    if p.shown.isEmpty then ([], stop)
    else
      let (s, next) := phraseSegment layout.name snippet stop p
      ([s], next)
  | none => ([], stop)

/-- The description, when it has a place on the line, and the number of the next stop. -/
def descriptionSegments (layout : Layout) (snippet : Bool) (stop : Nat) (line : TagLine) :
    List Segment × Nat :=
  if line.showsDescription snippet then
    let (s, next) :=
      phraseSegment layout.description snippet stop (line.description.getD (.plain ""))
    ([s], next)
  else ([], stop)

/-- The segments of a line in order, and the number of the next stop. -/
def segments (layout : Layout) (snippet : Bool) (stop : Nat) (line : TagLine) :
    List Segment × Nat :=
  let (value, stop) := line.valueSegments layout snippet stop
  let (name, stop) := line.nameSegments layout snippet stop
  let (description, stop) := line.descriptionSegments layout snippet stop
  (value ++ name ++ description, stop)

/-- The blanks in front of a segment after `width` columns: one at least, and as many as
bring it to its column. -/
def padding (align : Bool) (column : Int) (width : Nat) : Nat :=
  if align && 0 < column then (max 1 (column - width)).toNat else 1

/-- The written segments after `width` columns. -/
def writeSegments (align : Bool) (width : Nat) : List Segment → String
  | [] => ""
  | s :: rest =>
    let blanks := padding align s.column width
    .ofList (List.replicate blanks ' ') ++ s.markup ++
      writeSegments align (width + blanks + s.shown.length) rest

/-- The tag with its at sign, as it stands on a line. -/
def tagText (line : TagLine) : String :=
  match line.tag? with
  | some tag => " @" ++ tag
  | none => ""

/-- One line of a header, and the number of the next stop. -/
def render (layout : Layout) (snippet : Bool) (stop : Nat) (line : TagLine) : String × Nat :=
  let (segments, next) := line.segments layout snippet stop
  (" *" ++ line.tagText ++ writeSegments line.align (2 + line.tagText.length) segments, next)

end TagLine

/-- The lines of a header, with stops numbered from `stop` on. -/
def renderLines (layout : Layout) (snippet : Bool) (stop : Nat) : List TagLine → List String
  | [] => []
  | line :: rest =>
    let (text, next) := line.render layout snippet stop
    text :: renderLines layout snippet next rest

/-- The comment around the lines of a header. -/
def commentText (indent : String) (singleLine : Bool) (body : List String) : String :=
  match singleLine, body with
  | true, [] => "/** */"
  | true, [line] => "/**" ++ String.ofList (line.toList.drop 2) ++ " */"
  | _, body => String.intercalate ("\n" ++ indent) (("/**" :: body) ++ [" */"])

/-- The text of a header: the comment, and the line break and the white space after
which the declaration goes on. -/
def Draft.render (d : Draft) (style : Style) : String :=
  let body := renderLines style.layout style.snippet 1 d.finish.lines
  commentText style.indent style.singleLine body ++ "\n" ++ style.indent

end DocHeader
