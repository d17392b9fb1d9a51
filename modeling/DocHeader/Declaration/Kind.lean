import DocHeader.Text.Blank
import DocHeader.Text.LowerCase

/-!
# Kinds of declarations

The kinds a declaration can be documented as. The kind decides which tags its header
gets; its label also names it to the assistant that describes it.

## Main definitions

* `DeclarationKind` — the nine kinds.
* `DeclarationKind.label`, `DeclarationKind.title` — the short and the full name.
* `DeclarationKind.ofName?` — the kind of a name, in either spelling and any case.
-/

namespace DocHeader

/-- What a declaration is documented as. -/
inductive DeclarationKind where
  | classLike
  | property
  | accessor
  | enumeration
  | method
  | constructor
  | typeAlias
  | variable
  | file
  deriving DecidableEq, Repr, Inhabited

namespace DeclarationKind

/-- All kinds. -/
def all : List DeclarationKind :=
  [.classLike, .property, .accessor, .enumeration, .method, .constructor, .typeAlias, .variable,
    .file]

/-- The short name, as settings and prompts write it. -/
def label : DeclarationKind → String
  | .classLike => "class"
  | .property => "property"
  | .accessor => "accessor"
  | .enumeration => "enum"
  | .method => "function"
  | .constructor => "constructor"
  | .typeAlias => "type"
  | .variable => "variable"
  | .file => "file"

/-- The full name. -/
def title : DeclarationKind → String
  | .classLike => "CLASS_LIKE"
  | .property => "PROPERTY"
  | .accessor => "ACCESSOR"
  | .enumeration => "ENUM"
  | .method => "METHOD"
  | .constructor => "CONSTRUCTOR"
  | .typeAlias => "TYPE_ALIAS"
  | .variable => "VARIABLE"
  | .file => "FILE"

/-- The kind of a name, short or full, whatever its case and its outer blanks. -/
def ofName? (name : String) : Option DeclarationKind :=
  let wanted := lowered (trimmed name)
  all.find? fun k => wanted == lowered k.title || wanted == k.label

end DeclarationKind

end DocHeader
