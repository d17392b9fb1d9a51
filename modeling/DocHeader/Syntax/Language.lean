import DocHeader.Disk.Path

/-!
# Languages of source files

Which files can be read, by the suffix of their names.

## Main definitions

* `SourceLanguage` — the languages.
* `SourceLanguage.ofFile?` — the language of a file.
* `supportedGlob` — the glob of all files with a supported suffix.
-/

namespace DocHeader

/-- The languages of source files. -/
inductive SourceLanguage where
  | typescript
  | javascript
  deriving DecidableEq, Repr

namespace SourceLanguage

/-- The name of a language. -/
def label : SourceLanguage → String
  | .typescript => "typescript"
  | .javascript => "javascript"

/-- The suffixes of file names, without their dots. -/
def extensions : List (String × SourceLanguage) :=
  [("ts", .typescript), ("tsx", .typescript), ("mts", .typescript), ("cts", .typescript),
    ("js", .javascript), ("jsx", .javascript), ("mjs", .javascript), ("cjs", .javascript)]

/-- The language of a suffix, in any case. -/
def ofSuffix? (suffix : String) : Option SourceLanguage :=
  (extensions.find? fun e => lowered suffix == "." ++ e.1).map (·.2)

/-- The language of a file. -/
def ofFile? (file : String) : Option SourceLanguage := ofSuffix? (Path.ofText file).suffix

end SourceLanguage

/-- The glob of all files with a supported suffix, in any directory. -/
def supportedGlob : String :=
  "**/*.\x7b" ++ joinWith "," (SourceLanguage.extensions.map (·.1)) ++ "\x7d"

end DocHeader
