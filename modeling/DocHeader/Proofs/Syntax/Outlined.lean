import DocHeader.Proofs.Syntax.Described
import DocHeader.Proofs.Text.CodeUnits

/-!
# Trees cut out of their text

The offsets of a helper's tree count code units, those of the nodes read from it count
characters. When the offsets of the tree lie between characters of the text, each node has its
places in the text where the helper put them, in the same order, and its text is the stretch of
the source between its offsets, whether it is cut by characters or by units.

## Main definitions

* `Json.OnBoundaries` — the offsets of a tree lie between characters.
* `NodeInfo.IsCut` — a node has its places and its text where its offsets say.
* `Node.IsCut` — so have all nodes of a tree.
-/

namespace DocHeader

open Utf16

/-- An offset lies between two characters of a text, or at one of its ends. -/
def Utf16.IsBoundary (cs : List Char) (offset : Int) : Prop := ∃ index, Marks cs offset index

/-- Every offset that a value and the children below it name is an integer and lies between two
characters. -/
inductive Json.OnBoundaries (cs : List Char) : Json → Prop where
  | node {fields : List (String × Json)}
    (hoffsets : ∀ name ∈ ["pos", "start", "end"], ∀ j, lookup name fields = some j →
      ∃ offset, j = .number (.int offset) ∧ IsBoundary cs offset)
    (hchildren : ∀ items, lookup "children" fields = some (.array items) →
      ∀ child ∈ items, OnBoundaries cs child) : OnBoundaries cs (.object fields)

/-- A node has its places in a text where three offsets say, and its text is what lies between
the last two of them. -/
structure NodeInfo.IsCut (cs : List Char) (pos low high : Int) (info : NodeInfo) : Prop where
  fullStart : Marks cs pos info.fullStart
  start : Marks cs low info.start
  stop : Marks cs high info.stop
  units : units info.text.toList = ((units cs).take high.toNat).drop low.toNat
  characters : info.text.toList = (cs.take info.stop.toNat).drop info.start.toNat
  fullStart_le : info.fullStart ≤ info.start ↔ pos ≤ low
  start_le : info.start ≤ info.stop ↔ low ≤ high

/-- Every node of a tree is cut out of a text where a value says. A node of which the value does
not say where it starts with what precedes it starts there itself. -/
inductive Node.IsCut (cs : List Char) : Json → Node → Prop where
  | node {fields : List (String × Json)} {pos low high : Int} {info : NodeInfo}
    {items : List Json} {children : List Node}
    (hlow : Json.lookup "start" fields = some (.number (.int low)))
    (hhigh : Json.lookup "end" fields = some (.number (.int high)))
    (hpos : Json.lookup "pos" fields = some (.number (.int pos)) ∨
      Json.lookup "pos" fields = none ∧ pos = low)
    (hinfo : info.IsCut cs pos low high)
    (hitems : Json.ListsItems fields "children" items)
    (hchildren : List.Forall₂ (IsCut cs) items children) :
    IsCut cs (.object fields) (.mk info children)

/-- The characters between two places of a text. -/
theorem Utf16.Marks.slice_eq {cs : List Char} {offset index offset' index' : Int}
    (h : Marks cs offset index) (h' : Marks cs offset' index') :
    Text.slice cs index index' = (cs.take index'.toNat).drop index.toNat := by
  have hwithin {o i : Int} (hmarks : Marks cs o i) : Text.resolve cs.length i = i.toNat := by
    obtain ⟨before, after, rfl, -, rfl⟩ := hmarks
    exact Text.resolve_of_le (by simp)
  rw [Text.slice, hwithin h, hwithin h']

namespace Node

variable {source : Source} {fields : List (String × Json)} {cs : List Char}

/-! ## Cutting -/

/-- An offset between two characters is read as the index of its place. -/
theorem marks_of_boundary {offset index : Int} (hboundary : IsBoundary cs offset)
    (hindex : (OffsetMap.ofText cs).toIndex? offset = some index) : Marks cs offset index := by
  obtain ⟨place, hmarks⟩ := hboundary
  rw [OffsetMap.toIndex?_of_marks hmarks] at hindex
  exact Option.some.inj hindex ▸ hmarks

/-- An offset field that lies between two characters is read as the index of its place. -/
theorem marks_of_readOffset {text name : String} {v : Json} {place : Int → Prop}
    (hoffset : ∀ j, fieldValue? fields name = some j →
      ∃ offset, j = .number (.int offset) ∧ place offset ∧ IsBoundary text.toList offset)
    (h : readOffset (.ofText text) fields name = .ok v) :
    ∃ offset index, place offset ∧ v = .ofInt index ∧ Marks text.toList offset index := by
  obtain ⟨j, hj, hconverted⟩ := readOffset_eq_ok.mp h
  obtain ⟨offset, rfl, hplace, hboundary⟩ := hoffset j hj
  rcases convert_eq_ok.mp hconverted with ⟨hidentity, rfl⟩ | ⟨-, given, index, hgiven, hindex, rfl⟩
  · have hindex : (OffsetMap.ofText text.toList).toIndex? offset = some offset := by
      rw [show OffsetMap.ofText text.toList = .identity from hidentity]
      rfl
    exact ⟨offset, offset, hplace, rfl, marks_of_boundary hboundary hindex⟩
  · cases hgiven
    exact ⟨offset, index, hplace, rfl, marks_of_boundary hboundary hindex⟩

/-- A node with offsets between characters is cut out where they say. -/
theorem isCut_of_readInfo {text : String} {info : NodeInfo}
    (hoffsets : ∀ name ∈ ["pos", "start", "end"], ∀ j, Json.lookup name fields = some j →
      ∃ offset, j = .number (.int offset) ∧ IsBoundary text.toList offset)
    (h : readInfo (.ofText text) fields = .ok info) :
    ∃ pos low high, Json.lookup "start" fields = some (.number (.int low)) ∧
      Json.lookup "end" fields = some (.number (.int high)) ∧
      (Json.lookup "pos" fields = some (.number (.int pos)) ∨
        Json.lookup "pos" fields = none ∧ pos = low) ∧
      info.IsCut text.toList pos low high := by
  obtain ⟨start, stop, fullStart, hstart, hstop, hfull, hlow, hhigh, -, hleast, htext, -⟩ :=
    readInfo_eq_ok h
  have hbound (name : String) (hname : name ∈ ["start", "end"]) :
      ∀ j, fieldValue? fields name = some j → ∃ offset, j = .number (.int offset) ∧
        Json.lookup name fields = some (.number (.int offset)) ∧
        IsBoundary text.toList offset := by
    intro j hj
    have hplain : fieldValue? fields name = Json.lookup name fields := by
      rcases List.mem_pair.mp hname with rfl | rfl <;> rfl
    rw [hplain] at hj
    obtain ⟨offset, rfl, hboundary⟩ := hoffsets name (List.mem_cons_of_mem _ hname) j hj
    exact ⟨offset, rfl, hj, hboundary⟩
  obtain ⟨low, lowIndex, hlowField, rfl, hlowMarks⟩ :=
    marks_of_readOffset (hbound "start" (by simp)) hstart
  obtain ⟨high, highIndex, hhighField, rfl, hhighMarks⟩ :=
    marks_of_readOffset (hbound "end" (by simp)) hstop
  have hpos : ∀ j, fieldValue? fields "pos" = some j → ∃ offset, j = .number (.int offset) ∧
      (Json.lookup "pos" fields = some (.number (.int offset)) ∨
        Json.lookup "pos" fields = none ∧ offset = low) ∧ IsBoundary text.toList offset := by
    intro j hj
    rw [show fieldValue? fields "pos" =
      (Json.lookup "pos" fields).or (Json.lookup "start" fields) from rfl] at hj
    cases hfield : Json.lookup "pos" fields with
    | none =>
      rw [hfield, hlowField] at hj
      cases hj
      exact ⟨low, rfl, .inr ⟨rfl, rfl⟩, lowIndex, hlowMarks⟩
    | some found =>
      rw [hfield] at hj
      cases hj
      obtain ⟨offset, rfl, hboundary⟩ := hoffsets "pos" (by simp) _ hfield
      exact ⟨offset, rfl, .inl rfl, hboundary⟩
  obtain ⟨pos, posIndex, hposField, rfl, hposMarks⟩ := marks_of_readOffset hpos hfull
  obtain rfl : lowIndex = info.start := Except.ok.inj hlow
  obtain rfl : highIndex = info.stop := Except.ok.inj hhigh
  obtain rfl : posIndex = info.fullStart := hleast.symm
  have hcharacters : info.text.toList =
      (text.toList.take info.stop.toNat).drop info.start.toNat :=
    htext.trans (hlowMarks.slice_eq hhighMarks)
  exact ⟨pos, low, high, hlowField, hhighField, hposField, {
    fullStart := hposMarks
    start := hlowMarks
    stop := hhighMarks
    units := by rw [hcharacters, hlowMarks.units_slice hhighMarks]
    characters := hcharacters
    fullStart_le := (hposMarks.le_iff hlowMarks).symm
    start_le := (hlowMarks.le_iff hhighMarks).symm }⟩

/-- What a field lists is an array, or it is no node. -/
theorem eq_array_of_read {j item : Json} {items : List Json} {n : Node}
    (hlisted : j.listed? = some items) (hitem : item ∈ items) (h : read source item = .ok n) :
    j = .array items := by
  cases j with
  | array listed =>
    cases hlisted
    rfl
  | string s =>
    cases hlisted
    obtain ⟨c, -, rfl⟩ := List.mem_map.mp hitem
    cases h
  | object named =>
    cases hlisted
    obtain ⟨field, -, rfl⟩ := List.mem_map.mp hitem
    cases h
  | null => cases hlisted
  | bool b => cases hlisted
  | number m => cases hlisted

/-- A tree with offsets between characters is cut out of its text. -/
theorem isCut_of_onBoundaries {text : String} {j : Json} {n : Node}
    (hboundaries : j.OnBoundaries text.toList) (h : read (.ofText text) j = .ok n) :
    n.IsCut text.toList j := by
  induction hboundaries generalizing n with
  | node hoffsets _ ih =>
    obtain ⟨info, children, rfl, hinfo, hchildren⟩ := read_eq_ok.mp h
    obtain ⟨pos, low, high, hlow, hhigh, hpos, hcut⟩ := isCut_of_readInfo hoffsets hinfo
    obtain ⟨items, hitems, hread⟩ := readChildren_eq_ok.mp hchildren
    refine .node hlow hhigh hpos hcut hitems ?_
    have hall : ∀ item ∈ items, ∀ n, read (.ofText text) item = .ok n →
        n.IsCut text.toList item := by
      intro item hitem n hn
      rcases hitems with ⟨-, rfl⟩ | ⟨listing, hfield, hlisted⟩
      · cases hitem
      · rw [eq_array_of_read hlisted hitem hn] at hfield
        exact ih items hfield item hitem hn
    exact ((List.forall₂_and_left items children).mpr ⟨hall, hread⟩).imp
      fun item n hitem => hitem.1 n hitem.2

/-- **Offsets in code units.** The offset before a character, or at the end of a text, is
converted to the number of characters before it, and an offset inside a surrogate pair to the
index of its character; all offsets within a text are converted, to indices in the same order.
Without wide characters offsets are taken as they are, and the table would have given the same.
So a tree with offsets between characters has at each node the stretch of the source that its
offsets enclose, and the places of a node keep their order. -/
theorem ofJson_isCut (text : String) :
    (∀ before after, text.toList = before ++ after →
      (OffsetMap.ofText text.toList).toIndex? (units before).length = some before.length) ∧
    (∀ before c after, text.toList = before ++ c :: after →
      ∀ o : Nat, (units before).length < o → o < (units (before ++ [c])).length →
        (OffsetMap.ofText text.toList).toIndex? o = some before.length) ∧
    (∀ o o' : Nat, o ≤ o' → o' ≤ (units text.toList).length → ∃ i i' : Nat,
      (OffsetMap.ofText text.toList).toIndex? o = some (i : Int) ∧
      (OffsetMap.ofText text.toList).toIndex? o' = some (i' : Int) ∧
      i ≤ i' ∧ i' ≤ text.toList.length) ∧
    ((∀ c ∈ text.toList, c.toNat ≤ 0xffff) →
      OffsetMap.ofText text.toList = .identity ∧ ∀ o : Nat, o ≤ (units text.toList).length →
        (OffsetMap.table (unitIndices 0 text.toList).toArray).toIndex? o =
          OffsetMap.identity.toIndex? o) ∧
    ∀ j n, ofJson j text = .ok n → j.OnBoundaries text.toList → n.IsCut text.toList j := by
  refine ⟨?_, ?_, ?_, ?_, fun j n hread hboundaries => isCut_of_onBoundaries hboundaries hread⟩
  · intro before after hsplit
    exact OffsetMap.toIndex?_of_marks ⟨before, after, hsplit, rfl, rfl⟩
  · intro before c after hsplit o hlow hhigh
    rw [hsplit]
    exact OffsetMap.toIndex?_inside hlow hhigh
  · intro o o' hle hwithin
    exact OffsetMap.toIndex?_mono hle hwithin
  · intro hnarrow
    exact ⟨OffsetMap.ofText_of_narrow hnarrow,
      fun o ho => OffsetMap.toIndex?_table_of_narrow hnarrow ho⟩

/-- A tree of `😀 = a`, in which the name starts at the fifth code unit. -/
def grinning : Json :=
  .object [("kind", .string "SourceFile"), ("start", .ofInt 0), ("end", .ofInt 6),
    ("children", .array [.object [("kind", .string "Identifier"), ("pos", .ofInt 4),
      ("start", .ofInt 5), ("end", .ofInt 6)]])]

theorem ofJson_grinning : ∃ info child,
    ofJson grinning "😀 = a" = .ok (.mk info [.mk child []]) ∧
    grinning.OnBoundaries "😀 = a".toList ∧
    (Node.mk info [.mk child []]).IsCut "😀 = a".toList grinning ∧
    child.text = "a" ∧ child.fullStart = 3 ∧ child.start = 4 ∧
    (OffsetMap.ofText "😀 = a".toList).toIndex? 1 = some 0 := by
  have hread : ∃ info child, ofJson grinning "😀 = a" = .ok (.mk info [.mk child []]) ∧
      child.text = "a" ∧ child.fullStart = 3 ∧ child.start = 4 := ⟨_, _, rfl, rfl, rfl, rfl⟩
  have hboundary (n : Nat) : IsBoundary "😀 = a".toList (units ("😀 = a".toList.take n)).length :=
    ⟨_, _, _, (List.take_append_drop n _).symm, rfl, rfl⟩
  have hname : Json.OnBoundaries "😀 = a".toList (.object [("kind", .string "Identifier"),
      ("pos", .ofInt 4), ("start", .ofInt 5), ("end", .ofInt 6)]) := by
    refine .node ?_ (by simp [Json.lookup, Association.get?])
    have hplaces : IsBoundary "😀 = a".toList 4 ∧ IsBoundary "😀 = a".toList 5 ∧
        IsBoundary "😀 = a".toList 6 := ⟨hboundary 3, hboundary 4, hboundary 5⟩
    simpa [Json.lookup, Association.get?, Json.ofInt] using hplaces
  have hboundaries : grinning.OnBoundaries "😀 = a".toList := by
    refine .node ?_ ?_
    · have hplaces : IsBoundary "😀 = a".toList 0 ∧ IsBoundary "😀 = a".toList 6 :=
        ⟨hboundary 0, hboundary 5⟩
      simpa [Json.lookup, Association.get?, Json.ofInt] using hplaces
    · simpa [Json.lookup, Association.get?] using hname
  obtain ⟨info, child, hread, hplaces⟩ := hread
  obtain ⟨-, hinside, -, -, hcut⟩ := ofJson_isCut "😀 = a"
  exact ⟨info, child, hread, hboundaries, hcut grinning _ hread hboundaries, hplaces.1,
    hplaces.2.1, hplaces.2.2, hinside [] '😀' _ rfl 1 (by decide) (by decide)⟩

end Node

end DocHeader
