import DocHeader.Syntax.Helper
import Mathlib.Data.List.Forall2

/-!
# Trees as the helper describes them

What the fields of a JSON object have to be for it to describe a node of a source text, and
the values that describe a tree throughout. These are read, and no others are. So a run of the
helper gives a tree or a failure that concerns the file alone just when it does not print the
object of a whole file that describes no tree.

The types of most fields do not matter: a tree may hold a number for a name and null for an
offset. Only where a value is looked up, cut with or taken apart must it allow that.

## Main definitions

* `Json.Describes` — fields that describe a node.
* `Json.IsTree` — a value that describes a tree.
* `HelperRun.Misprints` — a run that prints the object of a file, and it describes no tree.
-/

namespace DocHeader

namespace Json

/-- A value that is converted to an index of the source: any value where offsets are indices
already, and elsewhere one that counts as an offset of the source. -/
def IsIndex (source : Source) (j : Json) : Prop :=
  source.offsets = .identity ∨
    ∃ offset index, j.index? = some offset ∧ source.offsets.toIndex? offset = some index

/-- A value that is converted to a bound that the source can be cut at. -/
def IsBound (source : Source) (j : Json) : Prop :=
  IsIndex source j ∧ (j = .null ∨ j.index?.isSome = true)

/-- Fields that describe a node of a source text, its children apart. -/
structure Describes (source : Source) (fields : List (String × Json)) : Prop where
  start : ∃ j, lookup "start" fields = some j ∧ IsBound source j
  stop : ∃ j, lookup "end" fields = some j ∧ IsBound source j
  kind : (lookup "kind" fields).isSome = true
  fullStart : ∀ j, lookup "pos" fields = some j → IsIndex source j
  modifiers : ∀ j, lookup "modifiers" fields = some j → j.listed?.isSome = true
  typeArguments : ∀ j, lookup "typeArguments" fields = some j → j.listed?.isSome = true

/-- The items of a field that lists something; an absent one lists nothing. -/
def ListsItems (fields : List (String × Json)) (name : String) (items : List Json) : Prop :=
  lookup name fields = none ∧ items = [] ∨
    ∃ j, lookup name fields = some j ∧ j.listed? = some items

/-- A value that describes a tree of a source text. -/
inductive IsTree (source : Source) : Json → Prop where
  | node {fields : List (String × Json)} {children : List Json}
    (hfields : Describes source fields) (hchildren : ListsItems fields "children" children)
    (htrees : ∀ child ∈ children, IsTree source child) : IsTree source (.object fields)

end Json

namespace Node

open Json

variable {source : Source} {fields : List (String × Json)} {name : String} {j v : Json}

theorem bind_eq_ok {ε α β : Type} {x : Except ε α} {f : α → Except ε β} {b : β} :
    (x >>= f) = .ok b ↔ ∃ a, x = .ok a ∧ f a = .ok b := by
  cases x <;> simp [bind, Except.bind]

/-! ## Fields -/

theorem convert_eq_ok : convert source j = .ok v ↔
    source.offsets = .identity ∧ v = j ∨
      source.offsets ≠ .identity ∧ ∃ offset index, j.index? = some offset ∧
        source.offsets.toIndex? offset = some index ∧ v = .ofInt index := by
  unfold convert
  split
  next offset hoffsets => simp [hoffsets, eq_comm]
  next indices hoffsets hindex => simp [hoffsets, hindex]
  next indices offset hoffsets hindex =>
    cases hfound : (OffsetMap.table indices).toIndex? offset with
    | none => simp [hoffsets, hindex, hfound]
    | some index => simp [hoffsets, hindex, hfound, eq_comm]

theorem convert_isOk_iff : (∃ v, convert source j = .ok v) ↔ IsIndex source j := by
  simp only [convert_eq_ok, IsIndex]
  by_cases hidentity : source.offsets = .identity
  · simp [hidentity]
  · simp only [hidentity, false_and, ne_eq, not_false_eq_true, true_and, false_or]
    exact ⟨fun ⟨_, offset, index, hj, hindex, _⟩ => ⟨offset, index, hj, hindex⟩,
      fun ⟨offset, index, hj, hindex⟩ => ⟨_, offset, index, hj, hindex, rfl⟩⟩

theorem readBound_eq_ok {otherwise index : Int} : readBound otherwise v = .ok index ↔
    v = .null ∧ index = otherwise ∨ v.index? = some index := by
  unfold readBound
  split
  next => simp [index?, eq_comm]
  next j hother =>
    have hnull : ¬v = .null := fun h => hother h
    cases hindex : v.index? <;> simp [hnull]

theorem readOffset_eq_ok : readOffset source fields name = .ok v ↔
    ∃ j, fieldValue? fields name = some j ∧ convert source j = .ok v := by
  unfold readOffset
  cases fieldValue? fields name <;> simp

/-- The source can be cut at a bound, whatever null stands for. -/
theorem readBound_isOk_iff (otherwise : Int) :
    (∃ v, convert source j = .ok v ∧ ∃ index, readBound otherwise v = .ok index) ↔
      IsBound source j := by
  simp only [convert_eq_ok, readBound_eq_ok, IsBound, IsIndex]
  by_cases hidentity : source.offsets = .identity
  · simp [hidentity, Option.isSome_iff_exists, exists_or]
  · simp only [hidentity, false_and, ne_eq, not_false_eq_true, true_and, false_or]
    constructor
    · rintro ⟨v, ⟨offset, index, hj, hindex, rfl⟩, -⟩
      exact ⟨⟨offset, index, hj, hindex⟩, .inr (by simp [hj])⟩
    · rintro ⟨⟨offset, index, hj, hindex⟩, -⟩
      exact ⟨_, ⟨offset, index, hj, hindex, rfl⟩, index, .inr rfl⟩

theorem readKind_eq_ok {kind : String} :
    readKind fields = .ok kind ↔ ∃ j, lookup "kind" fields = some j ∧ j.plainText = kind := by
  unfold readKind
  split <;> simp_all

theorem readTexts_eq_ok {texts : List String} : readTexts fields name = .ok texts ↔
    ∃ items, ListsItems fields name items ∧ items.map Json.plainText = texts := by
  unfold readTexts ListsItems
  cases hfield : lookup name fields with
  | none => simp
  | some j => cases hitems : j.listed? <;> simp [hitems]

theorem readTexts_isOk_iff : (∃ texts, readTexts fields name = .ok texts) ↔
    ∀ j, lookup name fields = some j → j.listed?.isSome = true := by
  simp only [readTexts_eq_ok, ListsItems]
  cases hfield : lookup name fields with
  | none => simp
  | some j => simp [Option.isSome_iff_exists]

/-! ## Nodes -/

/-- What reading the fields of a node comes to. -/
theorem readInfo_eq_ok {info : NodeInfo} (h : readInfo source fields = .ok info) :
    ∃ start stop fullStart, readOffset source fields "start" = .ok start ∧
      readOffset source fields "end" = .ok stop ∧
      readOffset source fields "pos" = .ok fullStart ∧
      readBound 0 start = .ok info.start ∧
      readBound source.characters.length stop = .ok info.stop ∧
      readKind fields = .ok info.kind ∧
      info.fullStart = leastIndex source.characters.length fullStart ∧
      info.text.toList = Text.slice source.characters info.start info.stop ∧
      info.mistyped = misfits fields := by
  simp only [readInfo, bind_eq_ok] at h
  obtain ⟨start, hstart, stop, hstop, kind, hkind, fullStart, hfull, low, hlow, high, hhigh, h⟩ := h
  obtain ⟨_, -, _, -, h⟩ := h
  cases h
  exact ⟨start, stop, fullStart, hstart, hstop, hfull, hlow, hhigh, hkind, rfl,
    String.toList_ofList, rfl⟩

/-- The fields that describe a node are read, and no others. -/
theorem readInfo_isOk_iff :
    (∃ info, readInfo source fields = .ok info) ↔ Describes source fields := by
  have hposition : fieldValue? fields "pos" =
      (lookup "pos" fields).or (lookup "start" fields) := rfl
  constructor
  · rintro ⟨info, h⟩
    simp only [readInfo, bind_eq_ok, readOffset_eq_ok] at h
    obtain ⟨start, ⟨low, hlow, hstart⟩, stop, ⟨high, hhigh, hstop⟩, kind, hkind, h⟩ := h
    obtain ⟨fullStart, ⟨pos, hpos, hfull⟩, first, hfirst, last, hlast, h⟩ := h
    obtain ⟨modifiers, hmodifiers, typeArguments, htypeArguments, -⟩ := h
    obtain ⟨found, hfound, -⟩ := readKind_eq_ok.mp hkind
    exact {
      start := ⟨low, hlow, (readBound_isOk_iff 0).mp ⟨start, hstart, first, hfirst⟩⟩
      stop := ⟨high, hhigh, (readBound_isOk_iff _).mp ⟨stop, hstop, last, hlast⟩⟩
      kind := by rw [hfound]; rfl
      fullStart := fun j hj => by
        rw [hposition, hj, Option.some_or] at hpos
        exact convert_isOk_iff.mp ⟨fullStart, Option.some.inj hpos ▸ hfull⟩
      modifiers := readTexts_isOk_iff.mp ⟨modifiers, hmodifiers⟩
      typeArguments := readTexts_isOk_iff.mp ⟨typeArguments, htypeArguments⟩ }
  · intro h
    obtain ⟨low, hlow, hlowBound⟩ := h.start
    obtain ⟨high, hhigh, hhighBound⟩ := h.stop
    obtain ⟨start, hstart, first, hfirst⟩ := (readBound_isOk_iff 0).mpr hlowBound
    obtain ⟨stop, hstop, last, hlast⟩ :=
      (readBound_isOk_iff source.characters.length).mpr hhighBound
    obtain ⟨found, hfound⟩ := Option.isSome_iff_exists.mp h.kind
    obtain ⟨pos, fullStart, hpos, hfull⟩ : ∃ pos fullStart,
        fieldValue? fields "pos" = some pos ∧ convert source pos = .ok fullStart := by
      cases hpos : lookup "pos" fields with
      | none => exact ⟨low, start, by rw [hposition, hpos, hlow]; rfl, hstart⟩
      | some pos =>
        obtain ⟨fullStart, hfull⟩ := convert_isOk_iff.mpr (h.fullStart pos hpos)
        exact ⟨pos, fullStart, by rw [hposition, hpos]; rfl, hfull⟩
    obtain ⟨modifiers, hmodifiers⟩ := readTexts_isOk_iff.mpr h.modifiers
    obtain ⟨typeArguments, htypeArguments⟩ := readTexts_isOk_iff.mpr h.typeArguments
    simp only [readInfo, bind_eq_ok, readOffset_eq_ok]
    exact ⟨_, start, ⟨low, hlow, hstart⟩, stop, ⟨high, hhigh, hstop⟩, _,
      readKind_eq_ok.mpr ⟨found, hfound, rfl⟩, fullStart, ⟨pos, hpos, hfull⟩, first, hfirst, last,
      hlast, modifiers, hmodifiers, typeArguments, htypeArguments, rfl⟩

theorem readChildren_eq (source : Source) (fields : List (String × Json)) :
    readChildren source fields =
      match lookup "children" fields with
      | none => .ok []
      | some j => readList source j := by
  induction fields with
  | nil => rfl
  | cons field rest ih =>
    obtain ⟨name, j⟩ := field
    by_cases hname : name = "children"
    · simp [readChildren, lookup, Association.get?, hname]
    · simp [readChildren, lookup, Association.get?, hname, ih]

theorem readAll_eq_ok {items : List Json} {nodes : List Node} :
    readAll source items = .ok nodes ↔
      List.Forall₂ (fun j n => read source j = .ok n) items nodes := by
  induction items generalizing nodes with
  | nil => cases nodes <;> simp [readAll]
  | cons j rest ih =>
    cases hread : read source j with
    | error e => cases nodes <;> simp [readAll, hread]
    | ok n =>
      cases hrest : readAll source rest with
      | error e => cases nodes <;> simp [readAll, hread, hrest, Except.map, ← ih]
      | ok others => cases nodes <;> simp [readAll, hread, hrest, Except.map, ← ih]

/-- Of the items of a list all are read. A text or an object lists no nodes. -/
theorem readList_eq_ok {nodes : List Node} :
    readList source j = .ok nodes ↔
      ∃ items, j.listed? = some items ∧
        List.Forall₂ (fun j n => read source j = .ok n) items nodes := by
  have htexts {α : Type} (name : α → String) (entries : List α) :
      List.Forall₂ (fun j n => read source j = .ok n) (entries.map fun a => .string (name a))
        nodes ↔ entries = [] ∧ nodes = [] := by
    cases entries <;> cases nodes <;> simp [read]
  cases j with
  | array items => simp [readList, listed?, readAll_eq_ok]
  | string s =>
    by_cases hempty : s = ""
    · cases nodes <;> simp [readList, listed?, hempty]
    · simp [readList, listed?, htexts, hempty]
  | object fields =>
    by_cases hempty : fields = []
    · cases nodes <;> simp [readList, listed?, hempty]
    · simp [readList, listed?, htexts, hempty]
  | null => simp [readList, listed?]
  | bool b => simp [readList, listed?]
  | number n => simp [readList, listed?]

/-- The children that are read are those of the items listed, if any are. -/
theorem readChildren_eq_ok {nodes : List Node} :
    readChildren source fields = .ok nodes ↔
      ∃ items, ListsItems fields "children" items ∧
        List.Forall₂ (fun j n => read source j = .ok n) items nodes := by
  rw [readChildren_eq]
  cases hfield : lookup "children" fields with
  | none => cases nodes <;> simp [ListsItems, hfield]
  | some j => simp [ListsItems, hfield, readList_eq_ok]

theorem read_eq_ok {n : Node} :
    read source (.object fields) = .ok n ↔
      ∃ info children, n = .mk info children ∧ readInfo source fields = .ok info ∧
        readChildren source fields = .ok children := by
  rw [read]
  cases readInfo source fields with
  | error e => simp
  | ok info =>
    cases readChildren source fields with
    | error e => simp [Except.map]
    | ok children => simp [Except.map, eq_comm]

theorem exists_forall₂_of_forall {items : List Json} (h : ∀ j ∈ items, ∃ n, read source j = .ok n) :
    ∃ nodes, List.Forall₂ (fun j n => read source j = .ok n) items nodes := by
  induction items with
  | nil => exact ⟨[], .nil⟩
  | cons j rest ih =>
    obtain ⟨⟨n, hn⟩, hrest⟩ := List.forall_mem_cons.mp h
    obtain ⟨nodes, hnodes⟩ := ih hrest
    exact ⟨n :: nodes, .cons hn hnodes⟩

/-- A value that describes a tree is read. -/
theorem read_of_isTree {j : Json} (h : IsTree source j) : ∃ n, read source j = .ok n := by
  induction h with
  | node hfields hchildren htrees ih =>
    obtain ⟨info, hinfo⟩ := readInfo_isOk_iff.mpr hfields
    obtain ⟨nodes, hnodes⟩ := exists_forall₂_of_forall ih
    exact ⟨.mk info nodes,
      read_eq_ok.mpr ⟨info, nodes, rfl, hinfo, readChildren_eq_ok.mpr ⟨_, hchildren, hnodes⟩⟩⟩

mutual

/-- A value that is read describes a tree. -/
theorem isTree_of_read : (n : Node) → {j : Json} → read source j = .ok n → IsTree source j
  | .mk info children, .object fields, h => by
    obtain ⟨_, _, hnode, hinfo, hread⟩ := read_eq_ok.mp h
    cases hnode
    obtain ⟨items, hitems, hnodes⟩ := readChildren_eq_ok.mp hread
    exact .node (readInfo_isOk_iff.mp ⟨info, hinfo⟩) hitems (isTree_of_readAll children hnodes)
  | _, .null, h | _, .bool _, h | _, .number _, h | _, .string _, h | _, .array _, h => by
    cases h

theorem isTree_of_readAll : (nodes : List Node) → {items : List Json} →
    List.Forall₂ (fun j n => read source j = .ok n) items nodes →
      ∀ child ∈ items, IsTree source child
  | [], _, .nil => by simp
  | n :: rest, _, .cons hn hrest =>
    List.forall_mem_cons.mpr ⟨isTree_of_read n hn, isTree_of_readAll rest hrest⟩

end

theorem read_isOk_iff {j : Json} : (∃ n, read source j = .ok n) ↔ IsTree source j :=
  ⟨fun ⟨n, h⟩ => isTree_of_read n h, read_of_isTree⟩

/-- A node has the kind that its fields name. -/
theorem read_kind {n : Node} (h : read source (.object fields) = .ok n) :
    readKind fields = .ok n.kind := by
  obtain ⟨info, children, rfl, hinfo, -⟩ := read_eq_ok.mp h
  obtain ⟨_, _, _, -, -, -, -, -, hkind, -⟩ := readInfo_eq_ok hinfo
  exact hkind

end Node

/-- A run that prints the object of a whole file, which describes no tree of the text. -/
def HelperRun.Misprints (run : HelperRun) (text : String) : Prop :=
  ∃ stdout stderr code fields, run = .finished stdout stderr code ∧
    Json.parse (if stdout.isEmpty then stderr else stdout) = .ok (.object fields) ∧
    Json.lookup "error" fields = none ∧ Json.lookup "kind" fields = some (.string rootKind) ∧
    ¬Json.IsTree (.ofText text) (.object fields)

/-- What an output gives: a tree, a failure that concerns the file alone, or neither, when it is
the object of a whole file and describes no tree. -/
theorem readTree_cases (file text : String) (output : Json) :
    (∃ fields n, output = .object fields ∧ readTree file text output = .ok (.root n) ∧
      Json.IsTree (.ofText text) (.object fields) ∧ n.kind = rootKind) ∨
    (∃ e, readTree file text output = .error e ∧ e.isRecoverable = true ∧
      ∀ fields, output = .object fields → Json.lookup "error" fields = none →
        Json.lookup "kind" fields ≠ some (.string rootKind)) ∨
    ∃ fields e, output = .object fields ∧ readTree file text output = .error (.malformed e) ∧
      Json.lookup "error" fields = none ∧ Json.lookup "kind" fields = some (.string rootKind) ∧
      ¬Json.IsTree (.ofText text) (.object fields) := by
  unfold readTree
  split
  case h_2 hobject =>
    exact .inr (.inl ⟨_, rfl, rfl, fun fields hfields => (hobject _ hfields).elim⟩)
  case h_1 fields =>
    split
    case h_1 complaint hcomplaint =>
      refine .inr (.inl ⟨_, rfl, rfl, ?_⟩)
      rintro _ ⟨⟩ hnone
      rw [hcomplaint] at hnone
      cases hnone
    case h_2 herror =>
      split
      case h_2 hkind =>
        refine .inr (.inl ⟨_, rfl, rfl, ?_⟩)
        rintro _ ⟨⟩ - hroot
        exact hkind _ hroot
      case h_1 kind hkind =>
        split
        case isFalse hother =>
          refine .inr (.inl ⟨_, rfl, rfl, ?_⟩)
          rintro _ ⟨⟩ - hroot
          rw [hkind] at hroot
          cases hroot
          exact hother (beq_self_eq_true rootKind)
        case isTrue hroot =>
          obtain rfl := beq_iff_eq.mp hroot
          cases hread : Node.ofJson (.object fields) text with
          | ok n =>
            have hkept := Node.read_kind hread
            rw [Node.readKind, hkind] at hkept
            exact .inl ⟨fields, n, rfl, rfl, Node.isTree_of_read n hread,
              (Except.ok.inj hkept).symm⟩
          | error e =>
            refine .inr (.inr ⟨fields, e, rfl, rfl, herror, hkind, fun htree => ?_⟩)
            obtain ⟨n, hn⟩ := Node.read_of_isTree htree
            rw [Node.ofJson, hn] at hread
            cases hread

/-- A run gives a tree, or a failure that concerns the file alone, just when it does not
misprint. -/
theorem HelperRun.not_misprints_iff (run : HelperRun) (text file : String) :
    ¬run.Misprints text ↔ (∃ root, run.parse file text = .ok root) ∨
      ∃ e, run.parse file text = .error e ∧ e.isRecoverable = true := by
  cases run with
  | timedOut => exact ⟨fun _ => .inr ⟨_, rfl, rfl⟩, fun _ ⟨_, _, _, _, h, _⟩ => by cases h⟩
  | notInstalled => exact ⟨fun _ => .inr ⟨_, rfl, rfl⟩, fun _ ⟨_, _, _, _, h, _⟩ => by cases h⟩
  | undecodable problem =>
    exact ⟨fun _ => .inr ⟨_, rfl, rfl⟩, fun _ ⟨_, _, _, _, h, _⟩ => by cases h⟩
  | finished stdout stderr code =>
    have hmisprints : Misprints (.finished stdout stderr code) text ↔
        ∃ fields, Json.parse (if stdout.isEmpty then stderr else stdout) = .ok (.object fields) ∧
          Json.lookup "error" fields = none ∧
          Json.lookup "kind" fields = some (.string rootKind) ∧
          ¬Json.IsTree (.ofText text) (.object fields) := by
      constructor
      · rintro ⟨_, _, _, fields, ⟨⟩, hfields⟩
        exact ⟨fields, hfields⟩
      · rintro ⟨fields, hfields⟩
        exact ⟨_, _, _, fields, rfl, hfields⟩
    rw [hmisprints]
    cases hparse : Json.parse (if stdout.isEmpty then stderr else stdout) with
    | error problem =>
      simp only [parse, hparse]
      exact ⟨fun _ => .inr ⟨_, rfl, rfl⟩, fun _ ⟨_, h, _⟩ => by cases h⟩
    | ok output =>
      simp only [parse, hparse, Except.ok.injEq]
      rcases readTree_cases file text output with
        ⟨fields, n, rfl, hroot, htree, -⟩ | ⟨e, hfailed, hrecoverable, hother⟩ |
        ⟨fields, e, rfl, hmalformed, hfields⟩
      · refine ⟨fun _ => .inl ⟨_, hroot⟩, ?_⟩
        rintro - ⟨_, ⟨⟩, -, -, hnone⟩
        exact hnone htree
      · refine ⟨fun _ => .inr ⟨e, hfailed, hrecoverable⟩, ?_⟩
        rintro - ⟨fields, rfl, herror, hkind, -⟩
        exact hother fields rfl herror hkind
      · refine ⟨fun h => absurd ⟨fields, rfl, hfields⟩ h, ?_⟩
        rw [hmalformed]
        rintro (⟨_, ⟨⟩⟩ | ⟨_, ⟨⟩, ⟨⟩⟩)

/-! ## The tree of a run -/

/-- The tree of a file is a whole one, and its root is a file. -/
theorem HelperRun.parse_root {run : HelperRun} {file text : String} {tree : Focus}
    (h : run.parse file text = .ok tree) : ∃ n : Node, tree = .root n ∧ n.kind = rootKind := by
  cases run with
  | timedOut => cases h
  | notInstalled => cases h
  | undecodable problem => cases h
  | finished stdout stderr code =>
    rw [HelperRun.parse] at h
    split at h
    · cases h
    · rename_i output _
      rcases readTree_cases file text output with
        ⟨fields, n, -, hroot, -, hkind⟩ | ⟨e, hfailed, -⟩ | ⟨fields, e, -, hmalformed, -⟩
      · rw [hroot] at h
        cases h
        exact ⟨n, rfl, hkind⟩
      · rw [hfailed] at h
        cases h
      · rw [hmalformed] at h
        cases h

end DocHeader
