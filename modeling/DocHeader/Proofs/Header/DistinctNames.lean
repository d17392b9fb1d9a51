import DocHeader.Proofs.Header.Parameters
import DocHeader.Proofs.Header.Told
import DocHeader.Proofs.Text.Rows
import Mathlib.Data.List.Nodup

/-!
# Numbers among names

A destructured parameter has no name and is called by its number among those of its sort, whatever
the other parameters are called. The names of a list of parameters are those that are declared and
these numbers, in some order. So parameters with names of their own that differ are all told apart
just when none of them is called like one of the numbers.

A name stands on the line of its parameter, at times in brackets, and the assistant is asked and
answers by name. Where a name stands for two parameters there is one text for both.

## Main definitions

* `ParameterList.ownNames` — the names that are declared.
* `ParameterList.numbered` — the name of a destructured parameter.
* `ParameterList.topLines` — the lines of the parameters themselves, without those of elements.
* `TagLine.documentedName` — the name on the line of a parameter, out of its brackets.
-/

namespace DocHeader

namespace ParameterList

/-! ## Names and numbers -/

/-- The name of the destructured parameter with a number. -/
def numbered (k : Nat) : String := "param" ++ toString k

/-- The names of the parameters that are not destructured. -/
def ownNames (ps : List Focus) : List String :=
  (ps.filter fun p => !isDestructured p).map fun p => p.info.name.getD ""

/-- The names of the destructured parameters, numbered from `k` on. -/
def numbersFrom (k : Nat) (ps : List Focus) : List String :=
  (List.range' k (ps.countP isDestructured)).map numbered

theorem toList_numbered (k : Nat) :
    (numbered k).toList = ['p', 'a', 'r', 'a', 'm'] ++ Nat.toDigits 10 k := by
  simp [numbered]

theorem numbered_injective : Function.Injective numbered := by
  intro k m h
  have hdigits : Nat.toDigits 10 k = Nat.toDigits 10 m := by
    have htexts := congrArg String.toList h
    rw [toList_numbered, toList_numbered] at htexts
    exact List.append_cancel_left htexts
  have hnumbers := congrArg (fun digits => Nat.ofDigitChars 10 digits 0) hdigits
  simpa using hnumbers

theorem nodup_numbersFrom (k : Nat) (ps : List Focus) : (numbersFrom k ps).Nodup := by
  apply List.Nodup.map numbered_injective
  exact List.nodup_range'

theorem mem_numbersFrom {k : Nat} {ps : List Focus} {name : String} :
    name ∈ numbersFrom k ps ↔ ∃ m < ps.countP isDestructured, name = numbered (k + m) := by
  simp only [numbersFrom, List.mem_map, List.mem_range'_1]
  constructor
  · rintro ⟨n, ⟨hlow, hhigh⟩, rfl⟩
    exact ⟨n - k, by omega, by rw [Nat.add_sub_cancel' hlow]⟩
  · rintro ⟨m, hm, rfl⟩
    exact ⟨k + m, by omega, rfl⟩

/-- The names are those that are declared and the numbers. -/
theorem parameterNames_perm (k : Nat) (ps : List Focus) :
    (parameterNames k ps).Perm (ownNames ps ++ numbersFrom k ps) := by
  induction ps generalizing k with
  | nil => exact .refl _
  | cons p ps ih =>
    by_cases hp : isDestructured p = true
    · have hnames : parameterNames k (p :: ps) = numbered k :: parameterNames (k + 1) ps := by
        rw [parameterNames, if_pos (by exact hp), numbered]
      have hnumbers : numbersFrom k (p :: ps) = numbered k :: numbersFrom (k + 1) ps := by
        rw [numbersFrom, List.countP_cons_of_pos hp, List.range'_succ, List.map_cons, numbersFrom]
      have hown : ownNames (p :: ps) = ownNames ps := by simp [ownNames, hp]
      rw [hnames, hnumbers, hown]
      exact ((ih (k + 1)).cons _).trans List.perm_middle.symm
    · have hnames : parameterNames k (p :: ps) =
          p.info.name.getD "" :: parameterNames k ps := by
        rw [parameterNames, if_neg (by exact hp)]
      have hnumbers : numbersFrom k (p :: ps) = numbersFrom k ps := by
        rw [numbersFrom, List.countP_cons_of_neg hp, numbersFrom]
      have hown : ownNames (p :: ps) = p.info.name.getD "" :: ownNames ps := by simp [ownNames, hp]
      rw [hnames, hnumbers, hown]
      exact (ih k).cons _

theorem names_perm (ps : List Focus) : (names ps).Perm (ownNames ps ++ numbersFrom 0 ps) := by
  rw [← parameterNames_eq]
  exact parameterNames_perm 0 ps

theorem mem_names_iff {ps : List Focus} {name : String} :
    name ∈ names ps ↔ name ∈ ownNames ps ∨ name ∈ numbersFrom 0 ps := by
  rw [(names_perm ps).mem_iff, List.mem_append]

/-- Where the names that are declared differ, all names do just when none of those is a number that
is given out. -/
theorem nodup_names_iff {ps : List Focus} (hown : (ownNames ps).Nodup) :
    (names ps).Nodup ↔ ∀ k < ps.countP isDestructured, numbered k ∉ ownNames ps := by
  rw [(names_perm ps).nodup_iff, List.nodup_append]
  simp only [hown, nodup_numbersFrom, true_and, mem_numbersFrom, Nat.zero_add]
  constructor
  · intro hapart k hk hmem
    exact hapart (numbered k) hmem (numbered k) ⟨k, hk, rfl⟩ rfl
  · rintro hfree name hname _ ⟨k, hk, rfl⟩ rfl
    exact hfree k hk hname

/-! ## Names on lines -/

/-- The name in a label: what stands before the end of the brackets or the value by default. -/
def nameOfLabel : List Char → List Char
  | '[' :: rest => rest.takeWhile fun c => c != '=' && c != ']'
  | label => label

/-- A name without brackets and equals signs, as identifiers are. -/
def IsBare (name : String) : Prop := ∀ c ∈ name.toList, c ≠ '[' ∧ c ≠ '=' ∧ c ≠ ']'

instance (name : String) : Decidable (IsBare name) :=
  List.decidableBAll (fun c => c ≠ '[' ∧ c ≠ '=' ∧ c ≠ ']') name.toList

theorem isBare_numbered (k : Nat) : IsBare (numbered k) := by
  intro c hc
  rw [toList_numbered, List.mem_append] at hc
  rcases hc with hc | hc
  · simp only [List.mem_cons, List.not_mem_nil, or_false] at hc
    rcases hc with rfl | rfl | rfl | rfl | rfl <;> decide
  · have hdigit : c.isDigit = true := Nat.isDigit_of_mem_toDigits (by decide) (by decide) hc
    refine ⟨?_, ?_, ?_⟩ <;>
    · rintro rfl
      cases hdigit

/-- A name is found again in the label it is shown with. -/
theorem nameOfLabel_shownName {name : String} (h : IsBare name) (initializer : Option String)
    (optional : Bool) :
    nameOfLabel (shownName name initializer optional).toList = name.toList := by
  have hinside (after : List Char) (hafter : ∀ c ∈ after.head?, c = '=' ∨ c = ']') :
      nameOfLabel ('[' :: (name.toList ++ after)) = name.toList := by
    apply takeWhile_append_of_stop
    · intro c hc
      simp [h c hc]
    · intro c hc
      rcases hafter c hc with rfl | rfl <;> rfl
  have hoptional : nameOfLabel ("[" ++ name ++ "]").toList = name.toList := by
    simpa using hinside [']'] (by simp)
  have hplain : nameOfLabel name.toList = name.toList := by
    unfold nameOfLabel
    split
    next rest hname => exact absurd rfl (h '[' (by simp [hname])).1
    next => rfl
  unfold shownName
  split
  next value _ => simpa [withDefault] using hinside ('=' :: (value.toList ++ [']'])) (by simp)
  next => exact hoptional
  next => exact hplain

/-- The lines of parameters, those of each parameter together. -/
def groups (s : Settings) (ps : List Focus) (descriptions : List Phrase) : List (List TagLine) :=
  ps.mapIdx fun i p => group s p (nameAt ps i p) (descriptions[i]?.getD emptyRegion)

/-- The lines of the parameters themselves: the first one of each group. -/
def topLines (s : Settings) (ps : List Focus) (descriptions : List Phrase) : List TagLine :=
  (groups s ps descriptions).filterMap List.head?

end ParameterList

/-- The name of the parameter that a line documents. -/
def TagLine.documentedName (line : TagLine) : String :=
  .ofList (ParameterList.nameOfLabel (shownText line.name).toList)

namespace ParameterList

/-- The lines of the parameters document their names. -/
theorem documentedName_topLines (s : Settings) {ps : List Focus}
    (hbare : ∀ name ∈ ownNames ps, IsBare name) (descriptions : List Phrase) :
    (topLines s ps descriptions).map TagLine.documentedName = names ps := by
  have hall : ∀ name ∈ names ps, IsBare name := by
    intro name hname
    rcases mem_names_iff.mp hname with hown | hnumber
    · exact hbare name hown
    · obtain ⟨k, -, rfl⟩ := mem_numbersFrom.mp hnumber
      exact isBare_numbered _
  have hlines : topLines s ps descriptions = ps.mapIdx fun i p =>
      lineOf s p (shownName (nameAt ps i p) p.info.initializer p.info.optional)
        (descriptions[i]?.getD emptyRegion) := by
    rw [topLines, groups, List.mapIdx_eq_zipIdx_map, List.filterMap_map, List.mapIdx_eq_zipIdx_map,
      ← List.filterMap_eq_map]
    rfl
  apply List.ext_getElem?
  intro i
  rw [hlines, names, List.getElem?_map, List.getElem?_mapIdx, List.getElem?_mapIdx]
  cases hp : ps[i]? with
  | none => rfl
  | some p =>
    have hmem : nameAt ps i p ∈ names ps := List.mem_of_getElem? (i := i) (by simp [names, hp])
    have hname := nameOfLabel_shownName (hall _ hmem) p.info.initializer p.info.optional
    simp [TagLine.documentedName, lineOf, shownText, Phrase.shown, hname]

end ParameterList

/-! ## Answers by name -/

namespace Answer

variable {names : List String}

/-- There is an answer that stores some texts, each under a name. -/
theorem exists_reply (pairs : List (String × String)) (hnames : (pairs.map Prod.fst).Nodup) :
    ∃ reply, ∀ p ∈ pairs, told reply p.1 = clean p.2 := by
  let entries := pairs.map fun p => (p.1, Json.string p.2)
  have hkeys : (entries.map (·.1)).Nodup := by
    rw [List.map_map]
    exact hnames
  let answer := Json.object [("descriptions", .object entries)]
  have hentries : answer.field "descriptions" = .object entries := by
    simp [answer, Json.field, Json.field?, Json.lookup, Association.get?]
  refine ⟨some answer, fun p hp => ?_⟩
  have hmem : (p.1, Json.string p.2) ∈ entries := List.mem_map_of_mem hp
  have hlookup : Json.lookup p.1 entries = some (.string p.2) :=
    (Association.get?_eq_some hkeys).mpr hmem
  rw [← descriptionOf_eq_told hentries, descriptionOf, hlookup]

/-- An answer can tell something of its own about each of several names that differ. -/
theorem exists_told (hnames : names.Nodup) {texts : List String}
    (hlength : texts.length = names.length) :
    ∃ reply, names.map (told reply) = texts.map clean := by
  have hfirst : (names.zip texts).map Prod.fst = names := List.map_fst_zip (by omega)
  have hsecond : (names.zip texts).map Prod.snd = texts := List.map_snd_zip (by omega)
  obtain ⟨reply, htold⟩ := exists_reply (names.zip texts) (by rwa [hfirst])
  refine ⟨reply, ?_⟩
  calc names.map (told reply) = (names.zip texts).map (told reply ∘ Prod.fst) := by
        rw [← List.map_map, hfirst]
    _ = (names.zip texts).map (clean ∘ Prod.snd) :=
        List.map_congr_left fun p hp => by simp only [Function.comp_apply, htold p hp]
    _ = texts.map clean := by rw [← List.map_map, hsecond]

/-- Where answers can tell something of its own about each name, the names differ. -/
theorem nodup_of_exists_told (h : ∀ texts : List String, texts.length = names.length →
    ∃ reply, names.map (told reply) = texts.map clean) : names.Nodup := by
  rw [List.nodup_iff_getElem?_ne_getElem?]
  intro i j hlt hj hsame
  -- an answer that singles out the first of the two places
  let texts := (List.range names.length).map fun k => if k = i then "one" else "other"
  obtain ⟨reply, htold⟩ := h texts (by simp [texts])
  have hplace (k : Nat) (hk : k < names.length) :
      names[k]?.map (told reply) = some (clean (if k = i then "one" else "other")) := by
    rw [← List.getElem?_map, htold]
    simp [texts, hk]
  have hi := hplace i (by omega)
  rw [hsame, hplace j hj, if_pos rfl, if_neg (by omega)] at hi
  exact absurd hi (by decide +kernel)

end Answer

/-! ## Headers -/

namespace Builder

variable {σ : Type} (b : Builder σ) (f : Focus) {kind : DeclarationKind}

/-- The descriptions that a source supplies for the parameters of a declaration, by their names,
after the declaration and its type parameters are described. -/
def suppliedParameters (kind : DeclarationKind) (j : Journal σ) : List Phrase :=
  b.supplied f kind (ParameterList.names (askedParameters f kind))
    (b.afterTemplates f kind (askedTemplates f kind) (b.afterDescription f kind j))

open ParameterList in
/-- **Names of parameters.** Let the names that the parameters of a declaration are declared under
differ from each other. The source is given the names of all parameters, and the header has their
lines, each parameter with its name. These names differ just when no parameter is declared under a
number that a destructured one gets. They also differ just when an answer can tell, by name, a text
of its own about each parameter. -/
theorem build_names_distinct_iff (hkind : b.kindOf f = .ok kind)
    (hown : (ownNames (askedParameters f kind)).Nodup) (j : Journal σ) :
    let ps := askedParameters f kind
    (∃ draft before after, (b.build f j).1 = .ok draft ∧
      draft.lines =
        before ++ (groups b.settings ps (b.suppliedParameters f kind j)).flatten ++ after ∧
      ((∀ name ∈ ownNames ps, IsBare name) →
        (topLines b.settings ps (b.suppliedParameters f kind j)).map TagLine.documentedName =
          names ps)) ∧
    ((names ps).Nodup ↔ ∀ k < ps.countP isDestructured, numbered k ∉ ownNames ps) ∧
    ((names ps).Nodup ↔ ∀ texts : List String, texts.length = ps.length →
      ∃ reply, (names ps).map (Answer.told reply) = texts.map Answer.clean) := by
  intro ps
  refine ⟨?_, nodup_names_iff hown, ?_⟩
  · obtain ⟨before, after, hlines⟩ := b.lines_headerParameters f kind j
    obtain ⟨before', after', hclosed⟩ :=
      dropOuterBlank_around (isBlank_lines b.settings _ _) before after
    refine ⟨_, before', after', b.build_eq_close f hkind j, ?_, fun hbare =>
      documentedName_topLines b.settings hbare _⟩
    exact (congrArg dropOuterBlank hlines).trans hclosed
  · have hlength : (names ps).length = ps.length := by simp [names]
    rw [← hlength]
    exact ⟨fun hnames _ => Answer.exists_told hnames, Answer.nodup_of_exists_told⟩

/-- A function with a parameter between two destructured ones. -/
def scaleFunction (name : String) : Focus :=
  let part (kind : String) (name : Option String) (children : List Node) : Node :=
    .mk { kind, fullStart := 0, start := 0, stop := 1, text := "", name } children
  .root (part "FunctionDeclaration" (some "scale")
    [part "Parameter" none [part "ObjectBindingPattern" none [part "BindingElement" (some "x") []]],
      part "Parameter" (some name) [],
      part "Parameter" none [part "ArrayBindingPattern" none []]])

/-- What is told about a parameter that is called `param0`. -/
def scaleReplies : List Reply :=
  [.message [.call (.object [("description", .string "Scales.")])],
    answering [("param0", .string "How much.")]]

open ParameterList in
/-- A parameter may have a number for its name that is not given out. -/
theorem build_names_distinct_of_param2 :
    undescribed.kindOf (scaleFunction "param2") = .ok .method ∧
    (ownNames (askedParameters (scaleFunction "param2") .method)).Nodup ∧
    names (askedParameters (scaleFunction "param2") .method) = ["param0", "param2", "param1"] ∧
    (topLines undescribed.settings (askedParameters (scaleFunction "param2") .method)
        (undescribed.suppliedParameters (scaleFunction "param2") .method ⟨(), []⟩)).map
      TagLine.documentedName = ["param0", "param2", "param1"] ∧
    (names (askedParameters (scaleFunction "param2") .method)).Nodup ∧
    ∃ reply, ["param0", "param2", "param1"].map (Answer.told reply) =
      ["The point.", "How much.", "The rest."].map Answer.clean := by
  have hkind : undescribed.kindOf (scaleFunction "param2") = .ok .method := by decide +kernel
  have hown : (ownNames (askedParameters (scaleFunction "param2") .method)).Nodup := by
    decide +kernel
  have hnames : names (askedParameters (scaleFunction "param2") .method) =
      ["param0", "param2", "param1"] := by decide +kernel
  obtain ⟨⟨_, _, _, -, -, hdocumented⟩, hfree, htold⟩ :=
    undescribed.build_names_distinct_iff (scaleFunction "param2") hkind hown ⟨(), []⟩
  have hdistinct := hfree.mpr (by decide +kernel)
  refine ⟨hkind, hown, hnames, (hdocumented (by decide +kernel)).trans hnames, hdistinct, ?_⟩
  rw [← hnames]
  exact htold.mp hdistinct _ (by decide +kernel)

open ParameterList in
/-- When it is given out, two parameters have this name, and what is told about one of them stands
on the lines of both. -/
theorem build_names_coincide_of_param0 :
    (ownNames (askedParameters (scaleFunction "param0") .method)).Nodup ∧
    names (askedParameters (scaleFunction "param0") .method) = ["param0", "param0", "param1"] ∧
    ¬(names (askedParameters (scaleFunction "param0") .method)).Nodup ∧
    (assisted.build (scaleFunction "param0") ⟨{ script := scaleReplies }, []⟩).1.toOption.map
        (fun draft => (draft.lines.filter fun line => line.tag = some "param").map fun line =>
          (shownText line.name, shownText line.description)) =
      some [("param0", "How much."), ("param0.x", ""), ("param0", "How much."),
        ("param1", "")] := by
  decide +kernel

end Builder

end DocHeader
