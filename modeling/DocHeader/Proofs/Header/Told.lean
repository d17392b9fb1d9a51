import DocHeader.Description.Generated
import DocHeader.Proofs.Header.Asked

/-!
# What is told about parameters

The assistant is asked about parameters by their names, and its answer is read by name. On
the way into the header the texts are cut, filled up and paired with the parameters by
place: every parameter still gets the text that stands under its own name, whatever else the
answer holds and in whichever order, and the empty text when there is none.

The questions share one exchange, and its replies are taken in the order of the questions.

## Main definitions

* `Answer.told` — the text a reply gives for a name.
* `Assistant.replyTo` — the reply to the question about names.
* `Builder.toldTemplates`, `Builder.toldParameters` — the lines of parameters, each with the
  text for its own name.
-/

namespace DocHeader

/-! ## Answers -/

namespace Answer

/-- The text that an answer stores under a name. -/
def stored? (answer : Json) (name : String) : Option String :=
  match answer.field "descriptions" with
  | .object entries => (Json.lookup name entries).bind Json.string?
  | _ => none

/-- What a reply tells about a name: the text it stores there, without its marks, and nothing
when there is no text or no reply. -/
def told (reply : Option Json) (name : String) : String :=
  ((reply.bind fun answer => stored? answer name).map clean).getD ""

theorem stored?_of_object {answer : Json} {entries : List (String × Json)}
    (h : answer.field "descriptions" = .object entries) (name : String) :
    stored? answer name = (Json.lookup name entries).bind Json.string? := by
  rw [stored?, h]

/-- The entries of an answer are read one by one. -/
theorem descriptionOf_eq_told {answer : Json} {entries : List (String × Json)}
    (h : answer.field "descriptions" = .object entries) (name : String) :
    descriptionOf name entries = told (some answer) name := by
  rw [told, Option.bind_some, stored?_of_object h, descriptionOf]
  cases Json.lookup name entries with
  | none => rfl
  | some value => cases value <;> simp [Json.string?]

/-- Neither the order of the entries of an answer nor those of other names matter. -/
theorem told_congr {answer answer' : Json} {entries entries' : List (String × Json)}
    {name : String} (h : answer.field "descriptions" = .object entries)
    (h' : answer'.field "descriptions" = .object entries')
    (hdistinct : (entries.map (·.1)).Nodup) (hdistinct' : (entries'.map (·.1)).Nodup)
    (hsame : ∀ value, (name, value) ∈ entries ↔ (name, value) ∈ entries') :
    told (some answer) name = told (some answer') name := by
  have hlookup : Json.lookup name entries = Json.lookup name entries' := by
    refine Option.ext fun value => ?_
    rw [Association.get?_eq_some hdistinct, Association.get?_eq_some hdistinct', hsame]
  rw [told, told, Option.bind_some, Option.bind_some, stored?_of_object h, stored?_of_object h',
    hlookup]

end Answer

/-- As many descriptions as names are neither cut nor filled up. -/
theorem fitDescriptions_of_length {count : Nat} {given : List Phrase}
    (h : given.length = count) : fitDescriptions count given = given := by
  subst h
  simp [fitDescriptions]

/-- As many texts as names are neither cut nor filled up. -/
theorem regionsOf_of_length {count : Nat} {texts : List String} (h : texts.length = count) :
    regionsOf count texts = texts.map .region := by
  subst h
  simp [regionsOf]

/-- The regions for some names are those of the texts told about them: a malformed answer
gives no texts at all, and then all of them are filled in. -/
theorem regionsOf_descriptions? (reply : Option Json) (names : List String) :
    regionsOf names.length ((reply.bind fun answer => Answer.descriptions? answer names).getD []) =
      names.map fun name => .region (Answer.told reply name) := by
  have hnone (h : ∀ name, Answer.told reply name = "") : regionsOf names.length [] =
      names.map fun name => .region (Answer.told reply name) := by
    simp [regionsOf, h, List.map_const']
  cases reply with
  | none => exact hnone fun _ => rfl
  | some answer =>
    rw [Option.bind_some, Answer.descriptions?]
    split
    next entries hentries =>
      have htold : (names.map fun name => Answer.descriptionOf name entries) =
          names.map (Answer.told (some answer)) :=
        List.map_congr_left fun name _ => Answer.descriptionOf_eq_told hentries name
      rw [Option.getD_some, htold, regionsOf_of_length (List.length_map _), List.map_map]
      rfl
    next hmalformed =>
      refine hnone fun name => ?_
      have hstored : Answer.stored? answer name = none := by
        unfold Answer.stored?
        split
        next entries hentries => exact (hmalformed entries hentries).elim
        next => rfl
      simp [Answer.told, hstored]

/-! ## Questions -/

theorem askAssistant_result {α : Type} (question : StateM Exchange (Except CallError α))
    (topic : String) (otherwise : α) (j : Journal Exchange) :
    (askAssistant question topic otherwise j).1 =
      (question j.state).1.toOption.getD otherwise := by
  cases hquestion : question j.state with
  | mk answer x =>
    simp only [askAssistant, Logged.bind_apply, Logged.onState, hquestion]
    cases answer <;> rfl

/-- The reply to the question about some names, when the settings ask it: it sends the names,
and it is not sent without any. A call that fails has no reply. -/
def Assistant.replyTo (a : Assistant) (s : Settings) (f : Focus) (kind : DeclarationKind)
    (generics : Bool) (names : List String) (x : Exchange) : Option Json :=
  if s.flag (if generics then .describeTypeParameters else .describeParameters) ∧ names ≠ [] then
    (a.ask (shownSource f) kind.label (a.prompter.parametersTool names generics) x).1.toOption
  else none

theorem Assistant.describeNames_result (a : Assistant) (source kind : String) (generics : Bool)
    {names : List String} (hnames : names ≠ []) (x : Exchange) :
    (a.describeNames source kind generics names x).1 =
      (a.ask source kind (a.prompter.parametersTool names generics) x).1.map
        fun answer => Answer.descriptions? answer names := by
  simp only [describeNames, List.isEmpty_iff, if_neg hnames]
  rfl

/-- The assistant describes each name by what its reply tells about it. -/
theorem DescriptionSource.generated_parameters (a : Assistant) (s : Settings) (f : Focus)
    (kind : DeclarationKind) (generics : Bool) (names : List String) (j : Journal Exchange) :
    ((generated a s).parameters f kind generics names j).1 =
      .ok (names.map fun name =>
        .region (Answer.told (a.replyTo s f kind generics names j.state) name)) := by
  simp only [generated, Assistant.replyTo]
  cases s.flag (if generics then .describeTypeParameters else .describeParameters) with
  | false => rfl
  | true =>
    simp only [Bool.not_true, Bool.false_eq_true, if_false, Logged.bind_apply,
      askAssistant_result, Logged.pure_apply, true_and]
    by_cases hnames : names = []
    · subst hnames
      rfl
    · rw [if_pos hnames, a.describeNames_result _ _ _ hnames, ← regionsOf_descriptions?]
      -- a call that fails has no texts, as if they were malformed
      cases (a.ask (shownSource f) kind.label (a.prompter.parametersTool names generics)
        j.state).1 <;> rfl

/-! ## Groups of lines -/

section Groups

variable (s : Settings)

/-- The lines of type parameters whose descriptions are given by name. -/
theorem templateLines_map (templates : List Focus) (description : String → Phrase) :
    templateLines s templates (templateNames templates)
      ((templateNames templates).map description) =
      templates.map fun t =>
        templateLine s t (t.info.name.getD "") (description (t.info.name.getD "")) := by
  induction templates with
  | nil => rfl
  | cons t ts ih => exact congrArg _ ih

/-- The lines of parameters whose descriptions are given by name. -/
theorem parameterLines_map (parameters : List Focus) (names : List String)
    (description : String → Phrase) :
    parameterLines s parameters names (names.map description) =
      (parameters.zip names).flatMap fun p => parameterLine s p.1 p.2 (description p.2) := by
  induction parameters generalizing names with
  | nil => cases names <;> rfl
  | cons p ps ih =>
    cases names with
    | nil => rfl
    | cons name names => exact congrArg _ (ih names)

end Groups

/-! ## Headers -/

namespace Builder

variable (b : Builder Exchange) (a : Assistant) (s : Settings) (f : Focus)
  (kind : DeclarationKind)

/-- The lines of type parameters, each with what a reply tells about its name. -/
def toldTemplates (templates : List Focus) (reply : Option Json) : List TagLine :=
  templates.map fun t => templateLine b.settings t (t.info.name.getD "")
    (.region (Answer.told reply (t.info.name.getD "")))

/-- The lines of parameters and their elements, each parameter with what a reply tells about
its name. -/
def toldParameters (parameters : List Focus) (reply : Option Json) : List TagLine :=
  (parameters.zip (parameterNames 0 parameters)).flatMap fun p =>
    parameterLine b.settings p.1 p.2 (.region (Answer.told reply p.2))

/-- The lines of type parameters and parameters, after both questions are asked. -/
def toldLines (templates parameters : List Focus) (j : Journal Exchange) : List TagLine :=
  b.toldTemplates templates (a.replyTo s f kind true (templateNames templates) j.state) ++
    b.toldParameters parameters (a.replyTo s f kind false (parameterNames 0 parameters)
      (b.afterTemplates f kind templates j).state)

theorem isBlank_toldLines (templates parameters : List Focus) (j : Journal Exchange) :
    ∀ line ∈ b.toldLines a s f kind templates parameters j, line.isBlank = false := by
  intro line hline
  rcases List.mem_append.mp hline with hline | hline
  · obtain ⟨t, -, rfl⟩ := List.mem_map.mp hline
    exact isBlank_templateLine b.settings t _ _
  · obtain ⟨p, -, hline⟩ := List.mem_flatMap.mp hline
    exact isBlank_parameterLine b.settings p.1 p.2 _ line hline

variable {b a s}

theorem askNames_told (hsource : b.source = .generated a s) (generics : Bool)
    (names : List String) (j : Journal Exchange) :
    (b.askNames f kind generics names j).1 = names.map fun name =>
      .region (Answer.told (a.replyTo s f kind generics names j.state) name) := by
  simp only [askNames, Builder.ask, Logged.bind_apply, hsource,
    DescriptionSource.generated_parameters, Logged.pure_apply]
  exact fitDescriptions_of_length (List.length_map _)

/-- With an assistant the lines of type parameters and parameters are those that are told. -/
theorem askedLines_eq_toldLines (hsource : b.source = .generated a s)
    (templates parameters : List Focus) (j : Journal Exchange) :
    b.askedLines f kind templates parameters j = b.toldLines a s f kind templates parameters j := by
  simp only [askedLines, templatesAsked, parametersAsked, askNames_told f kind hsource,
    templateLines_map, parameterLines_map, toldLines, toldTemplates, toldParameters]

/-- The lines of a declaration have what was told in their midst. -/
theorem lines_told (hsource : b.source = .generated a s) (j : Journal Exchange) :
    ∃ before after, (b.lines f kind j).1 = before ++
      b.toldLines a s f kind (askedTemplates f kind) (askedParameters f kind)
        (b.afterDescription f kind j) ++ after := by
  rw [← askedLines_eq_toldLines f kind hsource]
  exact b.lines_asked f kind j

/-- **Answers reach the parameters they are about.** Let the header of a declaration be built
with an assistant, whatever its replies are. The header has one line for each type parameter
and one for each parameter that is asked about, in the order of the declaration; the lines
of a destructured parameter's elements follow its own. The description of a line is the text,
without its marks, that the reply to the question about these names stores under the name of
the parameter, as it was sent; it is empty when the question is not asked, has no reply, the
reply is malformed, or no text stands under the name. Neither the order of the entries of an
answer nor those of other names matter. -/
theorem build_told (hsource : b.source = .generated a s) {kind : DeclarationKind}
    (hkind : b.kindOf f = .ok kind) (j : Journal Exchange) :
    (∃ draft before after, (b.build f j).1 = .ok draft ∧
      draft.lines = before ++
        b.toldLines a s f kind (askedTemplates f kind) (askedParameters f kind)
          (b.afterDescription f kind j) ++ after ∧
      draft.tags = TagOrder.expected b.settings f kind) ∧
    (parameterNames 0 (askedParameters f kind)).length = (askedParameters f kind).length ∧
    ∀ (answer answer' : Json) (entries entries' : List (String × Json)) (name : String),
      answer.field "descriptions" = .object entries →
      answer'.field "descriptions" = .object entries' →
      (entries.map (·.1)).Nodup → (entries'.map (·.1)).Nodup →
      (∀ value, (name, value) ∈ entries ↔ (name, value) ∈ entries') →
      Answer.told (some answer) name = Answer.told (some answer') name := by
  refine ⟨?_, length_parameterNames 0 _, fun _ _ _ _ _ h h' hdistinct hdistinct' hsame =>
    Answer.told_congr h h' hdistinct hdistinct' hsame⟩
  obtain ⟨before, after, hlines⟩ := lines_told f kind hsource j
  obtain ⟨before', after', hclosed⟩ := dropOuterBlank_around
    (b.isBlank_toldLines a s f kind _ _ (b.afterDescription f kind j)) before after
  refine ⟨_, before', after', b.build_eq_close f hkind j, ?_,
    (tagsOf_dropOuterBlank _).trans (b.lines_tags f kind j)⟩
  rw [← hclosed, ← hlines]
  rfl

/-- An assistant with nothing but a key. -/
def plainAssistant : Assistant := ⟨{ apiKey := "key" }, ⟨"English"⟩⟩

/-- Settings under which all parameters are described, by an assistant. -/
def describing : Settings where
  flag := fun g => g != .includeTypes
  text := fun _ => ""

/-- A builder whose descriptions are given by an assistant. -/
def assisted : Builder Exchange :=
  ⟨describing, .generated plainAssistant describing, { year := 2024, month := 1, day := 1 }⟩

/-- A function with a type parameter, a destructured parameter and a plain one. -/
def genericFunction : Focus :=
  let part (kind : String) (name : Option String) (children : List Node) : Node :=
    .mk { kind, fullStart := 0, start := 0, stop := 1, text := "", name } children
  .root (part "FunctionDeclaration" (some "pick")
    [part "TypeParameter" (some "T") [],
      part "Parameter" none [part "ObjectBindingPattern" none [part "BindingElement" (some "key") []]],
      part "Parameter" (some "count") []])

/-- A reply that stores values under names. -/
def answering (entries : List (String × Json)) : Reply :=
  .message [.call (.object [("descriptions", .object entries)])]

/-- The replies to the questions about this function: the type parameter has no text, the
parameters are told about in the other order, and there is an entry for no parameter. -/
def replies : List Reply :=
  [.message [.call (.object [("description", .string "Picks one.")])],
    answering [("T", .bool true)],
    answering [("count", .string " * How many. "), ("items", .string "None of them."),
      ("param0", .string "What to pick from.")]]

/-- The lines of this function. -/
theorem build_told_of_function :
    assisted.source = .generated plainAssistant describing ∧
    assisted.kindOf genericFunction = .ok .method ∧
    ∃ draft before after,
      (assisted.build genericFunction ⟨{ script := replies }, []⟩).1 = .ok draft ∧
      draft.lines = before ++
        [{ tag := some "template", name := some (.plain "T"), description := some (.region "") },
          { tag := some "param", name := some (.plain "param0"),
            description := some (.region "What to pick from.") },
          { tag := some "param", name := some (.plain "param0.key"),
            description := some (.region "") },
          { tag := some "param", name := some (.plain "count"),
            description := some (.region "How many.") }] ++ after := by
  have hkind : assisted.kindOf genericFunction = .ok .method := by decide +kernel
  obtain ⟨⟨draft, before, after, hbuild, hlines, -⟩, -, -⟩ :=
    build_told genericFunction rfl hkind ⟨{ script := replies }, []⟩
  refine ⟨rfl, hkind, draft, before, after, hbuild, hlines.trans ?_⟩
  refine congrArg (fun lines => before ++ lines ++ after) ?_
  decide +kernel

end Builder

end DocHeader
