import DocHeader.CommandLine.Program

/-!
# Which settings are accepted

Settings are read field by field, and the first bad field is what is wrong with them. What should
be accepted is said of each field by itself: its name is that of a setting, and its value has the
documented form. Of the fields that name a setting the last one counts.

Tags of the user are read more freely than they are documented. A name may be nothing but at
signs, and kinds may be written as a text or as an object. Other kinds that are no list, and kinds
in a list that are no texts, end the reading without a report. With such tags apart, settings are
accepted and refused as they should be.

## Main definitions

* `SettingName.fits` — the form of a value.
* `Settings.Validated` — settings are accepted or refused as they should be.
* `Settings.isMisread` — settings with a tag that is read too freely, or breaks the reading.

## Main statements

* `Settings.validated_iff` — settings are validated just when they are not misread.
-/

namespace DocHeader

/-- The kind of declarations that an item names. -/
def Json.kind? (item : Json) : Option DeclarationKind := item.string?.bind DeclarationKind.ofName?

/-! ## The documented form -/

namespace CustomTag

/-- The name given to a tag of the user, without the at signs it begins with. -/
def name? (j : Json) : Option String :=
  if (j.field "tag").isTruthy then some (withoutAtSigns (j.field "tag").plainText) else none

/-- Kinds are listed: there are none, or a list of their names. -/
def listsKinds : Json → Bool
  | .null => true
  | .array items => items.all fun item => item.kind?.isSome
  | _ => false

/-- A tag of the user as it is documented: it has a name, and its kinds are listed. -/
def isDocumented (j : Json) : Bool := (name? j).any (· ≠ "") && listsKinds (j.field "kinds")

end CustomTag

/-- The form of a value, with that of a tag of the user as a parameter. -/
def SettingName.fits (tag : Json → Bool) : SettingName → Json → Bool
  | .flag _, .bool _ => true
  | .text _, .string _ => true
  | .column _, .number (.int n) => 0 ≤ n
  | .customTags, .array items => items.all tag
  | _, _ => false

namespace Settings

/-- The setting that a field names. -/
def named? (field : String × Json) : Option SettingName :=
  SettingName.ofKey? (normalizeKey field.1)

/-- A field names a setting and has a value of its form. -/
def fits (tag : Json → Bool) (field : String × Json) : Bool :=
  (named? field).any fun n => n.fits tag field.2

/-! ## Written values -/

/-- The value of the last field that names a setting. -/
def lastWritten? (n : SettingName) (fields : List (String × Json)) : Option Json :=
  ((fields.filter fun field => named? field = some n).getLast?).map Prod.snd

end Settings

namespace CustomTag

/-- What kinds are gone through as: the items of a list, the characters of a text, the names of
an object. -/
def kindItems? : Json → Option (List Json)
  | .null => some []
  | .array items => some items
  | .string s => some (s.toList.map fun c => .string (.ofList [c]))
  | .object fields => some (fields.map fun field => .string field.1)
  | _ => none

/-- The kinds that are written, if any are. -/
def writtenKinds : Json → Option (List DeclarationKind)
  | .null => none
  | kinds => (kindItems? kinds).map fun items => items.filterMap Json.kind?

/-- The tag that is written. -/
def written (j : Json) : CustomTag where
  tag := withoutAtSigns (j.field "tag").plainText
  placeholder := ((j.field? "placeholder").map Json.plainText).getD ""
  kinds := writtenKinds (j.field "kinds")

end CustomTag

namespace Settings

/-- A setting has a value. -/
def Holds (s : Settings) : SettingName → Json → Prop
  | .flag f, value => value = .bool (s.flag f)
  | .text t, value => value = .string (s.text t)
  | .column c, value => value = .number (.int (s.column c))
  | .customTags, value => ∃ items, value = .array items ∧ s.customTags = items.map CustomTag.written

/-- A setting is the same in others. -/
def Agree (s s' : Settings) : SettingName → Prop
  | .flag f => s.flag f = s'.flag f
  | .text t => s.text t = s'.text t
  | .column c => s.column c = s'.column c
  | .customTags => s.customTags = s'.customTags

/-- A setting has the value that some fields give it last, and its initial one when they do not
name it. -/
structure Takes (s initial : Settings) (fields : List (String × Json)) (n : SettingName) :
    Prop where
  written : ∀ value, lastWritten? n fields = some value → s.Holds n value
  unwritten : lastWritten? n fields = none → s.Agree initial n

/-- Settings are accepted or refused as they should be: what is wrong with them is reported, they
are accepted just when all fields have the documented form, and then every setting has the value
that is written last, or its default. -/
structure Validated (fields : List (String × Json)) : Prop where
  reported : ∀ e, ofFields fields = .error e → (SettingsFileError.badSettings e).isReported
  accepted : (∃ s, ofFields fields = .ok s) ↔ ∀ field ∈ fields, fits CustomTag.isDocumented field
  values : ∀ s, ofFields fields = .ok s → ∀ n, s.Takes {} fields n

end Settings

/-! ## Settings that are misread -/

/-- Whether the first item that is not accepted breaks the reading. -/
def firstBreaks {α : Type} (accepts breaks : α → Bool) (items : List α) : Bool :=
  (items.find? fun item => !accepts item).any breaks

namespace CustomTag

/-- Kinds are gone through, and each names one. -/
def readsKinds (kinds : Json) : Bool :=
  (kindItems? kinds).any fun items => items.all fun item => item.kind?.isSome

/-- Kinds cannot be gone through, or the first that names none is no text. -/
def breaksOnKinds (kinds : Json) : Bool :=
  (kindItems? kinds).all <| firstBreaks (fun item => item.kind?.isSome) fun item =>
    item.string?.isNone

/-- A tag of the user that is accepted. -/
def isAccepted (j : Json) : Bool := (name? j).isSome && readsKinds (j.field "kinds")

/-- A tag of the user that breaks the reading. -/
def breaks (j : Json) : Bool := (name? j).isSome && breaksOnKinds (j.field "kinds")

end CustomTag

/-- A value that breaks the reading. -/
def SettingName.breaks : SettingName → Json → Bool
  | .customTags, .array items => firstBreaks CustomTag.isAccepted CustomTag.breaks items
  | _, _ => false

namespace Settings

/-- A field that breaks the reading. -/
def breaks (field : String × Json) : Bool := (named? field).any fun n => n.breaks field.2

/-- Settings are misread: all fields are accepted, but not all have the documented form, or the
first that is not accepted breaks the reading. -/
def isMisread (fields : List (String × Json)) : Bool :=
  fields.all (fits CustomTag.isAccepted) && !fields.all (fits CustomTag.isDocumented) ||
    firstBreaks (fits CustomTag.isAccepted) breaks fields

end Settings

/-! ## The readers -/

section Readers

-- names are found by comparing texts, and no proof here should try to evaluate that
seal DeclarationKind.ofName? SettingName.ofKey?

/-- How a reading ends: `accepts` says whether there is a result, `post` which one it is, and
`breaks` whether it ends without a report. -/
def EndsAs {α : Type} (accepts breaks : Bool) (post : α → Prop) : Except SettingsError α → Prop
  | .ok r => accepts = true ∧ breaks = false ∧ post r
  | .error e => accepts = false ∧ (SettingsFileError.badSettings e).isReported = !breaks

namespace EndsAs

variable {α β γ : Type} {accepts breaks : Bool} {post : α → Prop} {last : β → Prop}

theorem map {x : Except SettingsError α} {g : α → β} (h : EndsAs accepts breaks post x)
    (hg : ∀ r, post r → last (g r)) : EndsAs accepts breaks last (x.map g) := by
  cases x with
  | ok r => exact ⟨h.1, h.2.1, hg r h.2.2⟩
  | error e => exact h

theorem imp {post' : α → Prop} {x : Except SettingsError α} (h : EndsAs accepts breaks post x)
    (hpost : ∀ r, post r → post' r) : EndsAs accepts breaks post' x := by
  cases x with
  | ok r => exact ⟨h.1, h.2.1, hpost r h.2.2⟩
  | error e => exact h

theorem nil {p q : γ → Bool} {r : α} (h : post r) :
    EndsAs (([] : List γ).all p) (firstBreaks p q []) post (.ok r) := ⟨rfl, rfl, h⟩

/-- A list is read as its first item, and then as the others. -/
theorem cons {p q : γ → Bool} {c : γ} {items : List γ} {x : Except SettingsError α}
    {rest : α → Except SettingsError β} (hx : EndsAs (p c) (q c) post x)
    (hrest : ∀ r, post r → EndsAs (items.all p) (firstBreaks p q items) last (rest r)) :
    EndsAs ((c :: items).all p) (firstBreaks p q (c :: items)) last (x.bind rest) := by
  cases x with
  | ok r =>
    obtain ⟨hp, -, hr⟩ := hx
    simpa [firstBreaks, hp, Except.bind] using hrest r hr
  | error e =>
    obtain ⟨hp, hreported⟩ := hx
    exact ⟨by simp [hp], by simpa [firstBreaks, hp] using hreported⟩

end EndsAs

namespace CustomTag

/-- The kind of an item. -/
def kindOfItem : Json → Except SettingsError DeclarationKind
  | .string name => kindOfName name
  | _ => .error .kindNotText

theorem kindOfItem_endsAs (item : Json) : EndsAs item.kind?.isSome item.string?.isNone
    (fun kind => item.kind? = some kind) (kindOfItem item) := by
  cases item with
  | string name =>
    have hkind : (Json.string name).kind? = DeclarationKind.ofName? name := by
      rw [Json.kind?, Json.string?, Option.bind_some]
    rw [kindOfItem, kindOfName, hkind]
    cases DeclarationKind.ofName? name with
    | none => exact ⟨rfl, rfl⟩
    | some kind => exact ⟨rfl, rfl, rfl⟩
  | _ => exact ⟨rfl, rfl⟩

theorem kindsOfItems_cons (item : Json) (items : List Json) : kindsOfItems (item :: items) =
    (kindOfItem item).bind fun kind => (kindsOfItems items).map (kind :: ·) := by
  cases item with
  | string name =>
    rw [kindsOfItems.eq_def]
    dsimp only [kindOfItem]
    cases kindOfName name <;> rfl
  | _ => rfl

theorem kindsOfItems_endsAs (items : List Json) :
    EndsAs (items.all fun item => item.kind?.isSome)
      (firstBreaks (fun item => item.kind?.isSome) (fun item => item.string?.isNone) items)
      (fun kinds => kinds = items.filterMap Json.kind?) (kindsOfItems items) := by
  induction items with
  | nil => exact .nil rfl
  | cons item items ih =>
    rw [kindsOfItems_cons]
    refine (kindOfItem_endsAs item).cons fun kind hkind => ih.map fun kinds hkinds => ?_
    rw [List.filterMap_cons_some hkind, hkinds]

theorem readKinds_endsAs (kinds : Json) : EndsAs (readsKinds kinds) (breaksOnKinds kinds)
    (fun read => read = writtenKinds kinds) (readKinds kinds) := by
  cases kinds with
  | null => exact ⟨rfl, rfl, rfl⟩
  | array items => exact (kindsOfItems_endsAs items).map fun _ => congrArg some
  | string s => exact (kindsOfItems_endsAs _).map fun _ => congrArg some
  | object fields => exact (kindsOfItems_endsAs _).map fun _ => congrArg some
  | bool b => exact ⟨rfl, rfl⟩
  | number n => exact ⟨rfl, rfl⟩

theorem ofJson_endsAs (j : Json) :
    EndsAs (isAccepted j) (breaks j) (fun tag => tag = written j) (ofJson j) := by
  rw [isAccepted, breaks, name?, ofJson]
  cases (j.field "tag").isTruthy with
  | false => exact ⟨rfl, rfl⟩
  | true =>
    refine (readKinds_endsAs (j.field "kinds")).map fun kinds hkinds => ?_
    rw [hkinds, written]

theorem customTagsOfItems_cons (j : Json) (items : List Json) : customTagsOfItems (j :: items) =
    (ofJson j).bind fun tag => (customTagsOfItems items).map (tag :: ·) := by
  rw [customTagsOfItems.eq_def]
  dsimp only
  cases ofJson j <;> rfl

theorem customTagsOfItems_endsAs (items : List Json) :
    EndsAs (items.all isAccepted) (firstBreaks isAccepted breaks items)
      (fun tags => tags = items.map written) (customTagsOfItems items) := by
  induction items with
  | nil => exact .nil rfl
  | cons j items ih =>
    rw [customTagsOfItems_cons]
    refine (ofJson_endsAs j).cons fun tag htag => ih.map fun tags htags => ?_
    rw [htag, htags, List.map_cons]

end CustomTag

namespace Settings

/-- A field gives a setting its value, and leaves all others as they are. -/
structure Sets (field : String × Json) (s s' : Settings) (n : SettingName) : Prop where
  named : named? field = some n
  holds : s'.Holds n field.2
  others : ∀ m ≠ n, s'.Agree s m

variable {s s' : Settings} {m n : SettingName}

theorem Agree.refl (s : Settings) (n : SettingName) : s.Agree s n := by
  cases n <;> rfl

theorem Agree.trans {s'' : Settings} (h : s''.Agree s' n) (h' : s'.Agree s n) : s''.Agree s n := by
  cases n <;> exact Eq.trans h h'

/-- A value stays that of a setting as long as the setting is the same. -/
theorem Holds.of_agree {value : Json} (h : s.Holds n value) (hagree : s'.Agree s n) :
    s'.Holds n value := by
  cases n with
  | customTags =>
    obtain ⟨items, hvalue, htags⟩ := h
    exact ⟨items, hvalue, Eq.trans hagree htags⟩
  | flag f => rw [Holds, show s'.flag f = s.flag f from hagree]; exact h
  | text t => rw [Holds, show s'.text t = s.text t from hagree]; exact h
  | column c => rw [Holds, show s'.column c = s.column c from hagree]; exact h

theorem agree_setFlag {f : Flag} (b : Bool) (hm : m ≠ .flag f) : (s.setFlag f b).Agree s m := by
  cases m with
  | flag g => exact if_neg fun hg => hm (congrArg _ hg)
  | _ => rfl

theorem agree_setText {t : TextSetting} (text : String) (hm : m ≠ .text t) :
    (s.setText t text).Agree s m := by
  cases m with
  | text u => exact if_neg fun hu => hm (congrArg _ hu)
  | _ => rfl

theorem agree_setColumn {c : Column} (k : Int) (hm : m ≠ .column c) :
    (s.setColumn c k).Agree s m := by
  cases m with
  | column d => exact if_neg fun hd => hm (congrArg _ hd)
  | _ => rfl

theorem setField_endsAs (s : Settings) (key : String) (value : Json) :
    EndsAs (fits CustomTag.isAccepted (key, value)) (breaks (key, value))
      (fun s' => ∃ n, Sets (key, value) s s' n) (s.setField key value) := by
  have hkey : SettingName.ofKey? (normalizeKey key) = named? (key, value) := by rw [named?]
  unfold setField fits breaks
  rw [hkey]
  cases hnamed : named? (key, value) with
  | none => exact ⟨rfl, rfl⟩
  | some n =>
    -- for each form of setting, values of all other forms are refused with a report
    cases n with
    | flag f =>
      cases value with
      | bool b =>
        exact ⟨rfl, rfl, .flag f, hnamed, by simp [Holds, setFlag], fun m => agree_setFlag b⟩
      | _ => exact ⟨rfl, rfl⟩
    | text t =>
      cases value with
      | string text =>
        exact ⟨rfl, rfl, .text t, hnamed, by simp [Holds, setText], fun m => agree_setText text⟩
      | _ => exact ⟨rfl, rfl⟩
    | column c =>
      match value with
      | .number (.int k) =>
        by_cases hk : k < 0
        · simp only [if_pos hk]
          exact ⟨by simpa [SettingName.fits] using hk, rfl⟩
        · simp only [if_neg hk]
          exact ⟨by simpa [SettingName.fits] using hk, rfl, .column c, hnamed,
            by simp [Holds, setColumn], fun m => agree_setColumn k⟩
      | .number (.real _) => exact ⟨rfl, rfl⟩
      | .null | .bool _ | .string _ | .array _ | .object _ => exact ⟨rfl, rfl⟩
    | customTags =>
      cases value with
      | array items =>
        refine (CustomTag.customTagsOfItems_endsAs items).map fun tags htags =>
          ⟨.customTags, hnamed, ⟨items, rfl, htags⟩, fun m hm => ?_⟩
        cases m with
        | customTags => exact (hm rfl).elim
        | _ => rfl
      | _ => exact ⟨rfl, rfl⟩

/-! ## Fields -/

theorem lastWritten?_cons (n : SettingName) (field : String × Json)
    (fields : List (String × Json)) : lastWritten? n (field :: fields) =
      (lastWritten? n fields).or (if named? field = some n then some field.2 else none) := by
  unfold lastWritten?
  by_cases hnamed : named? field = some n
  · rw [List.filter_cons_of_pos (by simpa using hnamed), List.getLast?_cons, if_pos hnamed]
    cases (fields.filter fun field => named? field = some n).getLast? <;> rfl
  · rw [List.filter_cons_of_neg (by simpa using hnamed), if_neg hnamed, Option.or_none]

/-- What the fields after the first one give counts before what that one gives. -/
theorem Sets.takes {s'' : Settings} {field : String × Json} {fields : List (String × Json)}
    (hset : Sets field s s' n) (hrest : ∀ m, s''.Takes s' fields m) (m : SettingName) :
    s''.Takes s (field :: fields) m := by
  constructor
  · intro value hvalue
    rw [lastWritten?_cons, hset.named] at hvalue
    rcases Option.or_eq_some_iff.mp hvalue with hlast | ⟨hnone, hfirst⟩
    · exact (hrest m).written value hlast
    · obtain ⟨hnm, hfield⟩ := Option.ite_none_right_eq_some.mp hfirst
      obtain rfl := Option.some.inj hnm
      exact Option.some.inj hfield ▸ hset.holds.of_agree ((hrest n).unwritten hnone)
  · intro hnone
    rw [lastWritten?_cons, hset.named, Option.or_eq_none_iff] at hnone
    obtain ⟨hrestNone, hfirst⟩ := hnone
    have hne : m ≠ n := fun h => by simp [h] at hfirst
    exact ((hrest m).unwritten hrestNone).trans (hset.others m hne)

theorem setFields_cons (s : Settings) (key : String) (value : Json)
    (fields : List (String × Json)) : s.setFields ((key, value) :: fields) =
      (s.setField key value).bind fun s => s.setFields fields := by
  rw [setFields.eq_def]
  dsimp only
  cases s.setField key value <;> rfl

theorem setFields_endsAs (s : Settings) (fields : List (String × Json)) :
    EndsAs (fields.all (fits CustomTag.isAccepted))
      (firstBreaks (fits CustomTag.isAccepted) breaks fields)
      (fun s' => ∀ n, s'.Takes s fields n) (s.setFields fields) := by
  induction fields generalizing s with
  | nil =>
    have hnone (n : SettingName) : lastWritten? n [] = none := rfl
    exact .nil fun n => ⟨fun value h => by simp [hnone] at h, fun _ => Agree.refl s n⟩
  | cons field fields ih =>
    obtain ⟨key, value⟩ := field
    rw [setFields_cons]
    refine (s.setField_endsAs key value).cons fun s' hset => ?_
    obtain ⟨n, hset⟩ := hset
    exact (ih s').imp fun s'' hrest => hset.takes hrest

theorem ofFields_endsAs (fields : List (String × Json)) :
    EndsAs (fields.all (fits CustomTag.isAccepted))
      (firstBreaks (fits CustomTag.isAccepted) breaks fields)
      (fun s => ∀ n, s.Takes {} fields n) (ofFields fields) := setFields_endsAs {} fields

end Settings

theorem CustomTag.readsKinds_of_listsKinds {kinds : Json} (h : listsKinds kinds) :
    readsKinds kinds := by
  cases kinds with
  | null => rfl
  | array items => exact h
  | _ => cases h

/-- A tag of the user as it is documented is accepted. -/
theorem CustomTag.isAccepted_of_isDocumented {j : Json} (h : isDocumented j) : isAccepted j := by
  rw [isDocumented, Bool.and_eq_true] at h
  have hname : (name? j).isSome := by
    cases hname : name? j with
    | none => simp [hname] at h
    | some name => rfl
  rw [isAccepted, hname, readsKinds_of_listsKinds h.2]
  rfl

theorem SettingName.fits_mono {tag tag' : Json → Bool} (htag : ∀ j, tag j → tag' j)
    {n : SettingName} {value : Json} (h : n.fits tag value) : n.fits tag' value := by
  cases n with
  | customTags =>
    cases value with
    | array items => exact List.all_eq_true.mpr fun j hj => htag j (List.all_eq_true.mp h j hj)
    | _ => cases h
  | flag f | text t => cases value <;> exact h
  | column c =>
    match value with
    | .number (.int k) => exact h
    | .number (.real _) | .null | .bool _ | .string _ | .array _ | .object _ => cases h

namespace Settings

/-- So is a field of the documented form. -/
theorem fits_isAccepted {field : String × Json} (h : fits CustomTag.isDocumented field) :
    fits CustomTag.isAccepted field := by
  obtain ⟨n, hnamed, hfits⟩ := (Option.any_eq_true _ _).mp h
  exact (Option.any_eq_true _ _).mpr
    ⟨n, hnamed, SettingName.fits_mono (fun _ => CustomTag.isAccepted_of_isDocumented) hfits⟩

end Settings

end Readers

namespace Settings

/-- **Settings are validated.** Whatever the fields of an object are, settings are accepted just
when all fields name a setting and have values of the documented form; then each setting has the
value that is written last, or its default, and otherwise what is wrong is reported. This holds of
all objects but those that are misread, and of none of them: either all fields are accepted, and a
tag of the user has a name of at signs alone, or kinds written as a text or as an object; or the
first field that is not accepted has a list whose first tag that is not accepted has a name, and
its kinds cannot be gone through, or the first that names none is no text. -/
theorem validated_iff (fields : List (String × Json)) :
    Validated fields ↔ isMisread fields = false := by
  have hends := ofFields_endsAs fields
  rw [isMisread]
  cases hread : ofFields fields with
  | ok s =>
    rw [hread] at hends
    obtain ⟨haccepts, hbreaks, htakes⟩ := hends
    have hdocumented : Validated fields ↔ ∀ field ∈ fields, fits CustomTag.isDocumented field := by
      refine ⟨fun h => h.accepted.mp ⟨s, hread⟩, fun h => ⟨?_, ?_, ?_⟩⟩
      · intro e he
        rw [hread] at he
        cases he
      · exact ⟨fun _ => h, fun _ => ⟨s, hread⟩⟩
      · intro s' hs'
        rw [hread] at hs'
        cases hs'
        exact htakes
    simpa [haccepts, hbreaks] using hdocumented
  | error e =>
    rw [hread] at hends
    obtain ⟨haccepts, hreported⟩ := hends
    have hnone (s : Settings) : ofFields fields ≠ .ok s := by
      rw [hread]
      nofun
    have hundocumented : ¬ ∀ field ∈ fields, fits CustomTag.isDocumented field := by
      intro h
      have haccepted := List.all_eq_true.mpr fun field hfield => fits_isAccepted (h field hfield)
      rw [haccepts] at haccepted
      cases haccepted
    have hvalidated : Validated fields ↔ (SettingsFileError.badSettings e).isReported := by
      refine ⟨fun h => h.reported e hread, fun h => ⟨?_, ?_, fun s hs => (hnone s hs).elim⟩⟩
      · intro e' he'
        rw [hread] at he'
        cases he'
        exact h
      · exact ⟨fun ⟨s, hs⟩ => (hnone s hs).elim, fun h => (hundocumented h).elim⟩
    simpa [haccepts, hreported] using hvalidated

/-- A tag that is nothing but an at sign is accepted, though it has no name. -/
example : isMisread [("customTags", .array [.object [("tag", .string "@")]])] = true := by
  decide +kernel

/-- Kinds that are a number are not reported as what is wrong. -/
theorem not_validated_of_number : ¬ Validated
    [("customTags", .array [.object [("tag", .string "since"), ("kinds", .number (.int 5))]])] := by
  intro h
  have hreported := h.reported .kindsNotList rfl
  cases hreported

end Settings

end DocHeader
