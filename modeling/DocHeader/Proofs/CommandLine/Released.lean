import DocHeader.CommandLine.Program
import DocHeader.Proofs.Generation.Cancelled
import DocHeader.Proofs.Generation.Clients

/-!
# Clients are let go

A run of the program opens at most one client of the assistant, while it sets up the task, and
closes it once, after the request, however the request ends. Between the two stand three ways
out on which the client is forgotten: a description that is given by the settings, for then the
client is handed to nobody; a blank language, which ends setting up; and a spot that is no
position in the text, for it is looked up before the request.

## Main definitions

* `Machine.Opens` — setting up a task opens a client.
* `Machine.Forgets` — the client is not closed.
-/

namespace DocHeader

/-- The text that is given to a task in place of a file. -/
def Machine.givenText (m : Machine) (a : Arguments) : Option String :=
  if a.options.stdin then some m.input else none

/-- Setting up a task opens a client: its settings are there, and so is the syntax helper, and
there is a key. -/
structure Machine.Opens (m : Machine) (tree : FileTree) (a : Arguments) (s : Settings) : Prop where
  settings : m.settings tree a.options.config ((Path.ofText a.task.target).resolve m.here) = .ok s
  helper : tree.leads m.here (m.helperPath a.options.helper) = true
  key : s.apiKey? m.environment ≠ none

/-- A task is about a spot that is no position in the text, or in a text that is not there. -/
def Machine.Loses (m : Machine) (tree : FileTree) (a : Arguments) : Prop :=
  ∃ file spot e, a.task = .position file spot ∧
    m.locate tree file (m.givenText a) a.options.column spot = .error e

/-- What keeps a client from being closed. -/
inductive Machine.Forgets (m : Machine) (tree : FileTree) (a : Arguments) (s : Settings) : Prop where
  /-- The settings give the descriptions themselves. -/
  | unused (h : s.text .descriptionPlaceholder ≠ "")
  | blankLanguage (h : hasContent (s.text .language) = false)
  | lost (h : m.Loses tree a)

/-- Letting a generator go closes `n` clients. -/
def Generator.Closes (g : Generator) (n : Nat) : Prop :=
  ∀ d, (g.close d).2.clients = (d.exchange.opened, d.exchange.closed + n)

/-! ## Setting up -/

/-- A key that is found is not empty. -/
theorem Settings.apiKey?_isEmpty {s : Settings} {env : Variables} {key : String}
    (h : s.apiKey? env = some key) : key.isEmpty = false := by
  simp only [apiKey?, Option.or_eq_some_iff, Option.bind_eq_some_iff, Option.ite_none_left_eq_some,
    Option.some.injEq] at h
  rcases h with ⟨hkey, rfl⟩ | ⟨-, _, -, hkey, rfl⟩ <;> simpa using hkey

/-- An assistant is wanted when there is a key. Its client is opened, also when the language is
blank and there is no assistant after all. -/
theorem Assistant.ofSettings_cases (s : Settings) (env : Variables) (patience : Patience)
    (x : Exchange) :
    (s.apiKey? env = none ∧ ofSettings s env patience x = (.ok none, x)) ∨
    (s.apiKey? env ≠ none ∧ hasContent (s.text .language) = false ∧
      ∃ e, ofSettings s env patience x = (.error e, { x with opened := x.opened + 1 })) ∨
    (s.apiKey? env ≠ none ∧ hasContent (s.text .language) = true ∧
      ∃ a, ofSettings s env patience x = (.ok (some a), { x with opened := x.opened + 1 })) := by
  cases hkey : s.apiKey? env with
  | none => exact .inl ⟨rfl, by simp only [ofSettings, hkey]; rfl⟩
  | some key =>
    have hnonempty := Settings.apiKey?_isEmpty hkey
    right
    simp only [ofSettings, hkey, Client.opened, hnonempty, Bool.false_eq_true, if_false,
      Prompter.ofLanguage]
    cases hlanguage : hasContent (s.text .language) with
    | false => exact .inl ⟨by simp, rfl, _, rfl⟩
    | true => exact .inr ⟨by simp, rfl, _, rfl⟩

/-- A generator whose source is selected by settings leaves clients alone during requests, and
closes one when the source asks an assistant. -/
theorem Generator.of_select {g : Generator} {s : Settings} {assistant : Option Assistant}
    (h : g.builder.source = .select s assistant) :
    g.LeavesClients ∧
      g.Closes (if s.text .descriptionPlaceholder = "" ∧ assistant.isSome then 1 else 0) := by
  refine ⟨⟨h ▸ DescriptionSource.select_respects s assistant,
    h ▸ DescriptionSource.select_leavesClients s assistant⟩, fun d => ?_⟩
  simp only [Generator.close, h, DescriptionSource.select]
  by_cases htext : s.text .descriptionPlaceholder = ""
  · cases assistant with
    | none => simp [htext]; rfl
    | some a => simp [htext]; rfl
  · simp [htext]; rfl

namespace Machine

variable {m : Machine} {a : Arguments} {d : Desk}

/-- The generator that is set up for a task, once its settings are there. -/
def generatorOf (m : Machine) (a : Arguments) (tree : FileTree) (s : Settings)
    (assistant : Option Assistant) : Generator where
  surroundings := m.surroundings
  builder := ⟨s, .select s assistant, m.now⟩
  writer :=
    { here := m.here, base := m.baseOf tree ((Path.ofText a.task.target).resolve m.here),
      hazards := m.hazards }
  glob := a.options.glob

theorem prepare_run (m : Machine) (a : Arguments) (d : Desk) : (m.prepare a).run d =
    match m.settings d.disk.tree a.options.config ((Path.ofText a.task.target).resolve m.here) with
    | .error e => (.error (.settings e), d)
    | .ok s =>
      if d.disk.tree.leads m.here (m.helperPath a.options.helper) then
        match m.openAssistant s ⟨a.options.maxRetries, a.options.timeout⟩ d with
        | (.error e, d') => (.error (.assistant e), d')
        | (.ok assistant, d') => (.ok (m.generatorOf a d.disk.tree s assistant), d')
      else (.error (.noHelper (m.helperPath a.options.helper)), d) := by
  have hget : (get : ExceptT SetupError (StateM Desk) Desk).run d = (.ok d, d) := rfl
  simp only [prepare, ExceptT.run_bind, Desk.bind_apply, hget]
  cases m.settings d.disk.tree a.options.config ((Path.ofText a.task.target).resolve m.here) with
  | error e => rfl
  | ok s =>
    cases d.disk.tree.leads m.here (m.helperPath a.options.helper) with
    | false => rfl
    | true =>
      have hlift (s : Settings) (patience : Patience) :
          (liftM (m.openAssistant s patience) : ExceptT SetupError (StateM Desk) _).run d =
            (.ok (m.openAssistant s patience d).1, (m.openAssistant s patience d).2) := rfl
      simp only [Bool.not_true, Bool.false_eq_true, if_false, if_true, ExceptT.run_bind,
        Desk.bind_apply, hlift]
      rcases m.openAssistant s ⟨a.options.maxRetries, a.options.timeout⟩ d with ⟨_ | _, d'⟩ <;> rfl

/-- How setting up a task ends, and what it does about a client. -/
inductive Prepares (m : Machine) (a : Arguments) (d : Desk) : Prop where
  /-- There is no client. -/
  | clientless (h : ∀ s, ¬m.Opens d.disk.tree a s) {r : Except SetupError Generator}
    (hrun : (m.prepare a).run d = (r, d))
    (hg : ∀ g, r = .ok g → g.LeavesClients ∧ g.Closes 0)
  /-- A client is opened, and setting up is given up. -/
  | refused {s : Settings} (h : m.Opens d.disk.tree a s)
    (hlanguage : hasContent (s.text .language) = false) {e : SetupError} {d' : Desk}
    (hrun : (m.prepare a).run d = (.error e, d'))
    (hclients : d'.clients = (d.exchange.opened + 1, d.exchange.closed))
  /-- A client is opened, and the generator closes it when it has been given it. -/
  | assisted {s : Settings} (h : m.Opens d.disk.tree a s)
    (hlanguage : hasContent (s.text .language) = true) {g : Generator} {d' : Desk}
    (hrun : (m.prepare a).run d = (.ok g, d')) (hdisk : d'.disk = d.disk)
    (hclients : d'.clients = (d.exchange.opened + 1, d.exchange.closed))
    (hg : g.LeavesClients ∧
      g.Closes (if s.text .descriptionPlaceholder = "" then 1 else 0))

theorem prepares (m : Machine) (a : Arguments) (d : Desk) : m.Prepares a d := by
  have hrun := m.prepare_run a d
  cases hsettings : m.settings d.disk.tree a.options.config
      ((Path.ofText a.task.target).resolve m.here) with
  | error e =>
    rw [hsettings] at hrun
    exact .clientless (fun s h => by simp [h.settings] at hsettings) hrun nofun
  | ok s =>
    simp only [hsettings] at hrun
    have hsame (s' : Settings) (h : m.Opens d.disk.tree a s') : s' = s :=
      Except.ok.inj (h.settings.symm.trans hsettings)
    cases hhelper : d.disk.tree.leads m.here (m.helperPath a.options.helper) with
    | false =>
      simp only [hhelper, Bool.false_eq_true, if_false] at hrun
      exact .clientless (fun s h => by simp [h.helper] at hhelper) hrun nofun
    | true =>
      simp only [hhelper, if_true, openAssistant, Desk.onExchange, Logged.onState] at hrun
      rcases Assistant.ofSettings_cases s m.environment ⟨a.options.maxRetries, a.options.timeout⟩
        d.exchange with ⟨hkey, hopen⟩ | ⟨hkey, hlanguage, e, hopen⟩ | ⟨hkey, hlanguage, a', hopen⟩ <;>
        simp only [hopen] at hrun
      · refine .clientless (fun s' h => h.key (hsame s' h ▸ hkey)) hrun fun g hg => ?_
        cases hg
        have hsource : (m.generatorOf a d.disk.tree s none).builder.source = .select s none := rfl
        simpa using Generator.of_select hsource
      · exact .refused ⟨hsettings, hhelper, hkey⟩ hlanguage hrun rfl
      · refine .assisted ⟨hsettings, hhelper, hkey⟩ hlanguage hrun rfl rfl ?_
        have hsource : (m.generatorOf a d.disk.tree s (some a')).builder.source =
            .select s (some a') := rfl
        simpa using Generator.of_select hsource

/-! ## Carrying out -/

/-- However a request ends, its generator is let go. -/
theorem conclude_clients {g : Generator} {n : Nat} (hcloses : g.Closes n)
    {work : Work GenerationResult} (hwork : work.LeavesClients) (a : Arguments) (d : Desk) :
    (conclude a g work d).2.clients = (d.exchange.opened, d.exchange.closed + n) := by
  have hleft := Prod.mk.inj (hwork d)
  have hclosed := hcloses (work.run d).2
  rw [hleft.1, hleft.2] at hclosed
  rw [conclude, Desk.bind_apply, Desk.bind_apply]
  cases (work.run d).1 <;> exact hclosed

theorem perform_position {file : String} {spot : Spot} {g : Generator}
    (htask : a.task = .position file spot) : m.perform a g d =
      match m.locate d.disk.tree file (m.givenText a) a.options.column spot with
      | .error e => (failureReport e.message, d)
      | .ok (offset, text) =>
        conclude a g (g.atPosition file offset
          (if a.printing then .console a.options.snippet else .file g.writer file) text) d := by
  simp only [perform, htask]
  rw [Desk.bind_apply, Desk.get_apply, givenText]
  dsimp only
  cases m.locate d.disk.tree file (if a.options.stdin then some m.input else none)
    a.options.column spot <;> rfl

/-- A generator is let go after its request, which is not made when the spot is lost. -/
theorem perform_clients {g : Generator} {n : Nat} (hg : g.LeavesClients) (hcloses : g.Closes n)
    (m : Machine) (a : Arguments) (d : Desk) :
    (m.Loses d.disk.tree a ∧ (m.perform a g d).2.clients = d.clients) ∨
    (¬m.Loses d.disk.tree a ∧
      (m.perform a g d).2.clients = (d.exchange.opened, d.exchange.closed + n)) := by
  have hmany {work : Work GenerationResult} (hwork : work.LeavesClients)
      (htask : ∀ file spot, a.task ≠ .position file spot)
      (hperform : m.perform a g d = conclude a g work d) :
      ¬m.Loses d.disk.tree a ∧
        (m.perform a g d).2.clients = (d.exchange.opened, d.exchange.closed + n) := by
    refine ⟨fun ⟨file, spot, _, h, _⟩ => htask file spot h, ?_⟩
    rw [hperform]
    exact conclude_clients hcloses hwork a d
  cases htask : a.task with
  | file path =>
    exact .inr (hmany (Generator.generate_leaves hg (.file path)) (by simp [htask])
      (by simp only [perform, htask]; rfl))
  | folder path =>
    exact .inr (hmany (Generator.generate_leaves hg (.folder path)) (by simp [htask])
      (by simp only [perform, htask]; rfl))
  | workspace path =>
    exact .inr (hmany (Generator.generate_leaves hg (.workspace path)) (by simp [htask])
      (by simp only [perform, htask]; rfl))
  | position file spot =>
    rw [perform_position htask]
    cases hlocate : m.locate d.disk.tree file (m.givenText a) a.options.column spot with
    | error e => exact .inl ⟨⟨file, spot, e, htask, hlocate⟩, rfl⟩
    | ok found =>
      right
      constructor
      · rintro ⟨file', spot', e, htask', hlocate'⟩
        cases htask.symm.trans htask'
        cases hlocate.symm.trans hlocate'
      · have hsink : (if a.printing then Sink.console a.options.snippet
            else Sink.file g.writer file).LeavesClients := by
          split
          · exact Sink.console_leavesClients _
          · exact Sink.file_leavesClients _ _
        exact conclude_clients hcloses (Generator.atPosition_leaves hg hsink file found.1 found.2) a d

/-! ## Runs -/

theorem runTask_snd_of_error {e : SetupError} {d' : Desk}
    (h : (m.prepare a).run d = (.error e, d')) : (m.runTask a d).2 = d' := by
  rw [runTask, Desk.bind_apply, h]
  cases e <;> rfl

theorem runTask_snd_of_ok {g : Generator} {d' : Desk} (h : (m.prepare a).run d = (.ok g, d')) :
    (m.runTask a d).2 = (m.perform a g d').2 := by
  rw [runTask, Desk.bind_apply, h]
  rfl

/-- What a task does about a client: none is opened, or one is opened and, unless it is
forgotten, closed once. -/
theorem runTask_clients (m : Machine) (a : Arguments) (d : Desk) :
    ((∀ s, ¬m.Opens d.disk.tree a s) ∧ (m.runTask a d).2.clients = d.clients) ∨
    ∃ s, m.Opens d.disk.tree a s ∧
      (m.Forgets d.disk.tree a s ∧
        (m.runTask a d).2.clients = (d.exchange.opened + 1, d.exchange.closed) ∨
      ¬m.Forgets d.disk.tree a s ∧
        (m.runTask a d).2.clients = (d.exchange.opened + 1, d.exchange.closed + 1)) := by
  rcases m.prepares a d with ⟨hnot, hrun, hg⟩ | ⟨hopens, hlanguage, hrun, hclients⟩ |
    ⟨hopens, hlanguage, hrun, hdisk, hclients, hleaves, hcloses⟩
  · refine .inl ⟨hnot, ?_⟩
    rename_i r
    cases r with
    | error e => rw [runTask_snd_of_error hrun]
    | ok g =>
      obtain ⟨hleaves, hcloses⟩ := hg g rfl
      rw [runTask_snd_of_ok hrun]
      rcases perform_clients hleaves hcloses m a d with ⟨-, hsame⟩ | ⟨-, hsame⟩ <;> exact hsame
  · refine .inr ⟨_, hopens, .inl ⟨.blankLanguage hlanguage, ?_⟩⟩
    rw [runTask_snd_of_error hrun, hclients]
  · rename_i s g d'
    refine .inr ⟨s, hopens, ?_⟩
    obtain ⟨hopened, hclosed⟩ := Prod.mk.inj hclients
    rw [runTask_snd_of_ok hrun]
    rcases perform_clients hleaves hcloses m a d' with ⟨hlost, hsame⟩ | ⟨hfound, hsame⟩ <;>
      rw [hsame] <;> rw [hdisk] at *
    · exact .inl ⟨.lost hlost, hclients⟩
    · by_cases htext : s.text .descriptionPlaceholder = ""
      · right
        refine ⟨?_, by rw [if_pos htext, hopened, hclosed]⟩
        rintro (hgiven | hblank | hlost)
        · exact hgiven htext
        · rw [hlanguage] at hblank
          cases hblank
        · exact hfound hlost
      · exact .inl ⟨.unused htext, by rw [if_neg htext, hopened, hclosed]; rfl⟩

/-- **Clients are let go, unless they are forgotten.** A run opens no client when it is not
asked for a task or the task has no use for a client. Otherwise it opens one. It closes the
client once if neither the settings give the descriptions, nor the language is blank, nor the
spot is lost; and else it does not. -/
theorem run_releases (m : Machine) (texts : List String) (d : Desk) :
    ((∀ a s, Invocation.ofTexts texts = .run a → ¬m.Opens d.disk.tree a s) ∧
      (m.run texts d).2.exchange.opened = d.exchange.opened ∧
      (m.run texts d).2.exchange.closed = d.exchange.closed) ∨
    ∃ a s, Invocation.ofTexts texts = .run a ∧ m.Opens d.disk.tree a s ∧
      (m.run texts d).2.exchange.opened = d.exchange.opened + 1 ∧
      (m.Forgets d.disk.tree a s ∧
        (m.run texts d).2.exchange.closed = d.exchange.closed ∨
      ¬m.Forgets d.disk.tree a s ∧
        (m.run texts d).2.exchange.closed = d.exchange.closed + 1) := by
  have hidle {r : Report} (h : m.run texts = pure (.ok r)) :
      (m.run texts d).2.exchange.opened = d.exchange.opened ∧
        (m.run texts d).2.exchange.closed = d.exchange.closed := by
    rw [h]
    exact ⟨rfl, rfl⟩
  cases htask : Invocation.ofTexts texts with
  | run a =>
    simp only [run, htask]
    rcases m.runTask_clients a d with ⟨hnot, hclients⟩ | ⟨s, hopens, hclients⟩
    · obtain ⟨hopened, hclosed⟩ := Prod.mk.inj hclients
      refine .inl ⟨?_, hopened, hclosed⟩
      rintro _ s ⟨⟩
      exact hnot s
    · refine .inr ⟨a, s, rfl, hopens, ?_⟩
      rcases hclients with ⟨hforgets, hclients⟩ | ⟨hkeeps, hclients⟩ <;>
        obtain ⟨hopened, hclosed⟩ := Prod.mk.inj hclients
      · exact ⟨hopened, .inl ⟨hforgets, hclosed⟩⟩
      · exact ⟨hopened, .inr ⟨hkeeps, hclosed⟩⟩
  | help command => exact .inl ⟨by rintro _ _ ⟨⟩, hidle (by rw [run, htask])⟩
  | version => exact .inl ⟨by rintro _ _ ⟨⟩, hidle (by rw [run, htask])⟩
  | nothing => exact .inl ⟨by rintro _ _ ⟨⟩, hidle (by rw [run, htask])⟩
  | refused command error => exact .inl ⟨by rintro _ _ ⟨⟩, hidle (by rw [run, htask])⟩

/-- A machine with a key for the assistant, on which every file has one enumeration. -/
def keyed : Machine where
  surroundings := { helper := fun _ _ _ => .finished Generator.enumeration.compact "" 0 }
  environment := [(apiKeyVariable, "k")]
  now := { year := 2024, month := 1, day := 1 }

/-- A desk with one file, the syntax helper and a settings file. -/
def deskWith (settings : String) : Desk where
  disk.tree := ⟨[(["a.ts"], .file (.text "e")), ([helperName], .file (.text "")),
    ([settingsFileName], .file (.text settings))]⟩

example :
    let settings := "\x7b\"descriptionPlaceholder\": \"\"\x7d"
    let exchange := (keyed.run ["position", "a.ts", "--offset", "5"] (deskWith settings)).2.exchange
    exchange.opened = 1 ∧ exchange.closed = 1 := by
  decide +kernel

/-- Each of the three ways to forget a client: by default the settings describe declarations,
a language may be blank, and a file need not have a fifth line. -/
theorem run_forgets_client :
    let settings := "\x7b\"descriptionPlaceholder\": \"\"\x7d"
    let speechless := "\x7b\"descriptionPlaceholder\": \"\", \"generativeLanguage\": \" \"\x7d"
    let described := (keyed.run ["file", "a.ts"] (deskWith "\x7b\x7d")).2.exchange
    let blank := (keyed.run ["file", "a.ts"] (deskWith speechless)).2.exchange
    let lost := (keyed.run ["position", "a.ts", "--line", "5"] (deskWith settings)).2.exchange
    (described.opened = 1 ∧ described.closed = 0) ∧ (blank.opened = 1 ∧ blank.closed = 0) ∧
      (lost.opened = 1 ∧ lost.closed = 0) := by
  decide +kernel

end Machine

end DocHeader
