import DocHeader.Disk.Walk
import DocHeader.Proofs.Glob.Sources
import Mathlib.Data.List.Nodup

/-!
# The files that are found

The files below a directory that the glob of source files selects, and how they differ from
those that have a language.

## Main definitions

* `FileTree.IsProper` — a file tree as disks have them.
* `FileTree.Offers` — a file that may be found.
* `FileTree.FindsSources` — what is found with the glob of source files.
-/

namespace DocHeader

namespace Path

variable {parts parts' : List String} {root : String}

/-- The path of a file below a root. -/
def below (root : String) (parts : List String) : String :=
  ((ofText root).join ⟨"", parts⟩).text

theorem ofText_below (root : String) (hparts : ∀ part ∈ parts, IsPart part) :
    ofText (below root parts) = (ofText root).join ⟨"", parts⟩ :=
  ofText_text ((isPlain_ofText root).join hparts)

theorem below_injective (hparts : ∀ part ∈ parts, IsPart part)
    (hparts' : ∀ part ∈ parts', IsPart part) (h : below root parts = below root parts') :
    parts = parts' := by
  have hpath := congrArg (fun path => (ofText path).parts) h
  simp only [ofText_below root hparts, ofText_below root hparts'] at hpath
  exact List.append_cancel_left hpath

/-- The suffix of a file is that of its name. -/
theorem suffix_ofText_below {directories : List String} {name : String}
    (hparts : ∀ part ∈ directories ++ [name], IsPart part) :
    (ofText (below root (directories ++ [name]))).suffix = .ofList (suffixOf name.toList) := by
  have hname : ((ofText root).join ⟨"", directories ++ [name]⟩).name = name := by
    simp [join, isAbsolute, Path.name, ← List.append_assoc]
  rw [ofText_below root hparts, suffix, hname]

theorem suffixOf_isSuffix (name : List Char) : suffixOf name <:+ name := by
  rw [suffixOf]
  split
  next before after hsplit =>
    obtain ⟨rfl, -⟩ := splitLast_eq_some.mp hsplit
    split
    next => exact List.nil_suffix
    next => exact List.suffix_append before _
  next => exact List.nil_suffix

theorem suffixOf_append {stem extension : List Char} (hstem : stem ≠ []) (hsome : extension ≠ [])
    (hdot : '.' ∉ extension) : suffixOf (stem ++ '.' :: extension) = '.' :: extension := by
  have hsplit : Text.splitLast '.' (stem ++ '.' :: extension) = some (stem, extension) :=
    splitLast_eq_some.mpr ⟨rfl, hdot⟩
  simp [suffixOf, hsplit, hstem, hsome]

end Path

namespace FileTree

variable {t : FileTree} {here p : Place} {excluded parts : List String} {root file : String}
  {selects : String → Bool}

/-- Every place is taken once, and is told by components. -/
structure IsProper (t : FileTree) : Prop where
  distinct : (t.entries.map (·.1)).Nodup
  named : ∀ e ∈ t.entries, e.1 ≠ [] ∧ ∀ part ∈ e.1, Path.IsPart part

instance (t : FileTree) : Decidable t.IsProper :=
  decidable_of_iff ((t.entries.map (·.1)).Nodup ∧
      ∀ e ∈ t.entries, e.1 ≠ [] ∧ ∀ part ∈ e.1, Path.IsPart part)
    ⟨fun ⟨hdistinct, hnamed⟩ => ⟨hdistinct, hnamed⟩, fun h => ⟨h.distinct, h.named⟩⟩

/-- A file tree stays proper when an entry is put at a place. -/
theorem IsProper.put (h : t.IsProper) (hp : p ≠ []) (hparts : ∀ part ∈ p, Path.IsPart part)
    (e : Entry) : (t.put p e).IsProper where
  distinct := Association.nodup_keys_set p e h.distinct
  named := by
    intro entry hentry
    rcases (Association.mem_keys_set p entry.1 e t.entries).mp (List.mem_map_of_mem hentry) with
      hsame | hmem
    · rw [hsame]
      exact ⟨hp, hparts⟩
    · obtain ⟨other, hother, hplace⟩ := List.mem_map.mp hmem
      exact hplace ▸ h.named other hother

/-- A file tree stays proper when a place is cleared. -/
theorem IsProper.remove (h : t.IsProper) (p : Place) : (t.remove p).IsProper where
  distinct := h.distinct.sublist (List.filter_sublist.map _)
  named e he := h.named e (List.mem_of_mem_filter he)

/-- A file below a root directory that lies in no excluded directory. -/
structure Offers (t : FileTree) (here : Place) (excluded : List String) (root : String)
    (parts : List String) : Prop where
  held : ∃ place content, t.locate here (Path.ofText root).text = .ok place ∧
    t.find? place = some .directory ∧ t.find? (place ++ parts) = some (.file content)
  apart : liesIn excluded parts = false

theorem IsProper.find?_eq_some (h : t.IsProper) {p : Place} {content : Content} :
    t.find? p = some (.file content) ↔ (p, .file content) ∈ t.entries := by
  rw [find?]
  split
  next hroot =>
    obtain rfl := List.isEmpty_iff.mp hroot
    simpa using fun hmem => (h.named _ hmem).1 rfl
  next => exact Association.get?_eq_some h.distinct

theorem IsProper.mem_filesBelow (h : t.IsProper) :
    parts ∈ t.filesBelow p ↔ ∃ content, t.find? (p ++ parts) = some (.file content) := by
  simp only [filesBelow, List.mem_filterMap, h.find?_eq_some]
  constructor
  · rintro ⟨⟨place, entry⟩, hmem, hbelow⟩
    cases entry with
    | directory => cases hbelow
    | file content =>
      rw [List.isPrefixOf?_eq_some_iff_append_eq] at hbelow
      exact ⟨content, hbelow ▸ hmem⟩
  · rintro ⟨content, hmem⟩
    exact ⟨_, hmem, List.isPrefixOf?_eq_some_iff_append_eq.mpr rfl⟩

/-- No file is listed twice. -/
theorem IsProper.nodup_filesBelow (h : t.IsProper) (p : Place) : (t.filesBelow p).Nodup := by
  -- Files with the same components below `p` would be at the same place.
  have hplaces : t.entries.Pairwise fun e e' => e.1 ≠ e'.1 := List.pairwise_map.mp h.distinct
  rw [filesBelow, List.nodup_iff_pairwise_ne, List.pairwise_filterMap]
  refine hplaces.imp fun {e e'} hne parts hparts parts' hparts' heq => hne ?_
  subst heq
  obtain ⟨place, _ | _⟩ := e
  · obtain ⟨place', _ | _⟩ := e'
    · rw [List.isPrefixOf?_eq_some_iff_append_eq] at hparts hparts'
      exact hparts.symm.trans hparts'
    · cases hparts'
  · cases hparts

/-- What is true of the components of all entries is true of those of a file that is offered. -/
theorem Offers.forall_mem (h : t.IsProper) (hoffers : t.Offers here excluded root parts)
    {P : String → Prop} (hP : ∀ entry ∈ t.entries, ∀ part ∈ entry.1, P part) :
    ∀ part ∈ parts, P part := by
  obtain ⟨place, content, -, -, hfile⟩ := hoffers.held
  exact fun part hpart =>
    hP _ (h.find?_eq_some.mp hfile) part (List.mem_append_right place hpart)

theorem Offers.isPart (h : t.IsProper) (hoffers : t.Offers here excluded root parts) :
    ∀ part ∈ parts, Path.IsPart part :=
  hoffers.forall_mem h fun entry hentry => (h.named entry hentry).2

theorem Offers.ne_nil (hoffers : t.Offers here excluded root parts) : parts ≠ [] := by
  obtain ⟨place, content, -, hdirectory, hfile⟩ := hoffers.held
  rintro rfl
  rw [List.append_nil, hdirectory] at hfile
  cases hfile

/-- Below a directory the files are filtered and sorted, and elsewhere there are none. -/
theorem findFiles_cases (t : FileTree) (here : Place) (excluded : List String)
    (selects : String → Bool) (root : String) :
    (t.findFiles here excluded selects root = [] ∧ ∀ parts, ¬t.Offers here excluded root parts) ∨
    ∃ place, t.locate here (Path.ofText root).text = .ok place ∧
      t.find? place = some .directory ∧
      t.findFiles here excluded selects root =
        (((t.filesBelow place).filter fun parts =>
          !liesIn excluded parts && selects (joinWith "/" parts)).map
            (Path.below root)).mergeSort fun a b => a ≤ b := by
  simp only [findFiles]
  cases hlocate : t.locate here (Path.ofText root).text with
  | error e =>
    refine .inl ⟨rfl, fun parts hoffers => ?_⟩
    obtain ⟨place, content, hplace, -, -⟩ := hoffers.held
    simp [hlocate] at hplace
  | ok place =>
    cases hdirectory : t.find? place == some .directory with
    | true => exact .inr ⟨place, rfl, eq_of_beq hdirectory, if_pos hdirectory⟩
    | false =>
      refine .inl ⟨if_neg (by simp [hdirectory]), fun parts hoffers => ?_⟩
      obtain ⟨place', content, hplace, hheld, -⟩ := hoffers.held
      obtain rfl := Except.ok.inj (hlocate.symm.trans hplace)
      simp [hheld] at hdirectory

theorem mem_findFiles (h : t.IsProper) :
    file ∈ t.findFiles here excluded selects root ↔
      ∃ parts, t.Offers here excluded root parts ∧ selects (joinWith "/" parts) = true ∧
        file = Path.below root parts := by
  rcases t.findFiles_cases here excluded selects root with
    ⟨hnone, hoffers⟩ | ⟨place, hplace, hdirectory, hfound⟩
  · simp [hnone, hoffers]
  · simp only [hfound, List.mem_mergeSort, List.mem_map, List.mem_filter, h.mem_filesBelow,
      Bool.and_eq_true, Bool.not_eq_true']
    constructor
    · rintro ⟨parts, ⟨⟨content, hfile⟩, hapart, hselected⟩, rfl⟩
      exact ⟨parts, ⟨⟨place, content, hplace, hdirectory, hfile⟩, hapart⟩, hselected, rfl⟩
    · rintro ⟨parts, ⟨⟨place', content, hplace', -, hfile⟩, hapart⟩, hselected, rfl⟩
      obtain rfl := Except.ok.inj (hplace.symm.trans hplace')
      exact ⟨parts, ⟨⟨content, hfile⟩, hapart, hselected⟩, rfl⟩

/-- The files come in the order of their paths. -/
theorem findFiles_sorted (t : FileTree) (here : Place) (excluded : List String)
    (selects : String → Bool) (root : String) :
    (t.findFiles here excluded selects root).Pairwise (· ≤ ·) := by
  rcases t.findFiles_cases here excluded selects root with ⟨hnone, -⟩ | ⟨place, -, -, hfound⟩
  · rw [hnone]
    exact .nil
  · have hsorted := @List.pairwise_mergeSort String (fun a b => a ≤ b)
      (by simpa using fun a b c => String.le_trans) (by simpa using String.le_total)
    rw [hfound]
    simpa using hsorted _

/-- No file is found twice. -/
theorem findFiles_nodup (h : t.IsProper) : (t.findFiles here excluded selects root).Nodup := by
  rcases t.findFiles_cases here excluded selects root with
    ⟨hnone, -⟩ | ⟨place, hplace, hdirectory, hfound⟩
  · rw [hnone]
    exact .nil
  · have hparts : ∀ parts ∈ t.filesBelow place, ∀ part ∈ parts, Path.IsPart part := by
      intro parts hmem part hpart
      obtain ⟨content, hfile⟩ := h.mem_filesBelow.mp hmem
      exact (h.named _ (h.find?_eq_some.mp hfile)).2 part (List.mem_append_right place hpart)
    rw [hfound, (List.mergeSort_perm _ _).nodup_iff]
    refine List.Nodup.map_on (fun parts hmem parts' hmem' => ?_)
      ((h.nodup_filesBelow place).filter _)
    exact Path.below_injective (hparts parts (List.mem_filter.mp hmem).1)
      (hparts parts' (List.mem_filter.mp hmem').1)

end FileTree

end DocHeader
