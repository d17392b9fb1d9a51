import DocHeader.Proofs.Declaration.Targets
import DocHeader.Proofs.Generation.InTurn
import DocHeader.Proofs.Syntax.TreeOrder

/-!
# The selection of a file's declarations

Which declarations a file brings, told from the tree alone, and in what order those without a
header are listed. A candidate lies in the tree at one place only, so the list has it once. The
offsets go down along the list; a header that is inserted for one declaration thus leaves the
offsets of those still to come as they were, and inserting them one by one gives the same text
as inserting them all at once.

## Main definitions

* `Focus.IsFirst` — the first child of some kind.
* `Focus.Declares` — the declarations that can be documented in a file.
* `Focus.insertions` — the headers of the declarations without one, as insertions.
-/

namespace DocHeader

/-- Sorting keeps every order of the list among items that tie with each other. -/
theorem pairwise_mergeSort_ties {α : Type} (le : α → α → Bool) {R : α → α → Prop} {l : List α}
    (trans : ∀ a b c, le a b → le b c → le a c) (total : ∀ a b, le a b || le b a)
    (h : l.Pairwise R) : (l.mergeSort le).Pairwise fun a b => le a b ∧ (le b a → R a b) := by
  rw [List.pairwise_iff_forall_sublist]
  intro a b hab
  have hle : le a b = true :=
    List.pairwise_iff_forall_sublist.mp (List.pairwise_mergeSort trans total l) hab
  refine ⟨hle, fun hback => ?_⟩
  -- what ties with the first of the two stands in the list in the order it had before
  let tied (x : α) : Bool := le a x && le x a
  have hrefl : le a a = true := by simpa using total a a
  have hstable : (l.mergeSort le).filter tied = l.filter tied :=
    filter_mergeSort trans total fun x _ y _ hx hy => by
      simp only [tied, Bool.and_eq_true] at hx hy
      exact trans x a y hx.2 hy.1
  have hpair : [a, b].Sublist l := by
    have hsub := hab.filter tied
    rw [hstable] at hsub
    simp only [tied, hle, hback, hrefl, List.filter_cons, List.filter_nil, Bool.and_self,
      if_true] at hsub
    exact hsub.trans List.filter_sublist
  exact List.pairwise_iff_forall_sublist.mp h hpair

namespace Focus

variable {root f g statement list : Focus} {kind : String} {kinds : List String}

/-- A node is the first child of some kind. -/
def IsFirst (f : Focus) (kind : String) (g : Focus) : Prop :=
  ∃ earlier later, f.children = earlier ++ g :: later ∧ g.kind = kind ∧
    ∀ sibling ∈ earlier, sibling.kind ≠ kind

/-- A file has a declaration that can be documented: the first variable of a statement, a
statement that declares something else, or a member of a class or an interface. -/
inductive Declares (root : Focus) : Focus → Prop where
  | ofVariable {statement list f : Focus} (hstatement : statement ∈ root.children)
    (hkind : statement.kind = "VariableStatement")
    (hlist : statement.IsFirst "VariableDeclarationList" list)
    (hf : list.IsFirst "VariableDeclaration" f) : Declares root f
  | ofStatement {f : Focus} (hf : f ∈ root.children)
    (hkind : f.kind ∈ ["ClassDeclaration", "InterfaceDeclaration", "EnumDeclaration",
      "FunctionDeclaration", "TypeAliasDeclaration"]) : Declares root f
  | ofMember {statement f : Focus} (hstatement : statement ∈ root.children)
    (hkind : statement.kind ∈ ["ClassDeclaration", "InterfaceDeclaration"])
    (hf : f ∈ statement.children) (hmember : f.kind ∈ memberKinds) : Declares root f

/-! ## What is selected -/

theorem firstChildOfKind_eq_some : f.firstChildOfKind? [kind] = some g ↔ f.IsFirst kind g := by
  simp only [firstChildOfKind?, IsFirst, List.find?_eq_some_iff_append]
  constructor
  · rintro ⟨hkind, earlier, later, hsplit, hearlier⟩
    exact ⟨earlier, later, hsplit, by simpa using hkind, by simpa using hearlier⟩
  · rintro ⟨earlier, later, hsplit, hkind, hearlier⟩
    exact ⟨by simpa using hkind, earlier, later, hsplit, by simpa using hearlier⟩

theorem IsFirst.mem (h : f.IsFirst kind g) : g ∈ f.children := by
  obtain ⟨earlier, later, hsplit, -, -⟩ := h
  simp [hsplit]

theorem IsFirst.kind_eq (h : f.IsFirst kind g) : g.kind = kind := by
  obtain ⟨_, _, -, hkind, -⟩ := h
  exact hkind

theorem head_listedDeclarations : f.listedDeclarations.head? = some g ↔
    f.IsFirst "VariableDeclaration" g := by
  rw [listedDeclarations, childrenOfKind, List.head?_filter, ← firstChildOfKind_eq_some,
    firstChildOfKind?]

theorem mem_childrenOfKind : g ∈ f.childrenOfKind kinds ↔ g ∈ f.children ∧ g.kind ∈ kinds := by
  simp [childrenOfKind]

theorem mem_take_one {α : Type} {a : α} {l : List α} : a ∈ l.take 1 ↔ l.head? = some a := by
  cases l <;> simp [eq_comm]

/-- The first declaration of a variable statement is that of its first declaration list. -/
theorem head_declarations (hkind : statement.kind = "VariableStatement") :
    statement.declarations.head? = some f ↔
      ∃ list, statement.IsFirst "VariableDeclarationList" list ∧
        list.IsFirst "VariableDeclaration" f := by
  simp only [declarations, hkind, beq_self_eq_true, if_true, ← firstChildOfKind_eq_some]
  cases statement.firstChildOfKind? ["VariableDeclarationList"] with
  | none => simp
  | some list => simp [head_listedDeclarations, firstChildOfKind_eq_some]

theorem mem_candidatesOf : f ∈ candidatesOf statement ↔
    (statement.kind = "VariableStatement" ∧ ∃ list,
      statement.IsFirst "VariableDeclarationList" list ∧ list.IsFirst "VariableDeclaration" f) ∨
    (statement.kind ∈ topLevelKinds ∧ f = statement) ∨
    (statement.kind ∈ topLevelKinds ∧ statement.kind ∈ classLikeKinds ∧
      f ∈ statement.children ∧ f.kind ∈ memberKinds) := by
  by_cases hvariable : statement.kind = "VariableStatement"
  · have htop : statement.kind ∉ topLevelKinds := by
      rw [hvariable]
      decide
    simp [candidatesOf, hvariable, mem_take_one, head_declarations hvariable, topLevelKinds]
  · by_cases htop : statement.kind ∈ topLevelKinds
    · by_cases hclass : statement.kind ∈ classLikeKinds <;>
        simp [candidatesOf, hvariable, htop, hclass, mem_childrenOfKind]
    · simp [candidatesOf, hvariable, htop]

/-- The candidates of a file are the declarations that it has. -/
theorem isCandidate_iff : root.IsCandidate f ↔ root.Declares f := by
  constructor
  · rintro ⟨statement, hstatement, hf⟩
    rcases mem_candidatesOf.mp hf with ⟨hkind, list, hlist, hfirst⟩ | ⟨htop, rfl⟩ |
      ⟨htop, hclass, hchild, hmember⟩
    · exact .ofVariable hstatement hkind hlist hfirst
    · exact .ofStatement hstatement htop
    · refine .ofMember hstatement ?_ hchild hmember
      simp only [topLevelKinds, classLikeKinds, List.mem_cons, List.not_mem_nil] at htop hclass ⊢
      grind
  · intro h
    cases h with
    | ofVariable hstatement hkind hlist hfirst =>
      exact ⟨_, hstatement, mem_candidatesOf.mpr (.inl ⟨hkind, _, hlist, hfirst⟩)⟩
    | ofStatement hf hkind => exact ⟨f, hf, mem_candidatesOf.mpr (.inr (.inl ⟨hkind, rfl⟩))⟩
    | ofMember hstatement hkind hchild hmember =>
      refine ⟨_, hstatement, mem_candidatesOf.mpr (.inr (.inr ⟨?_, ?_, hchild, hmember⟩))⟩ <;>
        simp only [topLevelKinds, classLikeKinds, List.mem_cons, List.not_mem_nil] at hkind ⊢ <;>
        grind

/-! ## The order of the selection -/

theorem sublist_walk_below {picked : List Focus} (h : picked.Sublist f.children) :
    picked.Sublist (f.children.flatMap walk) :=
  (sublist_flatMap_walk picked).trans (h.flatMap walk)

/-- The declarations of a statement are listed as a walk comes to them. -/
theorem candidatesOf_sublist (statement : Focus) :
    (candidatesOf statement).Sublist statement.walk := by
  unfold candidatesOf
  split
  next hkind =>
    refine (List.take_sublist 1 _).trans ?_
    rw [declarations, if_pos hkind]
    split
    next list hlist =>
      have hchild : list ∈ statement.children := List.mem_of_find?_eq_some hlist
      have hbelow : list.listedDeclarations.Sublist list.walk := by
        rw [walk_eq list]
        exact (sublist_walk_below List.filter_sublist).cons list
      refine hbelow.trans ?_
      simpa using flatMap_walk_sublist (List.singleton_sublist.mpr hchild)
    next => exact List.nil_sublist _
  next =>
    split
    next =>
      rw [walk_eq statement]
      refine List.Sublist.cons_cons statement ?_
      split
      · exact sublist_walk_below List.filter_sublist
      · exact List.nil_sublist _
    next => exact List.nil_sublist _

/-- So are the declarations of a file. -/
theorem candidates_inOrder (root : Focus) :
    (root.children.flatMap candidatesOf).Pairwise fun a b => a.path < b.path := by
  have hsub : (root.children.flatMap candidatesOf).Sublist (root.children.flatMap walk) :=
    List.Sublist.flatMap_right _ fun statement _ => candidatesOf_sublist statement
  exact root.walk_inOrder.sublist
    (hsub.trans (flatMap_walk_sublist (List.Sublist.refl root.children)))

/-- The list goes from the last offset to the first, and along the tree at one offset. -/
theorem pending_inOrder (root : Focus) : root.pending.Pairwise fun a b =>
    b.insertionOffset < a.insertionOffset ∨
      a.insertionOffset = b.insertionOffset ∧ a.path < b.path := by
  have hsorted := pairwise_mergeSort_ties
    (fun a b : Focus => decide (b.insertionOffset ≤ a.insertionOffset))
    (by simp only [decide_eq_true_eq]; omega)
    (by simp only [Bool.or_eq_true, decide_eq_true_eq]; omega)
    ((candidates_inOrder root).filter fun f => !f.hasHeader)
  refine hsorted.imp fun {a b} hab => ?_
  simp only [decide_eq_true_eq] at hab
  obtain ⟨hle, htie⟩ := hab
  by_cases hlt : b.insertionOffset < a.insertionOffset
  · exact .inl hlt
  · exact .inr ⟨by omega, htie (by omega)⟩

theorem pending_descending (root : Focus) :
    root.pending.Pairwise fun a b => b.insertionOffset ≤ a.insertionOffset :=
  root.pending_inOrder.imp fun {a b} hab => by omega

/-- No place of the tree is listed twice. -/
theorem pending_paths_nodup (root : Focus) : (root.pending.map path).Nodup := by
  have hperm : (root.pending.map path).Perm
      (((root.children.flatMap candidatesOf).filter fun f => !f.hasHeader).map path) :=
    (List.mergeSort_perm _ _).map path
  rw [hperm.nodup_iff, List.Nodup, List.pairwise_map]
  refine ((candidates_inOrder root).filter _).imp fun {a b} hlt hsame => ?_
  rw [hsame] at hlt
  exact List.lt_irrefl _ hlt

/-! ## Inserting the headers -/

/-- The headers of the declarations without one, as insertions into a file. -/
def insertions (root : Focus) (file : String) (header : Focus → String) : List Insertion :=
  root.pending.map fun f => ⟨file, f.insertionOffset, header f⟩

theorem insertions_descending (root : Focus) (file : String) (header : Focus → String) :
    (root.insertions file header).Pairwise fun a b => b.offset ≤ a.offset := by
  rw [insertions, List.pairwise_map]
  exact root.pending_descending

/-- **The declarations of a file without a header.** The list has each declaration of the file
that lacks one, at one place, from the last insertion offset to the first and along the tree at
one offset. When the offsets differ and lie within a text, inserting the headers in this order
one by one, each at its offset of the text before all of them, gives the same text as inserting
them all at once, on paper and in a file where nothing goes wrong. -/
theorem pending_spec (root : Focus) :
    (∀ f, f ∈ root.pending ↔ root.Declares f ∧ f.hasHeader = false) ∧
    (root.pending.map path).Nodup ∧
    (root.pending.Pairwise fun a b => b.insertionOffset < a.insertionOffset ∨
      a.insertionOffset = b.insertionOffset ∧ a.path < b.path) ∧
    ∀ (file content : String) (header : Focus → String),
      (root.pending.map insertionOffset).Nodup →
      (∀ f ∈ root.pending, Inside content f.insertionOffset) →
      ∃ edited, applyInsertions content (root.insertions file header) = .ok edited ∧
        applyInOrder content.toList (root.insertions file header) = .ok edited.toList ∧
        ∀ (w : Writer) (d : Desk), w.hazards.Undisturbed d.disk →
          w.Holds d.disk.tree file content →
          ∃ d', (Sink.file w file).insertEach (root.insertions file header) d = (true, d') ∧
            w.Holds d'.disk.tree file edited ∧
            ∀ p, p ≠ w.placeOf file → d'.disk.tree.find? p = d.disk.tree.find? p := by
  refine ⟨fun f => by rw [mem_pending, isCandidate_iff], root.pending_paths_nodup,
    root.pending_inOrder, ?_⟩
  intro file content header hdistinct hinside
  have hfits : ∀ i ∈ root.insertions file header, i.Fits content.length := by
    simpa [insertions, Insertion.Fits, Inside] using hinside
  have hoffsets : ((root.insertions file header).map Insertion.offset).Nodup := by
    simpa [insertions, Function.comp_def] using hdistinct
  have hsorted := root.insertions_descending file header
  refine ⟨_, applyInsertions_of_fits hfits, ?_, fun w d hcalm hholds =>
    Sink.insertEach_file hcalm hholds hfits hsorted hoffsets⟩
  have hspliced := (applyInOrder_woven [] content.toList (by simp) hsorted (by simp)).1
    (by simpa [String.length_toList] using hfits)
  rw [spelled_woven_nil, List.append_nil] at hspliced
  rw [hspliced, ← wovenText_reverse hoffsets content, wovenText, String.toList_ofList]

/-- The tree of `class A { x; }`. -/
def classWithProperty : Node :=
  .mk { kind := "SourceFile", fullStart := 0, start := 0, stop := 14, text := "class A { x; }" } [
    .mk { kind := "ClassDeclaration", fullStart := 0, start := 0, stop := 14,
          text := "class A { x; }" } [
      .mk { kind := "PropertyDeclaration", fullStart := 9, start := 10, stop := 12,
            text := "x;" } []]]

/-- A desk with the file that this tree is of. -/
def classDesk : Desk := { disk := { tree := ⟨[(["a.ts"], .file (.text "class A { x; }"))]⟩ } }

theorem pending_classWithProperty :
    ∃ edited d',
      applyInsertions "class A { x; }"
        ((Focus.root classWithProperty).insertions "a.ts" Focus.kind) = .ok edited ∧
      (Sink.file ⟨[], [], {}⟩ "a.ts").insertEach
        ((Focus.root classWithProperty).insertions "a.ts" Focus.kind) classDesk = (true, d') ∧
      Writer.Holds ⟨[], [], {}⟩ d'.disk.tree "a.ts" edited := by
  have hoffsets : ((Focus.root classWithProperty).pending.map insertionOffset).Perm [0, 10] :=
    (List.mergeSort_perm _ _).map insertionOffset
  have hinside : ∀ f ∈ (Focus.root classWithProperty).pending,
      Inside "class A { x; }" f.insertionOffset := by
    intro f hf
    have hmem : f.insertionOffset ∈ [0, 10] := hoffsets.mem_iff.mp (List.mem_map_of_mem hf)
    have hbounds : ∀ offset ∈ [(0 : Int), 10], 0 ≤ offset ∧ offset ≤ 14 := by decide
    exact hbounds _ hmem
  obtain ⟨edited, hbatch, -, hfile⟩ := (pending_spec (Focus.root classWithProperty)).2.2.2 "a.ts"
    "class A { x; }" Focus.kind (hoffsets.nodup_iff.mpr (by decide)) hinside
  obtain ⟨d', hrun, hheld, -⟩ := hfile ⟨[], [], {}⟩ classDesk
    (.of_clean (FileTree.clean_of_names (by decide))) ⟨by decide, by decide⟩
  exact ⟨edited, d', hbatch, hrun, hheld⟩

end Focus

end DocHeader
