import DocHeader.Disk.Path
import DocHeader.Proofs.Text.Splitting

/-!
# The text of a path

A path can be read back from its text, so paths that differ have texts that differ. The path
of any text is of this sort, and stays so when components are added.

## Main definitions

* `Path.IsPart` — a text that can be a component of a path.
* `Path.IsPlain` — a path that its text tells in full.
-/

namespace DocHeader

namespace Path

/-- A text can be a component of a path. -/
structure IsPart (part : String) : Prop where
  some : part ≠ ""
  moves : part ≠ "."
  whole : '/' ∉ part.toList

instance (part : String) : Decidable (IsPart part) :=
  decidable_of_iff (part ≠ "" ∧ part ≠ "." ∧ '/' ∉ part.toList)
    ⟨fun ⟨hsome, hmoves, hwhole⟩ => ⟨hsome, hmoves, hwhole⟩,
      fun h => ⟨h.some, h.moves, h.whole⟩⟩

/-- A path begins as paths do, and has nothing but components. -/
structure IsPlain (p : Path) : Prop where
  root : p.root = "" ∨ p.root = "/" ∨ p.root = "//"
  parts : ∀ part ∈ p.parts, IsPart part

variable {part : String} {parts rest : List String} {p : Path}

theorem IsPart.stays (h : IsPart part) : (!part.isEmpty && part != ".") = true := by
  simpa [String.isEmpty_iff] using ⟨h.some, h.moves⟩

theorem IsPart.toList_ne_nil (h : IsPart part) : part.toList ≠ [] := by
  simpa using h.some

theorem toList_slash : "/".toList = ['/'] := rfl

/-- Components do not begin with a slash when they are joined. -/
theorem head?_joinWith (h : ∀ part ∈ parts, IsPart part) :
    (joinWith "/" parts).toList.head? ≠ some '/' := by
  cases parts with
  | nil => simp [joinWith]
  | cons part rest =>
    obtain ⟨c, cs, hpart⟩ := List.exists_cons_of_ne_nil (h part List.mem_cons_self).toList_ne_nil
    have hc : c ≠ '/' := by
      rintro rfl
      exact (h part List.mem_cons_self).whole (by simp [hpart])
    cases rest with
    | nil => simp [joinWith, hpart, hc]
    | cons next rest => simp [toList_joinWith_cons toList_slash, hpart, hc]

/-- The components that a text tells. -/
theorem parts_ofText (s : String) :
    (ofText s).parts = (splitAt '/' s).filter fun part => !part.isEmpty && part != "." := rfl

theorem parts_ofText_slash (s : String) : (ofText ("/" ++ s)).parts = (ofText s).parts := by
  have hsplit : splitAt '/' ("/" ++ s) = "" :: splitAt '/' s := by
    rw [splitAt, splitAt, String.toList_append]
    exact congrArg _ (splitOn_append_cons '/' [] s.toList)
  rw [parts_ofText, hsplit, List.filter_cons, if_neg (by decide), parts_ofText]

/-- Components are told apart by the slashes between them. -/
theorem parts_ofText_joinWith (h : ∀ part ∈ parts, IsPart part) :
    (ofText (joinWith "/" parts)).parts = parts := by
  induction parts with
  | nil => decide
  | cons part rest ih =>
    obtain ⟨hpart, hrest⟩ := List.forall_mem_cons.mp h
    have hsplit : part.toList.splitOn '/' = [part.toList] := splitOn_of_notMem hpart.whole
    cases rest with
    | nil =>
      rw [parts_ofText, splitAt, joinWith, hsplit]
      simp [hpart.stays]
    | cons next rest =>
      rw [parts_ofText, splitAt, toList_joinWith_cons toList_slash, splitOn_append_cons, hsplit,
        List.singleton_append, List.map_cons, String.ofList_toList, List.filter_cons,
        if_pos hpart.stays]
      exact congrArg _ (ih hrest)

theorem rootOf_of_head? {cs : List Char} (h : cs.head? ≠ some '/') :
    rootOf cs = "" ∧ rootOf ('/' :: cs) = "/" ∧ rootOf ('/' :: '/' :: cs) = "//" := by
  cases cs with
  | nil => decide
  | cons c cs =>
    have hc : c ≠ '/' := by simpa using h
    refine ⟨?_, ?_, ?_⟩ <;> rw [rootOf] <;> simp [hc]

theorem ofText_eq {s : String} (hroot : rootOf s.toList = p.root)
    (hparts : (ofText s).parts = p.parts) : ofText s = p := by
  cases p
  exact congrArg₂ Path.mk hroot hparts

/-- A path is read back from its text. -/
theorem ofText_text (h : p.IsPlain) : ofText p.text = p := by
  obtain ⟨hnone, hone, htwo⟩ := rootOf_of_head? (head?_joinWith h.parts)
  have hback := parts_ofText_joinWith h.parts
  rcases h.root with hroot | hroot | hroot
  · by_cases hparts : p.parts = []
    · have htext : p.text = "." := by simp [text, hroot, hparts]
      exact ofText_eq (by rw [htext, hroot]; rfl) (by rw [htext, hparts]; decide)
    · have htext : p.text = joinWith "/" p.parts := by simp [text, hroot, hparts]
      exact ofText_eq (by rw [htext, hnone, hroot]) (by rw [htext, hback])
  · have htext : p.text = "/" ++ joinWith "/" p.parts := by simp [text, hroot]
    refine ofText_eq ?_ (by rw [htext, parts_ofText_slash, hback])
    rw [htext, hroot, String.toList_append]
    exact hone
  · have htext : p.text = "/" ++ ("/" ++ joinWith "/" p.parts) := by
      rw [← String.append_assoc]
      simp [text, hroot]
    refine ofText_eq ?_ (by rw [htext, parts_ofText_slash, parts_ofText_slash, hback])
    rw [htext, hroot, String.toList_append, String.toList_append]
    exact htwo

theorem isPlain_ofText (s : String) : (ofText s).IsPlain where
  root := by
    rw [ofText]
    unfold rootOf
    split <;> simp
  parts part hpart := by
    rw [parts_ofText, List.mem_filter] at hpart
    obtain ⟨hmem, hstays⟩ := hpart
    obtain ⟨cs, hcs, rfl⟩ := List.mem_map.mp hmem
    have hwhole : '/' ∉ cs := notMem_of_mem_splitOn '/' s.toList cs hcs
    simp only [Bool.and_eq_true, Bool.not_eq_true', bne_iff_ne] at hstays
    exact ⟨by simpa [String.isEmpty_iff] using hstays.1, hstays.2, by simpa using hwhole⟩

theorem IsPlain.join (h : p.IsPlain) (hparts : ∀ part ∈ parts, IsPart part) :
    (p.join ⟨"", parts⟩).IsPlain where
  root := h.root
  parts part hpart := (List.mem_append.mp hpart).elim (h.parts part) (hparts part)

end Path

end DocHeader
