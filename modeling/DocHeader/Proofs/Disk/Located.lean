import DocHeader.Disk.Walk

/-!
# Where paths lead

A path that leads somewhere in a file tree leads to the place that its components say: on the
way only directories are entered, and going up from one that was entered leads back.
-/

namespace DocHeader

/-- What a path begins with is empty just when the path does not begin with a slash. -/
theorem Path.isAbsolute_ofText (s : String) : (ofText s).isAbsolute = beginsWith s "/" := by
  simp only [isAbsolute, ofText, beginsWith]
  cases hs : s.toList with
  | nil => rfl
  | cons c cs =>
    by_cases hslash : c = '/'
    · subst hslash
      rcases cs with _ | ⟨c, _ | ⟨c', cs⟩⟩ <;> unfold rootOf <;> split <;> simp_all
    · have hroot : rootOf (c :: cs) = "" := by
        unfold rootOf
        split <;> simp_all
      have hother : ('/' == c) = false := beq_false_of_ne (Ne.symm hslash)
      simp [hroot, List.isPrefixOf, hother]

namespace FileTree

variable {t : FileTree} {p q here : Place} {parts : List String} {path text : String}

/-- Following components leads where they say, leaving out those that stay. -/
theorem follow_eq_ok (h : t.follow p parts = .ok q) :
    q = (parts.filter fun part => !part.isEmpty && part != ".").foldl Path.step p := by
  induction parts generalizing p with
  | nil => exact (Except.ok.inj h).symm
  | cons part rest ih =>
    rw [follow] at h
    split at h
    next =>
      by_cases hstays : (part.isEmpty || part == ".") = true
      · rw [if_pos hstays] at h
        have hout : (!part.isEmpty && part != ".") = false := by
          rw [bne, ← Bool.not_or, hstays, Bool.not_true]
        rw [List.filter_cons, if_neg (by simp [hout])]
        exact ih h
      · rw [if_neg hstays] at h
        have hin : (!part.isEmpty && part != ".") = true := by
          rw [bne, ← Bool.not_or, Bool.not_eq_true _ |>.mp hstays, Bool.not_false]
        rw [List.filter_cons, if_pos hin, List.foldl_cons, Path.step]
        split at h
        next hup => rw [if_pos hup]; exact ih h
        next hdown =>
          rw [if_neg hdown]
          split at h
          next => exact ih h
          next => cases h
    next => cases h
    next => cases h

/-- A path leads to the place it means. -/
theorem locate_eq_ok (h : t.locate here path = .ok q) : q = (Path.ofText path).resolve here := by
  rw [locate] at h
  split at h
  next => cases h
  next =>
    rw [follow_eq_ok h, Path.resolve, Path.isAbsolute_ofText]
    rfl

/-- What is read by a path is the text at the place it means. -/
theorem readAt_of_read (h : t.read here path = .ok text) :
    t.readAt ((Path.ofText path).resolve here) = .ok text := by
  rw [read] at h
  split at h
  next => cases h
  next place hplace =>
    obtain ⟨content, hfound, hdecoded⟩ := textAt_eq_ok.mp h
    rw [← locate_eq_ok hplace]
    exact textAt_eq_ok.mpr ⟨content, hfound, hdecoded⟩

end FileTree

end DocHeader
