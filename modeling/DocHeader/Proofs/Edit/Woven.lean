import DocHeader.Edit.Insertion
import Mathlib.Data.List.Basic

/-!
# Insertions, position by position

What a text with insertions looks like when it is written from its beginning to its end:
before each character, and once more at the end, the texts inserted there. Applying the
insertions from the last offset to the first comes to the same, although every splice
makes the text longer.

## Main definitions

* `Piece` — a character that was there before, or an insertion.
* `woven` — the pieces of a text with insertions, in the order in which they are written.
* `spelled` — the characters of pieces.
* `wovenText` — a text with insertions, as a string.
* `Insertion.Fits` — an offset lies within a text.
-/

namespace DocHeader

/-- A piece of a text with insertions. -/
inductive Piece where
  | original (c : Char)
  | inserted (i : Insertion)
  deriving DecidableEq, Repr

namespace Piece

/-- The characters of a piece. -/
def chars : Piece → List Char
  | original c => [c]
  | inserted i => i.text.toList

/-- The character that was there before. -/
def character? : Piece → Option Char
  | original c => some c
  | inserted _ => none

/-- The insertion that a piece comes from. -/
def insertion? : Piece → Option Insertion
  | original _ => none
  | inserted i => some i

end Piece

/-- The characters of pieces. -/
def spelled (pieces : List Piece) : List Char := pieces.flatMap Piece.chars

/-- The insertions at one position, in the order of the list. -/
def insertionsAt (insertions : List Insertion) (p : Int) : List Insertion :=
  insertions.filter fun i => i.offset = p

/-- The pieces of a text whose first character is at position `p`: before each character,
and once more at the end, the insertions at its position. -/
def woven (insertions : List Insertion) (p : Nat) : List Char → List Piece
  | [] => (insertionsAt insertions p).map .inserted
  | c :: cs =>
    (insertionsAt insertions p).map .inserted ++ .original c :: woven insertions (p + 1) cs

/-- A text with insertions. -/
def wovenText (content : String) (insertions : List Insertion) : String :=
  .ofList (spelled (woven insertions 0 content.toList))

/-- Whether an insertion lies within a text of some length. -/
def Insertion.Fits (i : Insertion) (length : Nat) : Prop := 0 ≤ i.offset ∧ i.offset ≤ length

instance (i : Insertion) (length : Nat) : Decidable (i.Fits length) :=
  inferInstanceAs (Decidable (_ ∧ _))

variable {insertions others : List Insertion} {i : Insertion} {cs : List Char} {p : Nat}

@[simp] theorem spelled_nil : spelled [] = [] := rfl

@[simp] theorem spelled_append (a b : List Piece) :
    spelled (a ++ b) = spelled a ++ spelled b := by simp [spelled]

@[simp] theorem spelled_original (c : Char) (rest : List Piece) :
    spelled (.original c :: rest) = c :: spelled rest := rfl

@[simp] theorem spelled_inserted (i : Insertion) (rest : List Piece) :
    spelled (.inserted i :: rest) = i.text.toList ++ spelled rest := rfl

@[simp] theorem mem_insertionsAt {q : Int} :
    i ∈ insertionsAt insertions q ↔ i ∈ insertions ∧ i.offset = q := by simp [insertionsAt]

theorem insertionsAt_eq_nil {q : Int} (h : ∀ i ∈ insertions, i.offset ≠ q) :
    insertionsAt insertions q = [] := by
  simpa [insertionsAt] using h

/-! ## What is written -/

/-- The pieces from a position on depend only on the insertions at each position from
there on. -/
theorem woven_congr (h : ∀ q : Nat, p ≤ q → insertionsAt insertions q = insertionsAt others q) :
    woven insertions p cs = woven others p cs := by
  induction cs generalizing p with
  | nil => simp [woven, h p (Nat.le_refl p)]
  | cons c cs ih =>
    have hrest : woven insertions (p + 1) cs = woven others (p + 1) cs :=
      ih fun q hq => h q (by omega)
    simp only [woven, h p (Nat.le_refl p), hrest]

/-- The characters that were there before are all there, once each and in order. -/
theorem characters_woven (insertions : List Insertion) (p : Nat) (cs : List Char) :
    (woven insertions p cs).filterMap Piece.character? = cs := by
  have hnone (l : List Insertion) : (l.map Piece.inserted).filterMap Piece.character? = [] := by
    simp [List.filterMap_map, Function.comp_def, Piece.character?]
  induction cs generalizing p with
  | nil => exact hnone _
  | cons c cs ih =>
    rw [woven, List.filterMap_append, hnone, List.nil_append, List.filterMap_cons]
    simp only [Piece.character?, ih]

/-- Every insertion that lies within the text is there, as often as it is in the list. -/
theorem insertions_woven_perm (h : ∀ i ∈ insertions, (p : Int) ≤ i.offset ∧
    i.offset ≤ (p + cs.length : Nat)) :
    ((woven insertions p cs).filterMap Piece.insertion?).Perm insertions := by
  have hsome (l : List Insertion) : (l.map Piece.inserted).filterMap Piece.insertion? = l := by
    simp [List.filterMap_map, Function.comp_def, Piece.insertion?]
  induction cs generalizing p insertions with
  | nil =>
    have hall : insertionsAt insertions p = insertions := by
      refine List.filter_eq_self.mpr fun i hi => ?_
      have := h i hi
      simp only [List.length_nil, Nat.add_zero] at this
      simp only [decide_eq_true_eq]
      omega
    rw [woven, hsome, hall]
  | cons c cs ih =>
    -- the insertions after position `p` are those that the rest of the text sees
    let later := insertions.filter fun i => !decide (i.offset = (p : Int))
    have hrest : woven insertions (p + 1) cs = woven later (p + 1) cs := by
      refine woven_congr fun q hq => ?_
      simp only [later, insertionsAt, List.filter_filter]
      refine List.filter_congr fun i _ => ?_
      by_cases hi : i.offset = (q : Int)
      · have hne : ¬(q : Int) = p := by omega
        simp [hi, hne]
      · simp [hi]
    have hlater : ((woven later (p + 1) cs).filterMap Piece.insertion?).Perm later := by
      refine ih fun i hi => ?_
      obtain ⟨hmem, hne⟩ := List.mem_filter.mp hi
      have hbound := h i hmem
      simp only [Bool.not_eq_true', decide_eq_false_iff_not] at hne
      simp only [List.length_cons] at hbound
      omega
    rw [woven, List.filterMap_append, hsome, hrest, List.filterMap_cons]
    exact (hlater.append_left _).trans (List.filter_append_perm _ _)

theorem length_le_spelled_woven (insertions : List Insertion) (p : Nat) (cs : List Char) :
    cs.length ≤ (spelled (woven insertions p cs)).length := by
  induction cs generalizing p with
  | nil => simp
  | cons c cs ih =>
    have := ih (p + 1)
    simp only [woven, spelled_append, spelled_original, List.length_append, List.length_cons]
    omega

/-- Without insertions the text is as it was. -/
@[simp] theorem spelled_woven_nil (p : Nat) (cs : List Char) : spelled (woven [] p cs) = cs := by
  induction cs generalizing p with
  | nil => rfl
  | cons c cs ih => simp [woven, insertionsAt, ih]

/-- What is written around one of the characters that were there before. -/
theorem woven_append_cons (insertions : List Insertion) (p : Nat) (cs : List Char) (c : Char)
    (rest : List Char) : woven insertions p (cs ++ c :: rest) =
      woven insertions p cs ++ .original c :: woven insertions (p + cs.length + 1) rest := by
  induction cs generalizing p with
  | nil => rfl
  | cons first cs ih =>
    have hp : p + 1 + cs.length + 1 = p + (first :: cs).length + 1 := by
      simp only [List.length_cons]
      omega
    rw [List.cons_append, woven, ih, hp, woven, List.append_assoc, List.cons_append]

/-- A stretch of text that no insertion falls into is as it was. -/
theorem spelled_woven_of_untouched
    (h : ∀ i ∈ insertions, (p : Int) ≤ i.offset → ((p + cs.length : Nat) : Int) < i.offset) :
    spelled (woven insertions p cs) = cs := by
  induction cs generalizing p with
  | nil =>
    have hnone : insertionsAt insertions p = [] := insertionsAt_eq_nil fun i hi => by
      have := h i hi
      omega
    simp [woven, hnone]
  | cons c cs ih =>
    simp only [List.length_cons] at h
    have hnone : insertionsAt insertions p = [] := insertionsAt_eq_nil fun i hi => by
      have := h i hi
      omega
    have hrest : spelled (woven insertions (p + 1) cs) = cs := ih fun i hi _ => by
      have := h i hi
      omega
    simp [woven, hnone, hrest]

/-- A stretch of text into which insertions fall at one position alone. -/
theorem spelled_woven_of_one_position {k : Nat} (hk : k ≤ cs.length)
    (h : ∀ i ∈ insertions, (p : Int) ≤ i.offset → i.offset ≤ (p + cs.length : Nat) →
      i.offset = (p + k : Nat)) :
    spelled (woven insertions p cs) = cs.take k ++
      ((insertionsAt insertions (p + k : Nat)).flatMap (fun i => i.text.toList) ++
        cs.drop k) := by
  have htexts (l : List Insertion) :
      spelled (l.map Piece.inserted) = l.flatMap fun i => i.text.toList := by
    simp [spelled, List.flatMap_map, Piece.chars]
  induction cs generalizing p k with
  | nil =>
    obtain rfl : k = 0 := by simpa using hk
    simp [woven, htexts]
  | cons c cs ih =>
    simp only [List.length_cons] at h
    cases k with
    | zero =>
      have hrest : spelled (woven insertions (p + 1) cs) = cs :=
        spelled_woven_of_untouched fun i hi _ => by
          have := h i hi
          omega
      simp [woven, htexts, hrest]
    | succ k =>
      have hnone : insertionsAt insertions p = [] := insertionsAt_eq_nil fun i hi => by
        have := h i hi
        omega
      have hp : p + 1 + k = p + (k + 1) := by omega
      have hnext := @ih (p + 1) k (by simpa using hk) fun i hi _ _ => by
        have := h i hi
        omega
      rw [hp] at hnext
      simp [woven, hnone, hnext]

/-! ## One splice -/

/-- One more insertion, at an offset up to which nothing has been inserted yet, is spliced
into the text with the insertions so far at just this offset. -/
theorem insertAt_spelled_woven (h : ∀ j ∈ insertions, i.offset ≤ j.offset)
    (hlow : (p : Int) ≤ i.offset) (hhigh : i.offset ≤ (p + cs.length : Nat)) :
    insertAt (spelled (woven insertions p cs)) (i.offset.toNat - p) i.text.toList =
      spelled (woven (i :: insertions) p cs) := by
  induction cs generalizing p with
  | nil =>
    have hp : i.offset = (p : Int) := by simp at hhigh; omega
    simp [woven, insertionsAt, hp, insertAt]
  | cons c cs ih =>
    by_cases hp : i.offset = (p : Int)
    · have hrest : woven (i :: insertions) (p + 1) cs = woven insertions (p + 1) cs := by
        refine woven_congr fun q hq => ?_
        have hne : ¬(p : Int) = q := by omega
        simp [insertionsAt, hp, hne]
      simp [woven, hrest, insertionsAt, hp, insertAt]
    · have hnone (l : List Insertion) (hl : ∀ j ∈ l, i.offset ≤ j.offset) :
          insertionsAt l p = [] := by
        refine List.filter_eq_nil_iff.mpr fun j hj => ?_
        have := hl j hj
        simp only [decide_eq_true_eq]
        omega
      have hcons : ∀ j ∈ i :: insertions, i.offset ≤ j.offset := by
        simpa using h
      have hoffset : i.offset.toNat - p = (i.offset.toNat - (p + 1)) + 1 := by omega
      have hnext := ih (p := p + 1) (by push_cast; omega) (by
        simp only [List.length_cons] at hhigh
        omega)
      simp only [woven, hnone _ h, hnone _ hcons, List.map_nil, List.nil_append,
        spelled_original, ← hnext, hoffset, insertAt, List.take_succ_cons, List.drop_succ_cons,
        List.cons_append]

theorem Insertion.Fits.mono {n m : Nat} (h : i.Fits n) (hle : n ≤ m) : i.Fits m := by
  obtain ⟨hlow, hhigh⟩ := h
  exact ⟨hlow, by omega⟩

theorem not_fits_iff {n : Nat} : ¬i.Fits n ↔ i.offset < 0 ∨ (n : Int) < i.offset := by
  simp only [Insertion.Fits]
  omega

theorem applyInsertion_of_fits (h : i.Fits cs.length) :
    applyInsertion cs i = .ok (insertAt cs i.offset.toNat i.text.toList) := by
  have hin : ¬(i.offset < 0 ∨ (cs.length : Int) < i.offset) := by
    rw [← not_fits_iff]
    exact not_not_intro h
  simp [applyInsertion, hin]

theorem applyInsertion_of_not_fits (h : ¬i.Fits cs.length) :
    applyInsertion cs i = .error ⟨i.file, i.offset, cs.length⟩ := by
  simp [applyInsertion, not_fits_iff.mp h]

/-- The check against the text that is growing lets the same insertions pass as one
against the text before. -/
theorem applyInsertion_woven (hfits : ∀ j ∈ insertions, j.Fits cs.length)
    (hle : ∀ j ∈ insertions, i.offset ≤ j.offset) :
    (i.Fits cs.length → applyInsertion (spelled (woven insertions 0 cs)) i =
      .ok (spelled (woven (i :: insertions) 0 cs))) ∧
    (¬i.Fits cs.length → ∃ fault,
      applyInsertion (spelled (woven insertions 0 cs)) i = .error fault) := by
  have hlonger := length_le_spelled_woven insertions 0 cs
  constructor
  · intro h
    rw [applyInsertion_of_fits (h.mono hlonger)]
    have hsplice := insertAt_spelled_woven (p := 0) hle (by simpa using h.1)
      (by simpa using h.2)
    rw [Nat.sub_zero] at hsplice
    rw [hsplice]
  · intro h
    have hout : ¬i.Fits (spelled (woven insertions 0 cs)).length := by
      rcases not_fits_iff.mp h with hneg | hpast
      · exact not_fits_iff.mpr (.inl hneg)
      · -- nothing lies before an offset past the end, so the text has not grown yet
        have hnil : insertions = [] := by
          refine List.eq_nil_iff_forall_not_mem.mpr fun j hj => ?_
          have h1 := hle j hj
          have h2 := (hfits j hj).2
          omega
        subst hnil
        rw [spelled_woven_nil]
        exact h
    exact ⟨_, applyInsertion_of_not_fits hout⟩

/-! ## All splices -/

/-- Splicing from the last offset to the first writes the insertions at each position in
the reverse order of splicing. -/
theorem applyInOrder_woven (insertions : List Insertion) (cs : List Char)
    (hfits : ∀ j ∈ insertions, j.Fits cs.length)
    (hsorted : others.Pairwise fun a b => b.offset ≤ a.offset)
    (hle : ∀ i ∈ others, ∀ j ∈ insertions, i.offset ≤ j.offset) :
    ((∀ i ∈ others, i.Fits cs.length) →
      applyInOrder (spelled (woven insertions 0 cs)) others =
        .ok (spelled (woven (others.reverse ++ insertions) 0 cs))) ∧
    ((∃ i ∈ others, ¬i.Fits cs.length) →
      ∃ fault, applyInOrder (spelled (woven insertions 0 cs)) others = .error fault) := by
  -- the invariant: the text so far is woven from the insertions that have been spliced,
  -- and none of them lies before one that is still to come
  induction others generalizing insertions with
  | nil => simp [applyInOrder]
  | cons i rest ih =>
    obtain ⟨hok, herror⟩ := applyInsertion_woven hfits (hle i List.mem_cons_self)
    obtain ⟨hfirst, hrest⟩ := List.pairwise_cons.mp hsorted
    by_cases hi : i.Fits cs.length
    · obtain ⟨ihok, iherror⟩ := @ih (i :: insertions)
        (List.forall_mem_cons.mpr ⟨hi, hfits⟩) hrest fun k hk =>
          List.forall_mem_cons.mpr
            ⟨hfirst k hk, fun j hj => hle k (List.mem_cons_of_mem i hk) j hj⟩
      rw [applyInOrder, hok hi]
      constructor
      · intro h
        simpa using ihok fun k hk => h k (List.mem_cons_of_mem i hk)
      · rintro ⟨k, hk, hout⟩
        rcases List.mem_cons.mp hk with rfl | hk
        · exact absurd hi hout
        · exact iherror ⟨k, hk, hout⟩
    · obtain ⟨fault, hfault⟩ := herror hi
      rw [applyInOrder, hfault]
      exact ⟨fun h => absurd (h i List.mem_cons_self) hi, fun _ => ⟨fault, rfl⟩⟩

/-! ## The order of splicing -/

theorem pairwise_descending (insertions : List Insertion) :
    (descending insertions).Pairwise fun a b => b.offset ≤ a.offset := by
  have h := @List.pairwise_mergeSort _ (fun a b : Insertion => decide (b.offset ≤ a.offset))
    (by simp only [decide_eq_true_eq]; omega)
    (by simp only [Bool.or_eq_true, decide_eq_true_eq]; omega) insertions.reverse
  simpa [descending] using h

theorem mem_descending : i ∈ descending insertions ↔ i ∈ insertions := by simp [descending]

/-- Sorting keeps the order of items that tie with each other. -/
theorem filter_mergeSort {α : Type} {le : α → α → Bool} (trans : ∀ a b c, le a b → le b c → le a c)
    (total : ∀ a b, le a b || le b a) {tied : α → Bool} {l : List α}
    (htied : ∀ a ∈ l, ∀ b ∈ l, tied a → tied b → le a b) :
    (l.mergeSort le).filter tied = l.filter tied := by
  have hequal : (l.filter tied).Pairwise fun a b => le a b = true := by
    refine List.pairwise_of_forall_mem_list fun a ha b hb => ?_
    rw [List.mem_filter] at ha hb
    exact htied a ha.1 b hb.1 ha.2 hb.2
  have hsub : (l.filter tied).Sublist (l.mergeSort le) :=
    List.sublist_mergeSort trans total hequal List.filter_sublist
  have hfilter : (l.filter tied).Sublist ((l.mergeSort le).filter tied) := by
    simpa using hsub.filter tied
  have hperm : ((l.mergeSort le).filter tied).Perm (l.filter tied) :=
    (List.mergeSort_perm l le).filter tied
  exact (hfilter.eq_of_length hperm.length_eq.symm).symm

/-- Insertions at one offset are spliced from the last of the list to the first. -/
theorem insertionsAt_descending (insertions : List Insertion) (q : Int) :
    insertionsAt (descending insertions) q = (insertionsAt insertions q).reverse := by
  have hstable : insertionsAt (descending insertions) q = insertionsAt insertions.reverse q := by
    refine filter_mergeSort (by simp only [decide_eq_true_eq]; omega)
      (by simp only [Bool.or_eq_true, decide_eq_true_eq]; omega) fun a _ b _ ha hb => ?_
    simp only [decide_eq_true_eq] at ha hb ⊢
    omega
  rw [hstable, insertionsAt, List.filter_reverse, insertionsAt]

/-- Two lists of insertions from the last offset to the first are the same when they have
the same insertions in the same order at each offset. -/
theorem eq_of_insertionsAt_eq (ha : insertions.Pairwise fun a b => b.offset ≤ a.offset)
    (hb : others.Pairwise fun a b => b.offset ≤ a.offset)
    (h : ∀ q, insertionsAt insertions q = insertionsAt others q) : insertions = others := by
  have hmem (i : Insertion) : i ∈ insertions ↔ i ∈ others := by
    have := congrArg (i ∈ ·) (h i.offset)
    simpa using this
  induction insertions generalizing others with
  | nil =>
    exact (List.eq_nil_iff_forall_not_mem.mpr fun i hi => by simpa using (hmem i).mpr hi).symm
  | cons a as ih =>
    cases others with
    | nil => simpa using (hmem a).mp List.mem_cons_self
    | cons b bs =>
      obtain ⟨hafirst, has⟩ := List.pairwise_cons.mp ha
      obtain ⟨hbfirst, hbs⟩ := List.pairwise_cons.mp hb
      have hoffset : a.offset = b.offset := by
        have hab : a.offset ≤ b.offset := by
          rcases List.mem_cons.mp ((hmem a).mp List.mem_cons_self) with rfl | h
          · exact Int.le_refl _
          · exact hbfirst a h
        have hba : b.offset ≤ a.offset := by
          rcases List.mem_cons.mp ((hmem b).mpr List.mem_cons_self) with rfl | h
          · exact Int.le_refl _
          · exact hafirst b h
        omega
      have hhead := h a.offset
      simp only [insertionsAt, List.filter_cons, hoffset, decide_true, if_true,
        List.cons.injEq] at hhead
      obtain ⟨rfl, -⟩ := hhead
      have htail : as = bs := by
        have hq (q : Int) : insertionsAt as q = insertionsAt bs q := by
          have := h q
          by_cases hq : a.offset = q <;> simpa [insertionsAt, hq] using this
        refine ih has hbs hq fun i => ?_
        have := congrArg (i ∈ ·) (hq i.offset)
        simpa using this
      rw [htail]

/-! ## Applying insertions -/

theorem insertionsAt_reverse_descending (insertions : List Insertion) (q : Int) :
    insertionsAt (descending insertions).reverse q = insertionsAt insertions q := by
  have h := insertionsAt_descending insertions q
  rw [insertionsAt] at h ⊢
  rw [List.filter_reverse, h, List.reverse_reverse]

/-- Insertions that lie within the text are applied. -/
theorem applyInsertions_of_fits {content : String}
    (h : ∀ i ∈ insertions, i.Fits content.length) :
    applyInsertions content insertions = .ok (wovenText content insertions) := by
  obtain ⟨hok, -⟩ := applyInOrder_woven [] content.toList (by simp)
    (pairwise_descending insertions) (by simp)
  rw [spelled_woven_nil, List.append_nil] at hok
  have horder : woven (descending insertions).reverse 0 content.toList =
      woven insertions 0 content.toList :=
    woven_congr fun q _ => insertionsAt_reverse_descending insertions q
  have hfits : ∀ i ∈ descending insertions, i.Fits content.toList.length := by
    intro i hi
    rw [String.length_toList]
    exact h i (mem_descending.mp hi)
  rw [applyInsertions, hok hfits, horder]
  rfl

/-- An insertion that does not lie within the text prevents all of them. -/
theorem applyInsertions_of_not_fits {content : String}
    (h : ∃ i ∈ insertions, ¬i.Fits content.length) :
    ∃ fault, applyInsertions content insertions = .error fault := by
  obtain ⟨i, hi, hout⟩ := h
  obtain ⟨-, herror⟩ := applyInOrder_woven [] content.toList (by simp)
    (pairwise_descending insertions) (by simp)
  rw [spelled_woven_nil] at herror
  obtain ⟨fault, hfault⟩ :=
    herror ⟨i, mem_descending.mpr hi, by rwa [String.length_toList]⟩
  exact ⟨fault, by rw [applyInsertions, hfault]; rfl⟩

/-- Only the order of insertions at one offset matters. -/
theorem applyInsertions_congr (content : String)
    (h : ∀ q, insertionsAt insertions q = insertionsAt others q) :
    applyInsertions content insertions = applyInsertions content others := by
  have hsame : descending insertions = descending others := by
    refine eq_of_insertionsAt_eq (pairwise_descending _) (pairwise_descending _) fun q => ?_
    rw [insertionsAt_descending, insertionsAt_descending, h q]
  rw [applyInsertions, applyInsertions, hsame]

/-- **Applying insertions writes each of them at its offset of the original text.** It
fails just when an offset lies outside the original text. Otherwise the result is woven:
before each character, and once more at the end, the texts inserted there in list order;
the original characters are all there in order, and so is every insertion, once. The
order of the list matters only among insertions at one offset. -/
theorem applyInsertions_eq_woven (content : String) (insertions : List Insertion) :
    ((∃ fault, applyInsertions content insertions = .error fault) ↔
      ∃ i ∈ insertions, i.offset < 0 ∨ (content.length : Int) < i.offset) ∧
    ((∀ i ∈ insertions, 0 ≤ i.offset ∧ i.offset ≤ content.length) →
      applyInsertions content insertions = .ok (wovenText content insertions) ∧
      (woven insertions 0 content.toList).filterMap Piece.character? = content.toList ∧
      ((woven insertions 0 content.toList).filterMap Piece.insertion?).Perm insertions) ∧
    ∀ reordered : List Insertion, reordered.Perm insertions →
      (∀ q : Int, reordered.filter (fun i => i.offset = q) =
        insertions.filter fun i => i.offset = q) →
      applyInsertions content reordered = applyInsertions content insertions := by
  refine ⟨⟨?_, ?_⟩, ?_, ?_⟩
  · rintro ⟨fault, hfault⟩
    by_contra hall
    have hfits : ∀ i ∈ insertions, i.Fits content.length := by
      intro i hi
      by_contra hout
      exact hall ⟨i, hi, not_fits_iff.mp hout⟩
    rw [applyInsertions_of_fits hfits] at hfault
    cases hfault
  · rintro ⟨i, hi, hout⟩
    exact applyInsertions_of_not_fits ⟨i, hi, not_fits_iff.mpr hout⟩
  · intro h
    refine ⟨applyInsertions_of_fits h, characters_woven _ _ _, insertions_woven_perm ?_⟩
    intro i hi
    have := h i hi
    rw [String.length_toList]
    omega
  · intro reordered _ h
    exact applyInsertions_congr content h

/-- Two insertions before the first character keep their order, and one goes behind the
last character. -/
theorem applyInsertions_ends :
    applyInsertions "ab" [⟨"f", 2, "Z"⟩, ⟨"f", 0, "X"⟩, ⟨"f", 0, "Y"⟩] = .ok "XYabZ" :=
  ((applyInsertions_eq_woven "ab" [⟨"f", 2, "Z"⟩, ⟨"f", 0, "X"⟩, ⟨"f", 0, "Y"⟩]).2.1
    (by decide)).1

end DocHeader
