import DocHeader.Generation.Sink
import DocHeader.Proofs.Generation.Position

/-!
# Insertions in turn

A sink gets one text at a time, and the text of its file grows with each of them. When the
offsets go down from call to call, what was inserted so far lies behind the next offset, so
each text lands where it would have landed in the text before the first call. With different
offsets the file ends up with the very text that all insertions at once give it.

## Main definitions

* `Sink.insertEach` — hand insertions to a sink, one after the other.
* `Sink.insertEach_file` — what that makes of a file.
-/

namespace DocHeader

variable {insertions others : List Insertion} {content : String}

/-- Hand insertions to a sink one after the other, and say whether it took all of them. -/
def Sink.insertEach (sink : Sink) : List Insertion → StateM Desk Bool
  | [] => pure true
  | i :: rest => do
    let inserted ← sink.insert i.text i.offset
    let others ← sink.insertEach rest
    pure (inserted && others)

/-- Of insertions with different offsets at most one is at each position, so their order does
not matter. -/
theorem wovenText_reverse (h : (insertions.map Insertion.offset).Nodup) (content : String) :
    wovenText content insertions.reverse = wovenText content insertions := by
  have hone (q : Int) : (insertionsAt insertions q).length ≤ 1 := by
    have hnodup : ((insertionsAt insertions q).map Insertion.offset).Nodup :=
      (List.filter_sublist.map _).nodup h
    have hsame := List.eq_replicate_of_mem (a := q)
      (l := (insertionsAt insertions q).map Insertion.offset) fun o ho => by
        obtain ⟨i, hi, rfl⟩ := List.mem_map.mp ho
        exact (mem_insertionsAt.mp hi).2
    rw [hsame, List.nodup_replicate] at hnodup
    simpa using hnodup
  have hwoven : woven insertions.reverse 0 content.toList = woven insertions 0 content.toList := by
    refine woven_congr fun q _ => ?_
    rw [insertionsAt, List.filter_reverse, ← insertionsAt]
    rcases hat : insertionsAt insertions q with _ | ⟨a, _ | ⟨b, rest⟩⟩
    · rfl
    · rfl
    · simpa [hat] using hone q
  rw [wovenText, wovenText, hwoven]

/-- A file that has some insertions already gets the next ones, each at an offset up to which
nothing was inserted. -/
theorem Sink.insertEach_woven {w : Writer} {path : String} {d : Desk}
    (insertions : List Insertion) (hj : w.hazards.Undisturbed d.disk)
    (hholds : w.Holds d.disk.tree path (wovenText content insertions))
    (hfits : ∀ i ∈ others, i.Fits content.length)
    (hsorted : others.Pairwise fun a b => b.offset ≤ a.offset)
    (hle : ∀ i ∈ others, ∀ j ∈ insertions, i.offset ≤ j.offset) :
    ∃ d', (Sink.file w path).insertEach others d = (true, d') ∧
      w.Holds d'.disk.tree path (wovenText content (others.reverse ++ insertions)) ∧
      ∀ p, p ≠ w.placeOf path → d'.disk.tree.find? p = d.disk.tree.find? p := by
  -- the invariant: the file is woven from the insertions it took, none of which lies before
  -- one that is still to come, and nothing stands in the way of the next
  induction others generalizing insertions d with
  | nil => exact ⟨d, rfl, by simpa using hholds, fun _ _ => rfl⟩
  | cons i rest ih =>
    obtain ⟨hi, hrestfits⟩ := List.forall_mem_cons.mp hfits
    obtain ⟨hfirst, hrest⟩ := List.pairwise_cons.mp hsorted
    obtain ⟨hileast, hrestle⟩ := List.forall_mem_cons.mp hle
    have hlonger := length_le_spelled_woven insertions 0 content.toList
    have hinside : Focus.Inside (wovenText content insertions) i.offset := by
      obtain ⟨hlow, hhigh⟩ := hi
      simp only [Focus.Inside, wovenText, String.length_ofList]
      rw [String.length_toList] at hlonger
      omega
    obtain ⟨j', hinsert, hfile, hframe, hj'⟩ :=
      insertInto_of_inside (j := ⟨d.disk, d.records⟩) hj hholds hinside i.text
    have hhigh : i.offset ≤ (0 + content.toList.length : Nat) := by
      simpa [String.length_toList] using hi.2
    have hsplice := insertAt_spelled_woven hileast (by simpa using hi.1) hhigh
    let d₁ : Desk := { d with disk := j'.state, records := j'.records }
    have hnext : w.Holds d₁.disk.tree path (wovenText content (i :: insertions)) := by
      refine ⟨hholds.1, FileTree.textAt_eq_ok.mpr ⟨_, hfile, ?_⟩⟩
      simp only [wovenText, String.toList_ofList, Content.decoded, ← hsplice, Nat.sub_zero]
    obtain ⟨d', hrun, hheld, hkept⟩ := ih (i :: insertions) hj' hnext hrestfits hrest
      fun k hk => List.forall_mem_cons.mpr ⟨hfirst k hk, hrestle k hk⟩
    refine ⟨d', ?_, by simpa using hheld, fun p hp => (hkept p hp).trans (hframe p hp)⟩
    have hsink : (Sink.file w path).insert i.text i.offset d = (true, d₁) := by
      simp only [Sink.file, Desk.onDisk, hinsert, d₁]
    simp only [Sink.insertEach, Desk.bind_apply, hsink, hrun, Bool.and_self, Desk.pure_apply]

/-- Insertions at different offsets, from the last to the first, make of a file what all of them
at once make of its text. -/
theorem Sink.insertEach_file {w : Writer} {path : String} {d : Desk}
    (hj : w.hazards.Undisturbed d.disk) (hholds : w.Holds d.disk.tree path content)
    (hfits : ∀ i ∈ insertions, i.Fits content.length)
    (hsorted : insertions.Pairwise fun a b => b.offset ≤ a.offset)
    (hdistinct : (insertions.map Insertion.offset).Nodup) :
    ∃ d', (Sink.file w path).insertEach insertions d = (true, d') ∧
      w.Holds d'.disk.tree path (wovenText content insertions) ∧
      ∀ p, p ≠ w.placeOf path → d'.disk.tree.find? p = d.disk.tree.find? p := by
  have hstart : w.Holds d.disk.tree path (wovenText content []) := by simpa [wovenText] using hholds
  obtain ⟨d', hrun, hheld, hkept⟩ := insertEach_woven [] hj hstart hfits hsorted (by simp)
  rw [List.append_nil, wovenText_reverse hdistinct] at hheld
  exact ⟨d', hrun, hheld, hkept⟩

end DocHeader
