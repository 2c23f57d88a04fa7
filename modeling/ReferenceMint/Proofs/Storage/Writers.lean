import Mathlib.Algebra.BigOperators.Group.Finset.Piecewise
import Mathlib.Algebra.Group.Action.Defs
import Mathlib.Algebra.Order.BigOperators.Group.Finset
import ReferenceMint.Proofs.Storage.Versions

/-!
# Who wrote how often

Every write is that of one process (`writesBy`). So the number of writes is the sum over the
processes of the number of writes of each (`length_eq_sum_writers`), and what is written while one
process only looks on is written by the others (`length_le_of_others`).
-/

namespace ReferenceMint.Storage

/-- The writes of one process. -/
def writesBy (process : Nat) (turns : List (Turn interface)) : List Write :=
  (writes turns).filter fun write => write.process = process

section

variable {turns later : List (Turn interface)} {process : Nat} {path : String}

/-- The writes of turns are those of the first ones and then those of the others. -/
theorem writes_append (turns later : List (Turn interface)) :
    writes (turns ++ later) = writes turns ++ writes later := List.filterMap_append

/-- The writes to a path are those of the first turns and then those of the others. -/
theorem writesTo_append (path : String) (turns later : List (Turn interface)) :
    writesTo path (turns ++ later) = writesTo path turns ++ writesTo path later := by
  unfold writesTo
  rw [writes_append, List.filter_append]

/-- The writes of a process are those of the first turns and then those of the others. -/
theorem writesBy_append (process : Nat) (turns later : List (Turn interface)) :
    writesBy process (turns ++ later) = writesBy process turns ++ writesBy process later := by
  unfold writesBy
  rw [writes_append, List.filter_append]

/-- Each write was made in some turn. -/
theorem exists_turn_of_mem_writes {write : Write} (h : write ∈ writes turns) :
    ∃ (k : Nat) (t : Turn interface), turns[k]? = some t ∧ Write.ofTurn? t = some write := by
  obtain ⟨t, ht, hwrite⟩ := List.mem_filterMap.mp h
  obtain ⟨k, hk⟩ := List.mem_iff_getElem?.mp ht
  exact ⟨k, t, hk, hwrite⟩

/-- Where a process writes nothing there is no write of it. -/
theorem writesBy_eq_nil (h : ∀ t ∈ turns, t.process = process → Write.ofTurn? t = none) :
    writesBy process turns = [] := by
  unfold writesBy
  rw [List.filter_eq_nil_iff]
  intro write hmem hprocess
  obtain ⟨t, ht, hwrite⟩ := List.mem_filterMap.mp hmem
  have hnone := h t ht ((Write.process_eq hwrite).symm.trans (by simpa using hprocess))
  rw [hnone] at hwrite
  exact absurd hwrite (by simp)

/-- A turn of a process that writes is one write of it. -/
theorem writesBy_singleton {t : Turn interface} {write : Write}
    (hwrite : Write.ofTurn? t = some write) (hprocess : t.process = process) :
    writesBy process [t] = [write] := by
  have hown : write.process = process := (Write.process_eq hwrite).trans hprocess
  unfold writesBy writes
  rw [List.filterMap_cons, hwrite]
  simp [hown]

/-- The writes of a process to a path are among its writes. -/
theorem filter_writesTo_sublist (process : Nat) (path : String) (turns : List (Turn interface)) :
    ((writesTo path turns).filter fun write => write.process = process).Sublist
      (writesBy process turns) :=
  List.filter_sublist.filter _

/-- If a process only writes to one path, its writes to the path are all of its writes. -/
theorem filter_writesTo_eq (h : ∀ write ∈ writesBy process turns, write.path = path) :
    ((writesTo path turns).filter fun write => write.process = process) =
      writesBy process turns := by
  unfold writesTo
  rw [List.filter_filter]
  unfold writesBy at h ⊢
  apply List.filter_congr
  intro write hmem
  by_cases hprocess : write.process = process
  · have hpath := h write (List.mem_filter.mpr ⟨hmem, by simpa using hprocess⟩)
    simp [hprocess, hpath]
  · simp [hprocess]

end

/-- Writes of some processes are as many as those of each process together. -/
theorem length_eq_sum_writers {n : Nat} {list : List Write}
    (h : ∀ write ∈ list, write.process < n) :
    list.length =
      ∑ j ∈ Finset.range n, (list.filter fun write => write.process = j).length := by
  induction list with
  | nil => simp
  | cons write list ih =>
    have hlt := h write List.mem_cons_self
    have hrest := ih fun other hother => h other (List.mem_cons_of_mem write hother)
    -- The first write counts for its own process only.
    have hcount : ∀ j, ((write :: list).filter fun write => write.process = j).length =
        (if write.process = j then 1 else 0) +
          (list.filter fun write => write.process = j).length := by
      intro j
      rw [List.filter_cons]
      by_cases hj : write.process = j
      · simp [hj, Nat.add_comm]
      · simp [hj]
    simp only [hcount]
    rw [Finset.sum_add_distrib, Finset.sum_ite_eq, if_pos (Finset.mem_range.mpr hlt), ← hrest,
      List.length_cons, Nat.add_comm]

/-- If one process writes nothing and the others at most so much each, then that is how much they
write together. -/
theorem length_le_of_others {n k i : Nat} {list : List Write} (hi : i < n)
    (h : ∀ write ∈ list, write.process < n) (hself : ∀ write ∈ list, write.process ≠ i)
    (hothers : ∀ j < n, (list.filter fun write => write.process = j).length ≤ k) :
    list.length ≤ (n - 1) * k := by
  have hnone : (list.filter fun write => write.process = i).length = 0 := by
    rw [List.length_eq_zero_iff, List.filter_eq_nil_iff]
    intro write hmem
    simpa using hself write hmem
  have hmem : i ∈ Finset.range n := Finset.mem_range.mpr hi
  calc list.length
      = ∑ j ∈ Finset.range n, (list.filter fun write => write.process = j).length :=
        length_eq_sum_writers h
    _ = ∑ j ∈ (Finset.range n).erase i, (list.filter fun write => write.process = j).length := by
        rw [← Finset.add_sum_erase _ _ hmem, hnone, Nat.zero_add]
    _ ≤ ((Finset.range n).erase i).card • k := by
        apply Finset.sum_le_card_nsmul
        intro j hj
        exact hothers j (Finset.mem_range.mp (Finset.mem_of_mem_erase hj))
    _ = (n - 1) * k := by
        rw [Finset.card_erase_of_mem hmem, Finset.card_range, smul_eq_mul]

end ReferenceMint.Storage
