import FormatServer.Schedule.TimerHeap

/-!
What a heap of timers holds. Moving timers up and down keeps them, so a timer that is pushed joins those there were
(`perm_push`), and popping takes away the first one and no other (`perm_pop`).
-/

namespace FormatServer.TimerHeap

variable {α : Type}

theorem perm_swapIfInBounds (h : Array (Timer α)) (i j : Nat) : (h.swapIfInBounds i j).toList.Perm h.toList := by
  unfold Array.swapIfInBounds
  split
  · split
    · exact (Array.swap_perm _ _).toList
    · exact .refl _
  · exact .refl _

theorem perm_siftUp (h : Array (Timer α)) (i : Nat) : (siftUp h i).toList.Perm h.toList := by
  induction h, i using siftUp.induct with
  | case1 h => rw [siftUp, if_pos rfl]
  | case2 h i hi parent hearlier ih =>
    rw [siftUp, if_neg hi]
    dsimp only
    rw [if_pos hearlier]
    exact ih.trans (perm_swapIfInBounds h i parent)
  | case3 h i hi parent hlater =>
    rw [siftUp, if_neg hi]
    dsimp only
    rw [if_neg hlater]

theorem perm_sink (h : Array (Timer α)) (i : Nat) : (sink h i).1.toList.Perm h.toList := by
  induction h, i using sink.induct with
  | case1 h i hchild child ih =>
    rw [sink, if_pos hchild]
    exact ih.trans (perm_swapIfInBounds h i child)
  | case2 h i hleaf => rw [sink, if_neg hleaf]

/-- **A timer that is pushed joins those there were.** -/
theorem perm_push (h : TimerHeap α) (t : Timer α) : (h.push t).entries.toList.Perm (h.entries.toList ++ [t]) := by
  rw [push, ← Array.toList_push]
  exact perm_siftUp _ _

/-- **The first timer is popped, and no other.** -/
theorem perm_pop {h : TimerHeap α} {t : Timer α} (ht : h.first? = some t) :
    (t :: h.pop.entries.toList).Perm h.entries.toList := by
  obtain ⟨entries⟩ := h
  obtain ⟨xs⟩ := entries
  cases xs with
  | nil => simp [first?] at ht
  | cons x xs =>
    obtain rfl : x = t := by simpa [first?] using ht
    rcases List.eq_nil_or_concat xs with rfl | ⟨middle, last, hxs⟩
    · simp [pop]
    · obtain rfl : xs = middle ++ [last] := hxs.trans List.concat_eq_append
      have hback : (Array.mk (x :: (middle ++ [last]))).back? = some last := by
        rw [← List.cons_append, List.back?_toArray, List.getLast?_concat]
      have hpop : (Array.mk (x :: (middle ++ [last]))).pop = Array.mk (x :: middle) := by
        rw [← List.cons_append, List.pop_toArray, List.dropLast_concat]
      have hfirst : (Array.mk (x :: middle)).setIfInBounds 0 last = Array.mk (last :: middle) := by simp
      have hrest : (pop ⟨⟨x :: (middle ++ [last])⟩⟩).entries.toList.Perm (last :: middle) := by
        simp only [pop, hback, hpop, hfirst]
        exact (perm_siftUp _ _).trans (perm_sink _ _)
      exact .cons x (hrest.trans (List.perm_append_singleton last middle).symm)

theorem mem_push (h : TimerHeap α) (t x : Timer α) : x ∈ (h.push t).entries ↔ x ∈ h.entries ∨ x = t := by
  rw [← Array.mem_toList_iff, (perm_push h t).mem_iff, List.mem_append, List.mem_singleton, Array.mem_toList_iff]

theorem mem_of_pop {h : TimerHeap α} {t x : Timer α} (ht : h.first? = some t) :
    x ∈ h.entries ↔ x = t ∨ x ∈ h.pop.entries := by
  rw [← Array.mem_toList_iff, ← (perm_pop ht).mem_iff, List.mem_cons, Array.mem_toList_iff]

end FormatServer.TimerHeap
