/-!
Lists of entries by keys: what is found after the entries of a key are dropped, and after one is put at the
end in their place. The key of an entry stands beside it (`lookup_filter_ne`), or is a part of it
(`find?_filter_ne`).
-/

namespace FormatServer

variable {α β : Type} [DecidableEq α]

/-- Without the entries of a key that is a part of them nothing is found by it, and all else as before. -/
theorem find?_filter_ne {γ : Type} (key : γ → α) (entries : List γ) (n k : α) :
    (entries.filter (key · ≠ n)).find? (key · = k) =
      if k = n then none else entries.find? (key · = k) := by
  rw [List.find?_filter]
  by_cases hk : k = n
  · rw [if_pos hk, List.find?_eq_none]
    simp [hk]
  · rw [if_neg hk]
    refine congrArg (List.find? · entries) (funext fun old => ?_)
    by_cases hold : key old = k <;> simp [hold, hk]

variable [BEq α] [LawfulBEq α]

theorem lookup_cons_ite (key k : α) (x : β) (rest : List (α × β)) :
    ((key, x) :: rest).lookup k = if k = key then some x else rest.lookup k := by
  by_cases hk : k = key
  · simp [hk]
  · have hb : (k == key) = false := by simpa using hk
    simp [hk, List.lookup_cons, hb]

/-- Where every key has one entry, what is found by a key is what stands beside it. -/
theorem lookup_eq_some_iff_mem {entries : List (α × β)} (hnodup : (entries.map (·.1)).Nodup) {k : α} {x : β} :
    entries.lookup k = some x ↔ (k, x) ∈ entries := by
  induction entries with
  | nil => simp
  | cons entry rest ih =>
    obtain ⟨key, y⟩ := entry
    obtain ⟨hkey, hrest⟩ := List.nodup_cons.mp hnodup
    rw [lookup_cons_ite, List.mem_cons, Prod.mk.injEq]
    by_cases hk : k = key
    · subst hk
      have hnone : (k, x) ∉ rest := fun hmem => hkey (List.mem_map.mpr ⟨_, hmem, rfl⟩)
      simp [hnone, eq_comm]
    · simp [hk, ih hrest]

/-- Without the entries of a key nothing is found by it, and all else as before. -/
theorem lookup_filter_ne (entries : List (α × β)) (key k : α) :
    (entries.filter (·.1 ≠ key)).lookup k = if k = key then none else entries.lookup k := by
  induction entries with
  | nil => simp
  | cons entry rest ih =>
    obtain ⟨place, x⟩ := entry
    by_cases hplace : place = key
    · subst hplace
      rw [List.filter_cons_of_neg (by simp), ih, lookup_cons_ite]
      by_cases hk : k = place
      · simp [hk]
      · simp [hk]
    · rw [List.filter_cons_of_pos (by simpa using hplace), lookup_cons_ite, lookup_cons_ite, ih]
      by_cases hk : k = place
      · simp [hk, hplace]
      · simp [hk]

/-- With an entry in the place of a key's entries, it is found by the key. -/
theorem lookup_filter_ne_append (entries : List (α × β)) (key k : α) (x : β) :
    (entries.filter (·.1 ≠ key) ++ [(key, x)]).lookup k =
      if k = key then some x else entries.lookup k := by
  rw [List.lookup_append, lookup_filter_ne, lookup_cons_ite]
  by_cases hk : k = key
  · simp [hk]
  · simp [hk]

end FormatServer
