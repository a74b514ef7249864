import SyntaxForest.Data.Assoc

/-!
# Looking up what was set

A key has the value it was last set to, and no value once it is removed; the other keys keep theirs.
No key is there twice, and a key that is set stays where it is.
-/

namespace SyntaxForest.Assoc

variable {κ α : Type} [DecidableEq κ]

@[simp] theorem get?_nil (key : κ) : get? ([] : Assoc κ α) key = none := rfl

theorem get?_cons (entry : κ × α) (rest : Assoc κ α) (key : κ) :
    get? (entry :: rest) key = if entry.1 = key then some entry.2 else get? rest key := by
  by_cases h : entry.1 = key <;> simp [get?, h]

theorem get?_set (table : Assoc κ α) (key : κ) (value : α) (other : κ) :
    get? (set table key value) other = if key = other then some value else get? table other := by
  induction table with
  | nil => rw [set, get?_cons]
  | cons entry rest ih =>
    rw [set]
    by_cases hentry : entry.1 = key
    -- the key was there: its entry is replaced, and the lookup stops at the same place
    · rw [if_pos hentry, get?_cons, get?_cons, hentry]
      by_cases hother : key = other <;> simp [hother]
    · rw [if_neg hentry, get?_cons, get?_cons, ih]
      by_cases hother : key = other
      · subst hother
        simp [hentry]
      · simp [hother]

@[simp] theorem get?_set_self (table : Assoc κ α) (key : κ) (value : α) :
    get? (set table key value) key = some value := by
  rw [get?_set, if_pos rfl]

theorem get?_erase (table : Assoc κ α) (key other : κ) :
    get? (erase table key) other = if key = other then none else get? table other := by
  induction table with
  | nil => simp [erase]
  | cons entry rest ih =>
    -- one step of the removal, read off the filter that it is
    have hstep : erase (entry :: rest) key
        = if entry.1 = key then erase rest key else entry :: erase rest key := by
      by_cases h : entry.1 = key <;> simp [erase, h]
    rw [hstep, get?_cons]
    by_cases hentry : entry.1 = key
    · rw [if_pos hentry, ih, hentry]
      by_cases hother : key = other <;> simp [hother]
    · rw [if_neg hentry, get?_cons, ih]
      by_cases hother : key = other
      · subst hother
        simp [hentry]
      · simp [hother]

theorem mem_of_get? {table : Assoc κ α} {key : κ} {value : α} (h : get? table key = some value) :
    (key, value) ∈ table := by
  rw [get?, Option.map_eq_some_iff] at h
  obtain ⟨entry, hfind, rfl⟩ := h
  have hkey : entry.1 = key := by simpa using List.find?_some hfind
  exact hkey ▸ List.mem_of_find?_eq_some hfind

theorem mem_values_of_get? {table : Assoc κ α} {key : κ} {value : α}
    (h : get? table key = some value) : value ∈ values table :=
  List.mem_map.mpr ⟨(key, value), mem_of_get? h, rfl⟩

theorem mem_values_set_self (table : Assoc κ α) (key : κ) (value : α) :
    value ∈ values (set table key value) :=
  mem_values_of_get? (get?_set_self table key value)

theorem mem_values_of_mem_set {table : Assoc κ α} {key : κ} {value other : α}
    (h : other ∈ values (set table key value)) : other = value ∨ other ∈ values table := by
  induction table with
  | nil => exact Or.inl (by simpa [set, values] using h)
  | cons entry rest ih =>
    rw [set] at h
    split at h
    · rcases List.mem_cons.mp h with heq | hrest
      · exact Or.inl heq
      · exact Or.inr (List.mem_cons_of_mem _ hrest)
    · rcases List.mem_cons.mp h with heq | hrest
      · exact Or.inr (heq ▸ List.mem_cons_self ..)
      · exact (ih hrest).imp_right (List.mem_cons_of_mem _)

theorem mem_values_set_of_not_contains {table : Assoc κ α} {key : κ} {value other : α}
    (hnew : contains table key = false) (h : other ∈ values table) :
    other ∈ values (set table key value) := by
  induction table with
  | nil => cases h
  | cons entry rest ih =>
    rw [contains, List.any_cons, Bool.or_eq_false_iff] at hnew
    rw [set, if_neg (by simpa using hnew.1)]
    rcases List.mem_cons.mp h with heq | hrest
    · exact heq ▸ List.mem_cons_self ..
    · exact List.mem_cons_of_mem _ (ih hnew.2 hrest)

theorem mem_values_of_mem_erase {table : Assoc κ α} {key : κ} {value : α}
    (h : value ∈ values (erase table key)) : value ∈ values table :=
  (List.filter_sublist.map _).subset h

theorem contains_eq_isSome (table : Assoc κ α) (key : κ) :
    contains table key = (get? table key).isSome := by
  induction table with
  | nil => rfl
  | cons entry rest ih =>
    rw [get?_cons, contains, List.any_cons, ← contains, ih]
    by_cases h : entry.1 = key <;> simp [h]

/-! ## No key twice -/

theorem mem_keys_set {table : Assoc κ α} {key other : κ} {value : α} :
    other ∈ keys (set table key value) ↔ other = key ∨ other ∈ keys table := by
  induction table with
  | nil => simp [set, keys]
  | cons entry rest ih =>
    rw [set]
    split
    · rename_i hentry
      simp [keys, hentry]
    · simp only [keys, List.map_cons, List.mem_cons] at ih ⊢
      rw [ih]
      exact or_left_comm

theorem nodup_keys_set {table : Assoc κ α} (h : (keys table).Nodup) (key : κ) (value : α) :
    (keys (set table key value)).Nodup := by
  induction table with
  | nil => simp [set, keys]
  | cons entry rest ih =>
    rw [keys, List.map_cons, List.nodup_cons] at h
    rw [set]
    split
    · rename_i hentry
      rw [keys, List.map_cons, List.nodup_cons]
      exact ⟨hentry ▸ h.1, h.2⟩
    · rename_i hentry
      rw [keys, List.map_cons, List.nodup_cons]
      refine ⟨fun hmem => ?_, ih h.2⟩
      rcases mem_keys_set.mp hmem with heq | hrest
      · exact hentry heq
      · exact h.1 hrest

theorem nodup_keys_erase {table : Assoc κ α} (h : (keys table).Nodup) (key : κ) :
    (keys (erase table key)).Nodup :=
  (List.filter_sublist.map _).nodup h

theorem get?_of_mem {table : Assoc κ α} (hnodup : (keys table).Nodup) {key : κ} {value : α}
    (h : (key, value) ∈ table) : get? table key = some value := by
  induction table with
  | nil => cases h
  | cons entry rest ih =>
    rw [keys, List.map_cons, List.nodup_cons] at hnodup
    rw [get?_cons]
    rcases List.mem_cons.mp h with heq | hrest
    · subst heq
      exact if_pos rfl
    -- the entry is further on, and the first key is another one, or it would be there twice
    · have hother : entry.1 ≠ key := fun heq =>
        hnodup.1 (heq ▸ List.mem_map.mpr ⟨(key, value), hrest, rfl⟩)
      rw [if_neg hother]
      exact ih hnodup.2 hrest

theorem get?_eq_none {table : Assoc κ α} {key : κ} (h : key ∉ keys table) :
    get? table key = none := by
  rw [get?, Option.map_eq_none_iff, List.find?_eq_none]
  intro entry hentry heq
  exact h (List.mem_map.mpr ⟨entry, hentry, by simpa using heq⟩)

/-! ## Where a key is set -/

theorem set_of_get? {table : Assoc κ α} {key : κ} {value : α} (h : get? table key = some value) :
    set table key value = table := by
  induction table with
  | nil => cases h
  | cons entry rest ih =>
    rw [get?_cons] at h
    rw [set]
    split at h
    · rename_i hentry
      cases h
      rw [if_pos hentry, ← hentry]
    · rename_i hentry
      rw [if_neg hentry, ih h]

theorem set_of_not_mem_keys {table : Assoc κ α} {key : κ} (h : key ∉ keys table) (value : α) :
    set table key value = table ++ [(key, value)] := by
  induction table with
  | nil => rfl
  | cons entry rest ih =>
    rw [keys, List.map_cons, List.mem_cons, not_or] at h
    rw [set, if_neg (Ne.symm h.1), ih h.2, List.cons_append]

/-- A key that is there is set in its place. -/
theorem set_map {l : List κ} (hnodup : l.Nodup) {key : κ} (hkey : key ∈ l) (of : κ → α)
    (value : α) :
    set (l.map fun k => (k, of k)) key value = l.map fun k =>
      (k, if k = key then value else of k) := by
  induction l with
  | nil => cases hkey
  | cons first rest ih =>
    rw [List.nodup_cons] at hnodup
    rw [List.map_cons, List.map_cons, set]
    by_cases hfirst : first = key
    · subst hfirst
      rw [if_pos rfl, if_pos rfl]
      refine congrArg _ (List.map_congr_left fun k hk => ?_)
      have hne : k ≠ first := fun heq => hnodup.1 (heq ▸ hk)
      rw [if_neg hne]
    · have hrest : key ∈ rest := (List.mem_cons.mp hkey).resolve_left (Ne.symm hfirst)
      rw [if_neg hfirst, if_neg hfirst, ih hnodup.2 hrest]

theorem getD_alter (table : Assoc κ α) (key other : κ) (f : Option α → α) (d : α) :
    (get? (alter table key f) other).getD d
      = if key = other then f (get? table key) else (get? table other).getD d := by
  rw [alter, get?_set]
  split <;> rfl

end SyntaxForest.Assoc
