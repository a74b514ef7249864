import Mathlib.Data.List.Forall2

/-!
# Results, lists and arrays

Facts about the types of the library that the development uses in more than one place, or that say
nothing about the modules in which they are used.

* **`exists_ok_of_bind`**, **`ok_of_mapError`**, **`error_of_map`** — what the parts of an operation
  that may fail came to, told by what the whole came to.
* **`map_eq_of_forall₂`**, **`exists_of_forall₂`** — lists whose entries correspond one by one.
* **`places_cases`**, **`mem_tail_of_mem_tail_filter`** — where an entry stands in a list.
* **`modify_modify`**, **`modify_comm`** — changes of single entries of an array.
-/

namespace SyntaxForest

/-! ## Operations that may fail -/

section Results

variable {ε ε' α β : Type}

theorem exists_ok_of_bind {x : Except ε α} {next : α → Except ε β} {b : β}
    (h : (x >>= next) = .ok b) :
    ∃ a, x = .ok a ∧ next a = .ok b := by
  cases x with
  | error e => cases h
  | ok a => exact ⟨a, rfl, h⟩

theorem ok_of_mapError {x : Except ε α} {change : ε → ε'} {a : α} (h : x.mapError change = .ok a) :
    x = .ok a := by
  cases x with
  | error e => cases h
  | ok b => exact congrArg Except.ok (Except.ok.inj h)

theorem error_of_map {f : α → β} {x : Except ε α} {e : ε} (h : x.map f = .error e) :
    x = .error e := by
  cases x with
  | ok _ => cases h
  | error e' =>
    cases h
    rfl

end Results

/-! ## Lists -/

section Lists

variable {α β γ : Type} {R : α → β → Prop} {l : List α} {l' : List β}

/-- Lists whose entries correspond one by one are mapped to the same list by functions that agree on
entries which correspond. -/
theorem map_eq_of_forall₂ {f : α → γ} {g : β → γ} (h : List.Forall₂ R l l')
    (hfg : ∀ a ∈ l, ∀ b, R a b → f a = g b) : l.map f = l'.map g := by
  induction h with
  | nil => rfl
  | @cons a b l l' hab _ ih =>
    rw [List.map_cons, List.map_cons, hfg a List.mem_cons_self b hab,
      ih fun a ha => hfg a (List.mem_cons_of_mem _ ha)]

theorem exists_of_forall₂ (h : List.Forall₂ R l l') {a : α} (ha : a ∈ l) : ∃ b ∈ l', R a b := by
  induction h with
  | nil => cases ha
  | cons hab _ ih =>
    rcases List.mem_cons.mp ha with rfl | hrest
    · exact ⟨_, List.mem_cons_self, hab⟩
    · obtain ⟨b, hb, hrel⟩ := ih hrest
      exact ⟨b, List.mem_cons_of_mem _ hb, hrel⟩

/-- Of two places in a list one comes first, unless they are the same. -/
theorem places_cases {before before' after after' : List α} {a a' : α}
    (h : before ++ a :: after = before' ++ a' :: after') :
    (a = a' ∧ after = after') ∨ a' ∈ after ∨ a ∈ after' := by
  -- one of the beginnings is the longer one, and the entries between the two places are what it has
  -- more
  rcases List.append_eq_append_iff.mp h with ⟨between, -, hrest⟩ | ⟨between, -, hrest⟩
  · cases between with
    | nil =>
      cases hrest
      exact Or.inl ⟨rfl, rfl⟩
    | cons b between =>
      cases hrest
      exact Or.inr (Or.inl (List.mem_append_right _ List.mem_cons_self))
  · cases between with
    | nil =>
      cases hrest
      exact Or.inl ⟨rfl, rfl⟩
    | cons b between =>
      cases hrest
      exact Or.inr (Or.inr (List.mem_append_right _ List.mem_cons_self))

/-- What is left in the tail of a queue was in its tail. -/
theorem mem_tail_of_mem_tail_filter {keep : α → Bool} {w : α} (h : w ∈ (l.filter keep).tail) :
    w ∈ l.tail := by
  cases l with
  | nil => simp at h
  | cons first rest =>
    rw [List.filter_cons] at h
    split at h
    · exact (List.mem_filter.mp h).1
    · exact (List.mem_filter.mp (List.mem_of_mem_tail h)).1

end Lists

/-! ## Arrays -/

section Arrays

variable {α : Type}

/-- Two changes of one entry in a row. -/
theorem modify_modify (entries : Array α) (n : Nat) (f g : α → α) :
    (entries.modify n f).modify n g = entries.modify n fun entry => g (f entry) := by
  apply Array.ext_getElem?
  intro i
  rw [Array.getElem?_modify, Array.getElem?_modify, Array.getElem?_modify]
  split
  · rw [Option.map_map]
    rfl
  · rfl

/-- Changes of two entries, in either order. -/
theorem modify_comm {m n : Nat} (h : m ≠ n) (entries : Array α) (f g : α → α) :
    (entries.modify n f).modify m g = (entries.modify m g).modify n f := by
  refine Array.ext_getElem? fun i => ?_
  simp only [Array.getElem?_modify]
  by_cases hi : m = i
  · rw [if_pos hi, if_neg fun hn => h (hi.trans hn.symm), if_neg fun hn => h (hi.trans hn.symm),
      if_pos hi]
  · rw [if_neg hi, if_neg hi]

end Arrays

end SyntaxForest
