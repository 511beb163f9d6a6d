/-!
# Entries — key-value lists in insertion order

Settings, saved actions and JSON objects keep their keys in the order in which they were first
written. They are lists of pairs; the two operations here keep the keys distinct:

- `Entries.find?`: the value of a key;
- `Entries.insert`: a known key gets a new value at its old place, a new key goes to the end.
-/

namespace ProjectCompiler

namespace Entries

variable {κ α : Type} [DecidableEq κ]

def keys (entries : List (κ × α)) : List κ :=
  entries.map Prod.fst

def find? : List (κ × α) → κ → Option α
  | [], _ => none
  | (key, value) :: rest, wanted => if key = wanted then some value else find? rest wanted

def insert : List (κ × α) → κ → α → List (κ × α)
  | [], key, value => [(key, value)]
  | (first, old) :: rest, key, value =>
      if first = key then (first, value) :: rest else (first, old) :: insert rest key value

/-- Insert pairs one after another, so that a repeated key keeps its first place and its last
value. -/
def ofPairs (pairs : List (κ × α)) : List (κ × α) :=
  pairs.foldl (fun entries pair => insert entries pair.1 pair.2) []

/-! ## Look-up after insertion -/

theorem find?_insert_self (entries : List (κ × α)) (key : κ) (value : α) :
    find? (insert entries key value) key = some value := by
  induction entries with
  | nil => simp [insert, find?]
  | cons entry rest ih =>
    obtain ⟨first, old⟩ := entry
    by_cases h : first = key <;> simp [insert, find?, h, ih]

theorem find?_insert_ne (entries : List (κ × α)) {key other : κ} (value : α) (h : other ≠ key) :
    find? (insert entries key value) other = find? entries other := by
  induction entries with
  | nil => simp [insert, find?, Ne.symm h]
  | cons entry rest ih =>
    obtain ⟨first, old⟩ := entry
    by_cases hfirst : first = key
    · subst hfirst
      simp [insert, find?, Ne.symm h]
    · simp [insert, find?, hfirst, ih]

theorem find?_eq_none_iff (entries : List (κ × α)) (key : κ) :
    find? entries key = none ↔ key ∉ keys entries := by
  induction entries with
  | nil => simp [find?, keys]
  | cons entry rest ih =>
    obtain ⟨first, old⟩ := entry
    by_cases h : first = key
    · simp [find?, keys, h]
    · simpa [find?, keys, h, Ne.symm h] using ih

theorem find?_append (entries more : List (κ × α)) (key : κ) :
    find? (entries ++ more) key = (find? entries key).or (find? more key) := by
  induction entries with
  | nil => simp [find?]
  | cons entry rest ih =>
    obtain ⟨first, old⟩ := entry
    by_cases h : first = key
    · simp [find?, h]
    · simpa [find?, h] using ih

theorem mem_of_find? {entries : List (κ × α)} {key : κ} {value : α}
    (h : find? entries key = some value) : (key, value) ∈ entries := by
  induction entries with
  | nil => cases h
  | cons entry rest ih =>
    obtain ⟨first, old⟩ := entry
    by_cases hfirst : first = key
    · simp_all [find?]
    · rw [find?, if_neg hfirst] at h
      exact List.mem_cons_of_mem _ (ih h)

theorem mem_of_mem_insert {entries : List (κ × α)} {key : κ} {value : α} {entry : κ × α}
    (h : entry ∈ insert entries key value) : entry ∈ entries ∨ entry = (key, value) := by
  induction entries with
  | nil => exact .inr (List.mem_singleton.1 h)
  | cons other rest ih =>
    obtain ⟨first, old⟩ := other
    by_cases hfirst : first = key
    · rw [insert, if_pos hfirst, hfirst] at h
      rcases List.mem_cons.1 h with hnew | hrest
      · exact .inr hnew
      · exact .inl (List.mem_cons_of_mem _ hrest)
    · rw [insert, if_neg hfirst] at h
      rcases List.mem_cons.1 h with hold | hrest
      · exact .inl (hold ▸ List.mem_cons_self)
      · exact (ih hrest).imp (List.mem_cons_of_mem _) id

/-- A known key keeps its place and a new key goes to the end. -/
theorem keys_insert (entries : List (κ × α)) (key : κ) (value : α) :
    keys (insert entries key value) =
      if key ∈ keys entries then keys entries else keys entries ++ [key] := by
  induction entries with
  | nil => simp [insert, keys]
  | cons entry rest ih =>
    obtain ⟨first, old⟩ := entry
    by_cases h : first = key
    · simp [insert, keys, h]
    · have hkey : key ≠ first := Ne.symm h
      simp only [insert, h, if_false]
      simp only [keys, List.map_cons, List.mem_cons, hkey, false_or] at ih ⊢
      rw [ih]
      split <;> simp_all

theorem nodup_keys_insert {entries : List (κ × α)} (h : (keys entries).Nodup) (key : κ) (value : α) :
    (keys (insert entries key value)).Nodup := by
  rw [keys_insert]
  split
  · exact h
  · rename_i hnot
    rw [List.nodup_append]
    refine ⟨h, by simp, ?_⟩
    intro a ha b hb hab
    simp only [List.mem_singleton] at hb
    exact hnot (by rw [← hb, ← hab]; exact ha)

/-! ## Distinct keys -/

/-- A new pair goes to the end. -/
theorem insert_of_not_mem {entries : List (κ × α)} {key : κ} (value : α) (h : key ∉ keys entries) :
    insert entries key value = entries ++ [(key, value)] := by
  induction entries with
  | nil => rfl
  | cons entry rest ih =>
    obtain ⟨first, old⟩ := entry
    simp only [keys, List.map_cons, List.mem_cons, not_or] at h
    rw [insert, if_neg (Ne.symm h.1), ih h.2]
    rfl

/-- Distinct keys in one order, each with one value, leave one list of entries. -/
theorem eq_of_find?_eq {entries others : List (κ × α)} (h : (keys entries).Nodup)
    (hkeys : keys entries = keys others)
    (hfind : ∀ key, find? entries key = find? others key) : entries = others := by
  induction entries generalizing others with
  | nil =>
    cases others with
    | nil => rfl
    | cons other rest => cases hkeys
  | cons entry rest ih =>
    obtain ⟨first, value⟩ := entry
    cases others with
    | nil => cases hkeys
    | cons other more =>
      obtain ⟨key, another⟩ := other
      obtain ⟨rfl, hmore⟩ : first = key ∧ keys rest = keys more := List.cons.inj hkeys
      obtain ⟨hfirst, hrest⟩ := List.nodup_cons.1 h
      have hvalue : value = another := by simpa [find?] using hfind first
      have hfindRest : ∀ wanted, find? rest wanted = find? more wanted := by
        intro wanted
        by_cases hwanted : first = wanted
        · subst hwanted
          rw [(find?_eq_none_iff rest first).2 hfirst,
            (find?_eq_none_iff more first).2 (hmore ▸ hfirst)]
        · simpa [find?, hwanted] using hfind wanted
      rw [hvalue, ih hrest hmore hfindRest]

/-- Pairs with distinct keys stay as they are. -/
theorem ofPairs_of_nodup {pairs : List (κ × α)} (h : (keys pairs).Nodup) : ofPairs pairs = pairs := by
  have hfold : ∀ (rest done : List (κ × α)), (keys (done ++ rest)).Nodup →
      rest.foldl (fun entries pair => insert entries pair.1 pair.2) done = done ++ rest := by
    intro rest
    induction rest with
    | nil => simp
    | cons pair rest ih =>
      intro done hdone
      have hnew : pair.1 ∉ keys done := by
        simp only [keys, List.map_append, List.map_cons, List.nodup_append] at hdone
        intro hold
        exact hdone.2.2 _ hold _ List.mem_cons_self rfl
      have hmoved : done ++ pair :: rest = (done ++ [pair]) ++ rest := by simp
      rw [hmoved] at hdone
      rw [List.foldl_cons, insert_of_not_mem _ hnew, ih _ hdone, hmoved]
  simpa [ofPairs] using hfold pairs [] h

end Entries

end ProjectCompiler
