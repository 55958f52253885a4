import ActionTree.Store

/-!
# Looking up what was set

The store as a plain list of names and values: what is left of it in `entries` is all that a look-up, a
change or a comparison of two stores depends on. From it, what a look-up finds after a variable was set
or removed, and how one change to a store is undone.
-/

namespace ActionTree.Store

theorem ext {s t : Store} (h : s.entries = t.entries) : s = t := by
  have hindex : s.index = t.index := by
    rw [s.indexed.places, t.indexed.places, h]
  have htable : s.toTable = t.toTable := Table.ext h hindex
  cases s
  cases htable
  rfl

/-! ### The plain list -/

def keys (s : Store) : List String := s.entries.map fun e => key e.1

/-- A new value at the place of the entry with the same key. -/
def overwrite (name : String) (v : Value) (entries : List (String × Value)) :
    List (String × Value) :=
  entries.map fun e => if key e.1 = key name then (e.1, v) else e

/-- A new value for the entry with the same key, or a new entry after the last one. -/
def assign (name : String) (v : Value) (entries : List (String × Value)) : List (String × Value) :=
  if key name ∈ entries.map (fun e => key e.1) then overwrite name v entries
  else entries ++ [(name, v)]

/-- The entries without the one of that name. -/
def remove (name : String) (entries : List (String × Value)) : List (String × Value) :=
  entries.filter fun e => key e.1 != key name

theorem keys_overwrite (name : String) (v : Value) (entries : List (String × Value)) :
    (overwrite name v entries).map (fun e => key e.1) = entries.map fun e => key e.1 := by
  rw [overwrite, List.map_map]
  apply List.map_congr_left
  intro e _
  rw [Function.comp_apply]
  split <;> rfl

theorem overwrite_of_not_mem {name : String} {entries : List (String × Value)}
    (h : key name ∉ entries.map fun e => key e.1) (v : Value) :
    overwrite name v entries = entries := by
  refine (List.map_congr_left fun e he => ?_).trans (List.map_id entries)
  exact if_neg fun hkey => h (List.mem_map.mpr ⟨e, he, hkey⟩)

theorem remove_of_not_mem {name : String} {entries : List (String × Value)}
    (h : key name ∉ entries.map fun e => key e.1) : remove name entries = entries := by
  rw [remove, List.filter_eq_self]
  intro e he
  have hne : key e.1 ≠ key name := fun hkey => h (List.mem_map.mpr ⟨e, he, hkey⟩)
  simpa using hne

/-- Only one entry has the key, so what is done at its place is done to every entry with that key. -/
theorem modify_eraseIdx_findIdx? {name : String} {entries : List (String × Value)} {i : Nat}
    (distinct : (entries.map fun e => key e.1).Nodup)
    (h : entries.findIdx? (key ·.1 == key name) = some i) (v : Value) :
    (entries.modify i fun e => (e.1, v)) = overwrite name v entries ∧
      entries.eraseIdx i = remove name entries := by
  induction entries generalizing i with
  | nil => simp at h
  | cons e rest ih =>
      rw [List.map_cons, List.nodup_cons] at distinct
      rw [List.findIdx?_cons] at h
      by_cases hkey : key e.1 = key name
      · have hrest : key name ∉ rest.map fun e => key e.1 := hkey ▸ distinct.1
        obtain rfl : 0 = i := by simpa [hkey] using h
        constructor
        · have hover := overwrite_of_not_mem hrest v
          rw [overwrite] at hover
          simp [overwrite, hkey, hover]
        · have hkept := remove_of_not_mem hrest
          rw [remove] at hkept
          simp [remove, hkey, hkept]
      · obtain ⟨j, hj, rfl⟩ : ∃ j, rest.findIdx? (key ·.1 == key name) = some j ∧ j + 1 = i := by
          simpa [hkey] using h
        obtain ⟨hmodify, herase⟩ := ih distinct.2 hj
        constructor
        · rw [List.modify_succ_cons, hmodify]
          simp [overwrite, hkey]
        · rw [List.eraseIdx_cons_succ, herase]
          simp [remove, hkey]

theorem slot?_eq_none_iff (s : Store) (name : String) :
    s.slot? name = none ↔ key name ∉ s.keys := by
  rw [s.indexed.slot?_eq, List.findIdx?_eq_none_iff, keys, List.mem_map]
  simp

theorem entries_put (s : Store) (name : String) (v : Value) :
    (s.put name v).entries = assign name v s.entries := by
  change (s.toTable.put name v).entries = _
  unfold Table.put assign
  cases hslot : s.slot? name with
  | some i =>
      have hmem : key name ∈ s.keys := by
        rw [← Decidable.not_not (p := key name ∈ s.keys), ← slot?_eq_none_iff, hslot]
        simp
      refine Eq.trans ?_ (if_pos hmem).symm
      rw [s.indexed.slot?_eq] at hslot
      exact (modify_eraseIdx_findIdx? s.indexed.distinct hslot v).1
  | none => exact (if_neg ((s.slot?_eq_none_iff name).mp hslot)).symm

theorem entries_erase (s : Store) (name : String) :
    (s.erase name).entries = remove name s.entries := by
  change (s.toTable.erase name).entries = _
  unfold Table.erase
  cases hslot : s.slot? name with
  | some i =>
      rw [s.indexed.slot?_eq] at hslot
      exact (modify_eraseIdx_findIdx? s.indexed.distinct hslot .null).2
  | none => exact (remove_of_not_mem ((s.slot?_eq_none_iff name).mp hslot)).symm

theorem get?_eq_find? (s : Store) (name : String) :
    s.get? name = (s.entries.find? fun e => key e.1 == key name).map Prod.snd := by
  rw [get?, Table.get?, s.indexed.slot?_eq, List.find?_eq_bind_findIdx?_getElem?]
  cases s.entries.findIdx? fun e => key e.1 == key name with
  | none => rfl
  | some i => cases hi : s.entries[i]? <;> simp [hi]

theorem contains_eq_true_iff (s : Store) (name : String) :
    s.contains name = true ↔ key name ∈ s.keys := by
  rw [contains, Option.isSome_iff_ne_none, ne_eq, slot?_eq_none_iff, Decidable.not_not]

/-! ### Looking up -/

/-- A look-up goes by the key of a name alone. -/
theorem get?_congr (s : Store) {name other : String} (h : key name = key other) :
    s.get? name = s.get? other := by
  rw [get?_eq_find?, get?_eq_find?, h]

theorem find?_of_mem {entries : List (String × Value)} {e : String × Value} {name : String}
    (distinct : (entries.map fun e => key e.1).Nodup) (he : e ∈ entries)
    (hkey : key e.1 = key name) : (entries.find? fun e => key e.1 == key name) = some e := by
  induction entries with
  | nil => simp at he
  | cons d rest ih =>
      rw [List.map_cons, List.nodup_cons] at distinct
      rcases List.mem_cons.mp he with rfl | hrest
      · simp [hkey]
      · have hne : key d.1 ≠ key name := by
          intro hd
          exact distinct.1 (List.mem_map.mpr ⟨e, hrest, hkey.trans hd.symm⟩)
        simpa [hne] using ih distinct.2 hrest

/-- Every entry is found under its own name, since no other has its key. -/
theorem get?_of_mem {s : Store} {e : String × Value} {name : String} (he : e ∈ s.entries)
    (hkey : key e.1 = key name) : s.get? name = some e.2 := by
  rw [get?_eq_find?, find?_of_mem s.indexed.distinct he hkey]
  rfl

theorem get?_eq_none {s : Store} {name : String} (h : key name ∉ s.keys) : s.get? name = none := by
  rw [get?_eq_find?, Option.map_eq_none_iff, List.find?_eq_none]
  intro e he hkey
  exact h (List.mem_map.mpr ⟨e, he, by simpa using hkey⟩)

theorem get?_put (s : Store) (name other : String) (v : Value) :
    (s.put name v).get? other = if key other = key name then some v else s.get? other := by
  by_cases hmem : key name ∈ s.keys
  · have hput : (s.put name v).entries = overwrite name v s.entries :=
      (entries_put s name v).trans (if_pos hmem)
    obtain ⟨e, he, hkey⟩ := List.mem_map.mp hmem
    split
    · rename_i hsame
      have hin : (e.1, v) ∈ (s.put name v).entries := by
        rw [hput]
        exact List.mem_map.mpr ⟨e, he, by simp [hkey]⟩
      exact get?_of_mem hin (hkey.trans hsame.symm)
    · rename_i hother
      have hmatch : (fun d : String × Value => key d.1 == key other) ∘
          (fun d => if key d.1 = key name then (d.1, v) else d) =
          fun d => key d.1 == key other := by
        funext d
        rw [Function.comp_apply]
        split <;> rfl
      rw [get?_eq_find?, get?_eq_find?, hput, overwrite, List.find?_map, hmatch]
      cases hfind : s.entries.find? fun d => key d.1 == key other with
      | none => rfl
      | some d =>
          have hd : key d.1 = key other := by simpa using List.find?_some hfind
          have hne : key d.1 ≠ key name := hd ▸ hother
          simp [hne]
  · have hput : (s.put name v).entries = s.entries ++ [(name, v)] :=
      (entries_put s name v).trans (if_neg hmem)
    rw [get?_eq_find?, hput, List.find?_append]
    split
    · rename_i hsame
      have hnone : s.get? other = none := get?_eq_none (hsame ▸ hmem)
      rw [get?_eq_find?, Option.map_eq_none_iff] at hnone
      rw [hnone]
      simp [hsame]
    · rename_i hother
      have hne : key name ≠ key other := Ne.symm hother
      simp [hne, get?_eq_find?]

theorem get?_erase (s : Store) (name other : String) :
    (s.erase name).get? other = if key other = key name then none else s.get? other := by
  split
  · rename_i hsame
    apply get?_eq_none
    intro hmem
    obtain ⟨e, he, hkey⟩ := List.mem_map.mp hmem
    rw [entries_erase] at he
    have hkept := (List.mem_filter.mp he).2
    simp [hkey, hsame] at hkept
  · rename_i hother
    rw [get?_eq_find?, get?_eq_find?, entries_erase, remove, List.find?_filter]
    congr 2
    funext e
    by_cases he : key e.1 = key other
    · simp [he, hother]
    · simp [he]

/-- Gives a name the value that it had, or none if it had none. -/
def reset (s : Store) (name : String) : Option Value → Store
  | some v => s.put name v
  | none => s.erase name

theorem get?_reset (s : Store) (name other : String) (before : Option Value) :
    (s.reset name before).get? other = if key other = key name then before else s.get? other := by
  cases before with
  | some v => exact get?_put s name other v
  | none => exact get?_erase s name other

/-- What is put over an entry, or after the last one, is taken back without a trace. -/
theorem reset_put (s : Store) (name : String) (v : Value) :
    (s.put name v).reset name (s.get? name) = s := by
  apply ext
  by_cases hmem : key name ∈ s.keys
  · obtain ⟨e, he, hkey⟩ := List.mem_map.mp hmem
    have hput : (s.put name v).entries = overwrite name v s.entries :=
      (entries_put s name v).trans (if_pos hmem)
    have hmem' : key name ∈ (overwrite name v s.entries).map fun e => key e.1 := by
      rw [keys_overwrite]
      exact hmem
    rw [get?_of_mem he hkey, reset, entries_put, hput, assign, if_pos hmem', overwrite, overwrite,
      List.map_map]
    refine (List.map_congr_left fun d hd => ?_).trans (List.map_id s.entries)
    by_cases hsame : key d.1 = key name
    · have hvalue : some d.2 = some e.2 := by
        rw [← get?_of_mem hd hsame, get?_of_mem he hkey]
      simp [hsame, ← Option.some.inj hvalue]
    · simp [hsame]
  · have hput : (s.put name v).entries = s.entries ++ [(name, v)] :=
      (entries_put s name v).trans (if_neg hmem)
    rw [get?_eq_none hmem, reset, entries_erase, hput, remove, List.filter_append]
    have hkept := remove_of_not_mem hmem
    rw [remove] at hkept
    simp [hkept]

/-- Gives names what they had, in order. -/
def resetAll (s : Store) (saved : List (String × Option Value)) : Store :=
  saved.foldl (fun s p => s.reset p.1 p.2) s

theorem resetAll_append_singleton (s : Store) (saved : List (String × Option Value)) (name : String)
    (before : Option Value) :
    s.resetAll (saved ++ [(name, before)]) = (s.resetAll saved).reset name before := by
  rw [resetAll, List.foldl_append]
  rfl

end ActionTree.Store
