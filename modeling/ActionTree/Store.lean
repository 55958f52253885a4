import ActionTree.Error
import ActionTree.Name
import ActionTree.Value

/-!
The variables of a script. Names are the same if their small letters are; a variable keeps the spelling
and the place that it got when it was first set. An index beside the entries leads from a key to the
place of its entry, and every change to the one is made to the other.
-/

namespace ActionTree

/-- What a variable is known by. -/
@[irreducible] def Store.key (name : String) : String := Text.lowercase name

/-- The entries in their order, and the place of each by its key. -/
@[ext]
structure Store.Table where
  entries : List (String × Value)
  index : List (String × Nat)

namespace Store

/-- The place of every entry, under its key. -/
def places (entries : List (String × Value)) : List (String × Nat) :=
  entries.mapIdx fun i e => (key e.1, i)

namespace Table

def empty : Table := ⟨[], []⟩

/-- Where the variable stands, as the index has it. -/
def slot? (t : Table) (name : String) : Option Nat := t.index.lookup (key name)

def get? (t : Table) (name : String) : Option Value := do
  let i ← t.slot? name
  return (← t.entries[i]?).2

/-- A new value in the entry that the index leads to, or a new entry after the last one. -/
def put (t : Table) (name : String) (v : Value) : Table :=
  match t.slot? name with
  | some i => { t with entries := t.entries.modify i fun e => (e.1, v) }
  | none => ⟨t.entries ++ [(name, v)], t.index ++ [(key name, t.entries.length)]⟩

/-- Takes out the entry that the index leads to. The entries after it move up by one place. -/
def erase (t : Table) (name : String) : Table :=
  match t.slot? name with
  | some i =>
      ⟨t.entries.eraseIdx i,
        (t.index.eraseP (·.1 == key name)).map fun (k, j) => (k, if i < j then j - 1 else j)⟩
  | none => t

/-- No two entries have the same key, and the index has the place of each. -/
structure Indexed (t : Table) : Prop where
  distinct : (t.entries.map fun e => key e.1).Nodup
  places : t.index = places t.entries

end Table

theorem places_append_singleton (entries : List (String × Value)) (e : String × Value) :
    places (entries ++ [e]) = places entries ++ [(key e.1, entries.length)] := by
  rw [places, List.mapIdx_append]
  simp [places]

theorem getElem?_places (entries : List (String × Value)) (i : Nat) :
    (places entries)[i]? = entries[i]?.map fun e => (key e.1, i) :=
  List.getElem?_mapIdx

/-- A new value at a place changes no key. -/
theorem keys_modify (entries : List (String × Value)) (i : Nat) (v : Value) :
    ((entries.modify i fun e => (e.1, v)).map fun e => key e.1) = entries.map fun e => key e.1 := by
  apply List.ext_getElem?
  intro j
  rw [List.getElem?_map, List.getElem?_map, List.getElem?_modify]
  by_cases hij : i = j
  · subst hij
    simp [Function.comp_def]
  · simp [hij]

theorem places_modify (entries : List (String × Value)) (i : Nat) (v : Value) :
    places (entries.modify i fun e => (e.1, v)) = places entries := by
  apply List.ext_getElem?
  intro j
  rw [getElem?_places, getElem?_places, List.getElem?_modify]
  by_cases hij : i = j
  · subst hij
    simp [Function.comp_def]
  · simp [hij]

/-- What is left of the index without the place `i`, once the places above `i` have come down by one. -/
theorem places_eraseIdx (entries : List (String × Value)) (i : Nat) :
    ((places entries).eraseIdx i).map (fun (k, j) => (k, if i < j then j - 1 else j)) =
      places (entries.eraseIdx i) := by
  apply List.ext_getElem?
  intro j
  rw [List.getElem?_map, getElem?_places, List.getElem?_eraseIdx, List.getElem?_eraseIdx]
  by_cases hj : j < i
  · rw [if_pos hj, if_pos hj, getElem?_places, Option.map_map]
    have hbelow : ¬i < j := by omega
    simp [Function.comp_def, hbelow]
  · rw [if_neg hj, if_neg hj, getElem?_places, Option.map_map]
    have habove : i < j + 1 := by omega
    simp [Function.comp_def, habove]

/-- A look-up in the index finds the first entry with that key. -/
theorem lookup_places (entries : List (String × Value)) (k : String) :
    (places entries).lookup k = entries.findIdx? (key ·.1 == k) := by
  suffices h : ∀ n, (entries.mapIdx fun i e => (key e.1, i + n)).lookup k =
      (entries.findIdx? (key ·.1 == k)).map (· + n) by
    simpa [places] using h 0
  induction entries with
  | nil => intro n; rfl
  | cons e rest ih =>
      intro n
      rw [List.mapIdx_cons, List.findIdx?_cons, List.lookup_cons]
      by_cases hk : key e.1 = k
      · simp [hk]
      · have hne : (k == key e.1) = false := by simpa using Ne.symm hk
        have hrest := ih (n + 1)
        simp only [hne, hk, beq_iff_eq, if_false, Option.map_map]
        simpa [Function.comp_def, Nat.add_assoc, Nat.add_comm 1 n] using hrest

theorem map_fst_places (entries : List (String × Value)) :
    (places entries).map Prod.fst = entries.map fun e => key e.1 := by
  apply List.ext_getElem?
  intro i
  rw [List.getElem?_map, List.getElem?_map, getElem?_places, Option.map_map]
  rfl

/-- The key of the entry at a place is found in the index at the same place. -/
theorem eraseP_places {entries : List (String × Value)} {k : String} {i : Nat}
    (h : entries.findIdx? (key ·.1 == k) = some i) :
    (places entries).eraseP (·.1 == k) = (places entries).eraseIdx i := by
  have hfind : (places entries).findIdx? (·.1 == k) = some i := by
    rw [← h]
    change (places entries).findIdx? ((· == k) ∘ Prod.fst) =
      entries.findIdx? ((· == k) ∘ fun e => key e.1)
    rw [← List.findIdx?_map, map_fst_places, List.findIdx?_map]
  rw [List.eraseP_eq_eraseIdx, hfind]

theorem nodup_append_key {name : String} {v : Value} {entries : List (String × Value)}
    (distinct : (entries.map fun e => key e.1).Nodup)
    (fresh : key name ∉ entries.map fun e => key e.1) :
    ((entries ++ [(name, v)]).map fun e => key e.1).Nodup := by
  rw [List.map_append, List.nodup_append]
  refine ⟨distinct, List.pairwise_singleton _ _, ?_⟩
  intro a ha b hb hab
  rw [List.map_singleton, List.mem_singleton] at hb
  exact fresh (hb ▸ hab ▸ ha)

namespace Table.Indexed

variable {t : Table}

theorem empty : Table.empty.Indexed := ⟨List.nodup_nil, rfl⟩

theorem slot?_eq (ht : t.Indexed) (name : String) :
    t.slot? name = t.entries.findIdx? (key ·.1 == key name) := by
  rw [slot?, ht.places, lookup_places]

theorem not_mem_of_slot?_none (ht : t.Indexed) {name : String} (h : t.slot? name = none) :
    key name ∉ t.entries.map fun e => key e.1 := by
  rw [ht.slot?_eq, List.findIdx?_eq_none_iff] at h
  intro hmem
  obtain ⟨e, he, hkey⟩ := List.mem_map.mp hmem
  simpa [hkey] using h e he

theorem put (ht : t.Indexed) (name : String) (v : Value) : (t.put name v).Indexed := by
  cases hslot : t.slot? name with
  | some i =>
      simp only [Table.put, hslot]
      exact ⟨(keys_modify t.entries i v).symm ▸ ht.distinct,
        ht.places.trans (places_modify t.entries i v).symm⟩
  | none =>
      simp only [Table.put, hslot]
      refine ⟨nodup_append_key ht.distinct (ht.not_mem_of_slot?_none hslot), ?_⟩
      rw [places_append_singleton, ht.places]

theorem erase (ht : t.Indexed) (name : String) : (t.erase name).Indexed := by
  cases hslot : t.slot? name with
  | some i =>
      simp only [Table.erase, hslot]
      refine ⟨ht.distinct.sublist ((List.eraseIdx_sublist _ _).map _), ?_⟩
      rw [ht.slot?_eq] at hslot
      rw [ht.places, eraseP_places hslot, places_eraseIdx]
  | none => simpa only [Table.erase, hslot] using ht

end Table.Indexed

end Store

/-- A table whose index is right. -/
structure Store extends Store.Table where
  indexed : toTable.Indexed

namespace Store

def empty : Store := ⟨Table.empty, .empty⟩

instance : Inhabited Store := ⟨empty⟩

def get? (s : Store) (name : String) : Option Value := s.toTable.get? name

def contains (s : Store) (name : String) : Bool := (s.slot? name).isSome

/-- Why a name cannot be given a value, if it cannot. -/
def refusal? (name : String) : Option RuntimeFault :=
  if name.isEmpty then some .emptyVariableName
  else if NameKind.ofName name = .plain then none
  else some (.computedVariable name)

/-- Sets a variable of that name, whatever the name is. -/
def put (s : Store) (name : String) (v : Value) : Store :=
  ⟨s.toTable.put name v, s.indexed.put name v⟩

/-- Sets a variable; an empty or computed name is refused. -/
def set (s : Store) (name : String) (v : Value) : Except RuntimeFault Store :=
  match refusal? name with
  | some fault => .error fault
  | none => .ok (s.put name v)

/-- Removes a variable. -/
def erase (s : Store) (name : String) : Store := ⟨s.toTable.erase name, s.indexed.erase name⟩

/-- Sets the variables in order, without those whose names are refused. -/
def ofList (pairs : List (String × Value)) : Store :=
  pairs.foldl (fun s p => (s.set p.1 p.2).toOption.getD s) empty

/-- Sets the variables in order, up to the first name that is refused. -/
def ofList? (pairs : List (String × Value)) : Except RuntimeFault Store :=
  pairs.foldlM (fun s p => s.set p.1 p.2) empty

end Store

end ActionTree
