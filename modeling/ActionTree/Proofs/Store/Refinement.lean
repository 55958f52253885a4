import ActionTree.Proofs.Store

/-!
# The store is a list of pairs

Whatever is done to a store, one operation after another, its answers and its entries are those of a
plain list of names and values, and the index leads to every entry and to nothing else. The step is
`Operation.apply_eq`, for one operation on any store.
-/

namespace ActionTree.Store

/-- A name that can be given a value: neither empty nor computed. -/
def Acceptable (name : String) : Prop := name ≠ "" ∧ NameKind.ofName name = .plain

instance (name : String) : Decidable (Acceptable name) := inferInstanceAs (Decidable (_ ∧ _))

theorem refusal?_eq_none_iff (name : String) : refusal? name = none ↔ Acceptable name := by
  unfold refusal? Acceptable
  by_cases hempty : name = ""
  · simp [hempty]
  · by_cases hplain : NameKind.ofName name = .plain <;> simp [hempty, hplain]

/-- An operation on the variables. -/
inductive Operation where
  | set (name : String) (v : Value)
  | unset (name : String)
  | clear
  | collect (pairs : List (String × Value))
  | tryCollect (pairs : List (String × Value))

/-- A refusal, or what was removed if the operation removes something. -/
abbrev Answer := Except RuntimeFault (Option Value)

/-- What an operation answers, and the store after it. A refused one leaves the store as it was. -/
def Operation.apply (s : Store) : Operation → Answer × Store
  | set name v =>
      match s.set name v with
      | .ok after => (.ok none, after)
      | .error fault => (.error fault, s)
  | unset name => (.ok (s.get? name), s.erase name)
  | clear => (.ok none, empty)
  | collect pairs => (.ok none, ofList pairs)
  | tryCollect pairs =>
      match ofList? pairs with
      | .ok after => (.ok none, after)
      | .error fault => (.error fault, s)

/-- The value beside a name in a plain list, case apart. -/
def valueIn (name : String) (entries : List (String × Value)) : Option Value :=
  (entries.find? fun e => key e.1 == key name).map Prod.snd

def assignAll (pairs entries : List (String × Value)) : List (String × Value) :=
  pairs.foldl (fun entries p => assign p.1 p.2 entries) entries

/-- The same operation on a plain list. -/
def Operation.onList (entries : List (String × Value)) : Operation → Answer × List (String × Value)
  | set name v =>
      match refusal? name with
      | none => (.ok none, assign name v entries)
      | some fault => (.error fault, entries)
  | unset name => (.ok (valueIn name entries), remove name entries)
  | clear => (.ok none, [])
  | collect pairs => (.ok none, assignAll (pairs.filter fun p => Acceptable p.1) [])
  | tryCollect pairs =>
      match pairs.findSome? fun p => refusal? p.1 with
      | none => (.ok none, assignAll pairs [])
      | some fault => (.error fault, entries)

/-- One operation after another, with all the answers. -/
def Operation.applyAll (s : Store) : List Operation → List Answer × Store
  | [] => ([], s)
  | op :: rest =>
      let (answer, after) := op.apply s
      let (answers, last) := applyAll after rest
      (answer :: answers, last)

def Operation.onListAll (entries : List (String × Value)) :
    List Operation → List Answer × List (String × Value)
  | [] => ([], entries)
  | op :: rest =>
      let (answer, after) := op.onList entries
      let (answers, last) := onListAll after rest
      (answer :: answers, last)

/-! ### Many pairs at once -/

theorem entries_collect (s : Store) (pairs : List (String × Value)) :
    (pairs.foldl (fun s p => (s.set p.1 p.2).toOption.getD s) s).entries =
      assignAll (pairs.filter fun p => Acceptable p.1) s.entries := by
  induction pairs generalizing s with
  | nil => rfl
  | cons p rest ih =>
      rw [List.foldl_cons, ih, Store.set]
      cases hname : refusal? p.1 with
      | none =>
          have haccept : Acceptable p.1 := (refusal?_eq_none_iff p.1).mp hname
          rw [List.filter_cons_of_pos (by simpa using haccept), assignAll, assignAll, List.foldl_cons,
            ← entries_put]
          rfl
      | some fault =>
          have hrefuse : ¬Acceptable p.1 := by
            rw [← refusal?_eq_none_iff, hname]
            simp
          rw [List.filter_cons_of_neg (by simpa using hrefuse)]
          rfl

/-- The first name that is refused decides, if there is one. -/
theorem foldlM_set (s : Store) (pairs : List (String × Value)) :
    pairs.foldlM (fun s p => s.set p.1 p.2) s =
      match pairs.findSome? fun p => refusal? p.1 with
      | none => .ok (pairs.foldl (fun s p => s.put p.1 p.2) s)
      | some fault => .error fault := by
  induction pairs generalizing s with
  | nil => rfl
  | cons p rest ih =>
      rw [List.foldlM_cons, List.findSome?_cons, Store.set]
      cases refusal? p.1 with
      | none => exact ih (s.put p.1 p.2)
      | some fault => rfl

theorem entries_foldl_put (s : Store) (pairs : List (String × Value)) :
    (pairs.foldl (fun s p => s.put p.1 p.2) s).entries = assignAll pairs s.entries := by
  induction pairs generalizing s with
  | nil => rfl
  | cons p rest ih => rw [List.foldl_cons, ih, entries_put, assignAll, assignAll, List.foldl_cons]

theorem ofList?_eq_error_iff (pairs : List (String × Value)) :
    (∃ fault, ofList? pairs = .error fault) ↔ ∃ p ∈ pairs, ¬Acceptable p.1 := by
  have hnone := List.findSome?_eq_none_iff (p := fun p : String × Value => refusal? p.1) (l := pairs)
  simp only [refusal?_eq_none_iff] at hnone
  rw [ofList?, foldlM_set]
  cases hfound : pairs.findSome? fun p => refusal? p.1 with
  | none =>
      have hall : ∀ p ∈ pairs, Acceptable p.1 := hnone.mp hfound
      simpa using fun name v hmem => hall (name, v) hmem
  | some fault =>
      have hnot : ¬∀ p ∈ pairs, Acceptable p.1 := by
        rw [← hnone, hfound]
        simp
      simpa using hnot

/-- What is collected is what is built of the names that are accepted. -/
theorem ofList_eq_ofList? (pairs : List (String × Value)) :
    ofList? (pairs.filter fun p => Acceptable p.1) = .ok (ofList pairs) := by
  have haccept : (pairs.filter fun p => Acceptable p.1).findSome? (fun p => refusal? p.1) = none := by
    rw [List.findSome?_eq_none_iff]
    intro p hp
    exact (refusal?_eq_none_iff p.1).mpr (by simpa using (List.mem_filter.mp hp).2)
  rw [ofList?, foldlM_set, haccept]
  refine congrArg Except.ok (ext ?_)
  rw [entries_foldl_put, ofList, entries_collect]

/-! ### One operation, and all of them -/

theorem Operation.apply_eq (s : Store) (op : Operation) :
    ((op.apply s).1, (op.apply s).2.entries) = op.onList s.entries := by
  cases op with
  | set name v =>
      simp only [apply, onList, Store.set]
      cases refusal? name with
      | none => simp only [entries_put]
      | some fault => rfl
  | unset name => simp only [apply, onList, get?_eq_find?, entries_erase, valueIn]
  | clear => rfl
  | collect pairs => simp only [apply, onList, ofList, entries_collect]; rfl
  | tryCollect pairs =>
      simp only [apply, onList, ofList?, foldlM_set]
      cases pairs.findSome? fun p => refusal? p.1 with
      | none => simp only [entries_foldl_put]; rfl
      | some fault => rfl

theorem Operation.applyAll_eq (s : Store) (ops : List Operation) :
    ((applyAll s ops).1, (applyAll s ops).2.entries) = onListAll s.entries ops := by
  induction ops generalizing s with
  | nil => rfl
  | cons op rest ih =>
      have hstep := op.apply_eq s
      have hrest := ih (op.apply s).2
      rw [onListAll, ← hstep]
      dsimp only
      rw [← hrest]
      rfl

/-! ### The index -/

/-- The index leads from the key of an entry to its place, and leads nowhere else. -/
theorem lookup_index_iff (s : Store) (k : String) (i : Nat) :
    s.index.lookup k = some i ↔ ∃ e, s.entries[i]? = some e ∧ key e.1 = k := by
  rw [s.indexed.places, lookup_places]
  constructor
  · intro h
    obtain ⟨hi, hkey, -⟩ := List.findIdx?_eq_some_iff_getElem.mp h
    exact ⟨s.entries[i], List.getElem?_eq_getElem hi, by simpa using hkey⟩
  · rintro ⟨e, he, hkey⟩
    cases hfind : s.entries.findIdx? (key ·.1 == k) with
    | none =>
        have hno := List.findIdx?_eq_none_iff.mp hfind e (List.mem_of_getElem? he)
        simp [hkey] at hno
    | some j =>
        -- The two entries have one key, so they stand at one place.
        obtain ⟨hj, hfound, -⟩ := List.findIdx?_eq_some_iff_getElem.mp hfind
        have hsame : (s.entries.map fun e => key e.1)[j]? = (s.entries.map fun e => key e.1)[i]? := by
          rw [List.getElem?_map, List.getElem?_map, List.getElem?_eq_getElem hj, he]
          simpa [hkey] using hfound
        have hj' : j < (s.entries.map fun e => key e.1).length := by simpa using hj
        rw [(List.getElem?_inj hj' s.indexed.distinct).mp hsame]

theorem keys_index (s : Store) : s.index.map Prod.fst = s.entries.map fun e => key e.1 := by
  rw [s.indexed.places, map_fst_places]

theorem lt_length_of_lookup_index {s : Store} {k : String} {i : Nat}
    (h : s.index.lookup k = some i) : i < s.entries.length := by
  obtain ⟨e, he, -⟩ := (lookup_index_iff s k i).mp h
  exact (List.getElem?_eq_some_iff.mp he).1

/-- After any operations, the answers and the entries are those of the plain list, no two names have
the same small letters, the index has the place of every entry and no other, and what can be asked or
done next is what the list says. -/
theorem operations_on_list (ops : List Operation) :
    let s := (Operation.applyAll empty ops).2
    ((Operation.applyAll empty ops).1, s.entries) = Operation.onListAll [] ops ∧
      (s.entries.map fun e => Text.lowercase e.1).Nodup ∧
      (s.index.map Prod.fst).Nodup ∧
      (∀ k i, s.index.lookup k = some i ↔
        ∃ e, s.entries[i]? = some e ∧ Text.lowercase e.1 = k) ∧
      (∀ k i, s.index.lookup k = some i → i < s.entries.length) ∧
      (∀ name, s.get? name = valueIn name s.entries) ∧
      (∀ name, s.contains name = true ↔
        ∃ e ∈ s.entries, Text.lowercase e.1 = Text.lowercase name) ∧
      (∀ name v, (∃ fault, (Operation.set name v).apply s = (.error fault, s)) ↔ ¬Acceptable name) ∧
      (∀ pairs, ofList? (pairs.filter fun p => Acceptable p.1) = .ok (ofList pairs)) ∧
      ∀ pairs, (∃ fault, ofList? pairs = .error fault) ↔ ∃ p ∈ pairs, ¬Acceptable p.1 := by
  intro s
  have hkey : key = Text.lowercase := by
    funext name
    rw [key]
  rw [← hkey]
  refine ⟨Operation.applyAll_eq empty ops, s.indexed.distinct, ?_, lookup_index_iff s,
    fun _ _ => lt_length_of_lookup_index, get?_eq_find? s, ?_, ?_, ofList_eq_ofList?,
    ofList?_eq_error_iff⟩
  · rw [keys_index]
    exact s.indexed.distinct
  · intro name
    rw [contains_eq_true_iff, keys, List.mem_map]
  · intro name v
    rw [← refusal?_eq_none_iff, Operation.apply, Store.set]
    cases refusal? name <;> simp

end ActionTree.Store
