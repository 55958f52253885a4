import ActionTree.Execution.Call

/-!
# The places of arguments

Each argument of a call goes to one parameter: with a name to the first parameter of that name, without
one to the first parameter that no argument went to before it. The slots are filled exactly where every
argument finds its parameter; where all arguments have names, their order does not matter.
-/

namespace ActionTree

/-- Arguments with their names, if they have any. -/
abbrev Arguments := List (Option String × Value)

namespace Signature

variable {sig : Signature}

/-! ## Where arguments go -/

/-- The first parameter of that name, the case of the letters `A` to `Z` apart. -/
def parameter? (sig : Signature) (name : String) : Option Nat :=
  sig.parameters.findIdx? fun p => Text.sameAscii p.name name

/-- The parameter that an argument goes to, where those in `taken` have theirs. -/
inductive Takes (sig : Signature) (taken : List Nat) : Option String → Nat → Prop where
  | named {name : String} {i : Nat} :
      sig.parameter? name = some i → i ∉ taken → Takes sig taken (some name) i
  | unnamed {i : Nat} :
      i < sig.parameters.length → i ∉ taken → (∀ j < i, j ∈ taken) → Takes sig taken none i

/-- Why an argument goes nowhere. -/
inductive Refuses (sig : Signature) (taken : List Nat) : Option String → Prop where
  | unknown {name : String} : sig.parameter? name = none → Refuses sig taken (some name)
  | filled {name : String} {i : Nat} :
      sig.parameter? name = some i → i ∈ taken → Refuses sig taken (some name)
  | full : (∀ i < sig.parameters.length, i ∈ taken) → Refuses sig taken none

/-- The parameters that arguments go to, one argument after another. -/
inductive Places (sig : Signature) : List Nat → Arguments → List Nat → Prop where
  | nil (taken : List Nat) : Places sig taken [] []
  | cons {taken places : List Nat} {a : Option String × Value} {rest : Arguments} {i : Nat} :
      sig.Takes taken a.1 i → Places sig (taken ++ [i]) rest places →
      Places sig taken (a :: rest) (i :: places)

section

variable {taken places : List Nat} {name : Option String} {args : Arguments} {i : Nat}

theorem Takes.lt (h : sig.Takes taken name i) : i < sig.parameters.length := by
  cases h with
  | named hi _ => exact (List.findIdx?_eq_some_iff_getElem.mp hi).1
  | unnamed hi _ _ => exact hi

theorem Takes.free (h : sig.Takes taken name i) : i ∉ taken := by
  cases h with
  | named _ hfree => exact hfree
  | unnamed _ hfree _ => exact hfree

/-- An argument is refused exactly where it goes to no parameter. -/
theorem refuses_iff : sig.Refuses taken name ↔ ∀ i, ¬ sig.Takes taken name i := by
  constructor
  · intro h i htakes
    cases htakes with
    | named hi hfree =>
        cases h with
        | unknown hnone => exact Option.some_ne_none i (hi.symm.trans hnone)
        | filled hj htaken => exact hfree (Option.some.inj (hi.symm.trans hj) ▸ htaken)
    | unnamed hi hfree _ =>
        cases h with
        | full hall => exact hfree (hall i hi)
  · intro h
    cases name with
    | some name =>
        cases hname : sig.parameter? name with
        | none => exact .unknown hname
        | some i => exact .filled hname (Classical.not_not.mp fun hfree => h i (.named hname hfree))
    | none =>
        -- the first parameter that is free would take the argument
        refine .full fun i => ?_
        induction i using Nat.strongRecOn with
        | ind i ih =>
            intro hi
            refine Classical.not_not.mp fun hfree => h i (.unnamed hi hfree fun j hj => ?_)
            exact ih j hj (Nat.lt_trans hj hi)

theorem Places.length_eq (h : sig.Places taken args places) : places.length = args.length := by
  induction h with
  | nil => rfl
  | cons _ _ ih => rw [List.length_cons, List.length_cons, ih]

theorem Places.lt (h : sig.Places taken args places) : ∀ i ∈ places, i < sig.parameters.length := by
  induction h with
  | nil => exact List.forall_mem_nil _
  | cons htakes _ ih => exact List.forall_mem_cons.mpr ⟨htakes.lt, ih⟩

/-- No two arguments go to one parameter. -/
theorem Places.nodup (h : sig.Places taken args places) (htaken : taken.Nodup) :
    (taken ++ places).Nodup := by
  induction h with
  | nil => rwa [List.append_nil]
  | @cons taken places a rest i htakes _ ih =>
      have hnext : (taken ++ [i]).Nodup := by
        rw [List.nodup_append]
        refine ⟨htaken, List.pairwise_singleton _ i, ?_⟩
        rintro j hj _ hi rfl
        rw [List.mem_singleton] at hi
        exact htakes.free (hi ▸ hj)
      simpa using ih hnext

end

/-! ## Slots -/

/-- The value that went to a parameter. -/
def argumentAt (places : List Nat) (values : List Value) (i : Nat) : Option Value :=
  (places.zip values).lookup i

/-- The slots once values went to their places. -/
def slotsOf (sig : Signature) (places : List Nat) (values : List Value) : Slots :=
  (List.range sig.parameters.length).map (argumentAt places values)

section

variable {places : List Nat} {values : List Value} {name : Option String} {i : Nat}

theorem argumentAt_eq_none_iff (hlen : places.length = values.length) :
    argumentAt places values i = none ↔ i ∉ places := by
  have hkeys : (places.zip values).map Prod.fst = places := List.map_fst_zip (Nat.le_of_eq hlen)
  have hmem : i ∈ places ↔ ∃ p ∈ places.zip values, p.1 = i := by
    rw [← List.mem_map, hkeys]
  rw [argumentAt, List.lookup_eq_none_iff, hmem]
  simp only [bne_iff_ne, not_exists, not_and]
  exact forall₂_congr fun p hp => ne_comm

theorem argumentAt_eq_some {k : Nat} {v : Value} (hplaces : places.Nodup) (hi : places[k]? = some i)
    (hv : values[k]? = some v) : argumentAt places values i = some v := by
  induction places generalizing values k with
  | nil => cases hi
  | cons j rest ih =>
      obtain ⟨hj, hrest⟩ := List.nodup_cons.mp hplaces
      cases values with
      | nil => cases hv
      | cons w others =>
          rw [argumentAt, List.zip_cons_cons, List.lookup_cons]
          cases k with
          | zero =>
              cases hi
              cases hv
              rw [beq_self_eq_true]
          | succ k =>
              have hne : (i == j) = false := beq_false_of_ne fun h => hj (h ▸ List.mem_of_getElem? hi)
              rw [hne]
              exact ih hrest hi hv

theorem argumentAt_append (hlen : places.length = values.length) (v : Value) (j : Nat) :
    argumentAt (places ++ [i]) (values ++ [v]) j =
      (argumentAt places values j).or (if j = i then some v else none) := by
  rw [argumentAt, List.zip_append hlen, List.lookup_append]
  by_cases hji : j = i
  · simp [argumentAt, hji]
  · have hne : (j == i) = false := beq_false_of_ne hji
    simp [argumentAt, hji, List.lookup_cons, hne]

theorem getElem?_slotsOf (hi : i < sig.parameters.length) :
    (sig.slotsOf places values)[i]? = some (argumentAt places values i) := by
  simp [slotsOf, hi]

theorem slotsOf_nil : sig.slotsOf [] [] = List.replicate sig.parameters.length none := by
  rw [slotsOf, List.eq_replicate_iff]
  refine ⟨by simp, fun v hv => ?_⟩
  obtain ⟨i, _, rfl⟩ := List.mem_map.mp hv
  rfl

/-- A value that goes to a free place fills its slot. -/
theorem slotsOf_set (hlen : places.length = values.length) (hi : i ∉ places) (v : Value) :
    (sig.slotsOf places values).set i (some v) = sig.slotsOf (places ++ [i]) (values ++ [v]) := by
  apply List.ext_getElem?
  intro j
  rw [List.getElem?_set]
  by_cases hj : j < sig.parameters.length
  · rw [getElem?_slotsOf hj, getElem?_slotsOf hj, argumentAt_append hlen]
    by_cases hij : i = j
    · subst hij
      rw [(argumentAt_eq_none_iff hlen).mpr hi]
      simp [slotsOf, hj]
    · rw [if_neg hij, if_neg (Ne.symm hij), Option.or_none]
  · simp [slotsOf, hj]
    omega

theorem isSome_slotsOf_iff (hlen : places.length = values.length) (hi : i < sig.parameters.length) :
    ((sig.slotsOf places values)[i]?.getD none).isSome = true ↔ i ∈ places := by
  rw [getElem?_slotsOf hi, Option.getD_some, Option.isSome_iff_ne_none, Ne,
    argumentAt_eq_none_iff hlen, Classical.not_not]

theorem findIdx?_slotsOf (hlen : places.length = values.length) :
    (sig.slotsOf places values).findIdx? Option.isNone = some i ↔ sig.Takes places none i := by
  have hlength : (sig.slotsOf places values).length = sig.parameters.length := by simp [slotsOf]
  have hnone (j : Nat) (hj : j < (sig.slotsOf places values).length) :
      ((sig.slotsOf places values)[j].isNone = true) ↔ j ∉ places := by
    rw [← argumentAt_eq_none_iff hlen, Option.isNone_iff_eq_none]
    simp [slotsOf]
  rw [List.findIdx?_eq_some_iff_getElem]
  constructor
  · rintro ⟨hi, hfree, hbefore⟩
    refine .unnamed (hlength ▸ hi) ((hnone i hi).mp hfree) fun j hj => ?_
    have htaken := hbefore j hj
    rw [hnone j (Nat.lt_trans hj hi)] at htaken
    exact Classical.not_not.mp htaken
  · rintro ⟨⟩
    rename_i hi hfree hbefore
    refine ⟨hlength ▸ hi, (hnone i _).mpr hfree, fun j hj => ?_⟩
    rw [hnone]
    exact fun h => h (hbefore j hj)

theorem slot_named (slots : Slots) (name : String) :
    sig.slot slots (some name) =
      match sig.parameter? name with
      | none => .error (.unknownParameter sig.id name)
      | some i =>
        if (slots[i]?.getD none).isSome then .error (.parameterTaken name sig.id) else .ok i := rfl

theorem slot_unnamed (slots : Slots) :
    sig.slot slots none =
      match slots.findIdx? Option.isNone with
      | none => .error (.tooManyArguments sig.id sig.parameters.length)
      | some i => .ok i := rfl

/-- An argument goes to the parameter that takes it. -/
theorem slot_eq_ok_iff (hlen : places.length = values.length) :
    sig.slot (sig.slotsOf places values) name = .ok i ↔ sig.Takes places name i := by
  constructor
  · intro h
    cases name with
    | none =>
        rw [slot_unnamed] at h
        split at h
        · cases h
        · cases h
          exact (findIdx?_slotsOf hlen).mp ‹_›
    | some name =>
        rw [slot_named] at h
        split at h
        · cases h
        · rename_i j hj
          have hlt := (List.findIdx?_eq_some_iff_getElem.mp hj).1
          split at h
          · cases h
          · rename_i hfree
            cases h
            exact .named hj (mt (isSome_slotsOf_iff hlen hlt).mpr hfree)
  · intro h
    cases h with
    | unnamed hi hfree hbefore =>
        rw [slot_unnamed, (findIdx?_slotsOf hlen).mpr (.unnamed hi hfree hbefore)]
    | named hname hfree =>
        have hlt := (List.findIdx?_eq_some_iff_getElem.mp hname).1
        rw [slot_named, hname]
        exact if_neg (mt (isSome_slotsOf_iff hlen hlt).mp hfree)

/-- An argument finds no slot exactly where it is refused. -/
theorem slot_eq_error_iff (hlen : places.length = values.length) :
    (∃ fault, sig.slot (sig.slotsOf places values) name = .error fault) ↔ sig.Refuses places name := by
  rw [refuses_iff]
  simp only [← slot_eq_ok_iff hlen]
  cases sig.slot (sig.slotsOf places values) name <;> simp

end

/-! ## All arguments -/

section

variable {args args' : Arguments} {taken : List Nat} {values : List Value} {slots : Slots}

theorem fill_cons (slots : Slots) (a : Option String × Value) (rest : Arguments) :
    sig.fill slots (a :: rest) =
      (sig.slot slots a.1).bind fun i => sig.fill (slots.set i (some a.2)) rest := rfl

/-- The slots are filled exactly where every argument has a place. -/
theorem fill_eq_ok_iff (hlen : taken.length = values.length) :
    sig.fill (sig.slotsOf taken values) args = .ok slots ↔
      ∃ places, sig.Places taken args places ∧
        slots = sig.slotsOf (taken ++ places) (values ++ args.map Prod.snd) := by
  induction args generalizing taken values with
  | nil =>
      constructor
      · rintro ⟨⟩
        exact ⟨[], .nil taken, by simp⟩
      · rintro ⟨places, hplaces, rfl⟩
        cases hplaces
        simp [fill]
  | cons a rest ih =>
      have hnext (i : Nat) : (taken ++ [i]).length = (values ++ [a.2]).length := by simp [hlen]
      rw [fill_cons]
      constructor
      · intro h
        cases hslot : sig.slot (sig.slotsOf taken values) a.1 with
        | error fault =>
            rw [hslot] at h
            cases h
        | ok i =>
            have htakes := (slot_eq_ok_iff hlen).mp hslot
            rw [hslot, Except.bind, slotsOf_set hlen htakes.free, ih (hnext i)] at h
            obtain ⟨places, hplaces, rfl⟩ := h
            exact ⟨i :: places, .cons htakes hplaces, by simp⟩
      · rintro ⟨_, hplaces, rfl⟩
        cases hplaces with
        | @cons _ places _ _ i htakes hrest =>
            rw [(slot_eq_ok_iff hlen).mpr htakes, Except.bind, slotsOf_set hlen htakes.free, ih (hnext i)]
            exact ⟨places, hrest, by simp⟩

/-- Filling fails exactly where an argument is refused after others found their places. -/
theorem fill_eq_error_iff (hlen : taken.length = values.length) :
    (∃ fault, sig.fill (sig.slotsOf taken values) args = .error fault) ↔
      ∃ before a after places, args = before ++ a :: after ∧ sig.Places taken before places ∧
        sig.Refuses (taken ++ places) a.1 := by
  induction args generalizing taken values with
  | nil => simp [fill]
  | cons a rest ih =>
      have hnext (i : Nat) : (taken ++ [i]).length = (values ++ [a.2]).length := by simp [hlen]
      rw [fill_cons]
      constructor
      · rintro ⟨fault, h⟩
        cases hslot : sig.slot (sig.slotsOf taken values) a.1 with
        | error f =>
            have hrefuses := (slot_eq_error_iff hlen).mp ⟨f, hslot⟩
            exact ⟨[], a, rest, [], rfl, .nil taken, by simpa using hrefuses⟩
        | ok i =>
            have htakes := (slot_eq_ok_iff hlen).mp hslot
            rw [hslot, Except.bind, slotsOf_set hlen htakes.free] at h
            obtain ⟨before, b, after, places, rfl, hplaces, hrefuses⟩ := (ih (hnext i)).mp ⟨fault, h⟩
            exact ⟨a :: before, b, after, i :: places, rfl, .cons htakes hplaces, by simpa using hrefuses⟩
      · rintro ⟨before, b, after, places, hargs, hplaces, hrefuses⟩
        cases hplaces with
        | nil =>
            obtain ⟨rfl, rfl⟩ := List.cons.inj hargs
            obtain ⟨fault, hslot⟩ := (slot_eq_error_iff hlen).mpr (by simpa using hrefuses)
            exact ⟨fault, by rw [hslot]; rfl⟩
        | @cons _ places _ before i htakes hrest =>
            obtain ⟨rfl, rfl⟩ := List.cons.inj hargs
            rw [(slot_eq_ok_iff hlen).mpr htakes, Except.bind, slotsOf_set hlen htakes.free, ih (hnext i)]
            exact ⟨before, b, after, places, rfl, hrest, by simpa using hrefuses⟩

/-- An argument with a name goes to its parameter, unless that has been given one. -/
theorem toOption_fill_named (slots : Slots) (name : String) (v : Value) (rest : Arguments) :
    (sig.fill slots ((some name, v) :: rest)).toOption =
      (sig.parameter? name).bind fun i =>
        if (slots[i]?.getD none).isSome then none else (sig.fill (slots.set i (some v)) rest).toOption := by
  rw [fill_cons, slot_named]
  cases sig.parameter? name with
  | none => rfl
  | some i =>
      dsimp only [Option.bind_some]
      split <;> rfl

theorem toOption_fill_swap (hslots : slots.length = sig.parameters.length) (x y : String) (v w : Value)
    (rest : Arguments) :
    (sig.fill slots ((some x, v) :: (some y, w) :: rest)).toOption =
      (sig.fill slots ((some y, w) :: (some x, v) :: rest)).toOption := by
  simp only [toOption_fill_named]
  cases hx : sig.parameter? x with
  | none => cases sig.parameter? y <;> simp
  | some i =>
      cases hy : sig.parameter? y with
      | none => simp
      | some j =>
          have hi : i < slots.length := hslots ▸ (List.findIdx?_eq_some_iff_getElem.mp hx).1
          by_cases hij : i = j
          · subst hij
            simp [hi]
          · rw [Option.bind_some, Option.bind_some, Option.bind_some, Option.bind_some,
              List.getElem?_set_ne hij, List.getElem?_set_ne (Ne.symm hij), List.set_comm _ _ hij]
            split <;> split <;> rfl

/-- Arguments that all have names may come in any order. -/
theorem toOption_fill_perm (h : args.Perm args') (named : ∀ a ∈ args, a.1 ≠ none)
    (hslots : slots.length = sig.parameters.length) :
    (sig.fill slots args).toOption = (sig.fill slots args').toOption := by
  induction h generalizing slots with
  | nil => rfl
  | @cons a rest rest' _ ih =>
      obtain ⟨ha, hrest⟩ := List.forall_mem_cons.mp named
      obtain ⟨_ | name, v⟩ := a
      · exact absurd rfl ha
      · rw [toOption_fill_named, toOption_fill_named]
        refine Option.bind_congr fun i _ => ?_
        rw [ih hrest (by rwa [List.length_set])]
  | swap a b rest =>
      obtain ⟨hb, hrest⟩ := List.forall_mem_cons.mp named
      obtain ⟨ha, -⟩ := List.forall_mem_cons.mp hrest
      obtain ⟨_ | x, v⟩ := a
      · exact absurd rfl ha
      obtain ⟨_ | y, w⟩ := b
      · exact absurd rfl hb
      exact toOption_fill_swap hslots y x w v rest
  | trans h₁ _ ih₁ ih₂ =>
      exact (ih₁ named hslots).trans (ih₂ (fun a ha => named a (h₁.mem_iff.mpr ha)) hslots)

end

end Signature

end ActionTree
