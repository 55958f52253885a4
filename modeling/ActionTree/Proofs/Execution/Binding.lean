import ActionTree.Proofs.Execution.Arguments
import ActionTree.Proofs.Run

/-!
# Arguments and parameters

Once every argument has its parameter, those that are left take their defaults. Binding succeeds exactly
where every argument finds its parameter and every parameter can be settled, and then nothing is lost and
nothing is bound twice.
-/

namespace ActionTree

namespace Signature

variable {sig : Signature}

/-! ## All parameters -/

/-- What a parameter is settled with: the argument that went to it, else the value of its default. -/
inductive Settles (n : Nat) (p : Parameter) :
    Option Value → Session → Option Value → Session → Prop where
  | given (v : Value) (s : Session) : Settles n p (some v) s (some v) s
  | expanded {text : String} {v : Value} {s t : Session} :
      p.default = some text → Session.expand n text s = some (.ok v, t) →
      Settles n p none s (some v) t
  | unbound (s : Session) : p.default = none → p.required = false → Settles n p none s none s

/-- Why a parameter cannot be settled. -/
inductive Unsettled (n : Nat) (p : Parameter) : Option Value → Session → Prop where
  | default {text : String} {e : ScriptError} {s t : Session} :
      p.default = some text → Session.expand n text s = some (.error e, t) → Unsettled n p none s
  | missing (s : Session) : p.default = none → p.required = true → Unsettled n p none s

/-- All parameters are settled in order, each in the session that the ones before it left. -/
inductive Completes (n : Nat) :
    List (Parameter × Option Value) → Session → List (Option Value) → Session → Prop where
  | nil (s : Session) : Completes n [] s [] s
  | cons {p : Parameter} {given v : Option Value} {rest : List (Parameter × Option Value)}
      {values : List (Option Value)} {s t u : Session} :
      Settles n p given s v t → Completes n rest t values u →
      Completes n ((p, given) :: rest) s (v :: values) u

/-- The parameters that have a value, with it. -/
def boundTo (parameters : List Parameter) (values : List (Option Value)) : List (String × Value) :=
  (parameters.zip values).filterMap fun p => p.2.map (p.1.name, ·)

/-- Settles one parameter. -/
def settle (n : Nat) (sig : Signature) (p : Parameter) (given : Option Value) :
    Run Session (Option Value) :=
  match given, p.default with
  | some v, _ => pure (some v)
  | none, some text => some <$> Session.expand n text
  | none, none => if p.required then Run.failWith (.missingParameter p.name sig.id) else pure none

section

variable {n : Nat} {p : Parameter} {given v : Option Value} {ps : List (Parameter × Option Value)}
  {s t : Session}

theorem settle_default {text : String} (h : p.default = some text) :
    settle n sig p none = some <$> Session.expand n text := by
  rw [settle.eq_def, h]

theorem settle_bare (h : p.default = none) :
    settle n sig p none =
      if p.required then Run.failWith (.missingParameter p.name sig.id) else pure none := by
  rw [settle.eq_def, h]

theorem complete_cons (p : Parameter) (given : Option Value) (rest : List (Parameter × Option Value)) :
    complete n sig ((p, given) :: rest) = settle n sig p given >>= fun v =>
      complete n sig rest >>= fun others =>
        match v with
        | some v => pure ((p.name, v) :: others)
        | none => pure others := by
  conv =>
    lhs
    unfold complete
  cases given with
  | some v => rfl
  | none =>
      cases hdefault : p.default with
      | some text => exact (congrArg (· >>= _) (settle_default hdefault)).symm
      | none =>
          rw [settle_bare hdefault]
          dsimp only
          split
          · rfl
          · rfl

theorem settle_eq_ok_iff : settle n sig p given s = some (.ok v, t) ↔ Settles n p given s v t := by
  constructor
  · intro h
    cases given with
    | some w =>
        cases h
        exact .given w s
    | none =>
        cases hdefault : p.default with
        | some text =>
            rw [settle_default hdefault, map_eq_pure_bind] at h
            rcases Run.bind_inv h with ⟨w, u, hw, hpure⟩ | ⟨_, _, he⟩
            · cases hpure
              exact .expanded hdefault hw
            · cases he
        | none =>
            rw [settle_bare hdefault] at h
            split at h
            · cases h
            · rename_i hrequired
              cases h
              exact .unbound s hdefault (Bool.eq_false_iff.mpr hrequired)
  · intro h
    cases h with
    | given v => rfl
    | expanded hdefault hw =>
        rw [settle_default hdefault, map_eq_pure_bind, Run.bind_of_ok _ hw]
        rfl
    | unbound _ hdefault hrequired =>
        rw [settle_bare hdefault, hrequired]
        rfl

theorem settle_eq_error_iff :
    (∃ e t, settle n sig p given s = some (.error e, t)) ↔ Unsettled n p given s := by
  constructor
  · rintro ⟨e, t, h⟩
    cases given with
    | some w => cases h
    | none =>
        cases hdefault : p.default with
        | some text =>
            rw [settle_default hdefault, map_eq_pure_bind] at h
            rcases Run.bind_inv h with ⟨_, _, _, hpure⟩ | ⟨_, hw, _⟩
            · cases hpure
            · exact .default hdefault hw
        | none =>
            rw [settle_bare hdefault] at h
            split at h
            · exact .missing s hdefault ‹_›
            · cases h
  · intro h
    cases h with
    | @default text e _ t hdefault hw =>
        rw [settle_default hdefault, map_eq_pure_bind]
        exact ⟨e, t, Run.bind_of_error _ hw⟩
    | missing _ hdefault hrequired =>
        rw [settle_bare hdefault, hrequired]
        exact ⟨_, s, rfl⟩

theorem boundTo_cons (p : Parameter) (parameters : List Parameter) (v : Option Value)
    (values : List (Option Value)) :
    boundTo (p :: parameters) (v :: values) =
      match v with
      | some v => (p.name, v) :: boundTo parameters values
      | none => boundTo parameters values := by
  cases v <;> rfl

theorem complete_eq_ok_iff {bound : List (String × Value)} :
    complete n sig ps s = some (.ok bound, t) ↔
      ∃ values, Completes n ps s values t ∧ bound = boundTo (ps.map Prod.fst) values := by
  induction ps generalizing s bound with
  | nil =>
      constructor
      · rintro ⟨⟩
        exact ⟨[], .nil t, rfl⟩
      · rintro ⟨values, hcompletes, rfl⟩
        cases hcompletes
        rfl
  | cons p rest ih =>
      obtain ⟨p, given⟩ := p
      rw [complete_cons]
      constructor
      · intro h
        rcases Run.bind_inv h with ⟨v, u, hv, h⟩ | ⟨_, _, he⟩
        · rcases Run.bind_inv h with ⟨others, w, hothers, hpure⟩ | ⟨_, _, he⟩
          · have hsettles := settle_eq_ok_iff.mp hv
            cases v with
            | none =>
                cases hpure
                obtain ⟨values, hcompletes, rfl⟩ := ih.mp hothers
                exact ⟨none :: values, .cons hsettles hcompletes, rfl⟩
            | some v =>
                cases hpure
                obtain ⟨values, hcompletes, rfl⟩ := ih.mp hothers
                exact ⟨some v :: values, .cons hsettles hcompletes, rfl⟩
          · cases he
        · cases he
      · rintro ⟨_, hcompletes, rfl⟩
        cases hcompletes with
        | @cons _ _ v _ values _ u _ hv hrest =>
            rw [Run.bind_of_ok _ (settle_eq_ok_iff.mpr hv), Run.bind_of_ok _ (ih.mpr ⟨values, hrest, rfl⟩),
              List.map_cons, boundTo_cons]
            cases v <;> rfl

theorem complete_eq_error_iff :
    (∃ e t, complete n sig ps s = some (.error e, t)) ↔
      ∃ before p given after values u, ps = before ++ (p, given) :: after ∧
        Completes n before s values u ∧ Unsettled n p given u := by
  induction ps generalizing s with
  | nil =>
      constructor
      · rintro ⟨e, t, h⟩
        cases h
      · rintro ⟨before, _, _, _, _, _, h, _⟩
        simp at h
  | cons p rest ih =>
      obtain ⟨p, given⟩ := p
      rw [complete_cons]
      constructor
      · rintro ⟨e, t, h⟩
        rcases Run.bind_inv h with ⟨v, u, hv, h⟩ | ⟨e', he', _⟩
        · rcases Run.bind_inv h with ⟨others, w, _, hpure⟩ | ⟨e', he', _⟩
          · cases v <;> cases hpure
          · obtain ⟨before, q, g, after, values, w, rfl, hbefore, hq⟩ := ih.mp ⟨e', t, he'⟩
            exact ⟨(p, given) :: before, q, g, after, v :: values, w, rfl,
              .cons (settle_eq_ok_iff.mp hv) hbefore, hq⟩
        · exact ⟨[], p, given, rest, [], _, rfl, .nil _, settle_eq_error_iff.mp ⟨e', t, he'⟩⟩
      · rintro ⟨before, q, g, after, values, u, hps, hbefore, hq⟩
        cases hbefore with
        | nil =>
            obtain ⟨⟨⟩, rfl⟩ := List.cons.inj hps
            obtain ⟨e, t, he⟩ : ∃ e t, settle n sig p given s = some (.error e, t) :=
              settle_eq_error_iff.mpr hq
            exact ⟨e, t, Run.bind_of_error _ he⟩
        | cons hv hrest =>
            obtain ⟨⟨⟩, rfl⟩ := List.cons.inj hps
            obtain ⟨e, t, he⟩ := ih.mpr ⟨_, q, g, after, _, u, rfl, hrest, hq⟩
            rw [Run.bind_of_ok _ (settle_eq_ok_iff.mpr hv)]
            exact ⟨e, t, Run.bind_of_error _ he⟩

theorem boundTo_sublist (parameters : List Parameter) (values : List (Option Value)) :
    ((boundTo parameters values).map Prod.fst).Sublist (parameters.map Parameter.name) := by
  induction parameters generalizing values with
  | nil => exact List.nil_sublist _
  | cons p rest ih =>
      cases values with
      | nil => exact List.nil_sublist _
      | cons v values =>
          rw [boundTo_cons]
          cases v with
          | none => exact (ih values).cons _
          | some v => exact (ih values).cons_cons _

/-- What each parameter was settled with, and from which session. -/
theorem Completes.getElem? {values : List (Option Value)} (h : Completes n ps s values t) {i : Nat}
    (hi : ps[i]? = some (p, given)) :
    ∃ v u u', values[i]? = some v ∧ Settles n p given u v u' := by
  induction h generalizing i with
  | nil => cases hi
  | @cons _ _ v _ _ s t _ hsettles _ ih =>
      cases i with
      | zero =>
          cases hi
          exact ⟨v, s, t, rfl, hsettles⟩
      | succ i => exact ih hi

end

/-! ## Binding -/

/-- The parameters, each with the argument that went to it. -/
def withArguments (sig : Signature) (places : List Nat) (args : Arguments) :
    List (Parameter × Option Value) :=
  sig.parameters.zip (sig.slotsOf places (args.map Prod.snd))

/-- How arguments are bound: `places` has the parameter of each argument, and `values` what each parameter
is settled with. -/
structure Binding (n : Nat) (sig : Signature) (args : Arguments) (s : Session) (places : List Nat)
    (values : List (Option Value)) (bound : List (String × Value)) (t : Session) : Prop where
  placed : sig.Places [] args places
  completed : Completes n (sig.withArguments places args) s values t
  eq_boundTo : bound = boundTo sig.parameters values
  /-- The names that are bound are parameters in the order of their declaration. -/
  ordered : (bound.map Prod.fst).Sublist (sig.parameters.map Parameter.name)
  /-- Every argument has a parameter of its own. -/
  once : places.Nodup ∧ places.length = args.length ∧ ∀ i ∈ places, i < sig.parameters.length
  /-- The parameter of an argument has its value. -/
  given : ∀ (k i : Nat) (a : Option String × Value), places[k]? = some i → args[k]? = some a →
    values[i]? = some (some a.2)
  /-- Every other parameter that is bound has the value of its default. -/
  expanded : ∀ (i : Nat) (p : Parameter) (v : Value), sig.parameters[i]? = some p → i ∉ places →
    values[i]? = some (some v) →
      ∃ text u u', p.default = some text ∧ Session.expand n text u = some (.ok v, u')
  required : ∀ (i : Nat) (p : Parameter), sig.parameters[i]? = some p → p.required = true →
    ∃ v, values[i]? = some (some v)

section

variable {n : Nat} {args args' : Arguments} {s t : Session} {places : List Nat}
  {values : List (Option Value)} {bound : List (String × Value)}

theorem getElem?_withArguments (places : List Nat) (args : Arguments) {i : Nat} {p : Parameter}
    (hp : sig.parameters[i]? = some p) :
    (sig.withArguments places args)[i]? = some (p, argumentAt places (args.map Prod.snd) i) := by
  have hi := (List.getElem?_eq_some_iff.mp hp).1
  rw [withArguments, List.getElem?_zip_eq_some]
  exact ⟨hp, getElem?_slotsOf hi⟩

theorem binding_of_completes (hplaces : sig.Places [] args places)
    (hcompletes : Completes n (sig.withArguments places args) s values t) :
    Binding n sig args s places values (boundTo sig.parameters values) t where
  placed := hplaces
  completed := hcompletes
  eq_boundTo := rfl
  ordered := boundTo_sublist _ _
  once := ⟨by simpa using hplaces.nodup List.nodup_nil, hplaces.length_eq, hplaces.lt⟩
  given := by
    intro k i a hi ha
    have hlt := hplaces.lt i (List.mem_of_getElem? hi)
    have hp := getElem?_withArguments places args (List.getElem?_eq_getElem hlt)
    have hnodup : places.Nodup := by simpa using hplaces.nodup List.nodup_nil
    rw [argumentAt_eq_some hnodup hi (by rw [List.getElem?_map, ha]; rfl)] at hp
    obtain ⟨v, u, u', hv, hsettles⟩ := hcompletes.getElem? hp
    cases hsettles
    exact hv
  expanded := by
    intro i p v hp hi hv
    have hlen : places.length = (args.map Prod.snd).length := by simpa using hplaces.length_eq
    have hw := getElem?_withArguments places args hp
    rw [(argumentAt_eq_none_iff hlen).mpr hi] at hw
    obtain ⟨w, u, u', hw, hsettles⟩ := hcompletes.getElem? hw
    rw [hv] at hw
    cases hw
    cases hsettles with
    | expanded hdefault hexpand => exact ⟨_, u, u', hdefault, hexpand⟩
  required := by
    intro i p hp hrequired
    obtain ⟨v, u, u', hv, hsettles⟩ :=
      hcompletes.getElem? (getElem?_withArguments places args hp)
    generalize argumentAt places (args.map Prod.snd) i = given at hsettles
    cases hsettles with
    | given v _ => exact ⟨v, hv⟩
    | expanded _ _ => exact ⟨_, hv⟩
    | unbound _ _ hnot =>
        rw [hrequired] at hnot
        cases hnot

theorem bind_of_fill_ok {slots : Slots}
    (h : sig.fill (List.replicate sig.parameters.length none) args = .ok slots) :
    sig.bind n args s = sig.complete n (sig.parameters.zip slots) s := by
  unfold bind
  rw [h]
  rfl

theorem bind_of_fill_error {fault : RuntimeFault}
    (h : sig.fill (List.replicate sig.parameters.length none) args = .error fault) :
    sig.bind n args s = some (.error (.runtime fault), s) := by
  unfold bind
  rw [h]
  rfl

theorem fill_start_eq_ok_iff {slots : Slots} :
    sig.fill (List.replicate sig.parameters.length none) args = .ok slots ↔
      ∃ places, sig.Places [] args places ∧ slots = sig.slotsOf places (args.map Prod.snd) := by
  rw [← slotsOf_nil, fill_eq_ok_iff rfl]
  rfl

theorem map_fst_withArguments : (sig.withArguments places args).map Prod.fst = sig.parameters := by
  rw [withArguments, List.map_fst_zip]
  simp [slotsOf]

theorem bind_eq_ok_iff :
    sig.bind n args s = some (.ok bound, t) ↔ ∃ places values, Binding n sig args s places values bound t := by
  constructor
  · intro h
    cases hfill : sig.fill (List.replicate sig.parameters.length none) args with
    | error fault =>
        rw [bind_of_fill_error hfill] at h
        cases h
    | ok slots =>
        obtain ⟨places, hplaces, rfl⟩ := fill_start_eq_ok_iff.mp hfill
        rw [bind_of_fill_ok hfill] at h
        obtain ⟨values, hcompletes, rfl⟩ := complete_eq_ok_iff.mp h
        change Completes n (sig.withArguments places args) s values t at hcompletes
        change ∃ places values, Binding n sig args s places values
          (boundTo ((sig.withArguments _ args).map Prod.fst) _) t
        rw [map_fst_withArguments]
        exact ⟨places, values, binding_of_completes hplaces hcompletes⟩
  · rintro ⟨places, values, hbinding⟩
    rw [bind_of_fill_ok (fill_start_eq_ok_iff.mpr ⟨places, hbinding.placed, rfl⟩)]
    refine complete_eq_ok_iff.mpr ⟨values, hbinding.completed, ?_⟩
    change bound = boundTo ((sig.withArguments places args).map Prod.fst) values
    rw [map_fst_withArguments, hbinding.eq_boundTo]

theorem bind_eq_error_iff :
    (∃ e t, sig.bind n args s = some (.error e, t)) ↔
      (∃ before a after places, args = before ++ a :: after ∧ sig.Places [] before places ∧
        sig.Refuses places a.1) ∨
      ∃ places, sig.Places [] args places ∧ ∃ before p given after values u,
        sig.withArguments places args = before ++ (p, given) :: after ∧
          Completes n before s values u ∧ Unsettled n p given u := by
  have hrefused : (∃ fault, sig.fill (sig.slotsOf [] []) args = .error fault) ↔ _ := fill_eq_error_iff rfl
  rw [slotsOf_nil] at hrefused
  cases hfill : sig.fill (List.replicate sig.parameters.length none) args with
  | error fault =>
      refine iff_of_true ⟨_, s, bind_of_fill_error hfill⟩ (.inl ?_)
      simpa using hrefused.mp ⟨fault, hfill⟩
  | ok slots =>
      obtain ⟨places, hplaces, rfl⟩ := fill_start_eq_ok_iff.mp hfill
      rw [bind_of_fill_ok hfill, complete_eq_error_iff]
      constructor
      · exact fun h => .inr ⟨places, hplaces, h⟩
      · rintro (h | ⟨places', hplaces', h⟩)
        · obtain ⟨fault, hfault⟩ := hrefused.mpr (by simpa using h)
          rw [hfill] at hfault
          cases hfault
        · have hsame := fill_start_eq_ok_iff.mpr ⟨places', hplaces', rfl⟩
          rw [hfill] at hsame
          rw [Except.ok.inj hsame]
          exact h

/-- Arguments that all have names are bound alike in every order. -/
theorem bind_perm (h : args.Perm args') (named : ∀ a ∈ args, a.1 ≠ none) :
    (∀ bound t, sig.bind n args s = some (.ok bound, t) ↔ sig.bind n args' s = some (.ok bound, t)) ∧
      ((∃ e t, sig.bind n args s = some (.error e, t)) ↔
        ∃ e t, sig.bind n args' s = some (.error e, t)) := by
  have hfill : (sig.fill (List.replicate sig.parameters.length none) args).toOption =
      (sig.fill (List.replicate sig.parameters.length none) args').toOption :=
    toOption_fill_perm h named List.length_replicate
  cases hleft : sig.fill (List.replicate sig.parameters.length none) args with
  | ok slots =>
      rw [hleft] at hfill
      cases hright : sig.fill (List.replicate sig.parameters.length none) args' with
      | ok slots' =>
          rw [hright] at hfill
          cases hfill
          rw [bind_of_fill_ok hleft, bind_of_fill_ok hright]
          exact ⟨fun _ _ => Iff.rfl, Iff.rfl⟩
      | error fault =>
          rw [hright] at hfill
          cases hfill
  | error fault =>
      rw [hleft] at hfill
      cases hright : sig.fill (List.replicate sig.parameters.length none) args' with
      | ok slots' =>
          rw [hright] at hfill
          cases hfill
      | error fault' =>
          rw [bind_of_fill_error hleft, bind_of_fill_error hright]
          refine ⟨fun bound t => iff_of_false ?_ ?_, iff_of_true ⟨_, _, rfl⟩ ⟨_, _, rfl⟩⟩
          · rintro ⟨⟩
          · rintro ⟨⟩

end

/-- Arguments are bound exactly if each of them finds a parameter of its own and all other parameters can be
settled, and binding fails exactly if an argument is refused or a parameter stays unsettled. Arguments that
all have names may come in any order. -/
theorem arguments_bound_once (n : Nat) (sig : Signature) (args : Arguments) (s : Session) :
    (∀ bound t, sig.bind n args s = some (.ok bound, t) ↔
      ∃ places values, Binding n sig args s places values bound t) ∧
    ((∃ e t, sig.bind n args s = some (.error e, t)) ↔
      (∃ before a after places, args = before ++ a :: after ∧ sig.Places [] before places ∧
        sig.Refuses places a.1) ∨
      ∃ places, sig.Places [] args places ∧ ∃ before p given after values u,
        sig.withArguments places args = before ++ (p, given) :: after ∧
          Completes n before s values u ∧ Unsettled n p given u) ∧
    ∀ args' : Arguments, args.Perm args' → (∀ a ∈ args, a.1 ≠ none) →
      (∀ bound t, sig.bind n args s = some (.ok bound, t) ↔ sig.bind n args' s = some (.ok bound, t)) ∧
        ((∃ e t, sig.bind n args s = some (.error e, t)) ↔
          ∃ e t, sig.bind n args' s = some (.error e, t)) := by
  exact ⟨fun _ _ => bind_eq_ok_iff, bind_eq_error_iff, fun args' h named => bind_perm h named⟩

/-- A sub with a required parameter, one with a default, and one that may be missing. -/
def greet : Signature where
  id := "greet"
  parameters := [⟨"name", none, true⟩, ⟨"greeting", some "Hello", false⟩, ⟨"extra", none, false⟩]

theorem greet_arguments_bound :
    ∃ places values, Binding 0 greet [(some "EXTRA", .str "!"), (none, .str "Ann")]
      (Session.start {} {}) places values
      [("name", .str "Ann"), ("greeting", .str "Hello"), ("extra", .str "!")] (Session.start {} {}) :=
  ((arguments_bound_once 0 greet _ _).1 _ _).mp rfl

end Signature

end ActionTree
