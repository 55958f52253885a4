import ActionTree.Proofs.Execution.Course

/-!
# What is kept along the course of execution

Something that holds of the frames, and a bound on what is asked and what is called, are kept moment by
moment if each piece of work keeps them. In particular all that is asked is asked by a node of the tree
or of an open frame.
-/

namespace ActionTree

/-! ## Nodes that can come to run -/

namespace Action

/-- The node and all below it are such. -/
inductive Everywhere (p : Action → Prop) : Action → Prop where
  | node {a : Action} : p a → (∀ c ∈ a.children, Everywhere p c) → Everywhere p a

variable {p : Action → Prop} {a b : Action}

theorem Everywhere.self (h : a.Everywhere p) : p a := by
  cases h with
  | node h _ => exact h

theorem Everywhere.child (h : a.Everywhere p) (hb : b ∈ a.children) : b.Everywhere p := by
  cases h with
  | node _ h => exact h b hb

theorem Everywhere.mono {q : Action → Prop} (hpq : ∀ a, p a → q a) (h : a.Everywhere p) :
    a.Everywhere q := by
  induction h with
  | node h _ ih => exact .node (hpq _ h) ih

theorem everywhere_levels {seen : List Nat} {queue : List Action} (h : ∀ a ∈ queue, a.Everywhere p)
    {a : Action} (ha : a ∈ levels seen queue) : a.Everywhere p := by
  fun_induction levels seen queue with
  | case1 => cases ha
  | case2 seen first rest _ ih => exact ih (fun a ha => h a (by simp [ha])) ha
  | case3 seen first rest _ ih =>
      have hfirst := h first (by simp)
      rcases List.mem_cons.mp ha with rfl | ha
      · exact hfirst
      · refine ih (fun a ha => ?_) ha
        rcases List.mem_append.mp ha with ha | ha
        · exact h a (by simp [ha])
        · exact hfirst.child ha

end Action

/-- The actions of the frames, and all below them, are such. -/
def CallStack.Everywhere (p : Action → Prop) (stack : CallStack) : Prop :=
  ∀ f ∈ stack, f.action.Everywhere p

namespace CallStack.Everywhere

variable {p : Action → Prop} {stack : CallStack}

theorem push (h : stack.Everywhere p) (phase : Phase) {a : Action} (ha : a.Everywhere p) :
    (stack.push phase a).Everywhere p := by
  intro f hf
  rcases List.mem_cons.mp hf with rfl | hf
  · exact ha
  · exact h f hf

theorem setPhase (h : stack.Everywhere p) (phase : Phase) : (stack.setPhase phase).Everywhere p := by
  cases stack with
  | nil => exact h
  | cons f rest =>
      intro g hg
      rcases List.mem_cons.mp hg with rfl | hg
      · exact h f (by simp)
      · exact h g (by simp [hg])

/-- What is found from the frames stands at a frame or below one. -/
theorem of_nearest (h : stack.Everywhere p) {id : String} {accept : Action → Bool} {a : Action}
    (ha : stack.nearest? id accept = some a) : a.Everywhere p := by
  rcases Option.or_eq_some_iff.mp ha with ha | ⟨_, ha⟩
  · obtain ⟨f, hf, ha⟩ := List.mem_flatMap.mp (List.mem_of_find?_eq_some ha)
    rcases List.mem_cons.mp ha with rfl | ha
    · exact h f hf
    · exact (h f hf).child ha
  · obtain ⟨root, hroot, ha⟩ := Option.bind_eq_some_iff.mp ha
    refine Action.everywhere_levels (fun b hb => ?_) (List.mem_of_find?_eq_some ha)
    rw [List.mem_singleton.mp hb]
    exact h root (List.mem_of_getLast? hroot)

end CallStack.Everywhere

/-! ## What can happen in the course of work -/

/-- What is watched: something that holds of the frames, whatever their phases, and the events that are
allowed. -/
structure Watch where
  frames : CallStack → Prop
  events : Event → Prop
  frames_setPhase {stack : CallStack} (phase : Phase) : frames stack → frames (stack.setPhase phase)
  step : events .step

namespace Watch

variable {W : Watch} {α β : Type}

/-- Work that begins with such frames has such frames and allowed events all along. -/
def Covers (W : Watch) (w : Work α) : Prop :=
  ∀ ⦃s e u⦄, W.frames s.stack → w.Meets s e u → W.frames u.stack ∧ W.events e

theorem covers_step {x : Run Session α} {steady : x.Steady} : W.Covers (.step x steady) := by
  rintro s e u hs ⟨rfl, rfl⟩
  exact ⟨hs, W.step⟩

theorem covers_pure (a : α) : W.Covers (pure a) := covers_step

theorem covers_inquire {q : Inquiry α} (hq : W.events (.inquiry q)) : W.Covers (.inquire q) := by
  rintro s e u hs ⟨rfl, rfl⟩
  exact ⟨hs, hq⟩

theorem covers_call {c : Call} (hc : W.events (.call c)) : W.Covers (.call c) := by
  rintro s e u hs ⟨rfl, rfl⟩
  exact ⟨hs, hc⟩

theorem covers_bind {x : Work α} {f : α → Work β} (hx : W.Covers x) (hf : ∀ a, W.Covers (f a)) :
    W.Covers (x >>= f) := by
  rintro s e u hs (h | ⟨a, t, hends, h⟩)
  · exact hx hs h
  · exact hf a (hends.sameFrames.1.symm ▸ hs) h

/-- What is done with a look at the session may depend on the frames. -/
theorem covers_read {f : Session → Work β} (hf : ∀ s, W.frames s.stack → W.Covers (f s)) :
    W.Covers (Work.read >>= f) := by
  rintro s e u hs (h | ⟨a, t, hends, h⟩)
  · exact covers_step hs h
  · cases Work.ends_step_iff.mp hends
    exact hf s hs hs h

theorem covers_settle {x : Work α} (hx : W.Covers x) : W.Covers (.settle x) :=
  fun _ _ _ hs h => hx hs h

/-- Only a frame changes more than the phases of the frames. -/
theorem covers_within {scope : Scope} {x : Work α}
    (hframe : ∀ phase a, scope = .frame phase a →
      ∀ stack, W.frames stack → W.frames (stack.push phase a)) (hx : W.Covers x) :
    W.Covers (.within scope x) := by
  rintro s e u hs ⟨t, henter, h⟩
  refine hx ?_ h
  cases scope with
  | frame phase a =>
      dsimp only [Scope.enter] at henter
      split at henter
      · cases henter
      · cases henter
        exact hframe phase a rfl _ hs
  | rephased phase =>
      cases henter
      exact W.frames_setPhase phase hs
  | overlaid overlay namePrefix =>
      dsimp only [Scope.enter] at henter
      split at henter
      · cases henter
        exact hs
      · cases henter
  | onVariables vars | handling caught =>
      cases henter
      exact hs

theorem covers_frame {x : Work α} {phase : Phase} {a : Action}
    (hframe : ∀ stack, W.frames stack → W.frames (stack.push phase a)) (hx : W.Covers x) :
    W.Covers (.within (.frame phase a) x) := by
  refine covers_within ?_ hx
  rintro _ _ ⟨⟩
  exact hframe

theorem covers_expand {text : String} (h : W.events (.inquiry (.transform .standard text))) :
    W.Covers (Work.expand text) := covers_inquire h

theorem covers_runAll {items : List Action} (h : ∀ a ∈ items, W.events (.call (.action a))) :
    W.Covers (Work.runAll items) := by
  induction items with
  | nil => exact covers_pure _
  | cons a rest ih =>
      refine covers_bind (covers_call (h a (by simp))) fun outcome => ?_
      cases outcome with
      | some signal => exact covers_pure _
      | none => exact ih fun a ha => h a (by simp [ha])

theorem covers_sections {s : SectionsOf Action} (h : ∀ a ∈ s.all, W.events (.call (.action a))) :
    W.Covers (Work.sections s) := by
  obtain ⟨items, attempt, handlers, cleanup⟩ := s
  simp only [SectionsOf.all, List.mem_append] at h
  have hattempted : W.Covers (Work.attempted ⟨items, attempt, handlers, cleanup⟩) := by
    cases attempt with
    | none => exact covers_pure _
    | some tried =>
        refine covers_bind (covers_settle (covers_runAll fun a ha => h a (by simp [ha]))) fun r => ?_
        cases r with
        | ok outcome => exact covers_pure _
        | error e =>
            unfold Work.handle
            dsimp only
            split
            · rename_i caught fault
              refine covers_bind covers_step fun identity => covers_within (by simp) ?_
              exact covers_runAll fun a ha => h a (by simp [ha])
            · exact covers_step
  refine covers_bind (covers_runAll fun a ha => h a (by simp [ha])) fun outcome => ?_
  cases outcome with
  | some signal => exact covers_pure _
  | none =>
      cases cleanup with
      | none => exact hattempted
      | some last =>
          refine covers_bind (covers_settle hattempted) fun resolved => ?_
          refine covers_bind (covers_runAll fun a ha => h a (by simp [ha])) fun outcome => ?_
          cases outcome with
          | none => exact covers_step
          | some signal => exact covers_pure _

theorem covers_probe {text : String} {p : Probe} (hevaluate : p = .holds → W.events (.inquiry (.evaluate text)))
    (hexpand : p ≠ .holds → W.events (.inquiry (.transform .standard text)))
    (hset : ∀ name, W.events (.inquiry (.isSet name))) : W.Covers (Work.probe text p) := by
  cases p with
  | isSet => exact covers_bind (covers_expand (hexpand nofun)) fun v => covers_inquire (hset _)
  | isNotSet =>
      exact covers_bind (covers_expand (hexpand nofun)) fun v =>
        covers_bind (covers_inquire (hset _)) fun _ => covers_pure _
  | holds => exact covers_bind (covers_inquire (hevaluate rfl)) fun _ => covers_pure _
  | _ => exact covers_bind (covers_expand (hexpand nofun)) fun v => covers_step

theorem covers_test {c : Condition}
    (hevaluate : ∀ p ∈ c.probes, p.1 = .holds → W.events (.inquiry (.evaluate p.2)))
    (hexpand : ∀ p ∈ c.probes, p.1 ≠ .holds → W.events (.inquiry (.transform .standard p.2)))
    (hset : c.probes ≠ [] → ∀ name, W.events (.inquiry (.isSet name))) : W.Covers (Work.test c) := by
  unfold Work.test
  generalize (c.all || c.probes.isEmpty) = undecided
  generalize c.probes = probes at hevaluate hexpand hset
  induction probes with
  | nil => exact covers_pure _
  | cons p rest ih =>
      have hset' := hset (List.cons_ne_nil p rest)
      have hprobe : W.Covers (Work.probe p.2 p.1) :=
        covers_probe (hevaluate p (by simp)) (hexpand p (by simp)) hset'
      refine covers_bind hprobe fun hit => ?_
      split
      · exact ih (fun q hq => hevaluate q (by simp [hq])) (fun q hq => hexpand q (by simp [hq]))
          fun _ => hset'
      · exact covers_pure _

theorem covers_rows {head : LoopHead}
    (hexpand : ∀ text, head.source = .value text → W.events (.inquiry (.transform .standard text))) :
    W.Covers (Work.rows head) := by
  unfold Work.rows
  split
  · refine covers_read fun s hs => ?_
    split <;> exact covers_step
  · rename_i text hsource
    exact covers_bind (covers_expand (hexpand text hsource)) fun v => covers_pure _

theorem covers_forRows {body : List Action} (h : ∀ a ∈ body, W.events (.call (.action a)))
    (namePrefix : String) (rows : List Row) : W.Covers (Work.forRows namePrefix body rows) := by
  induction rows with
  | nil => exact covers_pure _
  | cons row rest ih =>
      refine covers_bind (covers_within (by simp) (covers_runAll h)) fun outcome => ?_
      rcases outcome with _ | _ | v
      · exact ih
      · exact covers_pure _
      · exact covers_pure _

theorem covers_arguments {args : List Argument}
    (h : ∀ a ∈ args, W.events (.inquiry (.transform .standard a.value))) :
    W.Covers (Work.arguments args) := by
  induction args with
  | nil => exact covers_pure _
  | cons a rest ih =>
      refine covers_bind (covers_expand (h a (by simp))) fun v => ?_
      exact covers_bind (ih fun a ha => h a (by simp [ha])) fun _ => covers_pure _

theorem covers_complete {sig : Signature} {slots : List (Parameter × Option Value)}
    (h : ∀ slot ∈ slots, ∀ text, slot.1.default = some text →
      W.events (.inquiry (.transform .standard text))) : W.Covers (Work.complete sig slots) := by
  induction slots with
  | nil => exact covers_pure _
  | cons slot rest ih =>
      obtain ⟨p, given⟩ := slot
      have hparameter : W.Covers (Work.parameter sig p given) := by
        unfold Work.parameter
        cases given with
        | some v => exact covers_pure _
        | none =>
            cases hdefault : p.default with
            | some text =>
                exact covers_bind (covers_expand (h (p, none) (by simp) text hdefault)) fun _ => covers_pure _
            | none =>
                dsimp only
                split
                · exact covers_step
                · exact covers_pure _
      refine covers_bind hparameter fun v? => ?_
      refine covers_bind (ih fun slot hslot => h slot (by simp [hslot])) fun others => ?_
      cases v? with
      | none => exact covers_pure _
      | some v => exact covers_pure _

theorem covers_isolated {x : Work α} (isolation : CallIsolation) (params : List (String × Value))
    (hx : W.Covers x) : W.Covers (Work.isolated isolation params x) := by
  have hbound : W.Covers (Work.step (Session.bindAll params) (.bindAll params) >>= fun _ => x) :=
    covers_bind covers_step fun _ => hx
  cases isolation with
  | none => exact hbound
  | default => exact covers_read fun s _ => covers_within (by simp) hbound
  | high => exact covers_within (by simp) hbound

/-- A call asks for its arguments and for the defaults of the sub that is found, and calls its body. -/
theorem covers_invoke {call : Invocation}
    (hargs : ∀ a ∈ call.arguments, W.events (.inquiry (.transform .standard a.value)))
    (hfound : ∀ stack identity sig body, W.frames stack →
      stack.nearest? call.sub Action.isSub = some (.sub identity sig body) →
      (∀ p ∈ sig.parameters, ∀ text, p.default = some text →
        W.events (.inquiry (.transform .standard text))) ∧
      (∀ a ∈ body, W.events (.call (.action a))) ∧
      ∀ stack', W.frames stack' → W.frames (stack'.push .executing (.sub identity sig body))) :
    W.Covers (Work.invoke call) := by
  refine covers_read fun s hs => ?_
  split
  · rename_i identity sig body hsub
    obtain ⟨hdefaults, hbody, hframe⟩ := hfound s.stack identity sig body hs hsub
    refine covers_bind (covers_within (by simp) ?_) fun params => ?_
    · refine covers_bind (covers_arguments hargs) fun args => ?_
      refine covers_bind covers_step fun slots => covers_complete fun slot hslot => ?_
      exact hdefaults slot.1 (List.of_mem_zip hslot).1
    · refine covers_bind ?_ fun outcome => covers_step
      exact covers_read fun s _ => covers_frame hframe (covers_isolated _ params (covers_runAll hbody))
  · exact covers_step

end Watch

/-! ## What a node asks -/

namespace Action

/-- The tests of a node. -/
def probes : Action → List (Probe × String)
  | branch _ condition _ _ | repeatWhile _ condition _ _ => condition.probes
  | _ => []

/-- The texts that a node expands, with the rules for each. -/
def expansions : Action → List (TransformRules × String)
  | returnWith _ value => value.toList.map fun text => (.standard, text)
  | assign _ _ value rules => value.toList.map fun text => (rules, text)
  | print _ text rules => [(rules, text)]
  | throw _ message => [(.standard, message)]
  | branch _ condition _ _ | repeatWhile _ condition _ _ =>
    (condition.probes.filter fun p => p.1 ≠ .holds).map fun p => (.standard, p.2)
  | forEach _ head _ =>
    match head.source with
    | .rows _ => []
    | .value text => [(.standard, text)]
  | sub _ sig _ => sig.parameters.filterMap fun p => p.default.map fun text => (.standard, text)
  | call _ invocation => invocation.arguments.map fun a => (.standard, a.value)
  | _ => []

/-- Is it a question that the node itself may ask? -/
def Asks (a : Action) : {γ : Type} → Inquiry γ → Prop
  | _, .evaluate text => text ∈ a.expressions
  | _, .transform rules text => (rules, text) ∈ a.expansions
  | _, .isSet _ => a.probes ≠ []

end Action

/-! ## Calls -/

/-- The nodes that a call is about are such. -/
def Call.Everywhere (p : Action → Prop) : Call → Prop
  | action a => a.Everywhere p
  | rounds label condition maxCount body _ =>
    (Action.repeatWhile label condition maxCount body).Everywhere p

namespace Watch

/-- What is watched is at ease with nodes of this kind: with what they ask, with calls and frames of theirs;
and the subs that are found from the frames are of this kind. -/
structure Follows (W : Watch) (p : Action → Prop) : Prop where
  asks {a : Action} {γ : Type} {q : Inquiry γ} : p a → a.Asks q → W.events (.inquiry q)
  calls {c : Call} : c.Everywhere p → W.events (.call c)
  push {stack : CallStack} {a : Action} : W.frames stack → a.Everywhere p →
    W.frames (stack.push .executing a)
  found {stack : CallStack} {id : String} {a : Action} : W.frames stack →
    stack.nearest? id Action.isSub = some a → a.Everywhere p

/-- Frames and calls are of such nodes, and what is asked is asked by one of them. -/
def everywhere (p : Action → Prop) : Watch where
  frames := CallStack.Everywhere p
  events
    | .step => True
    | .inquiry q => ∃ a, p a ∧ a.Asks q
    | .call c => c.Everywhere p
  frames_setPhase phase h := h.setPhase phase
  step := trivial

theorem everywhere_follows (p : Action → Prop) : (everywhere p).Follows p where
  asks ha hq := ⟨_, ha, hq⟩
  calls h := h
  push hstack ha := hstack.push .executing ha
  found hstack hfound := hstack.of_nearest hfound

variable {W : Watch} {p : Action → Prop} {a : Action} (F : W.Follows p)

include F

theorem follows_children (h : a.Everywhere p) : ∀ b ∈ a.children, W.events (.call (.action b)) :=
  fun _ hb => F.calls (h.child hb)

theorem follows_expansion {rules : TransformRules} {text : String} (h : p a)
    (htext : (rules, text) ∈ a.expansions) : W.events (.inquiry (.transform rules text)) := F.asks h htext

/-- A node that tests a condition asks what the condition asks. -/
theorem covers_condition {condition : Condition} (h : p a) (hprobes : a.probes = condition.probes)
    (hexpressions : a.expressions = (condition.probes.filter fun p => p.1 = .holds).map Prod.snd)
    (hexpansions : a.expansions =
      (condition.probes.filter fun p => p.1 ≠ .holds).map fun p => (.standard, p.2)) :
    W.Covers (Work.test condition) := by
  refine covers_test (fun q hq hholds => F.asks h ?_) (fun q hq hholds => F.asks h ?_)
    fun hne name => F.asks h ?_
  · change q.2 ∈ a.expressions
    rw [hexpressions]
    exact List.mem_map_of_mem (List.mem_filter.mpr ⟨hq, decide_eq_true hholds⟩)
  · change (TransformRules.standard, q.2) ∈ a.expansions
    rw [hexpansions]
    exact List.mem_map.mpr ⟨q, List.mem_filter.mpr ⟨hq, decide_eq_true hholds⟩, rfl⟩
  · change a.probes ≠ []
    rw [hprobes]
    exact hne

/-- A sub that is called stands at an open frame or below one. -/
theorem covers_invocation {label : Label} {call : Invocation} (h : p (.call label call)) :
    W.Covers (Work.invoke call) := by
  have harguments : ∀ a ∈ call.arguments, W.events (.inquiry (.transform .standard a.value)) :=
    fun a ha => follows_expansion F h (List.mem_map_of_mem ha)
  refine covers_invoke harguments fun stack identity sig body hstack hnearest => ?_
  have hsub := F.found hstack hnearest
  have hdefaults : ∀ q ∈ sig.parameters, ∀ text, q.default = some text →
      W.events (.inquiry (.transform .standard text)) := fun q hq text htext =>
    follows_expansion F hsub.self (List.mem_filterMap.mpr ⟨q, hq, by rw [htext]; rfl⟩)
  exact ⟨hdefaults, follows_children F hsub, fun _ hstack' => F.push hstack' hsub⟩

theorem covers_perform (h : a.Everywhere p) : W.Covers (Work.perform a) := by
  have hchildren := follows_children F h
  have hself := h.self
  cases a with
  | sequence label items => exact covers_runAll hchildren
  | block label s allowOrphans => exact covers_sections hchildren
  | script label s =>
      refine covers_bind (covers_sections hchildren) fun outcome => ?_
      rcases outcome with _ | _ | v <;> exact covers_pure _
  | returnWith identity value =>
      cases value with
      | none => exact covers_pure _
      | some text =>
          have hexpand := covers_expand (follows_expansion F hself (List.mem_singleton_self _))
          exact covers_bind hexpand fun _ => covers_pure _
  | assign identity name value rules =>
      cases value with
      | none => exact covers_bind covers_step fun _ => covers_pure _
      | some text =>
          have hasked := follows_expansion F hself (List.mem_singleton_self (rules, text))
          exact covers_bind (covers_inquire hasked) fun _ => covers_bind covers_step fun _ => covers_pure _
  | print identity text rules =>
      have hasked := follows_expansion F hself (List.mem_singleton_self (rules, text))
      exact covers_bind (covers_inquire hasked) fun _ => covers_bind covers_step fun _ => covers_pure _
  | eval identity expr output =>
      have hasked : W.events (.inquiry (.evaluate expr)) := F.asks hself (List.mem_singleton_self expr)
      refine covers_bind (covers_inquire hasked) fun v => ?_
      cases output with
      | none => exact covers_pure _
      | some name => exact covers_bind covers_step fun _ => covers_pure _
  | throw identity message =>
      have hasked := follows_expansion F hself (List.mem_singleton_self (TransformRules.standard, message))
      exact covers_bind (covers_expand hasked) fun _ => covers_step
  | branch label condition body otherwise =>
      refine covers_bind (covers_condition F hself rfl rfl rfl) fun holds => ?_
      split
      · exact covers_runAll fun b hb => hchildren b (List.mem_append_left _ hb)
      · exact covers_runAll fun b hb => hchildren b (List.mem_append_right _ hb)
  | forEach label head body =>
      have hrows : W.Covers (Work.rows head) := by
        refine covers_rows fun text hsource => follows_expansion F hself ?_
        simp only [Action.expansions, hsource, List.mem_singleton]
      exact covers_bind hrows fun rows => covers_forRows hchildren _ _
  | repeatWhile label condition maxCount body => exact covers_call (F.calls h)
  | call label invocation => exact covers_invocation F hself
  | breakLoop | rowSet | sub => exact covers_pure _
  | requestAbort => exact covers_bind covers_step fun _ => covers_pure _
  | writeTrace | writeFound =>
      exact covers_read fun s _ => covers_bind covers_step fun _ => covers_pure _

theorem covers_rounds {label : Label} {condition : Condition} {maxCount : Option Nat} {body : List Action}
    {count : Nat} (h : (Action.repeatWhile label condition maxCount body).Everywhere p) :
    W.Covers (Call.rounds label condition maxCount body count).work := by
  refine covers_bind (covers_condition F h.self rfl rfl rfl) fun holds => ?_
  split
  · exact covers_pure _
  · split
    · exact covers_pure _
    · refine covers_bind covers_step fun _ => ?_
      refine covers_bind (covers_runAll (follows_children F h)) fun outcome => ?_
      rcases outcome with _ | _ | v
      · exact covers_call (F.calls h)
      · exact covers_pure _
      · exact covers_pure _

theorem covers_work {c : Call} (h : c.Everywhere p) : W.Covers c.work := by
  cases c with
  | action a =>
      refine covers_bind covers_step fun _ => covers_frame (fun stack hstack => ?_) (covers_perform F h)
      exact F.push hstack h
  | rounds label condition maxCount body count => exact covers_rounds F h

end Watch

namespace Course

variable {c : Call} {s u : Session} {e : Event}

/-- What is kept along each piece of work is kept along the whole course. -/
theorem covered {W : Watch} (hwork : ∀ c, W.events (.call c) → W.Covers c.work) (h : Course c s e u)
    (hc : W.events (.call c)) (hs : W.frames s.stack) : W.frames u.stack ∧ W.events e := by
  induction h with
  | here h => exact hwork _ hc hs h
  | inside h _ ih =>
      obtain ⟨ht, hd⟩ := hwork _ hc hs h
      exact ih hd ht

/-- Whatever is asked in the course of a call is asked by a node that can come to run. -/
theorem asked {p : Action → Prop} {γ : Type} {q : Inquiry γ} (h : Course c s (.inquiry q) u)
    (hc : c.Everywhere p) (hs : s.stack.Everywhere p) : ∃ a, p a ∧ a.Asks q :=
  (h.covered (W := .everywhere p) (fun _ => Watch.covers_work (Watch.everywhere_follows p)) hc hs).2

end Course

end ActionTree
