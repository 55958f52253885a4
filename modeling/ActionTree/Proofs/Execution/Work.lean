import ActionTree.Proofs.Execution.Frame

/-!
# What execution consists of

The work of an action as data: steps that evaluate nothing, inquiries that evaluate, calls of actions and
of rounds of a loop, one after another and inside scopes. What can be said of all work then holds of the
course of every execution, moment by moment.
-/

namespace ActionTree

/-! ## Steps, inquiries, calls and scopes -/

/-- Comes to an end, and leaves frames and configuration alone. -/
def Run.Steady {α : Type} (x : Run Session α) : Prop :=
  ∀ s, ∃ r t, x s = some (r, t) ∧ t.stack = s.stack ∧ t.config = s.config

/-- A question that only an evaluation can answer. -/
inductive Inquiry : Type → Type where
  | evaluate (text : String) : Inquiry Value
  | transform (rules : TransformRules) (text : String) : Inquiry Value
  | isSet (name : String) : Inquiry Bool

def Inquiry.run (n : Nat) : {α : Type} → Inquiry α → Run Session α
  | _, evaluate text => Session.evaluate n text
  | _, transform rules text => Session.transform n rules [] (.str text)
  | _, isSet name => Session.isSet n name

/-- Answering a question is related to itself, as evaluations are. -/
theorem Inquiry.run_related {R : RunRel Session} (C : R.Evaluative) {α : Type} (q : Inquiry α) (n : Nat) :
    R (q.run n) (q.run n) := by
  cases q with
  | evaluate text => exact C.evaluate n text
  | transform rules text => exact C.transform n rules [] (.str text)
  | isSet name => exact C.isSet n name

/-- Work that is done elsewhere: an action, or a loop from its next round on. -/
inductive Call where
  | action (a : Action)
  | rounds (label : Label) (condition : Condition) (maxCount : Option Nat) (body : List Action)
      (count : Nat)

/-- Actions are left to `exec`; a loop makes at most `k` rounds more. -/
def Call.run (exec : Executor) (n k : Nat) : Call → Run Session Outcome
  | action a => exec a
  | rounds _ condition maxCount body count => whileLoop exec n condition maxCount body k count

/-- A call is related to itself if actions are executed in related ways. -/
theorem Call.run_related {R : RunRel Session} (C : R.Executive) {exec : Executor}
    (hexec : ∀ a, R (exec a) (exec a)) (c : Call) (n k : Nat) : R (c.run exec n k) (c.run exec n k) := by
  cases c with
  | action a => exact hexec a
  | rounds label condition maxCount body count => exact C.whileLoop hexec n condition maxCount body k count

/-- What holds while something runs. -/
inductive Scope where
  | frame (phase : Phase) (a : Action)
  | rephased (phase : Phase)
  | overlaid (overlay : List (String × Value)) (namePrefix : String)
  | onVariables (vars : Store)
  | handling (caught : CaughtFault)

namespace Scope

def run {α : Type} (x : Run Session α) : Scope → Run Session α
  | frame phase a => Session.withFrame phase a x
  | rephased phase => Session.withPhase phase x
  | overlaid overlay namePrefix => Session.withVars overlay namePrefix x
  | onVariables vars => Session.onVariables vars x
  | handling caught => Session.withException caught x

/-- The session in which the body runs, if it does. -/
def enter (s : Session) : Scope → Option Session
  | frame phase a =>
    if s.config.maxCallDepth ≤ s.stack.depth then none
    else some { s with stack := s.stack.push phase a }
  | rephased phase => some { s with stack := s.stack.setPhase phase }
  | overlaid overlay namePrefix =>
    match Session.bindOver namePrefix [] overlay s.store with
    | (vars, _, none) => some { s with store := vars }
    | (_, _, some _) => none
  | onVariables vars => some { s with store := vars }
  | handling caught => some { s with currentException := some caught }

/-- A scope that is not entered ends with an error of its own. -/
theorem run_of_enter_none {scope : Scope} {s : Session} (h : scope.enter s = none) :
    ∃ e t, t.stack = s.stack ∧ t.config = s.config ∧
      ∀ {α : Type} (x : Run Session α), scope.run x s = some (.error e, t) := by
  cases scope with
  | frame phase a =>
      dsimp only [enter] at h
      split at h
      · rename_i hdeep
        exact ⟨_, s, rfl, rfl, fun x => if_pos hdeep⟩
      · cases h
  | overlaid overlay namePrefix =>
      have hsaved := @Session.bindOver_saved namePrefix overlay s.store [] (List.forall_mem_nil _)
      dsimp only [enter] at h
      dsimp only [run]
      unfold Session.withVars
      generalize Session.bindOver namePrefix [] overlay s.store = bound at h hsaved
      obtain ⟨vars, saved, fault⟩ := bound
      cases fault with
      | none => cases h
      | some fault =>
          refine ⟨.runtime fault, { s with store := vars.resetAll saved }, rfl, rfl, fun x => ?_⟩
          exact congrArg some (Session.putBack_eq _ _ hsaved)
  | rephased _ | onVariables _ | handling _ => cases h

/-- A scope that is entered makes good what it changed of frames and configuration. -/
theorem run_of_enter {scope : Scope} {s t : Session} (h : scope.enter s = some t) :
    ∃ leave : ∀ α : Type, Except ScriptError α × Session → Except ScriptError α × Session,
      (∀ (α : Type) (x : Run Session α), scope.run x s = (x t).map (leave α)) ∧
      ∀ (α : Type) r u, u.stack = t.stack → u.config = t.config →
        (leave α (r, u)).2.stack = s.stack ∧ (leave α (r, u)).2.config = s.config := by
  cases scope with
  | frame phase a =>
      dsimp only [enter] at h
      split at h
      · cases h
      · rename_i hdeep
        cases h
        refine ⟨fun α p => (p.1.mapError fun (e : ScriptError) => e.traced p.2.stack.trace,
          { p.2 with stack := p.2.stack.pop }), fun α x => if_neg hdeep, fun α r u hstack hconfig => ?_⟩
        refine ⟨?_, hconfig⟩
        change u.stack.pop = _
        rw [hstack]
        rfl
  | rephased phase =>
      cases h
      dsimp only [run]
      unfold Session.withPhase
      cases htop : s.stack.top? with
      | some f =>
          refine ⟨fun α p => (p.1, { p.2 with stack := p.2.stack.setPhase f.phase }), fun α x => rfl,
            fun α r u hstack hconfig => ⟨?_, hconfig⟩⟩
          change u.stack.setPhase f.phase = _
          rw [hstack]
          exact CallStack.setPhase_setPhase s.stack phase f htop
      | none =>
          refine ⟨fun α p => p, fun α x => rfl, fun α r u hstack hconfig => ⟨?_, hconfig⟩⟩
          rw [hstack, List.head?_eq_none_iff.1 htop]
          rfl
  | overlaid overlay namePrefix =>
      have hsaved := @Session.bindOver_saved namePrefix overlay s.store [] (List.forall_mem_nil _)
      dsimp only [enter] at h
      dsimp only [run]
      unfold Session.withVars
      generalize Session.bindOver namePrefix [] overlay s.store = bound at h hsaved
      obtain ⟨vars, saved, fault⟩ := bound
      cases fault with
      | some fault => cases h
      | none =>
          cases h
          refine ⟨fun α p => Session.putBack saved p.1 p.2, fun α x => rfl, fun α r u hstack hconfig => ?_⟩
          dsimp only
          rw [Session.putBack_eq _ _ hsaved]
          exact ⟨hstack, hconfig⟩
  | onVariables vars =>
      cases h
      exact ⟨fun α p => (p.1, { p.2 with store := s.store }), fun α x => rfl,
        fun α r u hstack hconfig => ⟨hstack, hconfig⟩⟩
  | handling caught =>
      cases h
      exact ⟨fun α p => (p.1, { p.2 with currentException := s.currentException }), fun α x => rfl,
        fun α r u hstack hconfig => ⟨hstack, hconfig⟩⟩

end Scope

/-- Turns what a computation ends with into its result. -/
def Run.settled {σ α : Type} (x : Run σ α) : Run σ (Except ScriptError α) := fun s =>
  (x s).map fun p => (.ok p.1, p.2)

namespace Run

variable {σ α : Type} {x : Run σ α} {s : σ}

theorem settled_of_none (h : x s = none) : x.settled s = none := by
  unfold settled
  rw [h]
  rfl

theorem settled_of_some {p : Except ScriptError α × σ} (h : x s = some p) :
    x.settled s = some (.ok p.1, p.2) := by
  unfold settled
  rw [h]
  rfl

/-- To look at what a computation ended with is to catch its errors. -/
theorem settled_bind (x : Run σ α) (f : ScriptError → Run σ α) :
    (x.settled >>= fun r => match r with
      | .ok a => pure a
      | .error e => f e) = tryCatch x f := by
  funext s
  cases hx : x s with
  | none => rw [bind_of_none _ (settled_of_none hx), tryCatch_of_none f hx]
  | some p =>
      rw [bind_of_ok _ (settled_of_some hx)]
      obtain ⟨r, t⟩ := p
      cases r with
      | ok a =>
          rw [tryCatch_of_ok f hx]
          rfl
      | error e => rw [tryCatch_of_error f hx]

end Run

/-- What is to be done, in order. -/
inductive Work : Type → Type 1 where
  | step {α : Type} (x : Run Session α) (steady : x.Steady) : Work α
  | inquire {α : Type} (q : Inquiry α) : Work α
  | call (c : Call) : Work Outcome
  | bind {α β : Type} (x : Work α) (f : α → Work β) : Work β
  /-- Goes on with what the work ended with, be it an error. -/
  | settle {α : Type} (x : Work α) : Work (Except ScriptError α)
  | within {α : Type} (scope : Scope) (x : Work α) : Work α

/-- Does the work. -/
def Work.run (exec : Executor) (n k : Nat) : {α : Type} → Work α → Run Session α
  | _, step x _ => x
  | _, inquire q => q.run n
  | _, call c => c.run exec n k
  | _, bind x f => x.run exec n k >>= fun a => (f a).run exec n k
  | _, settle x => (x.run exec n k).settled
  | _, within scope x => scope.run (x.run exec n k)

/-! ## Steps -/

namespace Run.Steady

theorem pure {α : Type} (a : α) : (Pure.pure a : Run Session α).Steady := fun s => ⟨_, s, rfl, rfl, rfl⟩

theorem throw {α : Type} (e : ScriptError) : (MonadExcept.throw e : Run Session α).Steady :=
  fun s => ⟨_, s, rfl, rfl, rfl⟩

theorem bind {α β : Type} {x : Run Session α} {f : α → Run Session β} (hx : x.Steady)
    (hf : ∀ a, (f a).Steady) : (x >>= f).Steady := by
  intro s
  obtain ⟨r, t, hxs, hstack, hconfig⟩ := hx s
  cases r with
  | ok a =>
      obtain ⟨r', u, hfa, hstack', hconfig'⟩ := hf a t
      exact ⟨r', u, (Run.bind_of_ok f hxs).trans hfa, hstack'.trans hstack, hconfig'.trans hconfig⟩
  | error e => exact ⟨_, t, Run.bind_of_error f hxs, hstack, hconfig⟩

theorem compatible : RunRel.Compatible fun _ x _ => Run.Steady x where
  pure := pure
  fault _ := throw _
  malformed _ := throw _
  bind := bind

theorem get : (MonadState.get : Run Session Session).Steady := fun s => ⟨_, s, rfl, rfl, rfl⟩

theorem modify {f : Session → Session} (h : ∀ s, (f s).stack = s.stack ∧ (f s).config = s.config) :
    (modify f : Run Session Unit).Steady := fun s => ⟨_, f s, rfl, (h s).1, (h s).2⟩

theorem freshIdentity : Session.freshIdentity.Steady := fun _ => ⟨_, _, rfl, rfl, rfl⟩

theorem setVar (name : String) (v : Value) : (Session.setVar name v).Steady := by
  intro s
  cases hv : s.store.set name v with
  | ok vars => exact ⟨_, _, Session.setVar_of_ok hv, rfl, rfl⟩
  | error fault => exact ⟨_, s, Session.setVar_of_error hv, rfl, rfl⟩

theorem parse (kind : ExprKind) (text : String) : (Session.parse kind text).Steady := by
  intro s
  rw [Session.parse_apply]
  cases (s.cache.parse kind text).1 with
  | ok e => exact ⟨_, _, rfl, rfl, rfl⟩
  | error e => exact ⟨_, _, rfl, rfl, rfl⟩

theorem writeLine (line : String) : (Session.writeLine line).Steady := by
  intro s
  unfold Session.writeLine
  rw [Run.get_bind_apply]
  cases s.outputs with
  | nil => exact ⟨_, _, rfl, rfl, rfl⟩
  | cons o rest =>
      dsimp only
      cases o.writeLine line with
      | ok o => exact ⟨_, _, rfl, rfl, rfl⟩
      | error cause => exact ⟨_, _, rfl, rfl, rfl⟩

theorem checkAbort : Session.checkAbort.Steady := by
  intro s
  unfold Session.checkAbort
  rw [Run.get_bind_apply]
  split
  · exact ⟨_, _, rfl, rfl, rfl⟩
  · exact ⟨_, _, rfl, rfl, rfl⟩

theorem checkRounds (count : Nat) : (checkRounds count).Steady := by
  refine get.bind fun s => ?_
  dsimp only
  split
  · exact throw _
  · exact pure _

theorem watchful : RunRel.Watchful fun _ x _ => Run.Steady x where
  toSequential := compatible.toSequential
  read f _ := get.bind fun s => pure (f s)
  setVar := setVar
  freshIdentity := freshIdentity
  erase _ := modify fun _ => ⟨rfl, rfl⟩
  writeLine := writeLine
  requestAbort := modify fun _ => ⟨rfl, rfl⟩
  checkAbort := checkAbort
  checkRounds := checkRounds
  get := get

theorem bindAll (params : List (String × Value)) : (Session.bindAll params).Steady := watchful.bindAll params

theorem deliver (call : Invocation) (outcome : Outcome) : (call.deliver outcome).Steady :=
  watchful.deliver call outcome

end Run.Steady

/-! ## The work of actions -/

namespace Work

instance : Monad Work where
  pure a := step (pure a) (.pure a)
  bind := bind

variable {α β : Type}

def fail (f : RuntimeFault) : Work α := step (Run.failWith f) (.throw _)

def ofRuntime (r : Except RuntimeFault α) : Work α :=
  step (Run.ofRuntime r) (Run.Steady.compatible.ofRuntime r)

def read : Work Session := step get .get

/-- Ends as was settled. -/
def resume (r : Except ScriptError α) : Work α := step (fun s => some (r, s)) fun s => ⟨r, s, rfl, rfl, rfl⟩

def expand (text : String) : Work Value := inquire (.transform .standard text)

def runAll : List Action → Work Outcome
  | [] => return none
  | a :: rest => do
    match ← call (.action a) with
    | some signal => return some signal
    | none => runAll rest

/-- The test of a value that a text has; it asks nothing more. -/
def verdict (v : Value) : Probe → Run Session Bool
  | .isNull => return v.isNull
  | .isNotNull => return !v.isNull
  | .isZero => return (← Run.ofConversion (Convert.asFloat v)) == 0
  | .isNotZero => return (← Run.ofConversion (Convert.asFloat v)) != 0
  | .isTrue => Run.ofConversion (Convert.asBool v)
  | .isFalse => return !(← Run.ofConversion (Convert.asBool v))
  | .isEmpty => return v.text.isEmpty
  | .isNotEmpty => return !v.text.isEmpty
  | .isFile => return (← get).surroundings.isFile v.text
  | .isNotFile => return !(← get).surroundings.isFile v.text
  | .isDirectory => return (← get).surroundings.isDirectory v.text
  | .isNotDirectory => return !(← get).surroundings.isDirectory v.text
  | .isSet | .isNotSet | .holds => return v.isTruthy

theorem verdict_related {R : RunRel Session} (C : R.Attentive) (v : Value) (probe : Probe) :
    R (verdict v probe) (verdict v probe) := by
  cases probe with
  | isNull | isNotNull | isEmpty | isNotEmpty | isSet | isNotSet | holds => exact C.pure _
  | isZero | isNotZero | isFalse => exact C.bind (C.ofConversion _) fun _ => C.pure _
  | isTrue => exact C.ofConversion _
  | isFile | isNotFile | isDirectory | isNotDirectory =>
      exact C.reading (fun _ _ h => by simp only [h.surroundings, and_self]) fun _ => C.pure _

theorem verdict_steady (v : Value) (probe : Probe) : (verdict v probe).Steady :=
  verdict_related Run.Steady.watchful.toAttentive v probe

def probe (text : String) : Probe → Work Bool
  | .isSet => do inquire (.isSet (← expand text).text)
  | .isNotSet => do return !(← inquire (.isSet (← expand text).text))
  | .holds => do return (← inquire (.evaluate text)).isTruthy
  | p => do
    let v ← expand text
    step (verdict v p) (verdict_steady v p)

def probeAll (all undecided : Bool) : List (Probe × String) → Work Bool
  | [] => return undecided
  | (p, text) :: rest => do
    let hit ← probe text p
    if hit = all then probeAll all undecided rest else return hit

def test (c : Condition) : Work Bool := probeAll c.all (c.all || c.probes.isEmpty) c.probes

/-- The rows of a table are found without an evaluation. -/
def rows (head : LoopHead) : Work (List Row) :=
  match head.source with
  | .rows id => do
    match (← read).stack.nearest? id fun _ => true with
    | none => fail (.rowSourceNotFound id)
    | some (.rowSet _ table) => ofRuntime table.allRows
    | some a => fail (.notRowSource a.kind id)
  | .value text => do return (← expand text).elements.map fun v => [(head.variableName, v)]

def forRows (namePrefix : String) (body : List Action) : List Row → Work Outcome
  | [] => return none
  | row :: rest => do
    match ← within (.overlaid row namePrefix) (runAll body) with
    | some .breakLoop => return none
    | some signal => return some signal
    | none => forRows namePrefix body rest

def handle (handlers : Option (List Action)) (e : ScriptError) : Work Outcome :=
  match handlers, e.fault? with
  | some items, some fault => do
    let identity ← step Session.freshIdentity .freshIdentity
    within (.handling ⟨identity, fault, e.trace⟩) (runAll items)
  | _, _ => step (throw e) (.throw e)

def attempted (s : SectionsOf Action) : Work Outcome :=
  match s.attempt with
  | none => return none
  | some items => do
    match ← settle (runAll items) with
    | .ok outcome => return outcome
    | .error e => handle s.handlers e

def cleanedUp (cleanup : Option (List Action)) (body : Work Outcome) : Work Outcome :=
  match cleanup with
  | none => body
  | some items => do
    let resolved ← settle body
    match ← runAll items with
    | none => resume resolved
    | some signal => return some signal

def sections (s : SectionsOf Action) : Work Outcome := do
  match ← runAll s.items with
  | some signal => return some signal
  | none => cleanedUp s.cleanup (attempted s)

def arguments : List Argument → Work (List (Option String × Value))
  | [] => return []
  | a :: rest => do
    let v ← expand a.value
    return (a.name, v) :: (← arguments rest)

/-- The value of a parameter, if it gets one. -/
def parameter (sig : Signature) (p : Parameter) : Option Value → Work (Option Value)
  | some v => return some v
  | none => match p.default with
    | some text => do return some (← expand text)
    | none => if p.required then fail (.missingParameter p.name sig.id) else return none

def complete (sig : Signature) : List (Parameter × Option Value) → Work (List (String × Value))
  | [] => return []
  | (p, given) :: rest => do
    let v? ← parameter sig p given
    let others ← complete sig rest
    match v? with
    | some v => return (p.name, v) :: others
    | none => return others

def bound (sig : Signature) (args : List (Option String × Value)) : Work (List (String × Value)) := do
  let slots ← ofRuntime (sig.fill (List.replicate sig.parameters.length none) args)
  complete sig (sig.parameters.zip slots)

def isolated (isolation : CallIsolation) (params : List (String × Value)) (body : Work α) : Work α := do
  let bound : Work α := do
    step (Session.bindAll params) (.bindAll params)
    body
  match isolation with
  | .none => bound
  | .default => do within (.onVariables (← read).store) bound
  | .high => within (.onVariables .empty) bound

/-- Runs the body of the sub that was found for a call. -/
def enter (call : Invocation) (b : BoundSub) : Work Outcome := do
  let isolation := call.isolation.getD (← read).config.defaultIsolation
  within (.frame .executing (.sub b.identity b.signature b.body))
    (isolated isolation b.params (runAll b.body))

def invoke (call : Invocation) : Work Outcome := do
  match (← read).stack.nearest? call.sub Action.isSub with
  | some (.sub identity sig body) =>
    let params ← within (.rephased .parsingArguments) do bound sig (← arguments call.arguments)
    let outcome ← enter call ⟨identity, sig, body, params⟩
    step (call.deliver outcome) (.deliver call outcome)
  | _ => fail (.subNotFound call.sub)

/-- What an action does in its frame. -/
def perform : Action → Work Outcome
  | .sequence _ items => runAll items
  | .block _ s _ => sections s
  | .script _ s => do
    match ← sections s with
    | some .breakLoop => return none
    | outcome => return outcome
  | .returnWith _ none => return some (.returnWith .null)
  | .returnWith _ (some text) => do return some (.returnWith (← expand text))
  | .breakLoop _ => return some .breakLoop
  | .assign _ name none _ => do
    step (modify fun s => { s with store := s.store.erase name }) (.modify fun _ => ⟨rfl, rfl⟩)
    return none
  | .assign _ name (some text) rules => do
    let v ← inquire (.transform rules text)
    step (Session.setVar name v) (.setVar name v)
    return none
  | .print _ text rules => do
    let v ← inquire (.transform rules text)
    step (Session.writeLine v.text) (.writeLine v.text)
    return none
  | .eval _ expr output => do
    let v ← inquire (.evaluate expr)
    match output with
    | some name => step (Session.setVar name v) (.setVar name v)
    | none => pure ()
    return none
  | .throw _ message => do
    let text ← expand message
    step (throw (ScriptError.user text.text)) (.throw _)
  | .branch _ condition body otherwise => do
    if ← test condition then runAll body else runAll (otherwise.getD [])
  | .forEach _ head body => do forRows head.namePrefix body (head.limited (← rows head))
  | .repeatWhile label condition maxCount body => call (.rounds label condition maxCount body 0)
  | .rowSet .. | .sub .. => return none
  | .call _ invocation => invoke invocation
  | .requestAbort _ => do
    step (modify Session.requestAbort) (.modify fun _ => ⟨rfl, rfl⟩)
    return none
  | .writeTrace _ => do
    let trace := (← read).stack.trace
    step (Session.writeLine trace) (.writeLine trace)
    return none
  | .writeFound _ id => do
    let text := Action.foundText (← read).stack id
    step (Session.writeLine text) (.writeLine text)
    return none

def forEach (f : β → Work PUnit) : List β → Work PUnit
  | [] => return ⟨⟩
  | b :: rest => do
    f b
    forEach f rest

end Work

/-- The work of a call. -/
def Call.work : Call → Work Outcome
  | action a => do
    Work.step Session.checkAbort .checkAbort
    Work.within (.frame .executing a) (Work.perform a)
  | rounds label condition maxCount body count => do
    if !(← Work.test condition) then return none
    else if maxCount.any (· ≤ count) then return none
    else
      Work.step (checkRounds count) (.checkRounds count)
      match ← Work.runAll body with
      | some .breakLoop => return none
      | some signal => return some signal
      | none => Work.call (.rounds label condition maxCount body (count + 1))

namespace Action

/-- The work of checking a tree. -/
def checking (a : Action) : Work Unit :=
  Work.within (.frame .initializing a) do
    Work.step (Run.ofSyntax a.validate) (Run.Steady.compatible.ofSyntax a.validate)
    Work.forEach (fun c => checking c.1) a.children.attach
termination_by sizeOf a
decreasing_by exact sizeOf_lt_of_mem_children c.2

/-- The work of compiling a tree. -/
def compiling (root : Action) : Work Unit :=
  root.breadthFirst |> Work.forEach fun a =>
    Work.within (.frame .compiling a) <| a.expressions |> Work.forEach fun text => do
      let _ ← Work.step (Session.parse .single text) (.parse .single text)

/-- The work of preparing a tree. -/
def preparing (root : Action) : Work Unit := do
  if (← Work.read).prepared.contains root.identity then return ()
  else
    root.checking
    root.compiling
    Work.step (modify fun s => { s with prepared := root.identity :: s.prepared })
      (.modify fun _ => ⟨rfl, rfl⟩)

/-- The work of running a tree. -/
def running (root : Action) : Work Value := do
  root.preparing
  return (← Work.call (.action root)).result

end Action

end ActionTree
