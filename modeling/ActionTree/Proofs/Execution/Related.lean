import ActionTree.Preparation
import ActionTree.Proofs.Execution.Basic
import ActionTree.Proofs.Session.Related

/-!
# Related executions

Two executors that are related action by action perform every node of a tree in related ways, if the
relation is kept by the scopes that execution opens: frames, phases, overlays, other variables. Blocks
need more of a relation, and come last.
-/

namespace ActionTree

namespace RunRel

/-- The relation is kept by what actions do with a session, apart from reading texts and from aborts. -/
structure Working (R : RunRel Session) : Prop extends R.Attentive where
  erase (name : String) :
    R (modify fun s => { s with store := s.store.erase name } : Run Session Unit)
      (modify fun s => { s with store := s.store.erase name })
  writeLine (line : String) : R (Session.writeLine line) (Session.writeLine line)
  checkRounds (count : Nat) : R (checkRounds count) (checkRounds count)

/-- The relation is kept by what actions do with a session, apart from reading texts. -/
structure Acting (R : RunRel Session) : Prop extends R.Working where
  requestAbort : R (modify Session.requestAbort : Run Session Unit) (modify Session.requestAbort)
  checkAbort : R Session.checkAbort Session.checkAbort

/-- The same, where actions may look at the session as a whole. -/
structure Watchful (R : RunRel Session) : Prop extends R.Acting where
  get : R (MonadState.get : Run Session Session) MonadState.get

/-- The relation is kept by evaluation and by frames. -/
structure Framewise (R : RunRel Session) : Prop extends R.Evaluative where
  withFrame {α : Type} {x y : Run Session α} (phase : Phase) (a : Action) :
    R x y → R (Session.withFrame phase a x) (Session.withFrame phase a y)

/-- The relation is kept by what actions do with a session and by the scopes that they open. -/
structure Executive (R : RunRel Session) : Prop extends R.Acting, R.Framewise where
  withVars {α : Type} {x y : Run Session α} (overlay : List (String × Value)) (namePrefix : String) :
    R x y → R (Session.withVars overlay namePrefix x) (Session.withVars overlay namePrefix y)
  onVariables {α : Type} {x y : Run Session α} (vars : Store) :
    R x y → R (Session.onVariables vars x) (Session.onVariables vars y)
  withPhase {α : Type} {x y : Run Session α} (phase : Phase) :
    R x y → R (Session.withPhase phase x) (Session.withPhase phase y)
  withException {α : Type} {x y : Run Session α} (caught : CaughtFault) :
    R x y → R (Session.withException caught x) (Session.withException caught y)
  /-- Handlers that leave alone what is not a fault. -/
  tryFault {α : Type} {x y : Run Session α} {handler handler' : ScriptError → Run Session α} :
    R x y → (∀ e fault, e.fault? = some fault → R (handler e) (handler' e)) →
    (∀ e, e.fault? = none → handler e = MonadExcept.throw e ∧ handler' e = MonadExcept.throw e) →
    R (tryCatch x handler) (tryCatch y handler')

/-- The relation is also kept by a cleanup. -/
structure Blockwise (R : RunRel Session) : Prop extends R.Executive where
  cleanedUp {exec exec' : Executor} {x y : Run Session Outcome} (items : List Action) :
    R x y → R (runAll exec items) (runAll exec' items) →
    R (SectionsOf.cleanedUp exec (some items) x) (SectionsOf.cleanedUp exec' (some items) y)

end RunRel

namespace RunRel.Working

variable {R : RunRel Session} (C : R.Working)

include C

theorem bindAll (params : List (String × Value)) :
    R (Session.bindAll params) (Session.bindAll params) := by
  induction params with
  | nil => exact C.pure _
  | cons p rest ih => exact C.bind (C.setVar p.1 p.2) fun _ => ih

theorem deliver (call : Invocation) (outcome : Outcome) :
    R (call.deliver outcome) (call.deliver outcome) := by
  unfold Invocation.deliver
  cases call.output with
  | none => exact C.pure _
  | some name => exact C.bind (C.setVar name _) fun _ => C.pure _

end RunRel.Working

namespace RunRel.Framewise

variable {R : RunRel Session} (C : R.Framewise)

include C

theorem forM {β : Type} {items : List β} {f g : β → Run Session PUnit}
    (h : ∀ b ∈ items, R (f b) (g b)) : R (items.forM f) (items.forM g) := by
  induction items with
  | nil => exact C.pure _
  | cons b rest ih =>
      refine C.bind (h b (by simp)) fun _ => ih fun b hb => h b (by simp [hb])

theorem check (a : Action) : R a.check a.check := by
  rw [Action.check]
  exact C.withFrame _ a (C.bind (C.ofSyntax _) fun _ => C.forM fun c _ => check c.1)
termination_by sizeOf a
decreasing_by exact Action.sizeOf_lt_of_mem_children c.2

theorem compile (root : Action) : R root.compile root.compile :=
  C.forM fun _ _ => C.withFrame _ _ (C.forM fun text _ => C.bind (C.parse .single text) fun _ => C.pure _)

/-- A tree is prepared alike where it is known alike whether it was prepared before. -/
theorem prepare {root : Action}
    (hknown : R (do return (← get).prepared.contains root.identity) (do return (← get).prepared.contains root.identity))
    (hmark : R (modify fun s => { s with prepared := root.identity :: s.prepared } : Run Session PUnit)
      (modify fun s => { s with prepared := root.identity :: s.prepared })) :
    R root.prepare root.prepare := by
  let rest (known : Bool) : Run Session Unit := if known then pure () else do
    root.check
    root.compile
    modify fun s => { s with prepared := root.identity :: s.prepared }
  have hrest : ∀ known, R (rest known) (rest known)
    | true => C.pure _
    | false => C.bind (C.check root) fun _ => C.bind (C.compile root) fun _ => hmark
  have hprepare := C.bind hknown hrest
  rwa [bind_assoc] at hprepare

end RunRel.Framewise

namespace RunRel.Executive

variable {R : RunRel Session} (C : R.Executive)

include C

theorem probeTest (n : Nat) (probe : Probe) (text : String) :
    R (probe.test n text) (probe.test n text) := by
  cases probe with
  | isSet => exact C.bind (C.expand n text) fun v => C.isSet n v.text
  | isNotSet => exact C.bind (C.expand n text) fun v => C.bind (C.isSet n v.text) fun _ => C.pure _
  | isNull | isNotNull | isEmpty | isNotEmpty => exact C.bind (C.expand n text) fun _ => C.pure _
  | isZero | isNotZero | isFalse =>
      exact C.bind (C.expand n text) fun _ => C.bind (C.ofConversion _) fun _ => C.pure _
  | isTrue => exact C.bind (C.expand n text) fun _ => C.ofConversion _
  | isFile | isNotFile | isDirectory | isNotDirectory =>
      exact C.bind (C.expand n text) fun _ =>
        C.reading (fun _ _ h => by simp only [h.surroundings, and_self]) fun _ => C.pure _
  | holds => exact C.bind (C.evaluate n text) fun _ => C.pure _

theorem conditionTest (n : Nat) (c : Condition) : R (c.test n) (c.test n) := by
  unfold Condition.test
  generalize (c.all || c.probes.isEmpty) = undecided
  induction c.probes with
  | nil => exact C.pure _
  | cons p rest ih =>
      refine C.bind (C.probeTest n p.1 p.2) fun hit => ?_
      split
      · exact ih
      · exact C.pure _

theorem rows (n : Nat) (head : LoopHead) : R (head.rows n) (head.rows n) := by
  unfold LoopHead.rows
  split
  · refine C.reading (fun _ _ h => by simp only [h.stack, and_self]) fun s => ?_
    split
    · exact C.failWith _
    · exact C.ofRuntime _
    · exact C.failWith _
  · exact C.bind (C.expand n _) fun _ => C.pure _

theorem withIsolation {α : Type} {x y : Run Session α} (isolation : CallIsolation)
    (params : List (String × Value)) (h : R x y) :
    R (Session.withIsolation isolation params x) (Session.withIsolation isolation params y) := by
  have bound := C.bind (C.bindAll params) fun _ => h
  cases isolation with
  | none => exact bound
  | default =>
      exact C.reading (fun _ _ h => by simp only [h.store, and_self]) fun s =>
        C.onVariables s.store bound
  | high => exact C.onVariables .empty bound

theorem complete (n : Nat) (sig : Signature) (slots : List (Parameter × Option Value)) :
    R (sig.complete n slots) (sig.complete n slots) := by
  induction slots with
  | nil => exact C.pure _
  | cons slot rest ih =>
      obtain ⟨p, given⟩ := slot
      unfold Signature.complete
      dsimp only
      split
      · refine C.bind (C.pure _) fun v? => C.bind ih fun _ => ?_
        cases v? <;> exact C.pure _
      · refine C.bind (C.map some (C.expand n _)) fun v? => C.bind ih fun _ => ?_
        cases v? <;> exact C.pure _
      · split
        · refine C.bind (C.failWith _) fun v? => C.bind ih fun _ => ?_
          cases v? <;> exact C.pure _
        · refine C.bind (C.pure _) fun v? => C.bind ih fun _ => ?_
          cases v? <;> exact C.pure _

theorem signatureBind (n : Nat) (sig : Signature) (args : List (Option String × Value)) :
    R (sig.bind n args) (sig.bind n args) :=
  C.bind (C.ofRuntime _) fun _ => C.complete n sig _

theorem expandArguments (n : Nat) (args : List Argument) :
    R (Invocation.expandArguments n args) (Invocation.expandArguments n args) := by
  induction args with
  | nil => exact C.pure _
  | cons a rest ih => exact C.bind (C.expand n a.value) fun _ => C.bind ih fun _ => C.pure _

theorem resolve (n : Nat) (call : Invocation) : R (call.resolve n) (call.resolve n) := by
  refine C.reading (fun _ _ h => by simp only [h.stack, and_self]) fun s => ?_
  split
  · refine C.bind (C.withPhase _ ?_) fun _ => C.pure _
    exact C.bind (C.expandArguments n _) fun _ => C.signatureBind n _ _
  · exact C.failWith _

variable {exec exec' : Executor} (hexec : ∀ a, R (exec a) (exec' a))

include hexec

theorem runAll (items : List Action) : R (runAll exec items) (runAll exec' items) := by
  induction items with
  | nil => exact C.pure _
  | cons a rest ih =>
      refine C.bind (hexec a) ?_
      rintro (_ | signal)
      · exact ih
      · exact C.pure _

theorem forRows (namePrefix : String) (body : List Action) (rows : List Row) :
    R (forRows exec namePrefix body rows) (forRows exec' namePrefix body rows) := by
  induction rows with
  | nil => exact C.pure _
  | cons row rest ih =>
      refine C.bind (C.withVars row namePrefix (C.runAll hexec body)) ?_
      rintro (_ | _ | v)
      · exact ih
      · exact C.pure _
      · exact C.pure _

theorem forEachLoop (n : Nat) (head : LoopHead) (body : List Action) :
    R (forEachLoop exec n head body) (forEachLoop exec' n head body) :=
  C.bind (C.rows n head) fun _ => C.forRows hexec _ body _

theorem whileLoop (n : Nat) (condition : Condition) (maxCount : Option Nat) (body : List Action)
    (steps count : Nat) :
    R (whileLoop exec n condition maxCount body steps count)
      (whileLoop exec' n condition maxCount body steps count) := by
  induction steps generalizing count with
  | zero => exact C.unfinished
  | succ steps ih =>
      rw [whileLoop_succ, whileLoop_succ]
      refine C.bind (C.conditionTest n condition) fun holds => ?_
      split
      · exact C.pure _
      · split
        · exact C.pure _
        · refine C.bind (C.checkRounds count) fun _ => C.bind (C.runAll hexec body) ?_
          rintro (_ | _ | v)
          · exact ih (count + 1)
          · exact C.pure _
          · exact C.pure _

theorem enter (call : Invocation) (b : BoundSub) : R (call.enter exec b) (call.enter exec' b) :=
  C.reading (fun _ _ h => by simp only [h.defaultIsolation, and_self]) fun _ =>
    C.withFrame _ _ (C.withIsolation _ b.params (C.runAll hexec b.body))

theorem invocation (n : Nat) (call : Invocation) :
    R (call.perform exec n) (call.perform exec' n) := by
  rw [Invocation.perform_eq, Invocation.perform_eq]
  exact C.bind (C.resolve n call) fun b => C.bind (C.enter hexec call b) fun _ => C.deliver call _

theorem handle (handlers : List Action) (e : ScriptError) (fault : Fault)
    (hfault : e.fault? = some fault) :
    R (SectionsOf.handle exec (some handlers) e) (SectionsOf.handle exec' (some handlers) e) := by
  unfold SectionsOf.handle
  rw [hfault]
  exact C.bind C.freshIdentity fun _ => C.withException _ (C.runAll hexec handlers)

theorem attempted (sections : SectionsOf Action) :
    R (sections.attempted exec) (sections.attempted exec') := by
  unfold SectionsOf.attempted
  cases sections.attempt with
  | none => exact C.pure _
  | some items =>
      cases sections.handlers with
      | none =>
          have huncaught (exec : Executor) : SectionsOf.handle exec none = MonadExcept.throw := rfl
          dsimp only
          rw [huncaught, huncaught, Run.tryCatch_throw, Run.tryCatch_throw]
          exact C.runAll hexec items
      | some handlers =>
          refine C.tryFault (C.runAll hexec items) (C.handle hexec handlers) fun e hfault => ?_
          unfold SectionsOf.handle
          rw [hfault]
          exact ⟨rfl, rfl⟩

/-- Every node is performed in related ways, if its sections are. -/
theorem perform (n : Nat) (a : Action)
    (hsections : ∀ sections, a.sections? = some sections →
      R (sections.perform exec) (sections.perform exec')) :
    R (a.perform exec n) (a.perform exec' n) := by
  cases a with
  | sequence label items => exact C.runAll hexec items
  | block label sections allowOrphans => exact hsections sections rfl
  | script label sections =>
      refine C.bind (hsections sections rfl) ?_
      rintro (_ | _ | v) <;> exact C.pure _
  | returnWith identity value =>
      cases value with
      | none => exact C.pure _
      | some text => exact C.bind (C.expand n text) fun _ => C.pure _
  | breakLoop identity => exact C.pure _
  | assign identity name value rules =>
      cases value with
      | none => exact C.bind (C.erase name) fun _ => C.pure _
      | some text =>
          exact C.bind (C.transform n rules [] (.str text)) fun v =>
            C.bind (C.setVar name v) fun _ => C.pure _
  | print identity text rules =>
      exact C.bind (C.transform n rules [] (.str text)) fun v =>
        C.bind (C.writeLine v.text) fun _ => C.pure _
  | eval identity expr output =>
      refine C.bind (C.evaluate n expr) fun v => ?_
      cases output with
      | none => exact C.pure _
      | some name => exact C.bind (C.setVar name v) fun _ => C.pure _
  | throw identity message => exact C.bind (C.expand n message) fun _ => C.fault _
  | branch label condition body otherwise =>
      refine C.bind (C.conditionTest n condition) fun holds => ?_
      split
      · exact C.runAll hexec body
      · exact C.runAll hexec _
  | forEach label head body => exact C.forEachLoop hexec n head body
  | repeatWhile label condition maxCount body => exact C.whileLoop hexec n condition maxCount body n 0
  | rowSet identity table => exact C.pure _
  | sub identity signature body => exact C.pure _
  | call label invocation => exact C.invocation hexec n invocation
  | requestAbort identity => exact C.bind C.requestAbort fun _ => C.pure _
  | writeTrace identity =>
      exact C.reading (fun _ _ h => by simp only [h.stack, and_self]) fun s =>
        C.bind (C.writeLine _) fun _ => C.pure _
  | writeFound identity id =>
      exact C.reading (fun _ _ h => by simp only [h.stack, and_self]) fun s =>
        C.bind (C.writeLine _) fun _ => C.pure _

end RunRel.Executive

namespace RunRel.Blockwise

variable {R : RunRel Session} (C : R.Blockwise)

include C

theorem sections {exec exec' : Executor} (hexec : ∀ a, R (exec a) (exec' a))
    (sections : SectionsOf Action) : R (sections.perform exec) (sections.perform exec') := by
  refine C.bind (C.runAll hexec sections.items) ?_
  rintro (_ | signal)
  · cases hc : sections.cleanup with
    | none => exact C.attempted hexec sections
    | some items => exact C.cleanedUp items (C.attempted hexec sections) (C.runAll hexec items)
  · exact C.pure _

/-- Every execution is related to itself, by induction on the steps. -/
theorem execute (n : Nat) (a : Action) : R (a.execute n) (a.execute n) := by
  induction n generalizing a with
  | zero => exact C.unfinished
  | succ n ih =>
      refine C.bind C.checkAbort fun _ => C.withFrame _ a ?_
      exact C.perform ih n a fun sections _ => C.sections ih sections

end RunRel.Blockwise

end ActionTree
