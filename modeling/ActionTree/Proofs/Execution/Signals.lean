import ActionTree.Action.Tree
import ActionTree.Proofs.Execution.Basic
import ActionTree.Proofs.Session.Scope

/-!
# Signals and their boundaries

A break stays in the nearest loop, script or call, a result in the nearest call. Which signals an action
can end with is read off its tree.
-/

namespace ActionTree

namespace Action

/-- Is there a node in the tree that gives a signal, and does every node above it pass the signal on? -/
def reaches (gives passes : Action → Bool) (a : Action) : Bool :=
  gives a || passes a && a.children.attach.any fun c => reaches gives passes c.1
termination_by sizeOf a
decreasing_by exact sizeOf_lt_of_mem_children c.2

def isBreak : Action → Bool
  | breakLoop .. => true
  | _ => false

def isReturn : Action → Bool
  | returnWith .. => true
  | _ => false

/-- Do breaks of the nodes below leave the node? -/
def passesBreak : Action → Bool
  | sequence .. | block .. | branch .. => true
  | _ => false

/-- Do results of the nodes below leave the node? -/
def passesReturn : Action → Bool
  | sequence .. | block .. | branch .. | script .. | forEach .. | repeatWhile .. => true
  | _ => false

def mayBreak : Action → Bool := reaches isBreak passesBreak

def mayReturn : Action → Bool := reaches isReturn passesReturn

theorem reaches_eq (gives passes : Action → Bool) (a : Action) :
    a.reaches gives passes = (gives a || passes a && a.children.any (reaches gives passes)) := by
  rw [reaches, List.any_subtype (fun _ _ => rfl), List.unattach_attach]

theorem reaches_of_child {gives passes : Action → Bool} {a c : Action} (ha : passes a = true)
    (hc : c ∈ a.children) (h : c.reaches gives passes = true) : a.reaches gives passes = true := by
  have hany : a.children.any (reaches gives passes) = true := List.any_eq_true.2 ⟨c, hc, h⟩
  rw [reaches_eq, ha, hany, Bool.true_and, Bool.or_true]

end Action

namespace Signal

/-- Is it a signal that the tree can end with? -/
def mayLeave : Signal → Action → Bool
  | breakLoop => Action.mayBreak
  | returnWith _ => Action.mayReturn

/-- Does the node pass this signal on? -/
def passes : Signal → Action → Bool
  | breakLoop => Action.passesBreak
  | returnWith _ => Action.passesReturn

/-- Can one of the actions end with the signal? -/
def Among (items : List Action) (signal : Signal) : Prop := ∃ a ∈ items, signal.mayLeave a = true

theorem mayLeave_of_child {signal : Signal} {a : Action} (ha : signal.passes a = true)
    (h : signal.Among a.children) : signal.mayLeave a = true := by
  obtain ⟨c, hc, h⟩ := h
  cases signal with
  | breakLoop => exact Action.reaches_of_child ha hc h
  | returnWith v => exact Action.reaches_of_child ha hc h

end Signal

namespace Run

/-- Every signal that the run ends with has the property. -/
def Signals (P : Signal → Prop) (x : Run Session Outcome) : Prop :=
  ∀ ⦃s signal s'⦄, x s = some (.ok (some signal), s') → P signal

namespace Signals

variable {α : Type} {P Q : Signal → Prop} {x : Run Session Outcome}

theorem mono (h : Signals P x) (hPQ : ∀ signal, P signal → Q signal) : Signals Q x :=
  fun _ _ _ hx => hPQ _ (h hx)

theorem silent : Signals P (pure none) := by
  intro s signal s' h
  have hnone : (none : Outcome) = some signal := Except.ok.inj (congrArg Prod.fst (Option.some.inj h))
  cases hnone

theorem given {signal : Signal} (h : P signal) : Signals P (pure (some signal)) := by
  intro s signal' s' hx
  have hsome : some signal = some signal' := Except.ok.inj (congrArg Prod.fst (Option.some.inj hx))
  cases hsome
  exact h

theorem raised (e : ScriptError) : Signals P (throw e) := by
  intro s signal s' h
  cases congrArg Prod.fst (Option.some.inj h)

theorem unfinished : Signals P Run.unfinished := by
  intro s signal s' h
  cases (show (none : Option (Except ScriptError Outcome × Session)) = some _ from h)

theorem bind {x : Run Session α} {f : α → Run Session Outcome} (h : ∀ a, Signals P (f a)) :
    Signals P (x >>= f) := by
  intro s signal s' hx
  rcases Run.bind_inv hx with ⟨a, t, _, hf⟩ | ⟨e, _, he⟩
  · exact h a hf
  · cases he

/-- What follows an outcome need only keep to the property after outcomes that the run can give. -/
theorem andThen {f : Outcome → Run Session Outcome} (hx : Signals P x) (hnone : Signals Q (f none))
    (hsome : ∀ signal, P signal → Signals Q (f (some signal))) : Signals Q (x >>= f) := by
  intro s signal s' h
  rcases Run.bind_inv h with ⟨outcome, t, hfirst, hf⟩ | ⟨e, _, he⟩
  · cases outcome with
    | none => exact hnone hf
    | some first => exact hsome first (hx hfirst) hf
  · cases he

theorem guarded {f : ScriptError → Run Session Outcome} (hx : Signals P x)
    (hf : ∀ e, Signals P (f e)) : Signals P (tryCatch x f) := by
  intro s signal s' h
  cases hfirst : x s with
  | none =>
      rw [Run.tryCatch_of_none f hfirst] at h
      cases h
  | some p =>
      obtain ⟨result, t⟩ := p
      cases result with
      | ok outcome =>
          rw [Run.tryCatch_of_ok f hfirst] at h
          cases h
          exact hx hfirst
      | error e =>
          rw [Run.tryCatch_of_error f hfirst] at h
          exact hf e h

/-! ## Scopes -/

theorem withVars (hx : Signals P x) (overlay : List (String × Value)) (namePrefix : String) :
    Signals P (Session.withVars overlay namePrefix x) := by
  intro s signal s' h
  obtain ⟨t, vars, _, ⟨fault, hr, _⟩ | ⟨bound, hbody⟩⟩ := Session.withVars_inv h
  · cases hr
  · exact hx hbody

theorem withException (hx : Signals P x) (caught : CaughtFault) :
    Signals P (Session.withException caught x) := by
  intro s signal s' h
  obtain ⟨t, hbody, _⟩ := Session.withException_inv h
  exact hx hbody

theorem withFrame (hx : Signals P x) (phase : Phase) (a : Action) :
    Signals P (Session.withFrame phase a x) := by
  intro s signal s' h
  rcases Session.withFrame_inv h with ⟨⟨fault, hr⟩, _⟩ | ⟨result, t, hbody, hr, _⟩
  · cases hr
  · cases result with
    | error e => cases hr
    | ok outcome =>
        cases hr
        exact hx hbody

/-! ## Runs of several actions -/

variable {exec : Executor}

theorem runAll {items : List Action} (h : ∀ a ∈ items, Signals P (exec a)) :
    Signals P (runAll exec items) := by
  induction items with
  | nil => exact silent
  | cons a rest ih =>
      have hrest : Signals P (ActionTree.runAll exec rest) := ih fun c hc => h c (List.mem_cons_of_mem a hc)
      exact andThen (h a List.mem_cons_self) hrest fun signal hsignal => given hsignal

theorem handle {handlers : Option (List Action)} (h : ∀ a ∈ handlers.getD [], Signals P (exec a))
    (e : ScriptError) : Signals P (SectionsOf.handle exec handlers e) := by
  unfold SectionsOf.handle
  split
  · rename_i items fault hfault
    exact bind fun identity => withException (runAll h) ⟨identity, fault, e.trace⟩
  · exact raised e

/-- A signal of the cleanup takes the place of the body's, so that it may be any of either. -/
theorem cleanedUp {cleanup : Option (List Action)} (hx : Signals P x)
    (h : ∀ a ∈ cleanup.getD [], Signals P (exec a)) :
    Signals P (SectionsOf.cleanedUp exec cleanup x) := by
  cases cleanup with
  | none => exact hx
  | some items =>
      intro s signal s' hrun
      obtain ⟨resolved, t, last, hbody, hlast, hend⟩ := SectionsOf.cleanedUp_inv hrun
      rcases hend with ⟨_, hr⟩ | ⟨_, hr⟩
      · cases hr
        exact hx hbody
      · cases hr
        exact runAll h hlast

theorem sections {parts : SectionsOf Action} (h : ∀ a ∈ parts.all, Signals P (exec a)) :
    Signals P (parts.perform exec) := by
  have hitems : ∀ a ∈ parts.items, Signals P (exec a) := fun a ha => h a (by simp [SectionsOf.all, ha])
  have hattempt : ∀ a ∈ parts.attempt.getD [], Signals P (exec a) :=
    fun a ha => h a (by simp [SectionsOf.all, ha])
  have hhandlers : ∀ a ∈ parts.handlers.getD [], Signals P (exec a) :=
    fun a ha => h a (by simp [SectionsOf.all, ha])
  have hcleanup : ∀ a ∈ parts.cleanup.getD [], Signals P (exec a) :=
    fun a ha => h a (by simp [SectionsOf.all, ha])
  have hattempted : Signals P (parts.attempted exec) := by
    unfold SectionsOf.attempted
    cases hparts : parts.attempt with
    | none => exact silent
    | some items =>
        rw [hparts] at hattempt
        exact guarded (runAll hattempt) (handle hhandlers)
  exact andThen (runAll hitems) (cleanedUp hattempted hcleanup) fun signal hsignal => given hsignal

/-! ## Loops and calls -/

variable {body : List Action}

/-- A loop keeps breaks of its body to itself. -/
theorem forRows (h : Signals (fun signal => signal ≠ .breakLoop → P signal) (ActionTree.runAll exec body))
    (namePrefix : String) (rows : List Row) : Signals P (forRows exec namePrefix body rows) := by
  induction rows with
  | nil => exact silent
  | cons row rest ih =>
      refine andThen (withVars h row namePrefix) ih fun signal hsignal => ?_
      cases signal with
      | breakLoop => exact silent
      | returnWith v => exact given (hsignal Signal.noConfusion)

theorem whileLoop (h : Signals (fun signal => signal ≠ .breakLoop → P signal) (ActionTree.runAll exec body))
    (n : Nat) (condition : Condition) (maxCount : Option Nat) (steps count : Nat) :
    Signals P (whileLoop exec n condition maxCount body steps count) := by
  induction steps generalizing count with
  | zero => exact unfinished
  | succ steps ih =>
      rw [whileLoop_succ]
      refine bind fun holds => ?_
      split
      · exact silent
      · split
        · exact silent
        · refine bind fun _ => andThen h (ih (count + 1)) fun signal hsignal => ?_
          cases signal with
          | breakLoop => exact silent
          | returnWith v => exact given (hsignal Signal.noConfusion)

/-- A call ends with no signal, whatever the body of the sub ends with. -/
theorem invocation (n : Nat) (call : Invocation) : Signals P (call.perform exec n) := by
  rw [Invocation.perform_eq]
  refine bind fun sub => bind fun outcome => ?_
  unfold Invocation.deliver
  split
  · exact bind fun _ => silent
  · exact silent

end Signals

end Run

namespace Action

open Run

/-- If the nodes below an action keep to what their trees can end with, so does what the action does in
its frame. -/
theorem perform_signals {exec : Executor} (n : Nat) (a : Action)
    (h : ∀ c ∈ a.children, Signals (·.mayLeave c) (exec c)) :
    Signals (·.mayLeave a) (a.perform exec n) := by
  have hamong : ∀ c ∈ a.children, Signals (·.Among a.children) (exec c) :=
    fun c hc => (h c hc).mono fun signal hsignal => ⟨c, hc, hsignal⟩
  cases a with
  | sequence label items =>
      exact (Signals.runAll hamong).mono fun signal =>
        Signal.mayLeave_of_child (by cases signal <;> rfl)
  | block label sections allowOrphans =>
      exact (Signals.sections hamong).mono fun signal =>
        Signal.mayLeave_of_child (by cases signal <;> rfl)
  | script label sections =>
      refine Signals.andThen (Signals.sections hamong) Signals.silent fun signal hsignal => ?_
      cases signal with
      | breakLoop => exact Signals.silent
      | returnWith v => exact Signals.given (Signal.mayLeave_of_child rfl hsignal)
  | returnWith identity value =>
      have hgiven : ∀ v, (Signal.returnWith v).mayLeave (.returnWith identity value) = true :=
        fun v => (reaches_eq ..).trans rfl
      cases value with
      | none => exact Signals.given (hgiven _)
      | some text => exact Signals.bind fun v => Signals.given (hgiven v)
  | breakLoop identity => exact Signals.given ((reaches_eq ..).trans rfl)
  | branch label condition body otherwise =>
      have hleave : ∀ signal : Signal, signal.Among (body ++ otherwise.getD []) →
          signal.mayLeave (.branch label condition body otherwise) = true := by
        intro signal hsignal
        have hpasses : signal.passes (.branch label condition body otherwise) = true := by
          cases signal <;> rfl
        exact Signal.mayLeave_of_child hpasses hsignal
      refine Signals.bind fun holds => ?_
      split
      · exact (Signals.runAll fun c hc => hamong c (List.mem_append_left _ hc)).mono hleave
      · exact (Signals.runAll fun c hc => hamong c (List.mem_append_right _ hc)).mono hleave
  | forEach label head body =>
      refine Signals.bind fun rows => Signals.forRows ?_ head.namePrefix (head.limited rows)
      refine (Signals.runAll hamong).mono fun signal hsignal hkept => ?_
      cases signal with
      | breakLoop => exact absurd rfl hkept
      | returnWith v => exact Signal.mayLeave_of_child rfl hsignal
  | repeatWhile label condition maxCount body =>
      refine Signals.whileLoop ?_ n condition maxCount n 0
      refine (Signals.runAll hamong).mono fun signal hsignal hkept => ?_
      cases signal with
      | breakLoop => exact absurd rfl hkept
      | returnWith v => exact Signal.mayLeave_of_child rfl hsignal
  | call label invocation => exact Signals.invocation n invocation
  | assign identity name value rules =>
      cases value with
      | none => exact Signals.bind fun _ => Signals.silent
      | some text => exact Signals.bind fun v => Signals.bind fun _ => Signals.silent
  | eval identity expr output =>
      refine Signals.bind fun v => ?_
      cases output with
      | none => exact Signals.silent
      | some name => exact Signals.bind fun _ => Signals.silent
  | throw identity message => exact Signals.bind fun text => Signals.raised _
  | print | writeTrace | writeFound => exact Signals.bind fun _ => Signals.bind fun _ => Signals.silent
  | requestAbort identity => exact Signals.bind fun _ => Signals.silent
  | rowSet | sub => exact Signals.silent

theorem execute_signals (n : Nat) (a : Action) : Signals (·.mayLeave a) (a.execute n) := by
  induction n generalizing a with
  | zero => exact Signals.unfinished
  | succ n ih =>
      have hperform := perform_signals n a fun c _ => ih c
      exact Signals.bind fun _ => Signals.withFrame hperform .executing a

/-- A call keeps every signal to itself, a loop its breaks. -/
theorem mayLeave_call (signal : Signal) (label : Label) (invocation : Invocation) :
    signal.mayLeave (.call label invocation) = false := by
  cases signal with
  | breakLoop => exact reaches_eq ..
  | returnWith v => exact reaches_eq ..

theorem mayBreak_forEach (label : Label) (head : LoopHead) (body : List Action) :
    (forEach label head body).mayBreak = false := reaches_eq ..

theorem mayBreak_repeatWhile (label : Label) (condition : Condition) (maxCount : Option Nat)
    (body : List Action) : (repeatWhile label condition maxCount body).mayBreak = false :=
  reaches_eq ..

variable {n : Nat} {root : Action} {s s' : Session} {outcome : Outcome}

/-- An execution ends with a break only if the tree has one with no loop, script or call around it, and
with a result only if the tree has a return with no call around it. What the subs that are called do
shows neither in calls nor in the loops around them. -/
theorem execute_within_boundaries (h : root.execute n s = some (.ok outcome, s')) :
    (outcome = some .breakLoop → root.mayBreak = true) ∧
    (∀ v, outcome = some (.returnWith v) → root.mayReturn = true) ∧
    (∀ label invocation, root = .call label invocation → outcome = none) ∧
    (∀ label head body, root = .forEach label head body → outcome ≠ some .breakLoop) ∧
    (∀ label condition maxCount body, root = .repeatWhile label condition maxCount body →
      outcome ≠ some .breakLoop) := by
  have hleave : ∀ signal, outcome = some signal → signal.mayLeave root = true := by
    intro signal hsome
    cases hsome
    exact execute_signals n root h
  refine ⟨hleave .breakLoop, fun v => hleave (.returnWith v), ?_, ?_, ?_⟩
  · intro label invocation hroot
    cases hout : outcome with
    | none => rfl
    | some signal =>
        have hcall := hleave signal hout
        rw [hroot, mayLeave_call] at hcall
        cases hcall
  · intro label head body hroot hbreak
    have hloop : root.mayBreak = true := hleave .breakLoop hbreak
    rw [hroot, mayBreak_forEach] at hloop
    cases hloop
  · intro label condition maxCount body hroot hbreak
    have hloop : root.mayBreak = true := hleave .breakLoop hbreak
    rw [hroot, mayBreak_repeatWhile] at hloop
    cases hloop

/-- A loop that breaks in an attempt whose cleanup returns. -/
def breakOnTheWay : Action :=
  .script ⟨0, none⟩ { items := [
    .repeatWhile ⟨1, none⟩ {} none [
      .block ⟨2, none⟩
        { items := [], attempt := some [.breakLoop 3], cleanup := some [.returnWith 4 none] } false]] }

theorem breakOnTheWay_ends : (match breakOnTheWay.execute 9 (.start {} {}) with
    | some (.ok (some (.returnWith .null)), _) => true
    | _ => false) = true := by decide +kernel

/-- The return takes the place of the break, and leaves the loop and the script. -/
theorem breakOnTheWay_returns :
    ∃ s', breakOnTheWay.execute 9 (.start {} {}) = some (.ok (some (.returnWith .null)), s') ∧
      breakOnTheWay.mayReturn = true := by
  have hends := breakOnTheWay_ends
  split at hends
  next s' hrun => exact ⟨s', hrun, (execute_within_boundaries hrun).2.1 .null rfl⟩
  next => cases hends

end Action

end ActionTree
