import ActionTree.Proofs.Execution.Course

/-!
# The log of an execution

What happens in the course of work, one moment after the other, with what is called in its place: steps,
questions and calls, scopes that are entered and left, and errors at the moment that they are raised. An
error on its way out leaves one scope after the other; a frame gives it a trace if it has none.
-/

namespace ActionTree

/-- A moment of an execution, and the session then. A scope is left with an error or with none. -/
inductive LogEntry where
  | event (e : Event) (s : Session)
  | entered (scope : Scope) (s : Session)
  | left (scope : Scope) (e : Option ScriptError) (s : Session)
  | raised (e : ScriptError) (s : Session)

namespace LogEntry

def session : LogEntry → Session
  | event _ s | entered _ s | left _ _ s | raised _ s => s

variable {α : Type}

/-- The error that something ended with. -/
def raising : Option (Except ScriptError α × Session) → List LogEntry
  | some (.error e, s) => [raised e s]
  | _ => []

/-- What comes after something that ended with a result. -/
def continuing (next : α → Session → List LogEntry) :
    Option (Except ScriptError α × Session) → List LogEntry
  | some (.ok a, s) => next a s
  | _ => []

/-- The end of what ran in the scope. -/
def leaving (scope : Scope) : Option (Except ScriptError α × Session) → List LogEntry
  | some (.error e, s) => [left scope (some e) s]
  | some (.ok _, s) => [left scope none s]
  | none => []

theorem raised_not_mem_leaving {scope : Scope} {r? : Option (Except ScriptError α × Session)}
    {e : ScriptError} {s : Session} : raised e s ∉ leaving scope r? := by
  rcases r? with _ | ⟨_ | _, _⟩ <;> simp [leaving]

theorem singleton_split {before after : List LogEntry} {only entry : LogEntry}
    (h : [only] = before ++ entry :: after) : before = [] ∧ entry = only ∧ after = [] := by
  rcases List.append_eq_singleton_iff.mp h.symm with ⟨rfl, hrest⟩ | ⟨_, hrest⟩
  · cases hrest
    exact ⟨rfl, rfl, rfl⟩
  · cases hrest

/-- Whether an entry of a log made of two parts is in the first or in the second. -/
theorem append_cases {l₁ l₂ before after : List LogEntry} {entry : LogEntry}
    (h : l₁ ++ l₂ = before ++ entry :: after) :
    (∃ rest, l₁ = before ++ entry :: rest ∧ after = rest ++ l₂) ∨
      ∃ front, before = l₁ ++ front ∧ l₂ = front ++ entry :: after := by
  rcases List.append_eq_append_iff.mp h with ⟨front, hbefore, hl₂⟩ | ⟨rest, hl₁, hrest⟩
  · exact .inr ⟨front, hbefore, hl₂⟩
  · cases rest with
    | nil => exact .inr ⟨[], by simpa using hl₁.symm, by simpa using hrest.symm⟩
    | cons first rest =>
        obtain ⟨rfl, rfl⟩ := List.cons.inj hrest
        exact .inl ⟨rest, hl₁, rfl⟩

end LogEntry

/-- What happens when the work is done; `calls` says what happens in what it calls. -/
def Work.log (exec : Executor) (n k : Nat) (calls : Call → Session → List LogEntry) :
    {α : Type} → Work α → Session → List LogEntry
  | _, step x _, s => match x s with
    | some (.error e, t) => [.raised e t]
    | _ => [.event .step s]
  | _, inquire q, s => .event (.inquiry q) s :: LogEntry.raising (q.run n s)
  | _, call c, s => .event (.call c) s :: calls c s
  | _, bind x f, s => x.log exec n k calls s ++
    LogEntry.continuing (fun a t => (f a).log exec n k calls t) (x.run exec n k s)
  | _, settle x, s => x.log exec n k calls s
  | _, within scope x, s => match scope.enter s with
    | some t => .entered scope t :: (x.log exec n k calls t ++ LogEntry.leaving scope (x.run exec n k t))
    | none => LogEntry.raising (scope.run (x.run exec n k) s)

/-- What happens when a call is made, in at most `k` rounds if it is a loop. -/
def Call.logBy (exec : Executor) (actions : Action → Session → List LogEntry) (n : Nat) :
    Nat → Call → Session → List LogEntry
  | _, action a, s => actions a s
  | 0, rounds .., _ => []
  | k + 1, rounds label condition maxCount body count, s =>
    (rounds label condition maxCount body count).work.log exec n k (logBy exec actions n k) s

/-- What happens when an action is executed in at most `n` steps. -/
def Action.log : Nat → Action → Session → List LogEntry
  | 0, _, _ => []
  | n + 1, a, s => (Call.action a).work.log (execute n) n n (Call.logBy (execute n) (log n) n n) s

/-- What happens in a call when actions are executed in at most `n` steps. -/
def Call.log (n k : Nat) (c : Call) (s : Session) : List LogEntry :=
  logBy (Action.execute n) (Action.log n) n k c s

/-- What happens when a tree is checked, and when it is compiled. Nothing is called then. -/
def Action.checkLog (a : Action) (s : Session) : List LogEntry :=
  a.checking.log (execute 0) 0 0 (Call.log 0 0) s

def Action.compileLog (root : Action) (s : Session) : List LogEntry :=
  root.compiling.log (execute 0) 0 0 (Call.log 0 0) s

theorem Call.log_action (a : Action) (n k : Nat) (s : Session) : (action a).log n k s = a.log n s := by
  cases k <;> rfl

/-- What holds of calls for which no steps are left, and of each call if it holds of the calls that it
makes, holds of all calls; by induction on the steps, and on the rounds that a loop may still make. -/
theorem Call.induction {P : Nat → Nat → Call → Prop} (hstart : ∀ k a, P 0 k (.action a))
    (hlast : ∀ n label condition maxCount body count, P n 0 (.rounds label condition maxCount body count))
    (haction : ∀ n k a, (∀ d, P n n d) → P (n + 1) k (.action a))
    (hround : ∀ n k label condition maxCount body count, (∀ d, P n k d) →
      P n (k + 1) (.rounds label condition maxCount body count))
    (n k : Nat) (c : Call) : P n k c := by
  have hrounds (n : Nat) (hactions : ∀ k a, P n k (.action a)) : ∀ k c, P n k c := by
    intro k
    induction k with
    | zero =>
        rintro (a | ⟨label, condition, maxCount, body, count⟩)
        · exact hactions 0 a
        · exact hlast n label condition maxCount body count
    | succ k ih =>
        rintro (a | ⟨label, condition, maxCount, body, count⟩)
        · exact hactions (k + 1) a
        · exact hround n k label condition maxCount body count ih
  induction n generalizing k c with
  | zero => exact hrounds 0 hstart k c
  | succ n ih => exact hrounds (n + 1) (fun k a => haction n k a (ih n)) k c

/-- What holds of calls that do not come to an end in time, and of the log and the end of each call if it
holds of those of the calls that it makes, holds of the logs and the ends of all calls. -/
theorem Call.log_induction
    {P : Call → Session → List LogEntry → Option (Except ScriptError Outcome × Session) → Prop}
    (hunfinished : ∀ c s, P c s [] none)
    (hwork : ∀ c n k s, (∀ d u, P d u (d.log n k u) (d.run (Action.execute n) n k u)) →
      P c s (c.work.log (Action.execute n) n k (Call.log n k) s) (c.work.run (Action.execute n) n k s))
    (n k : Nat) (c : Call) (s : Session) : P c s (c.log n k s) (c.run (Action.execute n) n k s) := by
  refine Call.induction (P := fun n k c => ∀ s, P c s (c.log n k s) (c.run (Action.execute n) n k s))
    (fun k a s => ?_) (fun n label condition maxCount body count s => hunfinished _ s)
    (fun n k a ih s => ?_) (fun n k label condition maxCount body count ih s => ?_) n k c s
  · rw [log_action]
    exact hunfinished _ s
  · rw [log_action, run_action]
    exact hwork (action a) n n s ih
  · rw [run_rounds]
    exact hwork _ n k s ih

namespace Work

variable {α β : Type} {exec : Executor} {n k : Nat} {calls : Call → Session → List LogEntry}

theorem log_bind_of_ok {x : Work α} {s t : Session} {a : α} (f : α → Work β)
    (h : x.run exec n k s = some (.ok a, t)) : (x >>= f).log exec n k calls s =
      x.log exec n k calls s ++ (f a).log exec n k calls t := by
  change _ ++ LogEntry.continuing _ (x.run exec n k s) = _
  rw [h]
  rfl

theorem log_bind_of_error {x : Work α} {s t : Session} {e : ScriptError} (f : α → Work β)
    (h : x.run exec n k s = some (.error e, t)) :
    (x >>= f).log exec n k calls s = x.log exec n k calls s := by
  change _ ++ LogEntry.continuing _ (x.run exec n k s) = _
  rw [h]
  exact List.append_nil _

theorem log_bind_of_none {x : Work α} {s : Session} (f : α → Work β) (h : x.run exec n k s = none) :
    (x >>= f).log exec n k calls s = x.log exec n k calls s := by
  change _ ++ LogEntry.continuing _ (x.run exec n k s) = _
  rw [h]
  exact List.append_nil _

/-- What comes after the first part goes on with the result of that, if there is one. -/
theorem log_bind_cases {x : Work α} {f : α → Work β} {s : Session}
    {motive : List LogEntry → Option (Except ScriptError β × Session) → Prop}
    (hnone : x.run exec n k s = none → motive (x.log exec n k calls s) none)
    (herror : ∀ e t, x.run exec n k s = some (.error e, t) →
      motive (x.log exec n k calls s) (some (.error e, t)))
    (hok : ∀ a t, x.run exec n k s = some (.ok a, t) →
      motive (x.log exec n k calls s ++ (f a).log exec n k calls t) ((f a).run exec n k t)) :
    motive ((x >>= f).log exec n k calls s) ((x >>= f).run exec n k s) := by
  rw [run_bind]
  cases hend : x.run exec n k s with
  | none =>
      rw [log_bind_of_none f hend, Run.bind_of_none _ hend]
      exact hnone hend
  | some p =>
      obtain ⟨e | a, t⟩ := p
      · rw [log_bind_of_error f hend, Run.bind_of_error _ hend]
        exact herror e t hend
      · rw [log_bind_of_ok f hend, Run.bind_of_ok _ hend]
        exact hok a t hend

theorem log_within {x : Work α} {scope : Scope} {s t : Session} (h : scope.enter s = some t) :
    (within scope x).log exec n k calls s =
      .entered scope t :: (x.log exec n k calls t ++ LogEntry.leaving scope (x.run exec n k t)) := by
  rw [log, h]

theorem log_within_refused {x : Work α} {scope : Scope} {s : Session} (h : scope.enter s = none) :
    (within scope x).log exec n k calls s = LogEntry.raising ((within scope x).run exec n k s) := by
  rw [log, h]
  rfl

end Work

end ActionTree
