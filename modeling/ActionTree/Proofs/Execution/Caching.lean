import ActionTree.Proofs.Execution.Related
import ActionTree.Proofs.ExprCache
import ActionTree.Proofs.Session.Scope

/-!
# The cache of expressions is invisible

Two sessions that differ in their caches only, and in the capacity that the configuration asks for, do
the same: whatever is evaluated, transformed, prepared or executed ends in both with the same result, and
in sessions that again differ in their caches only.
-/

namespace ActionTree

namespace Session

/-- The sessions agree in everything but the cache and its capacity in the configuration; each cache was
only used to read texts. -/
structure SameButCache (s t : Session) : Prop where
  left : s.cache.Reachable
  right : t.cache.Reachable
  rest : ∃ cache capacity,
    t = { s with cache, config := { s.config with cacheCapacity := capacity } }

/-- The same run up to caches: both end with the same result, or none comes to an end. -/
inductive SameRun {α : Type} :
    Option (Except ScriptError α × Session) → Option (Except ScriptError α × Session) → Prop where
  | unfinished : SameRun none none
  | ended (r : Except ScriptError α) {s t : Session} :
      s.SameButCache t → SameRun (some (r, s)) (some (r, t))

variable {s t : Session} {α β : Type}

theorem SameButCache.alike (h : s.SameButCache t) : s.Alike t := by
  obtain ⟨_, _, cache, capacity, rfl⟩ := h
  exact ⟨rfl, rfl, rfl, rfl, rfl, rfl, rfl⟩

/-- A change that has to do with neither the cache nor its capacity. -/
theorem SameButCache.change (h : s.SameButCache t) (f : Session → Session)
    (hcache : ∀ u, (f u).cache = u.cache)
    (hrest : ∀ u cache capacity,
      f { u with cache, config := { u.config with cacheCapacity := capacity } } =
        { f u with cache, config := { (f u).config with cacheCapacity := capacity } }) :
    (f s).SameButCache (f t) := by
  obtain ⟨left, right, cache, capacity, rfl⟩ := h
  exact ⟨(hcache s).symm ▸ left, (hcache _).symm ▸ right, cache, capacity, hrest s cache capacity⟩

/-- What a scope does after its body. -/
theorem SameRun.scope {x y : Option (Except ScriptError α × Session)}
    {f g : Except ScriptError α × Session → Except ScriptError β × Session} (h : SameRun x y)
    (hend : ∀ r u v, SameButCache u v →
      (f (r, u)).1 = (g (r, v)).1 ∧ (f (r, u)).2.SameButCache (g (r, v)).2) :
    SameRun (x.map f) (y.map g) := by
  cases h with
  | unfinished => exact .unfinished
  | @ended r u v huv =>
      obtain ⟨hr, hsame⟩ := hend r u v huv
      change SameRun (some ((f (r, u)).1, _)) (some ((g (r, v)).1, _))
      rw [hr]
      exact .ended _ hsame

/-- From sessions that are the same but for the cache, the computations are the same runs. -/
def CacheBlind (x y : Run Session α) : Prop := ∀ ⦃s t⦄, SameButCache s t → SameRun (x s) (y t)

namespace CacheBlind

variable {x y : Run Session α}

theorem bind {f g : α → Run Session β} (h : CacheBlind x y) (hf : ∀ a, CacheBlind (f a) (g a)) :
    CacheBlind (x >>= f) (y >>= g) := by
  intro s t hst
  have hrun := h hst
  generalize hx : x s = left at hrun
  generalize hy : y t = right at hrun
  cases hrun with
  | unfinished =>
      rw [Run.bind_of_none f hx, Run.bind_of_none g hy]
      exact .unfinished
  | ended r huv =>
      cases r with
      | ok a =>
          rw [Run.bind_of_ok f hx, Run.bind_of_ok g hy]
          exact hf a huv
      | error e =>
          rw [Run.bind_of_error f hx, Run.bind_of_error g hy]
          exact .ended _ huv

theorem tryCatch {f g : ScriptError → Run Session α} (h : CacheBlind x y)
    (hf : ∀ e, CacheBlind (f e) (g e)) : CacheBlind (tryCatch x f) (tryCatch y g) := by
  intro s t hst
  have hrun := h hst
  generalize hx : x s = left at hrun
  generalize hy : y t = right at hrun
  cases hrun with
  | unfinished =>
      rw [Run.tryCatch_of_none f hx, Run.tryCatch_of_none g hy]
      exact .unfinished
  | ended r huv =>
      cases r with
      | ok a =>
          rw [Run.tryCatch_of_ok f hx, Run.tryCatch_of_ok g hy]
          exact .ended _ huv
      | error e =>
          rw [Run.tryCatch_of_error f hx, Run.tryCatch_of_error g hy]
          exact hf e huv

theorem parse (kind : ExprKind) (text : String) :
    CacheBlind (Session.parse kind text) (Session.parse kind text) := by
  rintro s _ ⟨left, right, cache, capacity, rfl⟩
  have hparse := (left.parse_eq kind text).trans (right.parse_eq kind text).symm
  have hsame : SameButCache { s with cache := (s.cache.parse kind text).2 }
      { s with
        cache := (cache.parse kind text).2
        config := { s.config with cacheCapacity := capacity } } :=
    ⟨left.parse kind text, right.parse kind text, _, capacity, rfl⟩
  rw [parse_apply, parse_apply]
  dsimp only at hparse ⊢
  generalize s.cache.parse kind text = result at hparse hsame ⊢
  rw [hparse]
  cases (cache.parse kind text).1 with
  | ok e => exact .ended _ hsame
  | error e => exact .ended _ hsame

theorem setVar (name : String) (v : Value) :
    CacheBlind (Session.setVar name v) (Session.setVar name v) := by
  intro s t hst
  have hstore := hst.alike.store
  cases hv : s.store.set name v with
  | ok vars =>
      rw [setVar_of_ok hv, setVar_of_ok (hstore ▸ hv)]
      exact .ended _ (hst.change (fun u => { u with store := vars }) (fun _ => rfl) fun _ _ _ => rfl)
  | error fault =>
      rw [setVar_of_error hv, setVar_of_error (hstore ▸ hv)]
      exact .ended _ hst

theorem writeLine (line : String) : CacheBlind (Session.writeLine line) (Session.writeLine line) := by
  intro s t hst
  have houtputs : t.outputs = s.outputs := by
    obtain ⟨_, _, cache, capacity, rfl⟩ := hst
    rfl
  unfold Session.writeLine
  rw [Run.get_bind_apply, Run.get_bind_apply, houtputs]
  cases s.outputs with
  | nil =>
      exact .ended _ (hst.change (fun u => { u with outputs := [], console := u.console ++ line ++ "\n" })
        (fun _ => rfl) fun _ _ _ => rfl)
  | cons o rest =>
      dsimp only
      cases o.writeLine line with
      | ok o =>
          exact .ended _ (hst.change (fun u => { u with outputs := o :: rest }) (fun _ => rfl)
            fun _ _ _ => rfl)
      | error cause => exact .ended _ hst

theorem checkAbort : CacheBlind Session.checkAbort Session.checkAbort := by
  rintro s _ ⟨left, right, cache, capacity, rfl⟩
  unfold Session.checkAbort
  rw [Run.get_bind_apply, Run.get_bind_apply]
  dsimp only
  split
  · exact .ended _ ⟨left, right, cache, capacity, rfl⟩
  · exact .ended _ ⟨left, right, cache, capacity, rfl⟩

theorem checkRounds (count : Nat) :
    CacheBlind (ActionTree.checkRounds count) (ActionTree.checkRounds count) := by
  rintro s _ ⟨left, right, cache, capacity, rfl⟩
  unfold ActionTree.checkRounds
  rw [Run.get_bind_apply, Run.get_bind_apply]
  dsimp only
  split
  · exact .ended _ ⟨left, right, cache, capacity, rfl⟩
  · exact .ended _ ⟨left, right, cache, capacity, rfl⟩

theorem withVars (overlay : List (String × Value)) (namePrefix : String) (h : CacheBlind x y) :
    CacheBlind (Session.withVars overlay namePrefix x) (Session.withVars overlay namePrefix y) := by
  intro s t hst
  unfold Session.withVars
  rw [← hst.alike.store]
  have hsaved : ∀ p ∈ (bindOver namePrefix [] overlay s.store).2.1, Store.refusal? p.1 = none :=
    bindOver_saved namePrefix overlay s.store (by simp)
  generalize bindOver namePrefix [] overlay s.store = bound at hsaved ⊢
  obtain ⟨vars, saved, fault⟩ := bound
  have hbound := hst.change (fun u => { u with store := vars }) (fun _ => rfl) fun _ _ _ => rfl
  have hback : ∀ (r : Except ScriptError α) u v, SameButCache u v →
      (putBack saved r u).1 = (putBack saved r v).1 ∧
        (putBack saved r u).2.SameButCache (putBack saved r v).2 := by
    intro r u v huv
    rw [putBack_eq r u hsaved, putBack_eq r v hsaved]
    exact ⟨rfl, huv.change (fun u => { u with store := u.store.resetAll saved }) (fun _ => rfl)
      fun _ _ _ => rfl⟩
  cases fault with
  | some fault =>
      have hended := SameRun.ended (α := α) (.error (.runtime fault)) hbound
      exact hended.scope (f := fun p => putBack saved p.1 p.2) (g := fun p => putBack saved p.1 p.2) hback
  | none => exact (h hbound).scope hback

theorem onVariables (vars : Store) (h : CacheBlind x y) :
    CacheBlind (Session.onVariables vars x) (Session.onVariables vars y) := by
  intro s t hst
  have hbound := hst.change (fun u => { u with store := vars }) (fun _ => rfl) fun _ _ _ => rfl
  refine (h hbound).scope fun r u v huv => ⟨rfl, ?_⟩
  rw [← hst.alike.store]
  exact huv.change (fun u => { u with store := s.store }) (fun _ => rfl) fun _ _ _ => rfl

theorem withFrame (phase : Phase) (a : Action) (h : CacheBlind x y) :
    CacheBlind (Session.withFrame phase a x) (Session.withFrame phase a y) := by
  intro s t hst
  have hframed := hst.change (fun u => { u with stack := u.stack.push phase a }) (fun _ => rfl)
    fun _ _ _ => rfl
  have hdeep : t.config.maxCallDepth ≤ t.stack.depth ↔ s.config.maxCallDepth ≤ s.stack.depth := by
    obtain ⟨_, _, cache, capacity, rfl⟩ := hst
    rfl
  unfold Session.withFrame
  by_cases hmax : s.config.maxCallDepth ≤ s.stack.depth
  · rw [if_pos hmax, if_pos (hdeep.mpr hmax)]
    obtain ⟨_, _, cache, capacity, rfl⟩ := id hst
    exact .ended _ hst
  · rw [if_neg hmax, if_neg (mt hdeep.mp hmax)]
    refine (h hframed).scope fun r u v huv => ⟨?_, ?_⟩
    · dsimp only
      rw [huv.alike.stack]
    · exact huv.change (fun u => { u with stack := u.stack.pop }) (fun _ => rfl) fun _ _ _ => rfl

theorem withPhase (phase : Phase) (h : CacheBlind x y) :
    CacheBlind (Session.withPhase phase x) (Session.withPhase phase y) := by
  intro s t hst
  have hphase := hst.change (fun u => { u with stack := u.stack.setPhase phase }) (fun _ => rfl)
    fun _ _ _ => rfl
  refine (h hphase).scope fun r u v huv => ⟨rfl, ?_⟩
  dsimp only
  rw [← hst.alike.stack]
  split
  · rename_i f _
    exact huv.change (fun u => { u with stack := u.stack.setPhase f.phase }) (fun _ => rfl)
      fun _ _ _ => rfl
  · exact huv

theorem withException (c : CaughtFault) (h : CacheBlind x y) :
    CacheBlind (Session.withException c x) (Session.withException c y) := by
  intro s t hst
  have hcaught := hst.change (fun u => { u with currentException := some c }) (fun _ => rfl)
    fun _ _ _ => rfl
  refine (h hcaught).scope fun r u v huv => ⟨rfl, ?_⟩
  rw [← hst.alike.currentException]
  exact huv.change (fun u => { u with currentException := s.currentException }) (fun _ => rfl)
    fun _ _ _ => rfl

theorem cleanedUp {exec exec' : Executor} {x y : Run Session Outcome} (items : List Action)
    (h : CacheBlind x y) (hc : CacheBlind (runAll exec items) (runAll exec' items)) :
    CacheBlind (SectionsOf.cleanedUp exec (some items) x)
      (SectionsOf.cleanedUp exec' (some items) y) := by
  intro s t hst
  have hrun := h hst
  change SameRun ((x s).bind _) ((y t).bind _)
  generalize x s = left at hrun ⊢
  generalize y t = right at hrun ⊢
  cases hrun with
  | unfinished => exact .unfinished
  | ended r huv =>
      refine (hc huv).scope fun last u v huv => ?_
      dsimp only
      split
      · exact ⟨rfl, huv⟩
      · exact ⟨rfl, huv⟩

/-- Nothing that execution does depends on what the cache holds. -/
theorem blockwise : RunRel.Blockwise fun _ x y => CacheBlind x y where
  pure a := fun _ _ h => .ended _ h
  fault _ := fun _ _ h => .ended _ h
  malformed _ := fun _ _ h => .ended _ h
  bind := bind
  unfinished := by
    intro α s t _
    exact .unfinished
  read f alike := by
    intro s t h
    have hf := alike s t h.alike
    change SameRun (some (.ok (f s), s)) (some (.ok (f t), t))
    rw [hf]
    exact .ended _ h
  parse := parse
  setVar := setVar
  freshIdentity := by
    rintro s _ ⟨left, right, cache, capacity, rfl⟩
    exact .ended _ ⟨left, right, cache, capacity, rfl⟩
  erase name := fun _ _ h => .ended _
    (h.change (fun u => { u with store := u.store.erase name }) (fun _ => rfl) fun _ _ _ => rfl)
  writeLine := writeLine
  requestAbort := fun _ _ h => .ended _ (h.change Session.requestAbort (fun _ => rfl) fun _ _ _ => rfl)
  checkAbort := checkAbort
  checkRounds := checkRounds
  withVars := withVars
  onVariables := onVariables
  withFrame := withFrame
  withPhase := withPhase
  withException := withException
  tryFault h hfault hrest := h.tryCatch fun e => by
    cases he : e.fault? with
    | some fault => exact hfault e fault he
    | none =>
        rw [(hrest e he).1, (hrest e he).2]
        exact fun _ _ h => .ended _ h
  cleanedUp := cleanedUp

theorem prepare (root : Action) : CacheBlind root.prepare root.prepare := by
  refine blockwise.toFramewise.prepare (fun s t hst => ?_) fun s t hst => ?_
  · obtain ⟨hs, ht, cache, capacity, rfl⟩ := hst
    exact .ended _ ⟨hs, ht, cache, capacity, rfl⟩
  · exact .ended _ (hst.change
      (fun u => { u with prepared := root.identity :: u.prepared }) (fun _ => rfl) fun _ _ _ => rfl)

theorem run (n : Nat) (root : Action) : CacheBlind (root.run n) (root.run n) :=
  (prepare root).bind fun _ => (blockwise.execute n root).bind fun _ => blockwise.pure _

end CacheBlind

/-- In sessions that differ in their caches only, whatever these hold and however much they take, every
expression and multi-expression has the same value, every transformation gives the same, and every tree
is prepared, executed and run with the same result, the same output and the same changes. -/
theorem cache_invisible {s t : Session} (h : s.SameButCache t) (n : Nat) :
    (∀ text, SameRun (evaluate n text s) (evaluate n text t) ∧
      SameRun (evaluateMulti n text s) (evaluateMulti n text t)) ∧
    (∀ rules replaces v, SameRun (transform n rules replaces v s) (transform n rules replaces v t)) ∧
    ∀ a : Action, SameRun (a.prepare s) (a.prepare t) ∧ SameRun (a.execute n s) (a.execute n t) ∧
      SameRun (a.run n s) (a.run n t) := by
  have C := CacheBlind.blockwise
  refine ⟨fun text => ⟨C.evaluate n text h, ?_⟩, fun rules replaces v => ?_, fun a => ⟨?_, ?_, ?_⟩⟩
  · exact C.evaluateBy (C.lookUp n) .multi text h
  · exact C.transform n rules replaces v h
  · exact CacheBlind.prepare a h
  · exact C.execute n a h
  · exact CacheBlind.run n a h

/-- Counts to two. -/
def countingLoop : Action :=
  .sequence ⟨0, none⟩
    [.eval 1 "i = 0" none,
     .repeatWhile ⟨2, none⟩ ⟨[(.holds, "i < 2")], true⟩ none [.eval 3 "i = i + 1" none]]

/-- A session with a cache for one expression, which is taken. -/
def crowded : Session :=
  { Session.start { cacheCapacity := 1 } {} with
    cache := ((ExprCache.ofCapacity 1).parse .single "1 + 1").2 }

theorem sameButCache_start (left right : Nat) {cache : ExprCache} (h : cache.Reachable) :
    SameButCache (.start { cacheCapacity := left } {})
      { Session.start { cacheCapacity := right } {} with cache } :=
  ⟨.new left, h, cache, right, rfl⟩

/-- A session without a cache runs a loop to its end as one does whose cache is emptied again and
again. -/
theorem countingLoop_cache_invisible :
    SameButCache (.start { cacheCapacity := 0 } {}) crowded ∧
    SameRun (countingLoop.run 9 (.start { cacheCapacity := 0 } {})) (countingLoop.run 9 crowded) ∧
    (countingLoop.run 9 crowded).isSome = true := by
  have hcache := ExprCache.Reachable.parse .single "1 + 1" (.new 1)
  have h : SameButCache (.start { cacheCapacity := 0 } {}) crowded := sameButCache_start 0 1 hcache
  exact ⟨h, ((cache_invisible h 9).2.2 countingLoop).2.2, by decide +kernel⟩

end Session

end ActionTree
