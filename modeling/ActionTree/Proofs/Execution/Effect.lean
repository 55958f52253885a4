import ActionTree.Proofs.Execution.Related
import ActionTree.Proofs.Session.Scope

/-!
# Effects on a session

What execution may do to a session is a relation between the session before and after. If the relation
allows the small changes that single operations make, and each scope makes good what it changed, then
every execution keeps within it, whatever its outcome.
-/

namespace ActionTree

namespace Session

/-- The changes that work makes to a session, apart from aborts, are allowed by `Q`, and may follow one
another. -/
structure Quiet (Q : Session → Session → Prop) : Prop where
  refl (s : Session) : Q s s
  trans {s t u : Session} : Q s t → Q t u → Q s u
  store (s : Session) (vars : Store) : Q s { s with store := vars }
  cache (s : Session) (cache : ExprCache) : Q s { s with cache }
  nextIdentity (s : Session) (n : Nat) : Q s { s with nextIdentity := n }
  console (s : Session) (text : String) : Q s { s with console := text }
  output {s : Session} {o o' : Output} {rest : List Output} {line : String} :
    s.outputs = o :: rest → o.writeLine line = .ok o' → Q s { s with outputs := o' :: rest }
  framed {s t : Session} {phase : Phase} {a : Action} :
    Q { s with stack := s.stack.push phase a } t → Q s { t with stack := t.stack.pop }
  rephased {s t : Session} {phase : Phase} :
    Q { s with stack := s.stack.setPhase phase } t →
    Q s (match s.stack.top? with
      | some f => { t with stack := t.stack.setPhase f.phase }
      | none => t)
  caught {s t : Session} {c : CaughtFault} :
    Q { s with currentException := some c } t →
    Q s { t with currentException := s.currentException }

/-- The changes that execution makes to a session are allowed by `Q`, and may follow one another. -/
structure Effect (Q : Session → Session → Prop) : Prop extends Quiet Q where
  requested (s : Session) : Q s s.requestAbort
  raised (s : Session) : Q s { s with abortRaised := true }

/-- Whatever a run ends with, its effect is one that `Q` allows. -/
def Within (Q : Session → Session → Prop) {α : Type} (x : Run Session α) : Prop :=
  ∀ ⦃s r s'⦄, x s = some (r, s') → Q s s'

end Session

namespace Session.Quiet

variable {Q : Session → Session → Prop} (E : Quiet Q) {α β : Type}

include E

theorem within_pure (a : α) : Within Q (pure a : Run Session α) := by
  intro s r s' h
  cases h
  exact E.refl s

theorem within_throw (e : ScriptError) : Within Q (throw e : Run Session α) := by
  intro s r s' h
  cases h
  exact E.refl s

theorem within_bind {x : Run Session α} {f : α → Run Session β} (hx : Within Q x)
    (hf : ∀ a, Within Q (f a)) : Within Q (x >>= f) := by
  intro s r s' h
  rcases Run.bind_inv h with ⟨a, t, hxa, hfa⟩ | ⟨e, hxe, rfl⟩
  · exact E.trans (hx hxa) (hf a hfa)
  · exact hx hxe

theorem within_writeLine (line : String) : Within Q (Session.writeLine line) := by
  intro s r s' h
  rcases writeLine_inv h with ⟨_, _, rfl⟩ | ⟨_, ⟨text, rfl⟩ | ⟨o, o', rest, hs, ho, rfl⟩⟩
  · exact E.refl _
  · exact E.console s text
  · exact E.output hs ho

theorem within_withVars {x : Run Session α} (overlay : List (String × Value)) (namePrefix : String)
    (hx : Within Q x) : Within Q (Session.withVars overlay namePrefix x) := by
  intro s r s' h
  obtain ⟨t, vars, rfl, ⟨_, _, rfl⟩ | ⟨bound, hbody⟩⟩ := withVars_inv h
  · exact E.store _ vars
  · exact E.trans (E.trans (E.store s bound) (hx hbody)) (E.store t vars)

theorem within_onVariables {x : Run Session α} (vars : Store) (hx : Within Q x) :
    Within Q (Session.onVariables vars x) := by
  intro s r s' h
  obtain ⟨t, hbody, rfl⟩ := onVariables_inv h
  exact E.trans (E.trans (E.store s vars) (hx hbody)) (E.store t s.store)

theorem within_withFrame {x : Run Session α} (phase : Phase) (a : Action) (hx : Within Q x) :
    Within Q (Session.withFrame phase a x) := by
  intro s r s' h
  rcases withFrame_inv h with ⟨_, rfl⟩ | ⟨result, t, hbody, _, rfl⟩
  · exact E.refl _
  · exact E.framed (hx hbody)

theorem within_tryCatch {x : Run Session α} {f : ScriptError → Run Session α} (hx : Within Q x)
    (hf : ∀ e, Within Q (f e)) : Within Q (tryCatch x f) := by
  intro s r s' h
  cases hxs : x s with
  | none =>
      rw [Run.tryCatch_of_none f hxs] at h
      cases h
  | some p =>
      obtain ⟨result, t⟩ := p
      cases result with
      | ok a =>
          rw [Run.tryCatch_of_ok f hxs] at h
          cases h
          exact hx hxs
      | error e =>
          rw [Run.tryCatch_of_error f hxs] at h
          exact E.trans (hx hxs) (hf e h)

theorem within_cleanedUp {exec : Executor} {x : Run Session Outcome} (items : List Action)
    (hx : Within Q x) (hc : Within Q (runAll exec items)) :
    Within Q (SectionsOf.cleanedUp exec (some items) x) := by
  intro s r s' h
  obtain ⟨resolved, t, last, hbody, hcleanup, _⟩ := SectionsOf.cleanedUp_inv h
  exact E.trans (hx hbody) (hc hcleanup)

theorem working : RunRel.Working fun _ x _ => Within Q x where
  pure := E.within_pure
  fault _ := E.within_throw _
  bind := E.within_bind
  read f _ := by
    intro s r s' h
    cases h
    exact E.refl s
  setVar name v := by
    intro s r s' h
    rcases setVar_inv h with ⟨vars, _, _, rfl⟩ | ⟨_, _, rfl⟩
    · exact E.store s vars
    · exact E.refl _
  freshIdentity := by
    intro s r s' h
    cases h
    exact E.nextIdentity s _
  erase name := by
    intro s r s' h
    cases h
    exact E.store s _
  writeLine := E.within_writeLine
  checkRounds count := by
    intro s r s' h
    obtain ⟨rfl, _⟩ := checkRounds_inv h
    exact E.refl _

theorem framewise : RunRel.Framewise fun _ x _ => Within Q x where
  toAttentive := E.working.toAttentive
  malformed _ := E.within_throw _
  unfinished := by
    intro α s r s' h
    cases h
  parse kind text := by
    intro s r s' h
    obtain ⟨⟨cache, rfl⟩, _⟩ := parse_inv h
    exact E.cache s cache
  withFrame := E.within_withFrame

end Session.Quiet

namespace Session.Effect

variable {Q : Session → Session → Prop} (E : Effect Q)

include E

theorem within_checkAbort : Within Q Session.checkAbort := by
  intro s r s' h
  rcases checkAbort_inv h with ⟨_, _, _, rfl⟩ | ⟨_, rfl⟩
  · exact E.raised s
  · exact E.refl _

/-- An effect that the single operations and scopes keep within is kept within by all of execution. -/
theorem blockwise : RunRel.Blockwise fun _ x _ => Within Q x where
  toWorking := E.working
  malformed := E.framewise.malformed
  unfinished := by
    intro α s r s' h
    exact E.framewise.unfinished h
  parse := E.framewise.parse
  requestAbort := by
    intro s r s' h
    cases h
    exact E.requested s
  checkAbort := E.within_checkAbort
  withVars := E.within_withVars
  onVariables := E.within_onVariables
  withFrame := E.within_withFrame
  withPhase phase hx := by
    intro s r s' h
    obtain ⟨t, hbody, rfl⟩ := withPhase_inv h
    exact E.rephased (hx hbody)
  withException c hx := by
    intro s r s' h
    obtain ⟨t, hbody, rfl⟩ := withException_inv h
    exact E.caught (hx hbody)
  tryFault hx hfault hrest := E.within_tryCatch hx fun e => by
    cases he : e.fault? with
    | none =>
        rw [(hrest e he).1]
        exact E.within_throw e
    | some fault => exact hfault e fault he
  cleanedUp := E.within_cleanedUp

end Session.Effect

end ActionTree
