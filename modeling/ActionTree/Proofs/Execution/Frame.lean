import ActionTree.Proofs.Execution.Effect

/-!
# The frame of execution

Whatever an execution ends with, it leaves the open frames, the current exception, the outputs in use,
the enumerations, the receivers, the prepared trees and the configuration as it found them. Outputs may
have grown, and only the innermost one.
-/

namespace ActionTree

namespace Output

/-- The same output with more written to it. -/
inductive Grown : Output → Output → Prop where
  | capture (lines more : List String) : Grown (.capture lines) (.capture (more ++ lines))
  | writer (written more : String) : Grown (.writer written) (.writer (written ++ more))
  | broken (cause : String) : Grown (.broken cause) (.broken cause)

namespace Grown

theorem refl (o : Output) : Grown o o := by
  cases o with
  | capture lines => exact .capture lines []
  | writer written => simpa using Grown.writer written ""
  | broken cause => exact .broken cause

theorem trans {o p q : Output} (h : Grown o p) (h' : Grown p q) : Grown o q := by
  cases h with
  | capture lines more =>
      cases h' with
      | capture _ more' => simpa using Grown.capture lines (more' ++ more)
  | writer written more =>
      cases h' with
      | writer _ more' => simpa [String.append_assoc] using Grown.writer written (more ++ more')
  | broken cause => exact h'

theorem of_writeLine {o p : Output} {line : String} (h : o.writeLine line = .ok p) : Grown o p := by
  cases o with
  | capture lines =>
      cases h
      exact .capture lines [line]
  | writer written =>
      cases h
      simpa [String.append_assoc] using Grown.writer written (line ++ "\n")
  | broken cause => cases h

end Grown

/-- The same outputs are in use in the same order; only the innermost may have grown. -/
inductive Written : List Output → List Output → Prop where
  | none : Written [] []
  | innermost {o o' : Output} (rest : List Output) : Grown o o' → Written (o :: rest) (o' :: rest)

theorem Written.refl (outputs : List Output) : Written outputs outputs := by
  cases outputs with
  | nil => exact .none
  | cons o rest => exact .innermost rest (.refl o)

theorem Written.trans {os ps qs : List Output} (h : Written os ps) (h' : Written ps qs) :
    Written os qs := by
  cases h with
  | none => exact h'
  | innermost rest grown =>
      cases h' with
      | innermost _ grown' => exact .innermost rest (grown.trans grown')

end Output

/-- Changing the phase of the innermost frame and changing it back changes nothing. -/
theorem CallStack.setPhase_setPhase (stack : CallStack) (phase : Phase) (f : Frame)
    (h : stack.top? = some f) : (stack.setPhase phase).setPhase f.phase = stack := by
  cases stack with
  | nil => cases h
  | cons g rest =>
      cases h
      rfl

namespace Session

/-- All that an execution leaves as it was. -/
structure Framed (s s' : Session) : Prop where
  stack : s'.stack = s.stack
  currentException : s'.currentException = s.currentException
  outputs : Output.Written s.outputs s'.outputs
  enums : s'.enums = s.enums
  receivers : s'.receivers = s.receivers
  prepared : s'.prepared = s.prepared
  config : s'.config = s.config
  surroundings : s'.surroundings = s.surroundings

theorem Framed.refl (s : Session) : Framed s s :=
  ⟨rfl, rfl, .refl _, rfl, rfl, rfl, rfl, rfl⟩

theorem Framed.trans {s t u : Session} (h : Framed s t) (h' : Framed t u) : Framed s u where
  stack := h'.stack.trans h.stack
  currentException := h'.currentException.trans h.currentException
  outputs := h.outputs.trans h'.outputs
  enums := h'.enums.trans h.enums
  receivers := h'.receivers.trans h.receivers
  prepared := h'.prepared.trans h.prepared
  config := h'.config.trans h.config
  surroundings := h'.surroundings.trans h.surroundings

theorem Framed.rephased {s t : Session} {phase : Phase}
    (h : Framed { s with stack := s.stack.setPhase phase } t) :
    Framed s (match s.stack.top? with
      | some f => { t with stack := t.stack.setPhase f.phase }
      | none => t) := by
  cases hf : s.stack.top? with
  | some f =>
      have hstack : t.stack.setPhase f.phase = s.stack := by
        rw [h.stack]
        exact CallStack.setPhase_setPhase s.stack phase f hf
      exact ⟨hstack, h.currentException, h.outputs, h.enums, h.receivers, h.prepared, h.config,
        h.surroundings⟩
  | none =>
      have hempty : s.stack = [] := List.head?_eq_none_iff.1 hf
      have hstack : t.stack = s.stack := by
        rw [h.stack, hempty]
        rfl
      exact ⟨hstack, h.currentException, h.outputs, h.enums, h.receivers, h.prepared, h.config,
        h.surroundings⟩

/-- Every operation keeps to the frame, and every scope makes good what it changed of it. -/
theorem framed_effect : Effect Framed where
  refl := .refl
  trans := .trans
  store _ _ := ⟨rfl, rfl, .refl _, rfl, rfl, rfl, rfl, rfl⟩
  cache _ _ := ⟨rfl, rfl, .refl _, rfl, rfl, rfl, rfl, rfl⟩
  nextIdentity _ _ := ⟨rfl, rfl, .refl _, rfl, rfl, rfl, rfl, rfl⟩
  console _ _ := ⟨rfl, rfl, .refl _, rfl, rfl, rfl, rfl, rfl⟩
  output hs ho := ⟨rfl, rfl, hs ▸ .innermost _ (.of_writeLine ho), rfl, rfl, rfl, rfl, rfl⟩
  requested _ := ⟨rfl, rfl, .refl _, rfl, rfl, rfl, rfl, rfl⟩
  raised _ := ⟨rfl, rfl, .refl _, rfl, rfl, rfl, rfl, rfl⟩
  framed h := ⟨congrArg CallStack.pop h.stack, h.currentException, h.outputs, h.enums, h.receivers,
    h.prepared, h.config, h.surroundings⟩
  rephased := Framed.rephased
  caught h := ⟨h.stack, rfl, h.outputs, h.enums, h.receivers, h.prepared, h.config, h.surroundings⟩

end Session

/-- An execution that comes to an end leaves its frame as it was, whatever it ends with. -/
theorem Action.execute_framed {n : Nat} {a : Action} {s s' : Session}
    {r : Except ScriptError Outcome} (h : a.execute n s = some (r, s')) : s.Framed s' :=
  Session.framed_effect.blockwise.execute n a h

/-- A termination leaves the frame as it was. -/
theorem Action.execute_framed_terminated :
    ∃ e s', (Action.sequence ⟨0, none⟩ [.requestAbort 1, .breakLoop 2]).execute 2 (.start {} {}) =
      some (.error e, s') ∧ e.isTerminated = true ∧ (Session.start {} {}).Framed s' := by
  have hends : ((Action.sequence ⟨0, none⟩ [.requestAbort 1, .breakLoop 2]).execute 2
      (.start {} {})).map (fun p => match p.1 with
        | .ok _ => false
        | .error e => e.isTerminated) = some true := rfl
  obtain ⟨⟨r, s'⟩, h, hr⟩ := Option.map_eq_some_iff.1 hends
  cases r with
  | ok outcome => cases hr
  | error e => exact ⟨e, s', h, hr, Action.execute_framed h⟩

end ActionTree
