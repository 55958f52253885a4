import ActionTree.Proofs.Session.Related
import ActionTree.Proofs.Session.Scope

/-!
# The errors that operations raise

If all faults are such, then so is every error of the operations of a session; and if all errors of
syntax are such too, then so is every error of an evaluation.
-/

namespace ActionTree

namespace Session

variable {p : ScriptError → Prop} (hfault : ∀ f, p ⟨.fault f, none⟩)

include hfault

theorem raising_attentive : RunRel.Attentive fun _ x _ => x.Raising p where
  toSequential := Run.Raising.sequential hfault
  read f _ := by
    intro s e t h
    cases h
  setVar name v := by
    intro s e t h
    rcases setVar_inv h with ⟨_, _, hr, _⟩ | ⟨fault, hr, _⟩
    · cases hr
    · cases hr
      exact hfault _
  freshIdentity := by
    intro s e t h
    cases h

theorem raising_evaluative (hmalformed : ∀ f, p (.malformed f)) :
    RunRel.Evaluative fun _ x _ => x.Raising p where
  toAttentive := raising_attentive hfault
  malformed := (Run.Raising.compatible hfault hmalformed).malformed
  parse kind text := by
    intro s e t h
    obtain ⟨_, ⟨e', hr⟩ | ⟨f, hr⟩⟩ := parse_inv h
    · cases hr
    · cases hr
      exact hmalformed f
  unfinished := by
    intro α s e t h
    cases h

end Session

end ActionTree
