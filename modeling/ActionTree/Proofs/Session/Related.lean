import ActionTree.Proofs.Evaluation.Related
import ActionTree.Session.Lookup

/-!
# Related evaluations in a session

Evaluation reads a session in few places. A relation between computations that is kept by these readings
and by the few operations that change a session holds of every evaluation and every expansion.
-/

namespace ActionTree

/-- The two sessions agree in everything that scripts can look at. The limits of the configuration and the
cache are not among it. -/
structure Session.Alike (s t : Session) : Prop where
  store : s.store = t.store
  stack : s.stack = t.stack
  receivers : s.receivers = t.receivers
  enums : s.enums = t.enums
  currentException : s.currentException = t.currentException
  surroundings : s.surroundings = t.surroundings
  defaultIsolation : s.config.defaultIsolation = t.config.defaultIsolation

namespace RunRel

/-- The relation is kept by what evaluation does with a session, apart from reading texts. -/
structure Attentive (R : RunRel Session) : Prop extends R.Sequential where
  read {α : Type} (f : Session → α) (alike : ∀ s t, Session.Alike s t → f s = f t) :
    R (do return f (← get)) (do return f (← get))
  setVar (name : String) (v : Value) : R (Session.setVar name v) (Session.setVar name v)
  freshIdentity : R Session.freshIdentity Session.freshIdentity

/-- The relation is kept by what evaluation does with a session. -/
structure Observant (R : RunRel Session) : Prop extends R.Attentive, R.Compatible where
  parse (kind : ExprKind) (text : String) : R (Session.parse kind text) (Session.parse kind text)

/-- The relation also holds where computed names go deeper than they may. -/
structure Evaluative (R : RunRel Session) : Prop extends R.Observant where
  unfinished {α : Type} : R (Run.unfinished : Run Session α) Run.unfinished

end RunRel

namespace RunRel.Attentive

variable {R : RunRel Session} (C : R.Attentive) {β : Type}

include C

/-- A look at the session, and what is done with what was seen. -/
theorem reading {k k' : Session → Run Session β}
    (alike : ∀ s t, Session.Alike s t → k s = k t ∧ k' s = k' t) (h : ∀ s, R (k s) (k' s)) :
    R (get >>= k) (get >>= k') := by
  let seen (s : Session) : { p : Run Session β × Run Session β // R p.1 p.2 } := ⟨(k s, k' s), h s⟩
  have hseen : ∀ s t, Session.Alike s t → seen s = seen t := fun s t hst =>
    Subtype.ext (Prod.ext (alike s t hst).1 (alike s t hst).2)
  have hk := C.bind (f := fun p => p.1.1) (g := fun p => p.1.2) (C.read seen hseen) fun p => p.2
  simpa only [bind_assoc, pure_bind] using hk

variable {read read' : Session.Reading} (hread : ∀ name, R (read name) (read' name))

include hread

theorem isSetBy (name : String) : R (Session.isSetBy read name) (Session.isSetBy read' name) := by
  unfold Session.isSetBy
  split
  · exact C.reading (fun _ _ h => by simp only [h.store, and_self]) fun _ => C.pure _
  · exact C.bind (hread name) fun _ => C.pure _

omit hread in
theorem nameArgument (function : String) (args : Option (List Value)) :
    R (Session.nameArgument function args) (Session.nameArgument function args) := by
  unfold Session.nameArgument
  split
  · exact C.pure _
  · exact C.failWith _

/-- Both sessions have the member or none has, and what it gives is related. -/
theorem member? (name : String) (args : Option (List Value)) :
    Option.Rel (R (α := Value)) (Session.member? read name args)
      (Session.member? read' name args) := by
  unfold Session.member?
  split
  · refine .some (C.bind (C.nameArgument _ _) fun name => ?_)
    exact C.bind (C.isSetBy hread name) fun _ => C.pure _
  · refine .some (C.bind (C.nameArgument _ _) fun name => ?_)
    exact C.bind (hread name) fun _ => C.pure _
  · exact .some (C.reading (fun _ _ h => by simp only [h.currentException, and_self])
      fun _ => C.pure _)
  · exact .some (C.reading (fun _ _ h => by simp only [h.stack, and_self]) fun _ => C.pure _)
  · exact .none

theorem callBy (name : String) (args : List Value) :
    R (Session.callBy read name args) (Session.callBy read' name args) := by
  unfold Session.callBy
  have hm := C.member? hread name (some args)
  generalize Session.member? read name (some args) = found at hm ⊢
  generalize Session.member? read' name (some args) = found' at hm ⊢
  cases hm with
  | some h => exact h
  | none =>
      refine C.reading (fun _ _ h => by simp only [h.receivers, and_self]) fun s => ?_
      split
      · exact C.ofFault _
      · exact C.failWith _

omit hread in
theorem enumMember (t : EnumType) (name : String) (args : Option (List Value)) :
    R (Session.enumMember t name args) (Session.enumMember t name args) := by
  unfold Session.enumMember
  split
  · exact C.failWith _
  · split
    · exact C.pure _
    · exact C.failWith _

omit hread in
theorem receiverMember (r : Receiver) (name : String) (args : Option (List Value)) :
    R (Session.receiverMember r name args) (Session.receiverMember r name args) := by
  unfold Session.receiverMember
  dsimp only
  split
  · exact C.ofFault _
  · exact C.failWith _

theorem staticBy (type name : String) (args : Option (List Value)) :
    R (Session.staticBy read type name args) (Session.staticBy read' type name args) := by
  unfold Session.staticBy
  split
  · have hm := C.member? hread name args
    generalize Session.member? read name args = found at hm ⊢
    generalize Session.member? read' name args = found' at hm ⊢
    cases hm with
    | some h => exact C.map some h
    | none => exact C.failWith _
  · refine C.reading (fun _ _ h => by simp only [Session.enum?, h.enums, and_self]) fun s => ?_
    split
    · exact C.map some (C.enumMember _ name args)
    · refine C.reading (fun _ _ h => by simp only [h.receivers, and_self]) fun s => ?_
      split
      · exact C.map some (C.receiverMember _ name args)
      · exact C.pure _

theorem environmentBy (host : Host) :
    Environment.Related R (Session.environmentBy read host) (Session.environmentBy read' host) where
  getVar := hread
  setVar := C.setVar
  typeNamed name :=
    C.reading (fun _ _ h => by
      simp only [Session.environmentBy, Session.resolveType, Session.enum?, h.enums, and_self])
      fun s => C.orFail _ _
  call := C.callBy hread
  callStatic := C.staticBy hread
  host := rfl

omit hread

theorem nodeObject? (id : String) : R (Session.nodeObject? id) (Session.nodeObject? id) := by
  refine C.reading (fun _ _ h => by simp only [h.stack, and_self]) fun s => ?_
  split
  · exact C.bind C.freshIdentity fun _ => C.pure _
  · exact C.pure _

/-- Reading a variable where no computed name may be read. -/
theorem lookUp_zero (hunfinished : R (Run.unfinished : Run Session (Option Value)) Run.unfinished)
    (name : String) : R (Session.lookUp 0 name) (Session.lookUp 0 name) := by
  unfold Session.lookUp
  cases NameKind.ofName name with
  | plain => exact C.reading (fun _ _ h => by simp only [h.store, and_self]) fun _ => C.pure _
  | expr text | multi text => exact hunfinished
  | env scope own =>
      exact C.reading (fun _ _ h => by simp only [h.surroundings, and_self]) fun _ => C.pure _
  | tree id => exact C.nodeObject? id

end RunRel.Attentive

theorem RunRel.Observant.evaluateBy {R : RunRel Session} (C : R.Observant)
    {read read' : Session.Reading} (hread : ∀ name, R (read name) (read' name)) (kind : ExprKind)
    (text : String) : R (Session.evaluateBy read kind text) (Session.evaluateBy read' kind text) := by
  refine C.bind (C.parse kind text) fun e => ?_
  exact C.reading (fun _ _ h => by simp only [h.surroundings, and_self]) fun s =>
    Expr.evaluate_related C.toSequential (C.environmentBy hread s.surroundings.host) e

namespace RunRel.Evaluative

variable {R : RunRel Session} (C : R.Evaluative)

include C

/-- Reading a variable, by induction on how deep computed names may go. -/
theorem lookUp (n : Nat) (name : String) : R (Session.lookUp n name) (Session.lookUp n name) := by
  induction n generalizing name with
  | zero => exact C.lookUp_zero C.unfinished name
  | succ n ih =>
      unfold Session.lookUp
      cases NameKind.ofName name with
      | plain => exact C.reading (fun _ _ h => by simp only [h.store, and_self]) fun _ => C.pure _
      | expr text | multi text => exact C.map some (C.evaluateBy ih _ text)
      | env scope own =>
          exact C.reading (fun _ _ h => by simp only [h.surroundings, and_self]) fun _ => C.pure _
      | tree id => exact C.nodeObject? id

theorem isSet (n : Nat) (name : String) : R (Session.isSet n name) (Session.isSet n name) :=
  C.isSetBy (C.lookUp n) name

theorem evaluate (n : Nat) (text : String) : R (Session.evaluate n text) (Session.evaluate n text) :=
  C.evaluateBy (C.lookUp n) .single text

theorem transform (n : Nat) (rules : TransformRules) (replaces : List ReplaceRule) (v : Value) :
    R (Session.transform n rules replaces v) (Session.transform n rules replaces v) :=
  C.reading (fun _ _ h => by simp only [Session.environment, h.surroundings, and_self]) fun s =>
    TransformRules.apply_related C.toCompatible (C.environmentBy (C.lookUp n) s.surroundings.host) rules
      replaces v

theorem expand (n : Nat) (text : String) : R (Session.expand n text) (Session.expand n text) :=
  C.transform n .standard [] (.str text)

end RunRel.Evaluative

end ActionTree
