import ActionTree.Proofs.Evaluation.Refinement
import ActionTree.Transform

/-!
# Related evaluations

Two environments whose operations are related evaluate every expression, every text with markers and
every set of rules to related computations.
-/

namespace ActionTree

/-- What one environment is asked is related to what the other is asked. -/
structure Environment.Related {σ : Type} (R : RunRel σ) (env env' : Environment σ) : Prop where
  getVar (name : String) : R (env.getVar name) (env'.getVar name)
  setVar (name : String) (v : Value) : R (env.setVar name v) (env'.setVar name v)
  typeNamed (name : String) : R (env.typeNamed name) (env'.typeNamed name)
  call (name : String) (args : List Value) : R (env.call name args) (env'.call name args)
  callStatic (type name : String) (args : Option (List Value)) :
    R (env.callStatic type name args) (env'.callStatic type name args)
  host : env'.host = env.host

variable {σ : Type} {R : RunRel σ} {env env' : Environment σ}

namespace Environment.Related

variable (C : R.Sequential) (E : Related R env env')

include C E

theorem variableValue (name : String) : R (env.variableValue name) (env'.variableValue name) :=
  C.bind (E.getVar name) fun v => C.orFail v _

theorem longestSet (name : String) (candidates : List (String × List String)) :
    R (env.longestSet name candidates) (env'.longestSet name candidates) := by
  induction candidates with
  | nil => exact C.failWith _
  | cons candidate rest ih =>
      refine C.bind (E.getVar candidate.1) ?_
      rintro (_ | v)
      · exact ih
      · exact C.pure _

theorem path (name : String) (members : List String) :
    R (env.path name members) (env'.path name members) :=
  C.bind (E.longestSet C name _) fun found => C.ofRuntime (membersOf found.1 found.2)

theorem assign (name : String) (op : Option BinaryOp) (v : Value) :
    R (env.assign name op v) (env'.assign name op v) := by
  cases op with
  | none => exact C.bind (C.pure v) fun result => C.bind (E.setVar name result) fun _ => C.pure result
  | some op =>
      refine C.bind (E.variableValue C name) fun old => ?_
      exact C.bind (C.ofRuntime (op.apply old v)) fun result =>
        C.bind (E.setVar name result) fun _ => C.pure result

theorem cast (type : String) (isArray : Bool) (v : Value) :
    R (env.cast type isArray v) (env'.cast type isArray v) :=
  C.bind (E.typeNamed type) fun _ => C.ofConversion _

theorem static (type name : String) (args : Option (List Value)) :
    R (env.static type name args) (env'.static type name args) := by
  refine C.bind (E.callStatic type name args) ?_
  rintro (_ | v)
  · refine C.bind (E.getVar type) fun found => C.bind (C.orFail found _) fun v => ?_
    rw [E.host]
    cases args with
    | none => exact C.ofRuntime _
    | some args => exact C.ofFault _
  · exact C.pure v

theorem arrayOf (element : Option String) (values : List Value) :
    R (env.arrayOf element values) (env'.arrayOf element values) := by
  cases element with
  | none => exact C.pure _
  | some type => exact C.bind (E.typeNamed type) fun _ => C.bind (C.ofConversion _) fun _ => C.pure _

theorem newArray (element : String) (length : Value) :
    R (env.newArray element length) (env'.newArray element length) := by
  refine C.bind (C.ofConversion (Convert.asLong length)) fun n => ?_
  split
  · exact C.failWith _
  · exact C.bind (E.typeNamed element) fun _ => C.pure _

end Environment.Related

mutual

/-- Every expression is evaluated to related computations, case by case as it is evaluated. -/
theorem Expr.value_related (C : R.Sequential) (E : Environment.Related R env env') (e : Expr) :
    R (e.value env) (e.value env') := by
  cases e with
  | literal v => exact C.pure v
  | var name => exact E.variableValue C name
  | path name members => exact E.path C name members
  | assign name op e => exact C.bind (Expr.value_related C E e) fun v => E.assign C name op v
  | unary op e => exact C.bind (Expr.value_related C E e) fun v => C.ofRuntime (op.apply v)
  | binary op l r =>
      refine C.bind (Expr.value_related C E l) fun x => ?_
      exact C.bind (Expr.value_related C E r) fun y => C.ofRuntime (op.apply x y)
  | and l r =>
      refine C.bind (Expr.value_related C E l) fun x => ?_
      split
      · exact C.bind (Expr.value_related C E r) fun _ => C.pure _
      · exact C.pure _
  | or l r =>
      refine C.bind (Expr.value_related C E l) fun x => ?_
      split
      · exact C.pure _
      · exact C.bind (Expr.value_related C E r) fun _ => C.pure _
  | coalesce l r =>
      refine C.bind (Expr.value_related C E l) fun x => ?_
      split
      · exact Expr.value_related C E r
      · exact C.pure _
  | ternary c t e =>
      refine C.bind (Expr.value_related C E c) fun x => ?_
      split
      · exact Expr.value_related C E t
      · exact Expr.value_related C E e
  | cast type isArray e => exact C.bind (Expr.value_related C E e) fun v => E.cast C type isArray v
  | index target position =>
      refine C.bind (Expr.value_related C E target) fun t => ?_
      refine C.bind (Expr.value_related C E position) fun i => ?_
      rw [E.host]
      exact C.ofFault (Member.index env.host t i)
  | member target name =>
      exact C.bind (Expr.value_related C E target) fun t => C.ofRuntime (Member.get t name)
  | method target name args =>
      refine C.bind (Expr.value_related C E target) fun t => ?_
      refine C.bind (Expr.values_related C E args) fun values => ?_
      rw [E.host]
      exact C.ofFault (Member.call env.host t name values)
  | call name args => exact C.bind (Expr.values_related C E args) fun values => E.call name values
  | property type name => exact E.static C type name none
  | staticCall type name args =>
      exact C.bind (Expr.values_related C E args) fun values => E.static C type name (some values)
  | array element items =>
      exact C.bind (Expr.values_related C E items) fun values => E.arrayOf C element values
  | newArray element length =>
      exact C.bind (Expr.value_related C E length) fun n => E.newArray C element n
  | multi segments =>
      exact C.bind (Segment.firstValue_related C E segments) fun found => C.orFail found _

theorem Expr.values_related (C : R.Sequential) (E : Environment.Related R env env') (es : List Expr) :
    R (Expr.values env es) (Expr.values env' es) := by
  cases es with
  | nil => exact C.pure _
  | cons e rest =>
      refine C.bind (Expr.value_related C E e) fun v => ?_
      exact C.bind (Expr.values_related C E rest) fun _ => C.pure _

theorem Segment.firstValue_related (C : R.Sequential) (E : Environment.Related R env env')
    (segments : List Segment) :
    R (Segment.firstValue env segments) (Segment.firstValue env' segments) := by
  match segments with
  | [] => exact C.pure none
  | .name n :: rest =>
      refine C.bind (E.getVar n) ?_
      rintro (_ | v)
      · exact Segment.firstValue_related C E rest
      · exact C.pure _
  | .expr e :: rest =>
      refine C.bind (Expr.value_related C E e) fun v => ?_
      split
      · exact Segment.firstValue_related C E rest
      · exact C.pure _
  | .empty :: rest => exact C.pure _
  | .fallback e :: rest => exact C.bind (Expr.value_related C E e) fun _ => C.pure _

end

theorem Expr.evaluate_related (C : R.Sequential) (E : Environment.Related R env env') (e : Expr) :
    R (e.evaluate env) (e.evaluate env') := by
  rw [Expr.evaluate_eq_value, Expr.evaluate_eq_value]
  exact Expr.value_related C E e

theorem Piece.value_related (C : R.Sequential) (E : Environment.Related R env env') (p : Piece) :
    R (p.value env) (p.value env') := by
  cases p with
  | plain cs => exact C.pure _
  | marker e => exact Expr.evaluate_related C E e

variable (C : R.Compatible) (E : Environment.Related R env env')

include C E

namespace Expansion

omit E in
theorem next_related (markers : List Marker) (text : String) (c : Char) (rest : List Char) :
    R (next markers text c rest : Run σ (Piece × List Char)) (next markers text c rest) :=
  C.ofSyntax _

theorem pieces_related (markers : List Marker) (text : String) (n : Nat) (cs : List Char) :
    R (pieces env markers text n cs) (pieces env' markers text n cs) := by
  induction n generalizing cs with
  | zero => cases cs <;> exact C.pure _
  | succ n ih =>
      cases cs with
      | nil => exact C.pure _
      | cons c rest =>
          refine C.bind (next_related C markers text c rest) fun p => ?_
          refine C.bind (Piece.value_related C.toSequential E p.1) fun v => ?_
          exact C.bind (ih p.2) fun _ => C.pure _

theorem expand_related (markers : List Marker) (text : String) :
    R (expand env markers text) (expand env' markers text) := by
  unfold expand
  cases text.toList with
  | nil => exact C.pure _
  | cons c rest =>
      refine C.bind (next_related C markers text c rest) fun p => ?_
      refine C.bind (Piece.value_related C.toSequential E p.1) fun v => ?_
      split
      · exact C.pure v
      · exact C.bind (pieces_related C E markers text _ p.2) fun _ => C.pure _

end Expansion

theorem TransformRules.apply_related (r : TransformRules) (replaces : List ReplaceRule) (v : Value) :
    R (r.apply replaces env v) (r.apply replaces env' v) := by
  unfold apply
  split
  · dsimp only
    split
    · refine C.bind (C.pure _) fun v => ?_
      split <;> exact C.pure _
    · refine C.bind (Expansion.expand_related C E r.markers _) fun v => ?_
      split <;> exact C.pure _
  · exact C.pure _

end ActionTree
