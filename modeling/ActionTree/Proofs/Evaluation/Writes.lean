import ActionTree.Proofs.Evaluation.Related

/-!
# What an expression writes

Evaluation changes variables by its assignments only. The assignments that it comes to are listed in the
order in which they write; those of a branch that is not taken, and those that stand after an error, are
not among them. Before, between and after the writes the variables stay as they are, whatever the
evaluation ends with.
-/

namespace ActionTree

variable {σ α β γ : Type}

/-! ## What is left as it was -/

/-- Leaves what is viewed of the state as it was, whatever the result. -/
def Run.Preserves (view : σ → β) (x : Run σ α) : Prop :=
  ∀ ⦃s r t⦄, x s = some (r, t) → view t = view s

theorem Run.Preserves.bind {view : σ → β} {x : Run σ α} {f : α → Run σ γ} (hx : x.Preserves view)
    (hf : ∀ a, (f a).Preserves view) : (x >>= f).Preserves view := by
  intro s r t h
  rcases bind_inv h with ⟨a, u, hxa, hfa⟩ | ⟨e, hxe, _⟩
  · exact (hf a hfa).trans (hx hxa)
  · exact hx hxe

theorem Run.Preserves.sequential (view : σ → β) :
    RunRel.Sequential fun _ (x _ : Run σ _) => x.Preserves view where
  pure a := by
    intro s r t h
    cases h
    rfl
  fault f := by
    intro s r t h
    cases h
    rfl
  bind hx hf := hx.bind hf

namespace Environment

variable {env : Environment σ} {view : σ → β}

/-- Reading variables and calling functions leaves what is viewed of the state as it was. -/
structure Preserves (env : Environment σ) (view : σ → β) : Prop where
  getVar (name : String) : (env.getVar name).Preserves view
  call (name : String) (args : List Value) : (env.call name args).Preserves view
  callStatic (type name : String) (args : Option (List Value)) :
    (env.callStatic type name args).Preserves view

/-- The same surroundings, where no variable changes. What they do about everything but assignments is the
same, so that this can be taken from what is known of related surroundings. -/
def readOnly (env : Environment σ) : Environment σ := { env with setVar := fun _ _ => pure () }

theorem Preserves.readOnly (E : env.Preserves view) :
    Related (fun _ x _ => x.Preserves view) env.readOnly env.readOnly where
  getVar := E.getVar
  setVar _ _ := (Run.Preserves.sequential view).pure ()
  typeNamed name := by
    intro s r t h
    exact (Run.Preserves.sequential view).orFail (env.resolveType s name) (.unknownType name) h
  call := E.call
  callStatic := E.callStatic
  host := rfl

theorem longestSet_readOnly (name : String) (candidates : List (String × List String)) :
    env.readOnly.longestSet name candidates = env.longestSet name candidates := by
  induction candidates with
  | nil => rfl
  | cons candidate rest ih =>
      refine bind_congr fun found => ?_
      cases found with
      | some v => rfl
      | none => exact ih

/-- Only an assignment asks for a variable to be changed. -/
theorem path_readOnly (name : String) (members : List String) :
    env.readOnly.path name members = env.path name members := by
  rw [path, longestSet_readOnly, path]

/-- The value that an assignment gives to a variable. -/
def assigned (env : Environment σ) (name : String) (op : Option BinaryOp) (v : Value) : Run σ Value :=
  match op with
  | none => pure v
  | some op => do Run.ofRuntime (op.apply (← env.variableValue name) v)

theorem assign_eq (name : String) (op : Option BinaryOp) (v : Value) :
    env.assign name op v = env.assigned name op v >>= fun result =>
      env.setVar name result >>= fun _ => pure result := by
  cases op with
  | none => rfl
  | some op => simp only [assign, assigned, bind_assoc]

theorem Preserves.assigned (E : env.Preserves view) (name : String) (op : Option BinaryOp) (v : Value) :
    (env.assigned name op v).Preserves view := by
  have C := Run.Preserves.sequential view
  cases op with
  | none => exact C.pure v
  | some op =>
      exact Run.Preserves.bind (E.readOnly.variableValue C name) fun old => C.ofRuntime (op.apply old v)

end Environment

/-! ## The assignments that evaluation comes to -/

/-- What is listed from where a computation ends with a value. After an error there is nothing. -/
def Run.listAfter (x : Run σ α) (s : σ) (f : α → σ → List β) : List β :=
  match x s with
  | some (.ok a, t) => f a t
  | _ => []

theorem Run.listAfter_of_ok {x : Run σ α} {s t : σ} {a : α} (f : α → σ → List β)
    (h : x s = some (.ok a, t)) : x.listAfter s f = f a t := by
  simp only [listAfter, h]

theorem Run.listAfter_of_error {x : Run σ α} {s t : σ} {e : ScriptError} (f : α → σ → List β)
    (h : x s = some (.error e, t)) : x.listAfter s f = [] := by
  simp only [listAfter, h]

theorem Run.mem_listAfter {x : Run σ α} {s : σ} {f : α → σ → List β} {b : β}
    (h : b ∈ x.listAfter s f) : ∃ a t, b ∈ f a t := by
  unfold listAfter at h
  split at h
  · exact ⟨_, _, h⟩
  · cases h

/-- An assignment that evaluation comes to, and the state in which it does. -/
structure Assignment (σ : Type) where
  name : String
  op : Option BinaryOp
  right : Expr
  start : σ

def Assignment.node (a : Assignment σ) : Expr := .assign a.name a.op a.right

/-- The value that the variable is set to, and the state in which it is set; `none` if an error comes
before that. -/
def Assignment.sets? (env : Environment σ) (a : Assignment σ) : Option (Value × σ) :=
  match (a.right.value env >>= env.assigned a.name a.op) a.start with
  | some (.ok v, t) => some (v, t)
  | _ => none

mutual

/-- The assignments that the evaluation of an expression comes to. One that stands in the right side of
another writes first, and so comes first. -/
def Expr.reached (env : Environment σ) : Expr → σ → List (Assignment σ)
  | .literal _, _ => []
  | .var _, _ => []
  | .path _ _, _ => []
  | .assign name op e, s => e.reached env s ++ [⟨name, op, e, s⟩]
  | .unary _ e, s => e.reached env s
  | .binary _ l r, s => l.reached env s ++ (l.value env).listAfter s fun _ t => r.reached env t
  | .and l r, s =>
    l.reached env s ++ (l.value env).listAfter s fun x t => if x.isTruthy then r.reached env t else []
  | .or l r, s =>
    l.reached env s ++ (l.value env).listAfter s fun x t => if x.isTruthy then [] else r.reached env t
  | .coalesce l r, s =>
    l.reached env s ++ (l.value env).listAfter s fun x t => if x.isNull then r.reached env t else []
  | .ternary c t e, s =>
    c.reached env s ++ (c.value env).listAfter s fun x u =>
      if x.isTruthy then t.reached env u else e.reached env u
  | .cast _ _ e, s => e.reached env s
  | .index target position, s =>
    target.reached env s ++ (target.value env).listAfter s fun _ t => position.reached env t
  | .member target _, s => target.reached env s
  | .method target _ args, s =>
    target.reached env s ++ (target.value env).listAfter s fun _ t => Expr.reachedAll env args t
  | .call _ args, s => Expr.reachedAll env args s
  | .property _ _, _ => []
  | .staticCall _ _ args, s => Expr.reachedAll env args s
  | .array _ items, s => Expr.reachedAll env items s
  | .newArray _ length, s => length.reached env s
  | .multi segments, s => Segment.reached env segments s

/-- The assignments that the evaluation of the expressions in order comes to. -/
def Expr.reachedAll (env : Environment σ) : List Expr → σ → List (Assignment σ)
  | [], _ => []
  | e :: rest, s => e.reached env s ++ (e.value env).listAfter s fun _ t => Expr.reachedAll env rest t

/-- The assignments that are come to in search of the first alternative with a value. -/
def Segment.reached (env : Environment σ) : List Segment → σ → List (Assignment σ)
  | [], _ => []
  | .name n :: rest, s =>
    (env.getVar n).listAfter s fun found t => if found.isSome then [] else Segment.reached env rest t
  | .expr e :: rest, s =>
    e.reached env s ++ (e.value env).listAfter s fun v t =>
      if v.isNull then Segment.reached env rest t else []
  | .empty :: _, _ => []
  | .fallback e :: _, s => e.reached env s

end

mutual

/-- The assignments that stand in an expression. -/
def Expr.assignments : Expr → List Expr
  | .literal _ | .var _ | .path _ _ | .property _ _ => []
  | .assign name op e => e.assignments ++ [.assign name op e]
  | .unary _ e | .cast _ _ e | .member e _ | .newArray _ e => e.assignments
  | .binary _ l r | .and l r | .or l r | .coalesce l r | .index l r => l.assignments ++ r.assignments
  | .ternary c t e => c.assignments ++ (t.assignments ++ e.assignments)
  | .method target _ args => target.assignments ++ Expr.assignmentsAll args
  | .call _ args | .staticCall _ _ args | .array _ args => Expr.assignmentsAll args
  | .multi segments => Segment.assignments segments

def Expr.assignmentsAll : List Expr → List Expr
  | [] => []
  | e :: rest => e.assignments ++ Expr.assignmentsAll rest

def Segment.assignments : List Segment → List Expr
  | [] => []
  | .name _ :: rest | .empty :: rest => Segment.assignments rest
  | .expr e :: rest | .fallback e :: rest => e.assignments ++ Segment.assignments rest

end

/-! ## From one write to the next -/

/-- What is viewed comes from one state to another through the assignments: one after the other they are
set, unless they fail, and nothing changes besides. -/
inductive Environment.Through (env : Environment σ) (view : σ → β) : σ → List (Assignment σ) → σ → Prop
  | done {s s' : σ} : view s' = view s → Through env view s [] s'
  | failed {a : Assignment σ} {rest : List (Assignment σ)} {s s' : σ} :
      a.sets? env = none → Through env view s rest s' → Through env view s (a :: rest) s'
  | set {a : Assignment σ} {rest : List (Assignment σ)} {s t u s' : σ} {v : Value}
      {r : Except ScriptError Unit} :
      a.sets? env = some (v, t) → view t = view s → env.setVar a.name v t = some (r, u) →
      Through env view u rest s' → Through env view s (a :: rest) s'

namespace Environment.Through

variable {env : Environment σ} {view : σ → β} {as bs : List (Assignment σ)} {s t u : σ}

/-- Only what is viewed of the first state counts. -/
theorem of_view_eq (hview : view t = view s) (h : env.Through view t as u) : env.Through view s as u := by
  induction h with
  | done h => exact .done (h.trans hview)
  | failed hfails _ ih => exact .failed hfails (ih hview)
  | set hsets ht hset hrest _ => exact .set hsets (ht.trans hview) hset hrest

theorem append (h : env.Through view s as t) (h' : env.Through view t bs u) :
    env.Through view s (as ++ bs) u := by
  induction h with
  | done hview => exact h'.of_view_eq hview
  | failed hfails _ ih => exact .failed hfails (ih h')
  | set hsets ht hset _ ih => exact .set hsets ht hset (ih h')

theorem view_eq (h : env.Through view s [] u) : view u = view s := by
  cases h with
  | done h => exact h

/-- A variable is as it was unless an assignment to it comes to set it. -/
theorem binding_eq {binding : σ → String → β} {same : String → String → Prop} {x : String}
    (frame : ∀ name v, ¬ same name x → (env.setVar name v).Preserves (binding · x))
    (h : env.Through binding s as u) (hsets : ∀ a ∈ as, same a.name x → a.sets? env = none) :
    binding u x = binding s x := by
  induction h with
  | done hview => exact congrFun hview x
  | failed _ _ ih => exact ih fun a ha => hsets a (List.mem_cons_of_mem _ ha)
  | @set a rest s t u s' v r hset hview hrun _ ih =>
      have hother : ¬ same a.name x := by
        intro hsame
        rw [hsets a (by simp) hsame] at hset
        cases hset
      calc binding s' x
        _ = binding u x := ih fun a ha => hsets a (List.mem_cons_of_mem _ ha)
        _ = binding t x := frame a.name v hother hrun
        _ = binding s x := congrFun hview x

end Environment.Through

/-- The computation changes what is viewed through the listed assignments only, and these are among the
given nodes. -/
structure Run.Writes (env : Environment σ) (view : σ → β) (x : Run σ α)
    (reached : σ → List (Assignment σ)) (nodes : List Expr) : Prop where
  through {s s' : σ} {r : Except ScriptError α} :
    x s = some (r, s') → env.Through view s (reached s) s'
  node_mem {s : σ} {a : Assignment σ} : a ∈ reached s → a.node ∈ nodes

namespace Run.Writes

variable {δ : Type} {env : Environment σ} {view : σ → β} {x : Run σ α} {f : α → Run σ δ}
  {reached : σ → List (Assignment σ)} {further : α → σ → List (Assignment σ)} {nodes more : List Expr}

theorem quiet (h : x.Preserves view) : Writes env view x (fun _ => []) nodes where
  through hx := .done (h hx)
  node_mem ha := by cases ha

theorem mono (h : Writes env view x reached nodes) (hnodes : nodes ⊆ more) :
    Writes env view x reached more where
  through := h.through
  node_mem ha := hnodes (h.node_mem ha)

theorem bind (h : Writes env view x reached nodes) (hf : ∀ a, Writes env view (f a) (further a) more) :
    Writes env view (x >>= f) (fun s => reached s ++ x.listAfter s further) (nodes ++ more) where
  through := by
    intro s s' r hrun
    rcases bind_inv hrun with ⟨a, t, hx, hfa⟩ | ⟨e, hx, _⟩
    · rw [listAfter_of_ok further hx]
      exact (h.through hx).append ((hf a).through hfa)
    · rw [listAfter_of_error further hx, List.append_nil]
      exact h.through hx
  node_mem ha := by
    rcases List.mem_append.mp ha with ha | ha
    · exact List.mem_append_left _ (h.node_mem ha)
    · obtain ⟨b, t, hb⟩ := mem_listAfter ha
      exact List.mem_append_right _ ((hf b).node_mem hb)

/-- What is done with the result writes nothing. -/
theorem bind_quiet (h : Writes env view x reached nodes) (hf : ∀ a, (f a).Preserves view) :
    Writes env view (x >>= f) reached nodes where
  through := by
    intro s s' r hrun
    rcases bind_inv hrun with ⟨a, t, hx, hfa⟩ | ⟨e, hx, _⟩
    · simpa using (h.through hx).append (.done (hf a hfa))
    · exact h.through hx
  node_mem := h.node_mem

theorem ite {y : Run σ α} {c : Prop} [Decidable c] {others : σ → List (Assignment σ)}
    (hx : c → Writes env view x reached nodes) (hy : ¬ c → Writes env view y others nodes) :
    Writes env view (if c then x else y) (fun s => if c then reached s else others s) nodes := by
  by_cases h : c
  · simpa only [h, if_true] using hx h
  · simpa only [h, if_false] using hy h

/-- The assignment is come to last; it sets the variable if it has a value for it. -/
theorem assign (E : env.Preserves view) {name : String} {op : Option BinaryOp} {e : Expr}
    (h : Writes env view (e.value env) (e.reached env) nodes) :
    Writes env view (e.value env >>= env.assign name op)
      (fun s => e.reached env s ++ [⟨name, op, e, s⟩]) (nodes ++ [.assign name op e]) where
  through := by
    intro s s' r hrun
    have hsplit : e.value env >>= env.assign name op =
        (e.value env >>= env.assigned name op) >>= fun result =>
          env.setVar name result >>= fun _ => pure result := by
      rw [bind_assoc]
      exact bind_congr fun v => Environment.assign_eq name op v
    -- up to the value that is assigned nothing is written but by the right side
    have hvalue := h.bind_quiet (E.assigned name op)
    rw [hsplit] at hrun
    rcases bind_inv hrun with ⟨result, t, hresult, hset⟩ | ⟨error, hresult, _⟩
    · have hsets : Assignment.sets? env ⟨name, op, e, s⟩ = some (result, t) := by
        simp only [Assignment.sets?, hresult]
      have hrun' : ∃ r, env.setVar name result t = some (r, s') := by
        rcases bind_inv hset with ⟨_, u, hset, hpure⟩ | ⟨error, hset, _⟩
        · cases hpure
          exact ⟨_, hset⟩
        · exact ⟨_, hset⟩
      obtain ⟨_, hrun'⟩ := hrun'
      exact (hvalue.through hresult).append (.set hsets rfl hrun' (.done rfl))
    · have hsets : Assignment.sets? env ⟨name, op, e, s⟩ = none := by
        simp only [Assignment.sets?, hresult]
      exact (hvalue.through hresult).append (.failed hsets (.done rfl))
  node_mem ha := by
    rcases List.mem_append.mp ha with ha | ha
    · exact List.mem_append_left _ (h.node_mem ha)
    · rw [List.mem_singleton.mp ha]
      exact List.mem_append_right _ (List.mem_singleton_self _)

end Run.Writes

section Evaluation

variable {env : Environment σ} {view : σ → β}

mutual

/-- Every expression writes through the assignments that it comes to, case by case as it is evaluated. -/
theorem Expr.value_writes (E : env.Preserves view) (e : Expr) :
    Run.Writes env view (e.value env) (e.reached env) e.assignments := by
  have C := Run.Preserves.sequential view
  -- a part that others follow is a `bind`, the last part with what is made of the values a `bind_quiet`
  cases e with
  | literal v => exact .quiet (C.pure v)
  | var name => exact .quiet (E.readOnly.variableValue C name)
  | path name members =>
      have hpath := E.readOnly.path C name members
      rw [Environment.path_readOnly] at hpath
      exact .quiet hpath
  | assign name op e => exact .assign E (Expr.value_writes E e)
  | unary op e => exact (Expr.value_writes E e).bind_quiet fun v => C.ofRuntime (op.apply v)
  | binary op l r =>
      refine (Expr.value_writes E l).bind fun x => ?_
      exact (Expr.value_writes E r).bind_quiet fun y => C.ofRuntime (op.apply x y)
  | and l r =>
      refine (Expr.value_writes E l).bind fun x => .ite (fun _ => ?_) fun _ => .quiet (C.pure _)
      exact (Expr.value_writes E r).bind_quiet fun y => C.pure _
  | or l r =>
      refine (Expr.value_writes E l).bind fun x => .ite (fun _ => .quiet (C.pure _)) fun _ => ?_
      exact (Expr.value_writes E r).bind_quiet fun y => C.pure _
  | coalesce l r =>
      refine (Expr.value_writes E l).bind fun x => .ite (fun _ => ?_) fun _ => .quiet (C.pure _)
      exact Expr.value_writes E r
  | ternary c t e =>
      refine (Expr.value_writes E c).bind fun x => .ite (fun _ => ?_) fun _ => ?_
      · exact (Expr.value_writes E t).mono (List.subset_append_left _ _)
      · exact (Expr.value_writes E e).mono (List.subset_append_right _ _)
  | cast type isArray e =>
      exact (Expr.value_writes E e).bind_quiet fun v => E.readOnly.cast C type isArray v
  | index target position =>
      refine (Expr.value_writes E target).bind fun t => ?_
      exact (Expr.value_writes E position).bind_quiet fun i => C.ofFault (Member.index env.host t i)
  | member target name =>
      exact (Expr.value_writes E target).bind_quiet fun t => C.ofRuntime (Member.get t name)
  | method target name args =>
      refine (Expr.value_writes E target).bind fun t => ?_
      exact (Expr.values_writes E args).bind_quiet fun values =>
        C.ofFault (Member.call env.host t name values)
  | call name args => exact (Expr.values_writes E args).bind_quiet (E.call name)
  | property type name => exact .quiet (E.readOnly.static C type name none)
  | staticCall type name args =>
      exact (Expr.values_writes E args).bind_quiet fun values =>
        E.readOnly.static C type name (some values)
  | array element items =>
      exact (Expr.values_writes E items).bind_quiet fun values => E.readOnly.arrayOf C element values
  | newArray element length =>
      exact (Expr.value_writes E length).bind_quiet fun n => E.readOnly.newArray C element n
  | multi segments =>
      exact (Segment.firstValue_writes E segments).bind_quiet fun found => C.orFail found _

theorem Expr.values_writes (E : env.Preserves view) (es : List Expr) :
    Run.Writes env view (Expr.values env es) (Expr.reachedAll env es) (Expr.assignmentsAll es) := by
  have C := Run.Preserves.sequential view
  cases es with
  | nil => exact .quiet (C.pure _)
  | cons e rest =>
      refine (Expr.value_writes E e).bind fun v => ?_
      exact (Expr.values_writes E rest).bind_quiet fun values => C.pure _

theorem Segment.firstValue_writes (E : env.Preserves view) (segments : List Segment) :
    Run.Writes env view (Segment.firstValue env segments) (Segment.reached env segments)
      (Segment.assignments segments) := by
  have C := Run.Preserves.sequential view
  match segments with
  | [] => exact .quiet (C.pure none)
  | .name n :: rest =>
      have hread : Run.Writes env view (env.getVar n) (fun _ => []) [] := .quiet (E.getVar n)
      refine hread.bind fun found => ?_
      cases found with
      | some v => exact .quiet (C.pure _)
      | none => exact Segment.firstValue_writes E rest
  | .expr e :: rest =>
      refine (Expr.value_writes E e).bind fun v => .ite (fun _ => ?_) fun _ => .quiet (C.pure _)
      exact Segment.firstValue_writes E rest
  | .empty :: rest => exact .quiet (C.pure _)
  | .fallback e :: rest =>
      exact ((Expr.value_writes E e).mono (List.subset_append_left _ _)).bind_quiet fun v => C.pure _

end

end Evaluation

/-- Where reading variables and calling functions leaves the variables as they are, and setting one leaves
the others, evaluation of an expression leaves every variable that no assignment in it is to as it was,
whether it ends with a value or with an error. Without assignments it leaves the whole state, or whatever
of it reading and calling leave. The assignments that are come to stand in the expression; from one write
of theirs to the next nothing changes; and a variable is as it was unless one of them comes to set it. -/
theorem Expr.evaluation_writes_assigned {binding : σ → String → β} {same : String → String → Prop}
    {env : Environment σ} (reading : env.Preserves binding)
    (setting : ∀ name v x, ¬ same name x → (env.setVar name v).Preserves (binding · x))
    (e : Expr) {s s' : σ} {r : Except ScriptError Value} (h : e.evaluate env s = some (r, s')) :
    (∀ x, (∀ name op right, .assign name op right ∈ e.assignments → ¬ same name x) →
      binding s' x = binding s x) ∧
    (e.assignments = [] → ∀ {γ : Type} (view : σ → γ), env.Preserves view → view s' = view s) ∧
    (∀ a ∈ e.reached env s, a.node ∈ e.assignments) ∧
    env.Through binding s (e.reached env s) s' ∧
    ∀ x, (∀ a ∈ e.reached env s, same a.name x → a.sets? env = none) → binding s' x = binding s x := by
  rw [evaluate_eq_value] at h
  have hwrites := value_writes reading e
  have hnode : ∀ a ∈ e.reached env s, a.node ∈ e.assignments := fun a => hwrites.node_mem
  have hthrough := hwrites.through h
  refine ⟨fun x hx => ?_, fun hassignments γ view E => ?_, hnode, hthrough, fun x hx => ?_⟩
  · exact hthrough.binding_eq (setting · · x) fun a ha hsame =>
      absurd hsame (hx a.name a.op a.right (hnode a ha))
  · have hnone : e.reached env s = [] := by
      rw [List.eq_nil_iff_forall_not_mem]
      intro a ha
      have hmem := hnode a ha
      rw [hassignments] at hmem
      cases hmem
    have hquiet := (value_writes E e).through h
    rw [hnone] at hquiet
    exact hquiet.view_eq
  · exact hthrough.binding_eq (setting · · x) hx

/-- Surroundings with variables and nothing else. -/
def Environment.variables : Environment (String → Option Value) where
  getVar name := do return (← get) name
  setVar name v := modify fun vars x => if x = name then some v else vars x
  resolveType _ := ValueType.builtin?
  call name _ := Run.failWith (.unknownFunction name)
  callStatic _ _ _ := pure none
  host := .silent

/-- The list of `$a = "p"`, `true || ($b = "q")`, `$c` and `$d = "r"`. -/
def Expr.interruptedList : Expr :=
  .array none [.assign "a" none (.literal (.str "p")),
    .or (.literal (.bool true)) (.assign "b" none (.literal (.str "q"))),
    .var "c", .assign "d" none (.literal (.str "r"))]

/-- The second assignment is skipped and the third stands after the error that there is no `$c`; so only
`$a` changes. -/
theorem Expr.interruptedList_writes_first :
    ∃ s', interruptedList.evaluate Environment.variables (fun _ => none) =
        some (.error (.runtime (.undefinedVariable "c")), s') ∧
      s' "a" = some (.str "p") ∧ interruptedList.assignments.length = 3 ∧
      ∀ x, x ≠ "a" → s' x = none := by
  have reading : Environment.variables.Preserves fun vars x => vars x := by
    constructor
    all_goals
      intros
      intro s r t h
      cases h
      rfl
  have setting : ∀ name v x, ¬ name = x →
      (Environment.variables.setVar name v).Preserves fun vars => vars x := by
    intro name v x hne s r t h
    cases h
    exact if_neg (Ne.symm hne)
  have hends : ∃ s', interruptedList.evaluate Environment.variables (fun _ => none) =
      some (.error (.runtime (.undefinedVariable "c")), s') := ⟨_, rfl⟩
  obtain ⟨s', hends⟩ := hends
  have hreached : interruptedList.reached Environment.variables (fun _ => none) =
      [⟨"a", none, .literal (.str "p"), fun _ => none⟩] := rfl
  obtain ⟨_, _, _, _, hunset⟩ := evaluation_writes_assigned reading setting interruptedList hends
  refine ⟨s', hends, ?_, rfl, fun x hx => hunset x fun a ha hname => ?_⟩
  · cases hends
    rfl
  · rw [hreached, List.mem_singleton] at ha
    subst ha
    exact absurd hname.symm hx

end ActionTree
