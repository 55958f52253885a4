import ActionTree.Proofs.Evaluation.Writes
import ActionTree.Proofs.Execution.Caching
import ActionTree.Proofs.Notation.RoundTrip
import ActionTree.Proofs.Session.Nesting
import ActionTree.Proofs.Session.Syntax
import ActionTree.Proofs.Store.Refinement

/-!
# Assignments with an operator

An assignment with an operator works on the variable with the whole name of its target, as its right side
leaves it. Spelled out, the target is read before the right side, and may be a member of a variable. Here
is when the two do the same.
-/

namespace ActionTree

/-! ## What is seen of an evaluation -/

/-- The kinds of errors, whatever their details. -/
inductive ErrorKind where
  | malformed | runtime | user | terminated | internal
  deriving DecidableEq

def ScriptError.kind (e : ScriptError) : ErrorKind :=
  match e.cause with
  | .malformed _ => .malformed
  | .fault (.runtime _) => .runtime
  | .fault (.user _) => .user
  | .terminated => .terminated
  | .stack _ => .internal

namespace Session

/-- What is seen of the end of an evaluation: the value or the kind of error, and the variables. -/
def seen (run : Option (Except ScriptError Value × Session)) : Option (Except ErrorKind Value × Store) :=
  run.map fun (r, s) => (r.mapError ScriptError.kind, s.store)

theorem SameRun.seen_eq {x y : Option (Except ScriptError Value × Session)} (h : SameRun x y) :
    seen x = seen y := by
  cases h with
  | unfinished => rfl
  | ended r h =>
      simp only [seen, Option.map_some]
      rw [h.alike.store]

/-- A text shows what the expression that it denotes shows; what the cache holds does not matter. -/
theorem seen_evaluate {s : Session} {text : String} {e : Expr} (n : Nat) (hcache : s.cache.Reachable)
    (h : Notation.parseExpr text = .ok e) :
    seen (evaluate n text s) = seen (e.evaluate (environment n s) s) := by
  have C := CacheBlind.blockwise
  have hsame : s.SameButCache { s with cache := (s.cache.parse .single text).2 } :=
    ⟨hcache, hcache.parse .single text, _, s.config.cacheCapacity, rfl⟩
  have hrun : CacheBlind (e.evaluate (environment n s)) (e.evaluate (environment n s)) :=
    Expr.evaluate_related C.toSequential (C.environmentBy (C.lookUp n) s.surroundings.host) e
  rw [evaluate_of_parseExpr n hcache h]
  exact (hrun hsame).seen_eq.symm

end Session

/-! ## Reading a target -/

/-- A text that begins with a name is the name of a stored variable. -/
theorem Notation.IsName.plain {head : String} (h : IsName head) (rest : String) :
    NameKind.ofName (head ++ rest) = .plain := by
  obtain ⟨c, cs, hcs, hstart⟩ := h.cons
  have hne (d : Char) (hd : isNameStart d = false) : c ≠ d := by
    rintro rfl
    rw [hstart] at hd
    cases hd
  have hlist : (head ++ rest).toList = c :: (cs ++ rest.toList) := by
    rw [String.toList_append, hcs, List.cons_append]
  unfold NameKind.ofName
  rw [hlist]
  split
  · rfl
  next h => exact absurd (List.cons.inj h).1 (hne '=' (by decide))
  next h => exact absurd (List.cons.inj h).1 (hne '|' (by decide))
  next h => exact absurd (List.cons.inj h).1 (hne '~' (by decide))
  next h => exact absurd (List.cons.inj h).1 (hne '%' (by decide))
  next h =>
    rw [← (List.cons.inj h).1, isDigit_of_isNameStart hstart]
    rfl

theorem Expr.Formed.of_assign {P : Value → Prop} {op : Option BinaryOp} {name : String} {e : Expr}
    (h : (Expr.assign name op e).Formed P) : e.Formed P := by
  generalize he : Expr.assign name op e = whole at h
  cases h with
  | assign _ _ hright =>
      cases he
      exact hright
  | joined c => cases c <;> cases he
  | _ => cases he

theorem Expr.Formed.of_binary {P : Value → Prop} {op : BinaryOp} {l r : Expr}
    (h : (Expr.binary op l r).Formed P) : l.Formed P ∧ r.Formed P := by
  generalize he : Expr.binary op l r = whole at h
  cases h with
  | joined c hl hr =>
      cases c <;> cases he
      exact ⟨hl, hr⟩
  | _ => cases he

namespace Environment

/-- The first way to take a path is to take all of it. -/
theorem splits_eq_cons (name : String) (members : List String) :
    ∃ rest, splits name members = (".".intercalate (name :: members), []) :: rest := by
  induction members generalizing name with
  | nil => exact ⟨[], by rw [splits, String.intercalate_singleton]⟩
  | cons m members ih =>
      obtain ⟨rest, hrest⟩ := ih (name ++ "." ++ m)
      have hjoin : ".".intercalate ((name ++ "." ++ m) :: members) =
          ".".intercalate (name :: m :: members) := by
        cases members with
        | nil => rw [String.intercalate_singleton, String.intercalate_cons_cons,
            String.intercalate_singleton]
        | cons m' members =>
            rw [String.intercalate_cons_cons, String.intercalate_cons_cons, String.intercalate_cons_cons]
            simp only [String.append_assoc]
      exact ⟨rest ++ [(name, m :: members)], by rw [splits, hrest, hjoin, List.cons_append]⟩

theorem exists_append_of_mem_splits {name : String} {members : List String}
    {c : String × List String} (h : c ∈ splits name members) : ∃ rest, c.1 = name ++ rest := by
  induction members generalizing name with
  | nil =>
      rw [splits, List.mem_singleton] at h
      exact ⟨"", by rw [h, String.append_empty]⟩
  | cons m members ih =>
      rw [splits, List.mem_append, List.mem_singleton] at h
      rcases h with h | rfl
      · obtain ⟨rest, hrest⟩ := ih h
        exact ⟨"." ++ m ++ rest, by rw [hrest]; simp only [String.append_assoc]⟩
      · exact ⟨"", by rw [String.append_empty]⟩

end Environment

namespace Session

variable {n : Nat} {s t : Session} {name : String}

theorem longestSet_reads (n : Nat) (s t : Session) (name : String)
    {candidates : List (String × List String)}
    (hplain : ∀ c ∈ candidates, NameKind.ofName c.1 = .plain) :
    ∃ found, (environment n s).longestSet name candidates t = Run.ofRuntime found t := by
  induction candidates with
  | nil => exact ⟨.error (.undefinedVariable name), rfl⟩
  | cons candidate rest ih =>
      obtain ⟨hfirst, hrest⟩ := List.forall_mem_cons.mp hplain
      have hread : (environment n s).getVar candidate.1 t =
          some (.ok (t.store.get? candidate.1), t) := lookUp_of_plain hfirst n t
      unfold Environment.longestSet
      rw [Run.bind_of_ok _ hread]
      cases t.store.get? candidate.1 with
      | some v => exact ⟨.ok (v, candidate.2), rfl⟩
      | none => exact ih hrest

/-- The path of a whole name that is set is the value of that variable. -/
theorem path_of_set {head : String} {members : List String} {v : Value}
    (hplain : NameKind.ofName (".".intercalate (head :: members)) = .plain)
    (hset : t.store.get? (".".intercalate (head :: members)) = some v) :
    (environment n s).path head members t = some (.ok v, t) := by
  obtain ⟨rest, hsplits⟩ := Environment.splits_eq_cons head members
  have hread : (environment n s).getVar (".".intercalate (head :: members)) t = some (.ok (some v), t) := by
    rw [← hset]
    exact lookUp_of_plain hplain n t
  have hfound : (environment n s).longestSet head (Environment.splits head members) t =
      some (.ok (v, []), t) := by
    rw [hsplits]
    unfold Environment.longestSet
    rw [Run.bind_of_ok _ hread]
    rfl
  unfold Environment.path
  rw [Run.bind_of_ok _ hfound]
  rfl

theorem path_reads {head : String} {members : List String}
    (hplain : ∀ c ∈ Environment.splits head members, NameKind.ofName c.1 = .plain) :
    ∃ old, (environment n s).path head members t = Run.ofRuntime old t := by
  obtain ⟨found, hfound⟩ := longestSet_reads n s t head hplain
  unfold Environment.path
  cases found with
  | ok found =>
      rw [Run.bind_of_ok _ hfound]
      exact ⟨Environment.membersOf found.1 found.2, rfl⟩
  | error fault =>
      rw [Run.bind_of_error _ hfound]
      exact ⟨.error fault, rfl⟩

/-- A target is read without any effect. Where the variable with its whole name is set, that is what is
read. -/
theorem target_reads {T : Expr} (hT : Notation.Parser.IsFormed T)
    (htarget : Notation.Parser.target? T = some name) :
    ∃ old, T.evaluate (environment n s) t = Run.ofRuntime old t ∧
      ∀ v, t.store.get? name = some v → old = .ok v := by
  rw [Expr.evaluate_eq_value]
  cases hT with
  | var hhead =>
      cases htarget
      have hplain : NameKind.ofName name = .plain := by simpa using hhead.plain ""
      have hread : (environment n s).getVar name t = some (.ok (t.store.get? name), t) :=
        lookUp_of_plain hplain n t
      rw [Expr.value, Environment.variableValue, Run.bind_of_ok _ hread]
      cases t.store.get? name with
      | some v => exact ⟨.ok v, rfl, fun _ h => by cases h; rfl⟩
      | none => exact ⟨.error (.undefinedVariable name), rfl, fun _ h => by cases h⟩
  | @path head m members hhead hmembers =>
      cases htarget
      have hplain : ∀ c ∈ Environment.splits head (m :: members), NameKind.ofName c.1 = .plain := by
        intro c hc
        obtain ⟨rest, hrest⟩ := Environment.exists_append_of_mem_splits hc
        rw [hrest]
        exact hhead.plain rest
      rw [Expr.value]
      cases hset : t.store.get? (".".intercalate (head :: m :: members)) with
      | some v =>
          obtain ⟨rest, hsplits⟩ := Environment.splits_eq_cons head (m :: members)
          have hwhole := hplain _ (hsplits ▸ List.mem_cons_self)
          exact ⟨.ok v, path_of_set hwhole hset, fun _ h => by cases h; rfl⟩
      | none =>
          obtain ⟨old, hold⟩ := path_reads hplain
          exact ⟨old, hold, fun _ h => by cases h⟩
  | joined c => cases c <;> cases htarget
  | _ => cases htarget

/-! ## The value that an assignment gives -/

/-- What is seen once an assignment has a result or none, because the operator cannot be applied. -/
def settled (name : String) (result : Option Value) (t : Session) :
    Option (Except ErrorKind Value × Store) :=
  match result with
  | some v => some (.ok v, t.store.put name v)
  | none => some (.error .runtime, t.store)

theorem settled_inj {a b : Option Value} : settled name a t = settled name b t ↔ a = b := by
  refine ⟨fun h => ?_, fun h => h ▸ rfl⟩
  cases a with
  | none =>
      cases b with
      | none => rfl
      | some w => cases h
  | some v =>
      cases b with
      | none => cases h
      | some w => simpa [settled] using congrArg (fun p => p.map Prod.fst) h

theorem setVar_of_acceptable (hname : Store.Acceptable name) (v : Value) :
    ((environment n s).setVar name v >>= fun _ => pure v) t =
      some (.ok v, { t with store := t.store.put name v }) := by
  have hset : (environment n s).setVar name v t = some (.ok (), { t with store := t.store.put name v }) :=
    setVar_of_ok (set_of_refusal t.store v ((Store.refusal?_eq_none_iff name).mpr hname))
  rw [Run.bind_of_ok _ hset]
  rfl

theorem seen_result (hname : Store.Acceptable name) (result : Except RuntimeFault Value) :
    seen ((Run.ofRuntime result >>= fun v => (environment n s).setVar name v >>= fun _ => pure v) t) =
      settled name result.toOption t := by
  cases result with
  | error fault => rfl
  | ok v => exact congrArg seen (setVar_of_acceptable hname v)

/-- With an operator, the variable with the whole name counts as it is after the right side. -/
theorem seen_assign (hname : Store.Acceptable name) (op : BinaryOp) (v : Value) :
    seen ((environment n s).assign name (some op) v t) =
      settled name ((t.store.get? name).bind fun old => (op.apply old v).toOption) t := by
  have hread : (environment n s).getVar name t = some (.ok (t.store.get? name), t) :=
    lookUp_of_plain hname.2 n t
  have hassigned : (environment n s).assigned name (some op) v =
      (environment n s).getVar name >>= fun found =>
        Run.orFail found (.undefinedVariable name) >>= fun old => Run.ofRuntime (op.apply old v) := by
    simp only [Environment.assigned, Environment.variableValue, bind_assoc]
  rw [Environment.assign_eq, hassigned, bind_assoc, Run.bind_of_ok _ hread]
  cases t.store.get? name with
  | none => rfl
  | some old => exact seen_result hname (op.apply old v)

/-- What is seen of an evaluation with more to do after a value. -/
theorem seen_bind {x : Run Session Value} {f : Value → Run Session Value} :
    seen ((x >>= f) s) =
      match x s with
      | none => none
      | some (.error e, t) => some (.error e.kind, t.store)
      | some (.ok v, t) => seen (f v t) := by
  cases hx : x s with
  | none => rw [Run.bind_of_none f hx]; rfl
  | some p =>
      obtain ⟨r, t⟩ := p
      cases r with
      | ok v => rw [Run.bind_of_ok f hx]
      | error e => rw [Run.bind_of_error f hx]; rfl

variable {T e : Expr} {op : BinaryOp}

theorem seen_compound (hname : Store.Acceptable name) :
    seen ((Expr.assign name (some op) e).evaluate (environment n s) s) =
      match e.evaluate (environment n s) s with
      | none => none
      | some (.error e, t) => some (.error e.kind, t.store)
      | some (.ok v, t) =>
        settled name ((t.store.get? name).bind fun old => (op.apply old v).toOption) t := by
  rw [Expr.evaluate_eq_value, Expr.evaluate_eq_value, Expr.value, seen_bind]
  simp only [seen_assign hname]

/-- Spelled out, what was read before the right side counts. -/
theorem seen_expansion {old : Value} (hname : Store.Acceptable name)
    (hold : T.evaluate (environment n s) s = some (.ok old, s)) :
    seen ((Expr.assign name none (.binary op T e)).evaluate (environment n s) s) =
      match e.evaluate (environment n s) s with
      | none => none
      | some (.error e, t) => some (.error e.kind, t.store)
      | some (.ok v, t) => settled name (op.apply old v).toOption t := by
  have hvalue : (Expr.assign name none (.binary op T e)).evaluate (environment n s) =
      T.evaluate (environment n s) >>= fun x => e.evaluate (environment n s) >>= fun y =>
        Run.ofRuntime (op.apply x y) >>= (environment n s).assign name none := by
    simp only [Expr.evaluate_eq_value, Expr.value, bind_assoc]
  rw [hvalue, Run.bind_of_ok _ hold, seen_bind]
  split
  · rfl
  · rfl
  · exact seen_result hname _

/-! ## When the two do the same -/

/-- When `T op= e` is seen to do what `T = T op e` does: the target is read and the right side gives no
value; or it gives one, and the operator has the same result on what was read as on the variable with the
whole name as it is then; or the target cannot be read, and the right side, with a value or a fault at run
time, leaves the variables as they were. -/
inductive Expands (n : Nat) (s : Session) (T : Expr) (name : String) (op : BinaryOp) (e : Expr) : Prop where
  | unvalued {old : Value} : T.evaluate (environment n s) s = some (.ok old, s) →
      (∀ v t, e.evaluate (environment n s) s ≠ some (.ok v, t)) → Expands n s T name op e
  | applied {old v : Value} {t : Session} : T.evaluate (environment n s) s = some (.ok old, s) →
      e.evaluate (environment n s) s = some (.ok v, t) →
      ((t.store.get? name).bind fun now => (op.apply now v).toOption) = (op.apply old v).toOption →
      Expands n s T name op e
  | unread {fault : RuntimeFault} {r : Except ScriptError Value} {t : Session} :
      T.evaluate (environment n s) s = some (.error (.runtime fault), s) →
      e.evaluate (environment n s) s = some (r, t) → t.store = s.store →
      (∀ error, r = .error error → error.kind = .runtime) → Expands n s T name op e

theorem acceptable_of_target (hT : Notation.Parser.IsFormed T)
    (htarget : Notation.Parser.target? T = some name) : Store.Acceptable name := by
  obtain ⟨head, parts, hnames, rfl⟩ := Notation.Parser.isDotted_target? hT htarget
  obtain ⟨others, hsplits⟩ := Environment.splits_eq_cons head parts
  obtain ⟨rest, hrest⟩ := Environment.exists_append_of_mem_splits (hsplits ▸ List.mem_cons_self)
  have hhead := hnames head List.mem_cons_self
  obtain ⟨c, cs, hcs, _⟩ := hhead.cons
  dsimp only at hrest
  rw [hrest]
  refine ⟨fun hempty => ?_, hhead.plain rest⟩
  have hlist := congrArg String.toList hempty
  rw [String.toList_append, hcs] at hlist
  cases hlist

/-- Where the target is read, the two differ in the value that the operator is applied to. -/
theorem seen_eq_iff_of_read {old : Value} (hname : Store.Acceptable name)
    (hold : T.evaluate (environment n s) s = some (.ok old, s)) :
    seen ((Expr.assign name (some op) e).evaluate (environment n s) s) =
        seen ((Expr.assign name none (.binary op T e)).evaluate (environment n s) s) ↔
      ∀ v t, e.evaluate (environment n s) s = some (.ok v, t) →
        ((t.store.get? name).bind fun now => (op.apply now v).toOption) = (op.apply old v).toOption := by
  rw [seen_compound hname, seen_expansion hname hold]
  cases hright : e.evaluate (environment n s) s with
  | none => exact iff_of_true rfl fun _ _ h => by cases h
  | some p =>
      obtain ⟨r, t⟩ := p
      cases r with
      | error error => exact iff_of_true rfl fun _ _ h => by cases h
      | ok v =>
          refine settled_inj.trans ⟨fun h v' t' heq => ?_, fun h => h v t rfl⟩
          cases heq
          exact h

/-- Where the target cannot be read, its expansion fails at once. -/
theorem seen_eq_iff_of_unread {fault : RuntimeFault} (hname : Store.Acceptable name)
    (hold : T.evaluate (environment n s) s = some (.error (.runtime fault), s))
    (hunset : s.store.get? name = none) :
    seen ((Expr.assign name (some op) e).evaluate (environment n s) s) =
        seen ((Expr.assign name none (.binary op T e)).evaluate (environment n s) s) ↔
      ∃ r t, e.evaluate (environment n s) s = some (r, t) ∧ t.store = s.store ∧
        ∀ error, r = .error error → error.kind = .runtime := by
  -- the right side is not evaluated
  have hfails : seen ((Expr.assign name none (.binary op T e)).evaluate (environment n s) s) =
      some (.error .runtime, s.store) := by
    rw [Expr.evaluate_eq_value] at hold ⊢
    have hbinary := Run.bind_of_error (fun x => e.value (environment n s) >>= fun y =>
      Run.ofRuntime (op.apply x y)) hold
    exact congrArg seen (Run.bind_of_error ((environment n s).assign name none) hbinary)
  rw [hfails, seen_compound hname]
  cases hright : e.evaluate (environment n s) s with
  | none => exact iff_of_false (fun h => by cases h) fun ⟨_, _, h, _⟩ => by cases h
  | some p =>
      obtain ⟨r, t⟩ := p
      cases r with
      | error error =>
          constructor
          · intro h
            obtain ⟨hkind, hstore⟩ := Prod.mk.inj (Option.some.inj h)
            refine ⟨_, t, rfl, hstore, fun _ heq => ?_⟩
            cases heq
            exact Except.error.inj hkind
          · rintro ⟨r, t', heq, hstore, hkind⟩
            cases heq
            dsimp only
            rw [hkind error rfl, hstore]
      | ok v =>
          constructor
          · intro h
            refine ⟨_, t, rfl, ?_, fun _ heq => by cases heq⟩
            dsimp only at h
            cases hresult : (t.store.get? name).bind fun old => (op.apply old v).toOption with
            | none =>
                rw [hresult] at h
                exact (Prod.mk.inj (Option.some.inj h)).2
            | some w =>
                rw [hresult] at h
                cases h
          · rintro ⟨r, t', heq, hstore, _⟩
            cases heq
            dsimp only
            rw [hstore, hunset, Option.bind_none, settled, hstore]

/-- An assignment with an operator, as a text, ends with the same value or the same kind of error and the
same variables as its expansion exactly in the cases above; in particular where the variable with the
whole name is set at the start and the right side leaves it as it is. -/
theorem compound_assignment_expands_iff {compound expansion : String} (hcache : s.cache.Reachable)
    (htarget : Notation.Parser.target? T = some name)
    (hcompound : Notation.parseExpr compound = .ok (.assign name (some op) e))
    (hexpansion : Notation.parseExpr expansion = .ok (.assign name none (.binary op T e))) :
    (seen (evaluate n compound s) = seen (evaluate n expansion s) ↔ Expands n s T name op e) ∧
    ∀ old, s.store.get? name = some old →
      (∀ v t, e.evaluate (environment n s) s = some (.ok v, t) → t.store.get? name = some old) →
      seen (evaluate n compound s) = seen (evaluate n expansion s) := by
  have hT : Notation.Parser.IsFormed T :=
    (Notation.isFormed_of_parseExpr hexpansion).of_assign.of_binary.1
  have hname := acceptable_of_target hT htarget
  rw [seen_evaluate n hcache hcompound, seen_evaluate n hcache hexpansion]
  obtain ⟨old, hreads, hset⟩ := target_reads (n := n) (s := s) (t := s) hT htarget
  cases old with
  | ok old =>
      rw [seen_eq_iff_of_read hname hreads]
      refine ⟨⟨fun h => ?_, fun h v t hright => ?_⟩, fun now hnow hkept v t hright => ?_⟩
      · by_cases hvalue : ∃ v t, e.evaluate (environment n s) s = some (.ok v, t)
        · obtain ⟨v, t, hright⟩ := hvalue
          exact .applied hreads hright (h v t hright)
        · exact .unvalued hreads fun v t hright => hvalue ⟨v, t, hright⟩
      · cases h with
        | unvalued _ hnone => exact absurd hright (hnone v t)
        | applied hreads' hright' hsame =>
            cases hreads.symm.trans hreads'
            cases hright.symm.trans hright'
            exact hsame
        | unread hreads' => cases hreads.symm.trans hreads'
      · cases hset now hnow
        rw [hkept v t hright, Option.bind_some]
  | error fault =>
      -- the whole name is tried first, so that a target that cannot be read has no variable of that name
      have hunset : s.store.get? name = none := by
        cases hget : s.store.get? name with
        | none => rfl
        | some v => cases hset v hget
      rw [seen_eq_iff_of_unread hname hreads hunset]
      refine ⟨⟨?_, fun h => ?_⟩, fun old hold => ?_⟩
      · rintro ⟨r, t, hright, hstore, hkind⟩
        exact .unread hreads hright hstore hkind
      · cases h with
        | unvalued hreads' => cases hreads.symm.trans hreads'
        | applied hreads' => cases hreads.symm.trans hreads'
        | unread _ hright hstore hkind => exact ⟨_, _, hright, hstore, hkind⟩
      · rw [hunset] at hold
        cases hold

/-- A session with a number and a word. -/
def numberAndWord : Session :=
  { Session.start {} {} with
    store := (Store.empty.put "x" (.ofInt 1)).put "s" (.str "abc") }

theorem numberAndWord_x : numberAndWord.store.get? "x" = some (.ofInt 1) := by
  have hother : Store.key "x" ≠ Store.key "s" := by decide +kernel
  rw [numberAndWord, Store.get?_put, if_neg hother, Store.get?_put, if_pos rfl]

/-- An assignment to another variable in the right side does no harm. -/
theorem compound_assignment_beside :
    Notation.parseExpr "$x += ($y = $x)" =
      .ok (.assign "x" (some .add) (.assign "y" none (.var "x"))) ∧
    Notation.parseExpr "$x = $x + ($y = $x)" =
      .ok (.assign "x" none (.binary .add (.var "x") (.assign "y" none (.var "x")))) ∧
    seen (evaluate 1 "$x += ($y = $x)" numberAndWord) =
      seen (evaluate 1 "$x = $x + ($y = $x)" numberAndWord) := by
  have hname : Notation.IsName "x" := by decide +kernel
  have hname' : Notation.IsName "y" := by decide +kernel
  have hx : Expr.Formed Notation.IsWritable (.var "x") := .var hname
  have hy : Expr.Formed Notation.IsWritable (.assign "y" none (.var "x")) :=
    .assign hname'.isDotted rfl hx
  have hcompound : Notation.parseExpr "$x += ($y = $x)" =
      .ok (.assign "x" (some .add) (.assign "y" none (.var "x"))) :=
    Notation.parseExpr_of_spell (.assign hname.isDotted rfl hy) (by decide +kernel)
  have hexpansion : Notation.parseExpr "$x = $x + ($y = $x)" =
      .ok (.assign "x" none (.binary .add (.var "x") (.assign "y" none (.var "x")))) :=
    Notation.parseExpr_of_spell (.assign hname.isDotted rfl (.joined (.binary .add) hx hy))
      (by decide +kernel)
  refine ⟨hcompound, hexpansion, ?_⟩
  have hread : (Expr.var "x").evaluate (environment 1 numberAndWord) numberAndWord =
      some (.ok (.ofInt 1), numberAndWord) := by
    obtain ⟨old, hreads, hset⟩ :=
      target_reads (n := 1) (s := numberAndWord) (t := numberAndWord) (.var hname) rfl
    rw [hreads, hset _ numberAndWord_x]
    rfl
  have hright : (Expr.assign "y" none (.var "x")).evaluate (environment 1 numberAndWord) numberAndWord =
      some (.ok (.ofInt 1), { numberAndWord with store := numberAndWord.store.put "y" (.ofInt 1) }) := by
    rw [Expr.evaluate_eq_value] at hread ⊢
    rw [Expr.value, Run.bind_of_ok _ hread]
    exact setVar_of_acceptable (n := 1) (s := numberAndWord) (acceptable_of_target (.var hname') rfl) _
  have hkept := (compound_assignment_expands_iff (n := 1) (s := numberAndWord) (.new _) rfl hcompound
    hexpansion).2
  refine hkept (.ofInt 1) numberAndWord_x fun v t heq => ?_
  cases hright.symm.trans heq
  have hother : Store.key "x" ≠ Store.key "y" := by decide +kernel
  rw [Store.get?_put, if_neg hother, numberAndWord_x]

/-- A right side that assigns to the target comes before the target is read, and a target that is the
member of a variable is not read at all: the expansions give 6 and 4. -/
theorem compound_assignment_differs :
    seen (evaluate 1 "$x += ($x = 5)" numberAndWord) ≠
      seen (evaluate 1 "$x = $x + ($x = 5)" numberAndWord) ∧
    seen (evaluate 1 "$s.Length += (1)" numberAndWord) ≠
      seen (evaluate 1 "$s.Length = $s.Length + (1)" numberAndWord) := by
  let written (run : Option (Except ErrorKind Value × Store)) : Option String :=
    run.bind fun p => p.1.toOption.map Value.text
  have hnumber : written (seen (evaluate 1 "$x += ($x = 5)" numberAndWord)) ≠
      written (seen (evaluate 1 "$x = $x + ($x = 5)" numberAndWord)) := by decide +kernel
  have hmember : written (seen (evaluate 1 "$s.Length += (1)" numberAndWord)) ≠
      written (seen (evaluate 1 "$s.Length = $s.Length + (1)" numberAndWord)) := by decide +kernel
  exact ⟨fun h => hnumber (congrArg written h), fun h => hmember (congrArg written h)⟩

end Session

end ActionTree
