import ActionTree.Proofs.Evaluation.Machine
import ActionTree.Proofs.ExprCache
import ActionTree.Proofs.Notation.RoundTrip
import ActionTree.Proofs.Session.Raising

/-!
# Nested evaluations

Reading a computed name evaluates a text, which may read computed names in turn. An evaluation returns
exactly if the evaluations that are started inside of one another go to a bounded depth. Nothing else
bounds them: a variable that holds a computed name with which it is read itself is evaluated without end.
-/

namespace ActionTree

/-- What is evaluated when a name of this kind is read. -/
def NameKind.evaluated? : NameKind → Option (ExprKind × String)
  | expr text => some (.single, text)
  | multi text => some (.multi, text)
  | _ => none

theorem Run.Sound.not_internal {σ α : Type} {x : Run σ α} (h : x.Sound) {s : σ}
    {p : Except ScriptError α × σ} (hp : x s = some p) (e : ScriptError) (he : p.1 = .error e) :
    e.isInternal = false := by
  obtain ⟨r, t⟩ := p
  cases he
  exact h hp

namespace Session

/-- A text that is evaluated in a session. -/
structure Evaluation where
  kind : ExprKind
  text : String
  session : Session

namespace Reading

open Classical in
/-- Reads a name in one session with an error, and all else as before. -/
noncomputable def failingAt (read : Reading) (name : String) (s : Session) (e : ScriptError)
    (t : Session) : Reading := fun name' s' =>
  if name' = name ∧ s' = s then some (.error e, t) else read name' s'

end Reading

namespace Evaluation

/-- What the evaluation ends with, if at most `n` computed names are read inside of one another. -/
def result (n : Nat) (e : Evaluation) : Option (Except ScriptError Value × Session) :=
  evaluateBy (lookUp n) e.kind e.text e.session

/-- The evaluation ends with a value or an error. -/
def Returns (e : Evaluation) : Prop := ∃ n r, e.result n = some r

/-- The first evaluation starts the second: it comes to read a name that stands for the text of the second,
in the session of the second. Whatever error the reading ends with is then what the first ends with. -/
def Starts (e e' : Evaluation) : Prop :=
  ∃ n name, (NameKind.ofName name).evaluated? = some (e'.kind, e'.text) ∧
    ∀ err t, evaluateBy ((lookUp n).failingAt name e'.session err t) e.kind e.text e.session =
      some (.error err, t)

/-- So many evaluations are started, each inside the one before. -/
def Nests : Nat → Evaluation → Prop
  | 0, _ => True
  | n + 1, e => ∃ e', e.Starts e' ∧ Nests n e'

end Evaluation

/-! ## More steps -/

/-- Where the first computation comes to an end, the second ends in the same way. -/
def Extends {α : Type} (x y : Run Session α) : Prop := ∀ ⦃s p⦄, x s = some p → y s = some p

theorem extends_evaluative : RunRel.Evaluative fun _ x y => Extends x y where
  pure _ := fun _ _ h => h
  fault _ := fun _ _ h => h
  malformed _ := fun _ _ h => h
  bind hx hf := by
    rintro s ⟨r, s'⟩ h
    rcases Run.bind_inv h with ⟨a, t, hxa, hfa⟩ | ⟨e, hxe, rfl⟩
    · rw [Run.bind_of_ok _ (hx hxa)]
      exact hf a hfa
    · rw [Run.bind_of_error _ (hx hxe)]
  read _ _ := fun _ _ h => h
  parse _ _ := fun _ _ h => h
  setVar _ _ := fun _ _ h => h
  freshIdentity := fun _ _ h => h
  unfinished := by
    intro α s p h
    cases h

section

variable {name text : String} {kind : ExprKind}

theorem lookUp_zero_of_evaluated (h : (NameKind.ofName name).evaluated? = some (kind, text)) :
    lookUp 0 name = Run.unfinished := by
  unfold lookUp
  generalize NameKind.ofName name = k at h
  cases k with
  | expr _ | multi _ => rfl
  | plain | env _ _ | tree _ => cases h

theorem lookUp_succ_of_evaluated (h : (NameKind.ofName name).evaluated? = some (kind, text)) (n : Nat) :
    lookUp (n + 1) name = some <$> evaluateBy (lookUp n) kind text := by
  conv =>
    lhs
    unfold lookUp
  generalize NameKind.ofName name = k at h
  cases k with
  | expr _ | multi _ =>
      cases h
      rfl
  | plain | env _ _ | tree _ => cases h

/-- Other names are read in one step. -/
theorem lookUp_of_not_evaluated (h : (NameKind.ofName name).evaluated? = none) (n : Nat) :
    lookUp n name = lookUp 0 name ∧ ∀ s, ∃ p, lookUp n name s = some p := by
  have htotal : ∀ s, ∃ p, lookUp 0 name s = some p := by
    intro s
    unfold lookUp
    generalize NameKind.ofName name = k at h
    cases k with
    | expr _ | multi _ => cases h
    | plain => exact ⟨_, rfl⟩
    | env _ _ => exact ⟨_, rfl⟩
    | tree id =>
        dsimp only
        unfold nodeObject?
        rw [Run.get_bind_apply]
        cases s.stack.findTree? id fun _ => true with
        | none => exact ⟨_, rfl⟩
        | some a => exact ⟨_, rfl⟩
  have heq : lookUp n name = lookUp 0 name := by
    unfold lookUp
    generalize NameKind.ofName name = k at h
    cases k with
    | expr _ | multi _ => cases h
    | plain | env _ _ | tree _ => rfl
  exact ⟨heq, heq ▸ htotal⟩

end

/-- More steps change no reading that comes to an end. -/
theorem lookUp_extends {m n : Nat} (h : m ≤ n) (name : String) :
    Extends (lookUp m name) (lookUp n name) := by
  have C := extends_evaluative
  induction m generalizing n name with
  | zero =>
      cases hname : (NameKind.ofName name).evaluated? with
      | none => exact (lookUp_of_not_evaluated hname n).1 ▸ fun _ _ h => h
      | some p =>
          rw [lookUp_zero_of_evaluated hname]
          intro s p h
          cases h
  | succ m ih =>
      cases hname : (NameKind.ofName name).evaluated? with
      | none =>
          rw [(lookUp_of_not_evaluated hname n).1, (lookUp_of_not_evaluated hname (m + 1)).1]
          exact fun _ _ h => h
      | some p =>
          obtain ⟨n, rfl⟩ := Nat.exists_eq_add_of_lt h
          rw [lookUp_succ_of_evaluated hname, lookUp_succ_of_evaluated hname]
          exact C.map some (C.evaluateBy (ih (by omega)) p.1 p.2)

/-! ## The reading that an evaluation cannot do without

Two evaluations of a text with different readings go the same way up to a reading that one of them, or
both, cannot answer. -/

/-- An end without a result. -/
inductive Stop where
  | unfinished
  | failed (e : ScriptError) (s : Session)

def Stop.result {α : Type} : Stop → Option (Except ScriptError α × Session)
  | unfinished => none
  | failed e s => some (.error e, s)

theorem Stop.bind {α β : Type} {x : Run Session α} {s : Session} (f : α → Run Session β) {p : Stop}
    (h : x s = p.result) : (x >>= f) s = p.result := by
  cases p with
  | unfinished => exact Run.bind_of_none f h
  | failed e t => exact Run.bind_of_error f h

/-- No evaluation in a session ends with an error of its own. -/
theorem sound_evaluative : RunRel.Evaluative fun _ x _ => x.Sound :=
  raising_evaluative (p := fun e => e.isInternal = false) (fun _ => rfl) fun _ => rfl

/-- The computations end in the same way, with no error of the evaluation itself, or stop as `P` says. -/
def StopApart (P : Stop → Stop → Prop) {α : Type} (x y : Run Session α) : Prop := ∀ s,
  (∃ r t, x s = some (r, t) ∧ y s = some (r, t) ∧ ∀ e, r = .error e → e.isInternal = false) ∨
    ∃ p q, P p q ∧ x s = p.result ∧ y s = q.result

variable {P : Stop → Stop → Prop}

theorem StopApart.refl {α : Type} {x : Run Session α} (hsound : x.Sound)
    (hends : ∀ s, ∃ p, x s = some p) : StopApart P x x := by
  intro s
  obtain ⟨⟨r, t⟩, hx⟩ := hends s
  exact .inl ⟨r, t, hx, hx, hsound.not_internal hx⟩

theorem stopApart_observant : RunRel.Observant fun _ x y => StopApart P x y where
  pure a := .refl (sound_evaluative.pure a) fun _ => ⟨_, rfl⟩
  fault f := .refl (sound_evaluative.fault f) fun _ => ⟨_, rfl⟩
  malformed f := .refl (sound_evaluative.malformed f) fun _ => ⟨_, rfl⟩
  bind hx hf := by
    intro s
    rcases hx s with ⟨r, t, hxs, hys, hr⟩ | ⟨p, q, hpq, hxs, hys⟩
    · cases r with
      | ok a =>
          rw [Run.bind_of_ok _ hxs, Run.bind_of_ok _ hys]
          exact hf a t
      | error e =>
          refine .inl ⟨.error e, t, Run.bind_of_error _ hxs, Run.bind_of_error _ hys, ?_⟩
          rintro _ ⟨⟩
          exact hr e rfl
    · exact .inr ⟨p, q, hpq, Stop.bind _ hxs, Stop.bind _ hys⟩
  read f alike := .refl (sound_evaluative.read f alike) fun _ => ⟨_, rfl⟩
  parse kind text := .refl (sound_evaluative.parse kind text) fun s => by
    rw [parse_apply]
    cases (s.cache.parse kind text).1 with
    | ok e => exact ⟨_, rfl⟩
    | error e => exact ⟨_, rfl⟩
  setVar name v := .refl (sound_evaluative.setVar name v) fun s => by
    cases hv : s.store.set name v with
    | ok vars => exact ⟨_, setVar_of_ok hv⟩
    | error fault => exact ⟨_, setVar_of_error hv⟩
  freshIdentity := .refl sound_evaluative.freshIdentity fun _ => ⟨_, rfl⟩

namespace Reading

/-- Marks a name that was not read. No evaluation ends with such an error of its own. -/
def mark (name : String) : ScriptError := ⟨.stack .underflow, some name⟩

/-- Ends with the mark of the name where there is no answer. -/
def marked (read : Reading) : Reading := fun name s =>
  match read name s with
  | some p => some p
  | none => some (.error (mark name), s)

variable {read : Reading} {name : String} {s : Session}

theorem failingAt_self (e : ScriptError) (t : Session) :
    read.failingAt name s e t name s = some (.error e, t) := if_pos ⟨rfl, rfl⟩

theorem failingAt_of_ne {name' : String} {s' : Session} (h : ¬ (name' = name ∧ s' = s))
    (e : ScriptError) (t : Session) : read.failingAt name s e t name' s' = read name' s' := if_neg h

theorem marked_of_some {p : Except ScriptError (Option Value) × Session} (h : read name s = some p) :
    read.marked name s = some p := by
  unfold marked
  rw [h]

theorem marked_of_none (h : read name s = none) :
    read.marked name s = some (.error (mark name), s) := by
  unfold marked
  rw [h]

theorem failingAt_extends {read' : Reading} (h : ∀ name, Extends (read name) (read' name))
    (e : ScriptError) (t : Session) (name' : String) :
    Extends (read.failingAt name s e t name') (read'.failingAt name s e t name') := by
  intro s' p hp
  by_cases hat : name' = name ∧ s' = s
  · obtain ⟨rfl, rfl⟩ := hat
    rw [failingAt_self] at hp ⊢
    exact hp
  · rw [failingAt_of_ne hat] at hp ⊢
    exact h name' hp

theorem extends_failingAt (h : read name s = none) (e : ScriptError) (t : Session) (name' : String) :
    Extends (read name') (read.failingAt name s e t name') := by
  intro s' p hp
  by_cases hat : name' = name ∧ s' = s
  · obtain ⟨rfl, rfl⟩ := hat
    rw [h] at hp
    cases hp
  · rw [failingAt_of_ne hat]
    exact hp

end Reading

/-- An evaluation that does not come to an end has come to a reading without an answer. -/
theorem exists_unanswered {read : Reading} (hread : ∀ name, (read name).Sound) {kind : ExprKind} {text : String}
    {s : Session} (h : evaluateBy read kind text s = none) :
    ∃ name u, read name u = none ∧
      ∀ e t, evaluateBy (read.failingAt name u e t) kind text s = some (.error e, t) := by
  -- First find the reading by its mark, then see what an error there becomes.
  let found (p q : Stop) : Prop :=
    ∃ name u, read name u = none ∧ p = .unfinished ∧ q = .failed (Reading.mark name) u
  have hmarked : ∀ name, StopApart found (read name) (read.marked name) := by
    intro name u
    cases hu : read name u with
    | some p => exact .inl ⟨p.1, p.2, rfl, Reading.marked_of_some hu, (hread name).not_internal hu⟩
    | none => exact .inr ⟨_, _, ⟨name, u, hu, rfl, rfl⟩, rfl, Reading.marked_of_none hu⟩
  have hfound := stopApart_observant.evaluateBy hmarked kind text s
  rcases hfound with ⟨r, t, hr, _⟩ | ⟨_, _, ⟨name, u, hu, rfl, rfl⟩, _, hmark⟩
  · rw [h] at hr
    cases hr
  refine ⟨name, u, hu, fun e t => ?_⟩
  let replaced (p q : Stop) : Prop :=
    (p = .failed (Reading.mark name) u ∧ q = .failed e t) ∨
      ∃ name' u', ¬ (name' = name ∧ u' = u) ∧ p = .failed (Reading.mark name') u'
  have hfailing : ∀ name', StopApart replaced (read.marked name') (read.failingAt name u e t name') := by
    intro name' u'
    by_cases hat : name' = name ∧ u' = u
    · obtain ⟨rfl, rfl⟩ := hat
      exact .inr ⟨_, _, .inl ⟨rfl, rfl⟩, Reading.marked_of_none hu, Reading.failingAt_self e t⟩
    · rw [Reading.failingAt_of_ne hat]
      cases hu' : read name' u' with
      | some p => exact .inl ⟨p.1, p.2, Reading.marked_of_some hu', rfl, (hread name').not_internal hu'⟩
      | none =>
          exact .inr ⟨_, .unfinished, .inr ⟨name', u', hat, rfl⟩, Reading.marked_of_none hu', rfl⟩
  have hreplaced := stopApart_observant.evaluateBy hfailing kind text s
  rcases hreplaced with ⟨r, v, hr, _, hsound⟩ | ⟨_, _, ⟨rfl, rfl⟩ | ⟨name', u', hat, rfl⟩, hr, hq⟩
  · rw [hmark] at hr
    cases hr
    cases hsound _ rfl
  · exact hq
  · rw [hmark] at hr
    cases hr
    exact absurd ⟨rfl, rfl⟩ hat

/-! ## Depth -/

namespace Evaluation

theorem result_of_starts {m n : Nat} {e : Evaluation} {name : String} {s : Session}
    (hstarts : ∀ err t, evaluateBy ((lookUp m).failingAt name s err t) e.kind e.text e.session =
      some (.error err, t)) (hunread : lookUp n name s = none) : e.result n = none := by
  have C := extends_evaluative
  cases hresult : e.result n with
  | none => rfl
  | some p =>
      -- With an error in place of the missing answer the evaluation would end in two ways.
      have hboth : ∀ err, p = (.error err, e.session) := by
        intro err
        have hleft := C.evaluateBy (Reading.extends_failingAt hunread err e.session) e.kind e.text hresult
        have hleft := C.evaluateBy (Reading.failingAt_extends (lookUp_extends (Nat.le_max_left n m)) err
          e.session) e.kind e.text hleft
        have hright := C.evaluateBy (Reading.failingAt_extends (lookUp_extends (Nat.le_max_right n m)) err
          e.session) e.kind e.text (hstarts err e.session)
        exact Option.some.inj (hleft.symm.trans hright)
      have hne := (hboth .terminated).symm.trans (hboth (.user ""))
      cases hne

/-- If readings need more steps than given exactly where evaluations are nested as deep, evaluations do so
where one more is nested. -/
theorem result_eq_none_iff_of_lookUp {n : Nat}
    (hread : ∀ {name kind text}, (NameKind.ofName name).evaluated? = some (kind, text) →
      ∀ s, lookUp n name s = none ↔ Nests n ⟨kind, text, s⟩)
    (e : Evaluation) : e.result n = none ↔ e.Nests (n + 1) := by
  constructor
  · intro h
    obtain ⟨name, s, hs, hstarts⟩ := exists_unanswered (sound_evaluative.lookUp n) h
    cases hname : (NameKind.ofName name).evaluated? with
    | none =>
        obtain ⟨p, hp⟩ := (lookUp_of_not_evaluated hname n).2 s
        rw [hp] at hs
        cases hs
    | some p => exact ⟨⟨p.1, p.2, s⟩, ⟨n, name, hname, hstarts⟩, (hread hname s).mp hs⟩
  · rintro ⟨e', ⟨m, name, hname, hstarts⟩, hnests⟩
    exact result_of_starts hstarts ((hread hname e'.session).mpr hnests)

/-- Too few steps are given to an evaluation exactly if more evaluations are nested. -/
theorem result_eq_none_iff (n : Nat) (e : Evaluation) : e.result n = none ↔ e.Nests (n + 1) := by
  induction n generalizing e with
  | zero =>
      refine result_eq_none_iff_of_lookUp (fun hname s => ?_) e
      rw [lookUp_zero_of_evaluated hname]
      exact iff_of_true rfl trivial
  | succ n ih =>
      refine result_eq_none_iff_of_lookUp (fun hname s => ?_) e
      rw [lookUp_succ_of_evaluated hname, ← ih]
      exact Run.map_eq_none_iff some

/-- An evaluation returns exactly if the evaluations that it starts are nested to a bounded depth. -/
theorem returns_iff (e : Evaluation) : e.Returns ↔ ∃ n, ¬ e.Nests n := by
  constructor
  · rintro ⟨n, r, hr⟩
    refine ⟨n + 1, ?_⟩
    rw [← result_eq_none_iff, hr]
    exact Option.some_ne_none r
  · rintro ⟨n, hn⟩
    cases n with
    | zero => exact absurd trivial hn
    | succ n =>
        rw [← result_eq_none_iff] at hn
        exact ⟨n, Option.ne_none_iff_exists'.mp hn⟩

end Evaluation

/-! ## A variable that reads itself -/

theorem lookUp_of_plain {name : String} (h : NameKind.ofName name = .plain) (n : Nat) (s : Session) :
    lookUp n name s = some (.ok (s.store.get? name), s) := by
  unfold lookUp
  rw [h]
  rfl

theorem parseExpr_getX : Notation.parseExpr "Get(x)" = .ok (.call "Get" [.var "x"]) := by
  have hget : Expr.Formed Notation.IsWritable (.call "Get" [.var "x"]) := by
    refine .call ⟨by decide +kernel, by decide +kernel⟩ ?_
    simp only [List.forall_mem_singleton]
    exact .var (by decide +kernel)
  exact Notation.parseExpr_of_spell hget (by decide +kernel)

/-- Where `x` holds a name, `Get(x)` reads that name. -/
theorem evaluateBy_getX {n : Nat} {s : Session} {name : String} (hcache : s.cache.Reachable)
    (hx : s.store.get? "x" = some (.str name)) :
    evaluateBy (lookUp n) .single "Get(x)" s =
      (do return (← lookUp n name).getD .null) { s with cache := (s.cache.parse .single "Get(x)").2 } := by
  have hparse : parse .single "Get(x)" s = some (.ok (.call "Get" [.var "x"]),
      { s with cache := (s.cache.parse .single "Get(x)").2 }) := by
    rw [parse_apply, hcache.parse_eq]
    change Run.ofSyntax (Notation.parseExpr "Get(x)") _ = _
    rw [parseExpr_getX]
    rfl
  unfold evaluateBy
  rw [Run.bind_of_ok _ hparse, Run.get_bind_apply, Expr.evaluate_eq_value]
  generalize ht : { s with cache := (s.cache.parse .single "Get(x)").2 } = t
  have hread : lookUp n "x" t = some (.ok (some (.str name)), t) := by
    rw [lookUp_of_plain (by decide +kernel), ← ht, ← hx]
  have harg : Expr.value (environmentBy (lookUp n) t.surroundings.host) (.var "x") t =
      some (.ok (.str name), t) := by
    unfold Expr.value Environment.variableValue
    exact Run.bind_of_ok _ hread
  have hargs : Expr.values (environmentBy (lookUp n) t.surroundings.host) [.var "x"] t =
      some (.ok [.str name], t) := by
    unfold Expr.values
    rw [Run.bind_of_ok _ harg]
    rfl
  unfold Expr.value
  rw [Run.bind_of_ok _ hargs]
  change callBy (lookUp n) "Get" [.str name] t = _
  have hget : Text.lowerAscii "Get" = "get" := by decide +kernel
  unfold callBy member?
  rw [hget]
  rfl

/-- Where `x` holds the name `=Get(x)`, no number of steps is enough for `Get(x)`. -/
theorem evaluate_getX_eq_none {s : Session} (hcache : s.cache.Reachable)
    (hx : s.store.get? "x" = some (.str "=Get(x)")) (n : Nat) : evaluate n "Get(x)" s = none := by
  have hname : (NameKind.ofName "=Get(x)").evaluated? = some (.single, "Get(x)") := by decide +kernel
  induction n generalizing s with
  | zero =>
      refine (evaluateBy_getX hcache hx).trans (Run.bind_of_none _ ?_)
      rw [lookUp_zero_of_evaluated hname]
      rfl
  | succ n ih =>
      refine (evaluateBy_getX hcache hx).trans (Run.bind_of_none _ ?_)
      rw [lookUp_succ_of_evaluated hname]
      exact (Run.map_eq_none_iff some).mpr (ih (hcache.parse .single "Get(x)") hx)

/-- A session in which `x` holds a name that stands for an expression that reads it. -/
def selfReading : Session :=
  { Session.start {} {} with store := Store.empty.put "x" (.str "=Get(x)") }

/-- The evaluation never returns, and the evaluations that it starts are nested ever deeper. -/
theorem selfReading_never_returns :
    (∀ n, evaluate n "Get(x)" selfReading = none) ∧
      ∀ n, Evaluation.Nests n ⟨.single, "Get(x)", selfReading⟩ := by
  have hx : selfReading.store.get? "x" = some (.str "=Get(x)") := by
    rw [selfReading, Store.get?_put, if_pos rfl]
  have hnone := evaluate_getX_eq_none (.new _) hx
  refine ⟨hnone, fun n => Classical.byContradiction fun hn => ?_⟩
  obtain ⟨m, r, hr⟩ := (Evaluation.returns_iff _).mpr ⟨n, hn⟩
  exact Option.some_ne_none r (hr.symm.trans (hnone m))

end Session

end ActionTree
