import ActionTree.Proofs.Evaluation.Misreading
import ActionTree.Proofs.ExprCache
import ActionTree.Proofs.Session.Related
import ActionTree.Proofs.Session.Scope

/-!
# Errors of syntax in a session

An evaluation that reads no computed name reads no text but its own. So it ends with an error of syntax
only if that text cannot be read: a text that was read before never does.
-/

namespace ActionTree

/-- A text that can be read is read, whatever the cache holds. -/
theorem ExprCache.exists_parse (c : ExprCache) {kind : ExprKind} {text : String} {e : Expr}
    (h : kind.parse text = .ok e) : ∃ e', (c.parse kind text).1 = .ok e' := by
  unfold parse
  cases hfind : c.find? kind text with
  | some e' => exact ⟨e', rfl⟩
  | none =>
    rw [h]
    exact ⟨e, rfl⟩

namespace Session

variable {text : String} {s : Session} {f : SyntaxError}

theorem parse_of_ok {kind : ExprKind} {e : Expr} (h : (s.cache.parse kind text).1 = .ok e) :
    parse kind text s = some (.ok e, { s with cache := (s.cache.parse kind text).2 }) := by
  rw [parse_apply, h]
  rfl

/-- The first computation never ends with an error of syntax. -/
def CleanRel : RunRel Session := fun _ x _ => x.Clean

/-- Apart from reading texts, nothing that evaluation does with a session is an error of syntax. -/
theorem clean_attentive : CleanRel.Attentive where
  toSequential := Run.Clean.sequential
  read _ _ := fun _ _ => Run.not_raises_of_ok rfl
  setVar name v := by
    intro s f h
    cases hset : s.store.set name v with
    | ok vars => exact Run.not_raises_of_ok (setVar_of_ok hset) h
    | error fault =>
      obtain ⟨e, t, heq, he⟩ := h
      rw [setVar_of_error hset] at heq
      cases heq
      cases he
  freshIdentity := fun _ _ => Run.not_raises_of_ok rfl

theorem lookUp_zero_clean (name : String) : CleanRel (lookUp 0 name) (lookUp 0 name) :=
  clean_attentive.lookUp_zero Run.Clean.unfinished name

theorem environmentBy_clean (host : Host) :
    Environment.Related CleanRel (environmentBy (lookUp 0) host) (environmentBy (lookUp 0) host) :=
  clean_attentive.environmentBy lookUp_zero_clean host

theorem isSet_clean (name : String) : (isSet 0 name).Clean := by
  have hrel : CleanRel (isSet 0 name) (isSet 0 name) := clean_attentive.isSetBy lookUp_zero_clean name
  exact hrel

theorem expr_evaluate_clean (host : Host) (e : Expr) : (e.evaluate (environmentBy (lookUp 0) host)).Clean := by
  have hrel : CleanRel (e.evaluate (environmentBy (lookUp 0) host)) (e.evaluate (environmentBy (lookUp 0) host)) :=
    Expr.evaluate_related clean_attentive.toSequential (environmentBy_clean host) e
  exact hrel

theorem piece_value_clean (host : Host) (p : Piece) : (p.value (environmentBy (lookUp 0) host)).Clean := by
  have hrel : CleanRel (p.value (environmentBy (lookUp 0) host)) (p.value (environmentBy (lookUp 0) host)) :=
    Piece.value_related clean_attentive.toSequential (environmentBy_clean host) p
  exact hrel

theorem evaluateBy_apply (read : Reading) {kind : ExprKind} {e : Expr} {t : Session}
    (h : parse kind text s = some (.ok e, t)) :
    evaluateBy read kind text s = e.evaluate (environmentBy read t.surroundings.host) t := by
  unfold evaluateBy
  rw [Run.bind_of_ok _ h, Run.get_bind_apply]

/-- A text is evaluated as the expression that it denotes; only the cache changes by the reading. -/
theorem evaluate_of_parseExpr {e : Expr} (n : Nat) (hcache : s.cache.Reachable)
    (h : Notation.parseExpr text = .ok e) :
    evaluate n text s =
      e.evaluate (environment n s) { s with cache := (s.cache.parse .single text).2 } :=
  evaluateBy_apply (lookUp n) (parse_of_ok ((hcache.parse_eq .single text).trans h))

theorem evaluate_clean {e : Expr} (h : Notation.parseExpr text = .ok e) : (evaluate 0 text).Clean := by
  intro s f hraises
  obtain ⟨e', he'⟩ := s.cache.exists_parse (show ExprKind.single.parse text = .ok e from h)
  have happly := evaluateBy_apply (lookUp 0) (parse_of_ok he')
  exact expr_evaluate_clean _ e' _ f ((Run.raises_congr happly).mp hraises)

theorem transform_apply (n : Nat) (rules : TransformRules) (replaces : List ReplaceRule) (v : Value) :
    transform n rules replaces v s =
      rules.apply replaces (environmentBy (lookUp n) s.surroundings.host) v s := by
  unfold transform environment
  rw [Run.get_bind_apply]

theorem transform_raises_iff {rules : TransformRules} :
    (transform 0 rules [] (.str text)).Raises f s ↔
      Expansion.Misread (environmentBy (lookUp 0) s.surroundings.host) rules.markers (rules.early text) f
        (rules.early text).toList s := by
  rw [Run.raises_congr (transform_apply 0 rules [] (.str text))]
  exact TransformRules.apply_raises_iff (piece_value_clean s.surroundings.host)

end Session

end ActionTree
