import ActionTree.Proofs.Execution.Origin
import ActionTree.Proofs.Execution.Watch
import ActionTree.Proofs.Preparation

/-!
# Errors of syntax after preparation

Preparation reads the expressions that nodes are bound to evaluate, and no text with markers. So after it
an execution can come upon an error of syntax, but only in a marker of a text that it expands.
-/

namespace ActionTree

namespace Inquiry

variable {γ : Type}

/-- The evaluation ends with this error of syntax. -/
def Raises (q : Inquiry γ) (s : Session) (f : SyntaxError) : Prop := ∃ n, (q.run n).Raises f s

/-- The evaluation reads no computed name. -/
def IsPlain (q : Inquiry γ) (s : Session) : Prop := ∃ p, q.run 0 s = some p

/-- The question is what a text expands to, and the expansion comes to a marker that cannot be read. -/
def Misread : {γ : Type} → Inquiry γ → Session → SyntaxError → Prop
  | _, .transform rules text, s, f =>
    Expansion.Misread (Session.environment 0 s) rules.markers (rules.early text) f
      (rules.early text).toList s
  | _, .evaluate _, _, _ | _, .isSet _, _, _ => False

variable {q : Inquiry γ} {s : Session} {f : SyntaxError}

/-- More steps make no difference to an evaluation that reads no computed name. -/
theorem IsPlain.raises_iff (h : q.IsPlain s) : q.Raises s f ↔ (q.run 0).Raises f s := by
  obtain ⟨p, hp⟩ := h
  have heq (n : Nat) : q.run n s = q.run 0 s := by rw [hp, q.run_extends (Nat.zero_le n) hp]
  constructor
  · intro hraises
    obtain ⟨n, hn⟩ := hraises
    exact (Run.raises_congr (heq n)).mp hn
  · intro hraises
    exact ⟨0, hraises⟩

end Inquiry

namespace Action

/-- Every marker of the texts that the node expands can be read. -/
def Legible (a : Action) : Prop :=
  ∀ r ∈ a.expansions, Expansion.Legible r.1.markers (r.1.early r.2).toList

theorem everywhere_of_contains (root : Action) {p : Action → Prop} (h : ∀ a, root.Contains a → p a) :
    root.Everywhere p :=
  .node (h root .self) fun c hc => everywhere_of_contains c fun a ha => h a (ha.of_child hc)
termination_by sizeOf root
decreasing_by exact sizeOf_lt_of_mem_children hc

variable {root a : Action} {γ : Type} {q : Inquiry γ} {s : Session} {f : SyntaxError}

/-- What a node asks whose expressions can be read. -/
theorem Readable.raises_iff (h : a.Readable) (hasks : a.Asks q) (hplain : q.IsPlain s) :
    q.Raises s f ↔ q.Misread s f := by
  rw [hplain.raises_iff]
  cases q with
  | evaluate text =>
      obtain ⟨e, he⟩ := h text hasks
      exact iff_of_false (Session.evaluate_clean he s f) id
  | transform rules text => exact Session.transform_raises_iff
  | isSet name => exact iff_of_false (Session.isSet_clean name s f) id

theorem Legible.not_misread (h : a.Legible) (hasks : a.Asks q) : ¬q.Misread s f := by
  cases q with
  | transform rules text => exact (h (rules, text) hasks).not_misread
  | evaluate text | isSet name => exact id

/-- The execution of a tree from the first session executes this node from the second. -/
def Executes (root : Action) (s : Session) (a : Action) (u : Session) : Prop :=
  (a = root ∧ u = s) ∨ Course (.action root) s (.call (.action a)) u

theorem Executes.course {e : Event} {u v : Session} (h : root.Executes s a u)
    (hcourse : Course (.action a) u e v) : Course (.action root) s e v := by
  rcases h with ⟨rfl, rfl⟩ | hcall
  · exact hcourse
  · exact hcall.of_call hcourse

/-- Once a tree has been prepared with success, all expressions that its nodes are bound to evaluate can be
read. Where it then runs, in whatever session, and no computed name is read, an evaluation in its course
ends with an error of syntax exactly if it expands a text and comes to a marker that cannot be read; the
tree, or a node on the way, ends with one only if such an evaluation does. If all markers can be read,
there is none. -/
theorem raises_iff_misread_of_prepare (hcoherent : root.Coherent) {before prepared : Session}
    (hcache : before.cache.Reachable) (hnew : root.identity ∉ before.prepared)
    (hprepare : root.prepare before = some (.ok (), prepared)) (s : Session)
    (hframes : s.stack.Everywhere Readable)
    (hplain : ∀ {γ : Type} (q : Inquiry γ) u, Course (.action root) s (.inquiry q) u → q.IsPlain u) :
    (∀ a, root.Contains a → a.Readable) ∧
    (∀ {γ : Type} (q : Inquiry γ) u f, Course (.action root) s (.inquiry q) u →
      (q.Raises u f ↔ q.Misread u f)) ∧
    (∀ a u, root.Executes s a u → ∀ n f, (a.execute n).Raises f u →
      ∃ (γ : Type) (q : Inquiry γ) (v : Session), Course (.action root) s (.inquiry q) v ∧ q.Misread v f) ∧
    ((∀ a, root.Contains a → a.Legible) → s.stack.Everywhere Legible →
      (∀ {γ : Type} (q : Inquiry γ) u f, Course (.action root) s (.inquiry q) u → ¬q.Raises u f) ∧
        ∀ a u, root.Executes s a u → ∀ n f, ¬(a.execute n).Raises f u) := by
  have hreadable : ∀ a, root.Contains a → a.Readable := readable_of_prepare hcoherent hcache hnew hprepare
  have hraises : ∀ {γ : Type} (q : Inquiry γ) u f, Course (.action root) s (.inquiry q) u →
      (q.Raises u f ↔ q.Misread u f) := by
    intro γ q u f hcourse
    obtain ⟨a, ha, hasks⟩ := hcourse.asked (everywhere_of_contains root hreadable) hframes
    exact ha.raises_iff hasks (hplain q u hcourse)
  have horigin : ∀ a u, root.Executes s a u → ∀ n f, (a.execute n).Raises f u →
      ∃ (γ : Type) (q : Inquiry γ) (v : Session),
        Course (.action root) s (.inquiry q) v ∧ q.Misread v f := by
    intro a u hexecutes n f h
    obtain ⟨γ, q, v, m, hcourse, hq⟩ := meets_of_execute h
    have hroot : Course (.action root) s (.inquiry q) v := hexecutes.course hcourse
    exact ⟨γ, q, v, hroot, (hraises q v f hroot).mp ⟨m, hq⟩⟩
  refine ⟨hreadable, hraises, horigin, ?_⟩
  intro hlegible hstack
  have hnone : ∀ {γ : Type} (q : Inquiry γ) u f, Course (.action root) s (.inquiry q) u →
      ¬q.Misread u f := by
    intro γ q u f hcourse
    obtain ⟨a, ha, hasks⟩ := hcourse.asked (everywhere_of_contains root hlegible) hstack
    exact ha.not_misread hasks
  constructor
  · intro γ q u f hcourse h
    exact hnone q u f hcourse ((hraises q u f hcourse).mp h)
  · intro a u hexecutes n f h
    obtain ⟨γ, q, v, hcourse, hq⟩ := horigin a u hexecutes n f h
    exact hnone q v f hcourse hq

/-! ## A marker without an operand -/

/-- A node that expands a text with a marker in which an operand is missing. -/
def printUnreadable : Action := .print 0 "$\x7b=1+\x7d" .standard

theorem printUnreadable_front : ∃ fault, Piece.front TransformRules.standard.markers '$'
    "\x7b=1+\x7d".toList = .error fault := by
  have hnone : (Piece.front TransformRules.standard.markers '$' "\x7b=1+\x7d".toList).toOption.isSome =
      false := by decide +kernel
  cases hfront : Piece.front TransformRules.standard.markers '$' "\x7b=1+\x7d".toList with
  | error fault => exact ⟨fault, rfl⟩
  | ok p =>
      rw [hfront] at hnone
      cases hnone

/-- There is nothing to read when it is prepared. -/
theorem printUnreadable_prepare (hroom : ¬s.config.maxCallDepth ≤ s.stack.depth) (hnew : 0 ∉ s.prepared) :
    printUnreadable.prepare s = some (.ok (), { s with prepared := 0 :: s.prepared }) := by
  have hcheck : printUnreadable.check s = some (.ok (), s) := by
    rw [check]
    exact if_neg hroom
  have hnodes : printUnreadable.breadthFirst = [printUnreadable] := by
    simp [breadthFirst, levels, printUnreadable, children]
  have hcompile : printUnreadable.compile s = some (.ok (), s) := by
    have hnode : printUnreadable.compileNode s = some (.ok (), s) := if_neg hroom
    rw [compile, hnodes]
    exact Run.bind_of_ok _ hnode
  have hnew' : ¬s.prepared.contains printUnreadable.identity = true := by
    simpa using (show printUnreadable.identity ∉ s.prepared from hnew)
  rw [prepare, Run.get_bind_apply, if_neg hnew']
  exact (Run.bind_of_ok _ hcheck).trans (Run.bind_of_ok _ hcompile)

/-- Wherever it is asked what its text expands to, there is no answer. -/
theorem printUnreadable_misread : ∃ f, ∀ s, Inquiry.Misread (.transform .standard "$\x7b=1+\x7d") s f := by
  obtain ⟨fault, hfront⟩ := printUnreadable_front
  exact ⟨fault.inText "$\x7b=1+\x7d", fun s => .here hfront rfl⟩

theorem printUnreadable_raises (hmisread : ∀ s, Inquiry.Misread (.transform .standard "$\x7b=1+\x7d") s f)
    (hroom : ¬s.config.maxCallDepth ≤ s.stack.depth) (hrequested : s.abortRequested = false) :
    (printUnreadable.execute 1).Raises f s := by
  have hbody (u : Session) : (printUnreadable.perform (execute 0) 0).Raises f u :=
    Run.raises_bind_iff.mpr (.inl (Session.transform_raises_iff.mpr (hmisread u)))
  have hframe : (Session.withFrame .executing printUnreadable
      (printUnreadable.perform (execute 0) 0)).Raises f s :=
    Session.withFrame_raises_iff.mpr ⟨hroom, hbody _⟩
  exact Run.raises_bind_iff.mpr (.inr ⟨(), s, Session.checkAbort_of_unrequested hrequested, hframe⟩)

/-- The tree is prepared with success, its execution ends with an error of syntax, and that comes from the
marker. -/
theorem printUnreadable_misread_after_prepare : ∃ t f,
    printUnreadable.prepare (.start {} {}) = some (.ok (), t) ∧ (printUnreadable.execute 1).Raises f t ∧
      ∃ (γ : Type) (q : Inquiry γ) (u : Session),
        Course (.action printUnreadable) t (.inquiry q) u ∧ q.Misread u f := by
  obtain ⟨f, hmisread⟩ := printUnreadable_misread
  have hcoherent : printUnreadable.Coherent := by
    have hself (a : Action) (h : printUnreadable.Contains a) : a = printUnreadable := by
      induction h with
      | self => rfl
      | child _ hc ih =>
          rw [ih] at hc
          cases hc
    intro a b ha hb _
    rw [hself a ha, hself b hb]
  have hroom : ¬(Session.start {} {}).config.maxCallDepth ≤ (Session.start {} {}).stack.depth := by decide
  have hprepare := printUnreadable_prepare hroom List.not_mem_nil
  generalize ht : { Session.start {} {} with prepared := 0 :: (Session.start {} {}).prepared } = t at hprepare
  have hstack : t.stack = [] := by rw [← ht]; rfl
  have hplain : ∀ {γ : Type} (q : Inquiry γ) u,
      Course (.action printUnreadable) t (.inquiry q) u → q.IsPlain u := by
    intro γ q u hcourse
    have hall : (Call.action printUnreadable).Everywhere (· = printUnreadable) := .node rfl nofun
    obtain ⟨a, rfl, hasks⟩ := hcourse.asked hall (hstack ▸ List.forall_mem_nil _)
    cases q with
    | transform rules text =>
        cases List.mem_singleton.mp hasks
        obtain ⟨e, v, heq, _⟩ := Session.transform_raises_iff.mpr (hmisread u)
        exact ⟨_, heq⟩
    | evaluate text => cases hasks
    | isSet name => exact (hasks rfl).elim
  have hraises : (printUnreadable.execute 1).Raises f t := by
    rw [← ht]
    exact printUnreadable_raises hmisread hroom rfl
  have hmain := raises_iff_misread_of_prepare hcoherent (.new _) List.not_mem_nil hprepare t
    (hstack ▸ List.forall_mem_nil _) hplain
  exact ⟨t, f, hprepare, hraises, hmain.2.2.1 _ t (.inl ⟨rfl, rfl⟩) 1 f hraises⟩

end Action

end ActionTree
