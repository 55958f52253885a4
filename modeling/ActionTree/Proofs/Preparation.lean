import ActionTree.Preparation
import ActionTree.Proofs.ExprCache
import ActionTree.Proofs.Session.Scope

/-!
# What preparation reads

The traversal level by level meets all nodes of a tree. So a preparation that succeeds has read every
expression that a node is bound to evaluate.
-/

namespace ActionTree

namespace Action

/-! ## The nodes of a tree -/

/-- The second node is the first or stands below it. -/
inductive Contains (root : Action) : Action → Prop where
  | self : Contains root root
  | child {a c : Action} : Contains root a → c ∈ a.children → Contains root c

/-- A node that stands at several places is the same at all of them. -/
def Coherent (root : Action) : Prop :=
  ∀ a b, root.Contains a → root.Contains b → a.identity = b.identity → a = b

variable {root a c : Action}

theorem Contains.of_child (hc : c ∈ root.children) (h : c.Contains a) : root.Contains a := by
  induction h with
  | self => exact .child .self hc
  | child _ hb ih => exact ih.child hb

/-- The traversal is complete: if all children of the nodes that were met before are among these or in the
queue, the same holds of all nodes that are met, and nothing in the queue is left out. -/
theorem levels_complete {nodes : Action → Prop} (hchildren : ∀ a, nodes a → ∀ c ∈ a.children, nodes c)
    (hsame : ∀ a b, nodes a → nodes b → a.identity = b.identity → a = b) {met queue : List Action}
    (hmet : ∀ a ∈ met, nodes a) (hqueue : ∀ a ∈ queue, nodes a)
    (hopen : ∀ a ∈ met, ∀ c ∈ a.children, c ∈ met ∨ c ∈ queue) :
    (∀ a ∈ queue, a ∈ met ∨ a ∈ levels (met.map identity) queue) ∧
      ∀ a, a ∈ met ∨ a ∈ levels (met.map identity) queue →
        ∀ c ∈ a.children, c ∈ met ∨ c ∈ levels (met.map identity) queue := by
  generalize hseen : met.map identity = seen
  fun_induction levels seen queue generalizing met with
  | case1 => simpa using hopen
  | case2 seen first rest hcontains ih =>
    obtain ⟨hnode, hqueue⟩ := List.forall_mem_cons.mp hqueue
    have hfirst : first ∈ met := by
      rw [← hseen, List.contains_iff_mem, List.mem_map] at hcontains
      obtain ⟨b, hb, hidentity⟩ := hcontains
      rw [← hsame b first (hmet b hb) hnode hidentity]
      exact hb
    have hopen' : ∀ a ∈ met, ∀ c ∈ a.children, c ∈ met ∨ c ∈ rest := by
      intro a ha c hc
      rcases hopen a ha c hc with h | h
      · exact .inl h
      · rcases List.mem_cons.mp h with rfl | h
        · exact .inl hfirst
        · exact .inr h
    obtain ⟨hrest, hclosed⟩ := ih hmet hqueue hopen' hseen
    exact ⟨List.forall_mem_cons.mpr ⟨.inl hfirst, hrest⟩, hclosed⟩
  | case3 seen first rest hcontains ih =>
    obtain ⟨hnode, hqueue⟩ := List.forall_mem_cons.mp hqueue
    have hmet' := List.forall_mem_cons.mpr ⟨hnode, hmet⟩
    have hqueue' := List.forall_mem_append.mpr ⟨hqueue, hchildren first hnode⟩
    have hopen' : ∀ a ∈ first :: met, ∀ c ∈ a.children, c ∈ first :: met ∨ c ∈ rest ++ first.children := by
      intro a ha c hc
      simp only [List.mem_cons, List.mem_append]
      rcases List.mem_cons.mp ha with rfl | ha
      · exact .inr (.inr hc)
      · rcases hopen a ha c hc with h | h
        · exact .inl (.inr h)
        · rcases List.mem_cons.mp h with rfl | h
          · exact .inl (.inl rfl)
          · exact .inr (.inl h)
    obtain ⟨hrest, hclosed⟩ := ih hmet' hqueue' hopen' (by rw [List.map_cons, hseen])
    have hshift (b : Action) :
        (b ∈ first :: met ∨ b ∈ levels (first.identity :: seen) (rest ++ first.children)) ↔
          b ∈ met ∨ b ∈ first :: levels (first.identity :: seen) (rest ++ first.children) := by
      rw [List.mem_cons, List.mem_cons, or_assoc, or_left_comm]
    simp only [hshift] at hrest hclosed
    refine ⟨List.forall_mem_cons.mpr ⟨.inr List.mem_cons_self, fun a ha => ?_⟩, hclosed⟩
    exact hrest a (List.mem_append_left _ ha)

theorem breadthFirst_complete (hcoherent : root.Coherent) (h : root.Contains a) : a ∈ root.breadthFirst := by
  have hnone : ∀ a ∈ ([] : List Action), root.Contains a := List.forall_mem_nil _
  have hself : ∀ a ∈ [root], root.Contains a := List.forall_mem_singleton.mpr .self
  obtain ⟨hroot, hclosed⟩ := levels_complete (fun a ha c hc => ha.child hc) hcoherent hnone hself
    (List.forall_mem_nil _)
  have hmet (b : Action) : b ∈ [] ∨ b ∈ levels ([].map identity) [root] ↔ b ∈ root.breadthFirst := by
    simp [breadthFirst]
  simp only [hmet] at hroot hclosed
  induction h with
  | self => exact hroot root List.mem_cons_self
  | child _ hc ih => exact hclosed _ ih _ hc

end Action

/-! ## What is left by checking and reading -/

/-- Where each turn keeps the invariant and has the property, all turns do. -/
theorem Run.forM_ok {σ β : Type} (inv : σ → Prop) (p : β → Prop) {items : List β} {f : β → Run σ PUnit}
    {s t : σ} {u : PUnit}
    (hstep : ∀ b ∈ items, ∀ s t u, inv s → f b s = some (.ok u, t) → p b ∧ inv t) (hs : inv s)
    (h : items.forM f s = some (.ok u, t)) : (∀ b ∈ items, p b) ∧ inv t := by
  induction items generalizing s with
  | nil =>
    cases h
    exact ⟨List.forall_mem_nil p, hs⟩
  | cons b rest ih =>
    rcases Run.bind_inv h with ⟨v, m, hb, hrest⟩ | ⟨e, _, he⟩
    · obtain ⟨hpb, hm⟩ := hstep b List.mem_cons_self s m v hs hb
      obtain ⟨hp, ht⟩ := ih (fun c hc => hstep c (List.mem_cons_of_mem b hc)) hm hrest
      exact ⟨List.forall_mem_cons.mpr ⟨hpb, hp⟩, ht⟩
    · cases he

namespace Session

variable {α : Type} {s t : Session}

theorem withFrame_ok {phase : Phase} {a : Action} {x : Run Session α} {v : α}
    (h : withFrame phase a x s = some (.ok v, t)) :
    ∃ m, x { s with stack := s.stack.push phase a } = some (.ok v, m) ∧ t = { m with stack := m.stack.pop } := by
  rcases withFrame_inv h with ⟨⟨fault, hr⟩, _⟩ | ⟨result, m, hbody, hr, hm⟩
  · cases hr
  · cases result with
    | ok w =>
      cases hr
      exact ⟨m, hbody, hm⟩
    | error e => cases hr

theorem parse_ok {kind : ExprKind} {text : String} {e : Expr} (hs : s.cache.Reachable)
    (h : parse kind text s = some (.ok e, t)) : kind.parse text = .ok e ∧ t.cache.Reachable := by
  rw [parse_apply, hs.parse_eq kind text] at h
  cases hparse : kind.parse text with
  | ok e' =>
    rw [hparse] at h
    cases h
    exact ⟨rfl, hs.parse kind text⟩
  | error fault =>
    rw [hparse] at h
    cases h

end Session

namespace Action

/-- Every expression that the node is bound to evaluate can be read. -/
def Readable (a : Action) : Prop := ∀ text ∈ a.expressions, ∃ e, Notation.parseExpr text = .ok e

variable {root a : Action} {s t : Session} {u : Unit}

/-- Checking reads no text. -/
theorem check_cache (a : Action) {s t : Session} {u : Unit} (h : a.check s = some (.ok u, t)) :
    t.cache = s.cache := by
  rw [check] at h
  obtain ⟨m, hbody, hm⟩ := Session.withFrame_ok h
  rcases Run.bind_inv hbody with ⟨v, m', hvalid, hchildren⟩ | ⟨e, _, he⟩
  · have hm' : m' = { s with stack := s.stack.push .initializing a } := by
      cases hvalidate : a.validate with
      | ok w =>
        rw [hvalidate] at hvalid
        cases hvalid
        rfl
      | error fault =>
        rw [hvalidate] at hvalid
        cases hvalid
    have hkept := Run.forM_ok (fun r => r.cache = s.cache) (fun _ => True)
      (fun c _ r r' w hr hc => ⟨trivial, (check_cache c.1 hc).trans hr⟩) (by rw [hm']) hchildren
    rw [hm]
    exact hkept.2
  · cases he
termination_by sizeOf a
decreasing_by exact sizeOf_lt_of_mem_children c.2

theorem compileNode_ok (hs : s.cache.Reachable) (h : a.compileNode s = some (.ok u, t)) :
    a.Readable ∧ t.cache.Reachable := by
  obtain ⟨m, hbody, hm⟩ := Session.withFrame_ok h
  have hread := Run.forM_ok (fun r => r.cache.Reachable)
    (fun text => ∃ e, Notation.parseExpr text = .ok e) (fun text _ r r' w hr htext => ?_) hs hbody
  · rw [hm]
    exact hread
  · rcases Run.bind_inv htext with ⟨e, m', hparse, hend⟩ | ⟨e, _, he⟩
    · cases hend
      obtain ⟨he, hm'⟩ := Session.parse_ok hr hparse
      exact ⟨⟨e, he⟩, hm'⟩
    · cases he

/-- If a tree that was not prepared before is prepared with success, the expressions of all its nodes can
be read. -/
theorem readable_of_prepare (hcoherent : root.Coherent) (hcache : s.cache.Reachable)
    (hnew : root.identity ∉ s.prepared) (h : root.prepare s = some (.ok u, t)) :
    ∀ a, root.Contains a → a.Readable := by
  have hprepare : (do
      root.check
      root.compile
      modify fun s => { s with prepared := root.identity :: s.prepared } : Run Session Unit) s =
        some (.ok u, t) := by
    rw [← h, prepare, Run.get_bind_apply, if_neg (by simpa using hnew)]
  rcases Run.bind_inv hprepare with ⟨v, m, hcheck, hrest⟩ | ⟨e, _, he⟩
  · have hm : m.cache.Reachable := check_cache root hcheck ▸ hcache
    rcases Run.bind_inv hrest with ⟨w, m', hcompile, _⟩ | ⟨e, _, he⟩
    · have hread := Run.forM_ok (fun r => r.cache.Reachable) Readable
        (fun b _ r r' w hr hb => compileNode_ok hr hb) hm hcompile
      intro a ha
      exact hread.1 a (breadthFirst_complete hcoherent ha)
    · cases he
  · cases he

end Action

end ActionTree
