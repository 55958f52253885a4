import ActionTree.Proofs.Preparation
import ActionTree.Proofs.Turns
import Mathlib.Data.List.Find

/-!
# Going through a tree level by level

The traversal passes over a node that it met before, and so over what is below it. This changes nothing but
that no node is met twice: what is below a node went into the queue when the node was first met, and is met
no later for that. So a search finds what it would find at all places of the tree, and the nodes are
compiled in that order.
-/

namespace ActionTree

/-! ## The first of those that are the same -/

section First

variable {α : Type} {same : α → α → Bool} {p : α → Bool}

/-- Elements that are the same as the first one go with it. -/
theorem first_induction (same : α → α → Bool) {motive : List α → Prop} (nil : motive [])
    (cons : ∀ a rest, motive (rest.filter fun b => decide (same b a = false)) → motive (a :: rest)) :
    ∀ l, motive l
  | [] => nil
  | a :: rest => cons a rest (first_induction same nil cons (rest.filter fun b => decide (same b a = false)))
termination_by l => l.length
decreasing_by exact Nat.lt_succ_of_le (List.length_filter_le _ _)

theorem eraseDupsBy_sublist (l : List α) : (l.eraseDupsBy same).Sublist l := by
  induction l using first_induction same with
  | nil => exact .slnil
  | cons a rest ih =>
    rw [List.eraseDupsBy_cons]
    exact (ih.trans List.filter_sublist).cons_cons a

theorem pairwise_eraseDupsBy (l : List α) :
    (l.eraseDupsBy same).Pairwise fun a b => same b a = false := by
  induction l using first_induction same with
  | nil => exact .nil
  | cons a rest ih =>
    rw [List.eraseDupsBy_cons]
    refine .cons (fun b hb => ?_) ih
    exact of_decide_eq_true (List.mem_filter.mp ((eraseDupsBy_sublist _).subset hb)).2

/-- A search that cannot tell elements that are the same finds what it would find if only the first of these
were there. -/
theorem find?_eraseDupsBy (l : List α) (hsame : ∀ a ∈ l, ∀ b ∈ l, same b a = true → p b = p a) :
    (l.eraseDupsBy same).find? p = l.find? p := by
  induction l using first_induction same with
  | nil => rfl
  | cons a rest ih =>
    rw [List.eraseDupsBy_cons]
    by_cases ha : p a = true
    · rw [List.find?_cons_of_pos ha, List.find?_cons_of_pos ha]
    · have hrest : ∀ b ∈ rest.filter fun b => decide (same b a = false), b ∈ a :: rest :=
        fun b hb => List.mem_cons_of_mem a (List.mem_filter.mp hb).1
      rw [List.find?_cons_of_neg ha, List.find?_cons_of_neg ha,
        ih fun b hb c hc => hsame b (hrest b hb) c (hrest c hc), List.find?_filter]
      refine List.find?_congr fun b hb => ?_
      have hb' := hsame a List.mem_cons_self b (List.mem_cons_of_mem a hb)
      cases hba : same b a <;> simp_all

end First

namespace Action

/-- Is it the same node? -/
def same (a b : Action) : Bool := a.identity == b.identity

/-- The nodes of the trees level by level, each as often as there are places where it stands. -/
def places : List Action → List Action
  | [] => []
  | a :: rest => a :: places (rest ++ a.children)
termination_by queue => total (queue.map size)
decreasing_by
  have := size_eq a
  simp only [List.map_cons, List.map_append, total_cons, total_append]
  omega

/-- The nodes that wait are met in their order, and what is below them after all that waits. -/
theorem places_append (row rest : List Action) :
    places (row ++ rest) = row ++ places (rest ++ row.flatMap children) := by
  induction row generalizing rest with
  | nil => simp
  | cons a row ih =>
    rw [List.cons_append, places, List.append_assoc, ih, List.cons_append, List.flatMap_cons,
      List.append_assoc]

/-- A level comes before all that is below it. -/
theorem places_level (row : List Action) : places row = row ++ places (row.flatMap children) := by
  have h := places_append row []
  rwa [List.append_nil, List.nil_append] at h

variable {seen : List Nat} {a root : Action} {queue front back : List Action}

/-! ## Passing over what was met before -/

/-- A node that was met, or is before this place in the queue, makes no difference to the traversal. -/
theorem levels_drop (h : a.identity ∈ seen ∨ a.identity ∈ front.map identity) :
    levels seen (front ++ a :: back) = levels seen (front ++ back) := by
  induction front generalizing seen back with
  | nil =>
    have hseen : seen.contains a.identity = true := by simpa using h
    rw [List.nil_append, List.nil_append, levels, if_pos hseen]
  | cons b front ih =>
    rw [List.cons_append, List.cons_append, levels, levels]
    split
    · rename_i hb
      refine ih (h.elim .inl fun h => ?_)
      rcases List.mem_cons.mp h with h | h
      · exact .inl (h ▸ List.contains_iff_mem.mp hb)
      · exact .inr h
    · rw [List.append_assoc, List.cons_append, List.append_assoc, ih]
      rcases h with h | h
      · exact .inl (List.mem_cons_of_mem _ h)
      · rcases List.mem_cons.mp h with h | h
        · exact .inl (h ▸ List.mem_cons_self)
        · exact .inr h

/-- Nodes at the end of the queue make no difference if each was met or is in the queue before. -/
theorem levels_append (h : ∀ a ∈ back, a.identity ∈ seen ∨ a.identity ∈ queue.map identity) :
    levels seen (queue ++ back) = levels seen queue := by
  induction back with
  | nil => rw [List.append_nil]
  | cons a back ih =>
    obtain ⟨ha, hback⟩ := List.forall_mem_cons.mp h
    rw [levels_drop ha, ih hback]

/-- The traversal meets the nodes at their first places. Of the nodes that were met before, what is below them
was met as well or waits in the queue: so a place that is passed over may be left with all below it. -/
theorem levels_eq_places (hcoherent : root.Coherent) {met : List Action}
    (hmet : ∀ a ∈ met, root.Contains a) (hqueue : ∀ a ∈ queue, root.Contains a)
    (hopen : ∀ a ∈ met, ∀ c ∈ a.children,
      c.identity ∈ met.map identity ∨ c.identity ∈ queue.map identity) :
    levels (met.map identity) queue =
      ((places queue).filter fun a => !(met.map identity).contains a.identity).eraseDupsBy same := by
  fun_induction places queue generalizing met with
  | case1 =>
    rw [levels]
    rfl
  | case2 a rest ih =>
    obtain ⟨hnode, hrest⟩ := List.forall_mem_cons.mp hqueue
    have hqueue' : ∀ b ∈ rest ++ a.children, root.Contains b :=
      List.forall_mem_append.mpr ⟨hrest, fun c hc => hnode.child hc⟩
    by_cases hseen : (met.map identity).contains a.identity = true
    · have ha : a ∈ met := by
        obtain ⟨b, hb, hidentity⟩ := List.mem_map.mp (List.contains_iff_mem.mp hseen)
        rwa [← hcoherent b a (hmet b hb) hnode hidentity]
      have hwaiting : ∀ b ∈ met, ∀ c ∈ b.children,
          c.identity ∈ met.map identity ∨ c.identity ∈ rest.map identity := by
        intro b hb c hc
        rcases hopen b hb c hc with h | h
        · exact .inl h
        · rcases List.mem_cons.mp h with h | h
          · exact .inl (h ▸ List.contains_iff_mem.mp hseen)
          · exact .inr h
      have hdropped : levels (met.map identity) (rest ++ a.children) = levels (met.map identity) rest :=
        levels_append (hwaiting a ha)
      rw [levels, if_pos hseen, ← hdropped, List.filter_cons_of_neg (by rw [hseen]; decide)]
      refine ih hmet hqueue' fun b hb c hc => ?_
      rw [List.map_append, List.mem_append]
      exact (hwaiting b hb c hc).imp_right .inl
    · have hopen' : ∀ b ∈ a :: met, ∀ c ∈ b.children,
          c.identity ∈ (a :: met).map identity ∨ c.identity ∈ (rest ++ a.children).map identity := by
        intro b hb c hc
        rw [List.map_append, List.mem_append, List.map_cons, List.mem_cons]
        rcases List.mem_cons.mp hb with rfl | hb
        · exact .inr (.inr (List.mem_map_of_mem hc))
        · rcases hopen b hb c hc with h | h
          · exact .inl (.inr h)
          · rcases List.mem_cons.mp h with h | h
            · exact .inl (.inl h)
            · exact .inr (.inl h)
      have hrest' := ih (List.forall_mem_cons.mpr ⟨hnode, hmet⟩) hqueue' hopen'
      rw [List.map_cons] at hrest'
      rw [levels, if_neg hseen, hrest', List.filter_cons_of_pos (by simpa using hseen),
        List.eraseDupsBy_cons, List.filter_filter]
      congr 3
      funext b
      simp [same, Bool.beq_eq_decide_eq]

/-- The nodes level by level are those at all places, each at its first place. -/
theorem breadthFirst_eq_places (hcoherent : root.Coherent) :
    root.breadthFirst = (places [root]).eraseDupsBy same := by
  have hmet : ∀ a ∈ ([] : List Action), root.Contains a := List.forall_mem_nil _
  have h : root.breadthFirst = _ := levels_eq_places hcoherent hmet
    (List.forall_mem_singleton.mpr .self) (List.forall_mem_nil _)
  have hall : ((places [root]).filter fun a => !(([] : List Action).map identity).contains a.identity) =
      places [root] := List.filter_eq_self.mpr fun _ _ => rfl
  rwa [hall] at h

theorem contains_of_mem_places (h : a ∈ places queue) : ∃ b ∈ queue, b.Contains a := by
  fun_induction places queue with
  | case1 => cases h
  | case2 b rest ih =>
    rcases List.mem_cons.mp h with rfl | h
    · exact ⟨a, List.mem_cons_self, .self⟩
    · obtain ⟨c, hc, hcontains⟩ := ih h
      rcases List.mem_append.mp hc with hc | hc
      · exact ⟨c, List.mem_cons_of_mem b hc, hcontains⟩
      · exact ⟨b, List.mem_cons_self, hcontains.of_child hc⟩

theorem mem_places_of_child {c : Action} (h : a ∈ places queue) (hc : c ∈ a.children) : c ∈ places queue := by
  fun_induction places queue with
  | case1 => cases h
  | case2 b rest ih =>
    refine List.mem_cons_of_mem b ?_
    rcases List.mem_cons.mp h with rfl | h
    · rw [places_level]
      exact List.mem_append_left _ (List.mem_append_right rest hc)
    · exact ih h

/-- The nodes of a tree are what stands at its places. -/
theorem contains_iff_mem_places : root.Contains a ↔ a ∈ places [root] := by
  constructor
  · intro h
    induction h with
    | self =>
      rw [places_level]
      exact List.mem_cons_self
    | child _ hc ih => exact mem_places_of_child ih hc
  · intro h
    obtain ⟨b, hb, hcontains⟩ := contains_of_mem_places h
    rwa [List.mem_singleton.mp hb] at hcontains

theorem mem_breadthFirst_iff (hcoherent : root.Coherent) : a ∈ root.breadthFirst ↔ root.Contains a := by
  refine ⟨fun h => ?_, breadthFirst_complete hcoherent⟩
  rw [breadthFirst_eq_places hcoherent] at h
  exact contains_iff_mem_places.mpr ((eraseDupsBy_sublist _).subset h)

theorem nodup_breadthFirst (hcoherent : root.Coherent) : (root.breadthFirst.map identity).Nodup := by
  rw [breadthFirst_eq_places hcoherent, List.Nodup, List.pairwise_map]
  exact (pairwise_eraseDupsBy _).imp fun h heq => by simp [same, heq] at h

/-- A search finds what it would find at all places of the tree. -/
theorem find?_breadthFirst (hcoherent : root.Coherent) (p : Action → Bool) :
    root.breadthFirst.find? p = (places [root]).find? p := by
  rw [breadthFirst_eq_places hcoherent]
  refine find?_eraseDupsBy _ fun a ha b hb hsame => congrArg p ?_
  exact hcoherent b a (contains_iff_mem_places.mpr hb) (contains_iff_mem_places.mpr ha) (eq_of_beq hsame)

/-! ## Compiling -/

/-- Compiling a node comes to an end. -/
theorem exists_compileNode (a : Action) (s : Session) : ∃ p, a.compileNode s = some p := by
  have hparse (text : String) (t : Session) : ∃ p, Session.parse .single text t = some p := by
    rw [Session.parse_apply]
    cases (t.cache.parse .single text).1 with
    | ok e => exact ⟨_, rfl⟩
    | error fault => exact ⟨_, rfl⟩
  have hbody (t : Session) : ∃ p, (a.expressions.forM fun text => do
      let _ ← Session.parse .single text : Run Session PUnit) t = some p :=
    Run.exists_forM fun text t => Run.exists_bind (hparse text t) fun _ _ => ⟨_, rfl⟩
  unfold compileNode Session.withFrame
  split
  · exact ⟨_, rfl⟩
  · obtain ⟨p, hp⟩ := hbody { s with stack := s.stack.push .compiling a }
    exact ⟨_, congrArg (Option.map _) hp⟩

/-- A search by id in the whole tree gives the first node that it would meet if it went to every place, level
by level; it gives none exactly if there is none in the tree. Compiling takes every node of the tree once, in
that order, each in the session that the one before it left, up to the first error. -/
theorem searched_and_compiled_by_level (hcoherent : root.Coherent) :
    (∀ (stack : CallStack) (id : String) (accept : Action → Bool),
      stack.getLast?.map Frame.action = some root →
      stack.findTree? id accept = (places [root]).find? (fun a => a.hasId id && accept a) ∧
      (stack.findTree? id accept = none ↔
        ∀ a, root.Contains a → a.hasId id = true → accept a = false)) ∧
    ∃ nodes, nodes = (places [root]).eraseDupsBy same ∧ (nodes.map identity).Nodup ∧
      (∀ a, a ∈ nodes ↔ root.Contains a) ∧
      ∀ s, ∃ k t,
        Completed (fun i s t => ∃ a, nodes[i]? = some a ∧ a.compileNode s = some (.ok (), t)) k s t ∧
        ((k = nodes.length ∧ root.compile s = some (.ok (), t)) ∨
          ∃ a e u, nodes[k]? = some a ∧ a.compileNode t = some (.error e, u) ∧
            root.compile s = some (.error e, u)) := by
  constructor
  · intro stack id accept hstack
    obtain ⟨frame, hframe, rfl⟩ := Option.map_eq_some_iff.mp hstack
    have hfind : stack.findTree? id accept =
        frame.action.breadthFirst.find? fun a => a.hasId id && accept a := by
      rw [CallStack.findTree?, hframe]
      rfl
    refine ⟨hfind.trans (find?_breadthFirst hcoherent _), ?_⟩
    rw [hfind, List.find?_eq_none]
    simp only [mem_breadthFirst_iff hcoherent, Bool.and_eq_true, not_and, Bool.not_eq_true]
  · refine ⟨root.breadthFirst, breadthFirst_eq_places hcoherent, nodup_breadthFirst hcoherent,
      fun a => mem_breadthFirst_iff hcoherent, fun s => ?_⟩
    obtain ⟨p, hp⟩ : ∃ p, root.compile s = some p := Run.exists_forM exists_compileNode
    obtain ⟨k, t, hturns, hend⟩ := Run.forM_eq_some_iff.mp hp
    refine ⟨k, t, hturns, ?_⟩
    rcases hend with ⟨hk, rfl⟩ | ⟨a, ha, e, u, herror, rfl⟩
    · exact .inl ⟨hk, hp⟩
    · exact .inr ⟨a, e, u, ha, herror, hp⟩

/-! A node that stands on two levels, with a node below it. -/

def sharedNode : Action := .sequence ⟨2, some "shared"⟩ [.sub 3 ⟨"deep", []⟩ []]

def sharingTree : Action := .sequence ⟨0, none⟩ [.sequence ⟨1, none⟩ [sharedNode], sharedNode]

theorem sharingTree_searched : sharingTree.Coherent ∧
    CallStack.findTree? [⟨.executing, sharedNode⟩, ⟨.executing, sharingTree⟩] "DEEP" (fun _ => true) =
      some (.sub 3 ⟨"deep", []⟩ []) := by
  have hplaces : places [sharingTree] = [sharingTree, .sequence ⟨1, none⟩ [sharedNode], sharedNode,
      sharedNode, .sub 3 ⟨"deep", []⟩ [], .sub 3 ⟨"deep", []⟩ []] := by
    simp [places, sharingTree, sharedNode, children]
  have hcoherent : sharingTree.Coherent := by
    intro a b ha hb hidentity
    rw [contains_iff_mem_places, hplaces] at ha hb
    simp only [List.mem_cons, List.not_mem_nil, or_false] at ha hb
    rcases ha with rfl | rfl | rfl | rfl | rfl | rfl <;> rcases hb with rfl | rfl | rfl | rfl | rfl | rfl <;>
      first | rfl | cases hidentity
  refine ⟨hcoherent, ?_⟩
  rw [((searched_and_compiled_by_level hcoherent).1 _ _ _ rfl).1, hplaces]
  rfl

end Action

end ActionTree
