import ActionTree.Action

/-!
Going through a tree. A node that stands at several places is met once.
-/

namespace ActionTree

theorem sizeOf_lt_of_mem_getD {α : Type} [SizeOf α] {a : α} {items : Option (List α)}
    (h : a ∈ items.getD []) : sizeOf a < sizeOf items := by
  cases items with
  | none => simp at h
  | some items =>
    have := List.sizeOf_lt_of_mem (show a ∈ items from h)
    simp only [Option.some.sizeOf_spec]
    omega

theorem SectionsOf.sizeOf_lt_of_mem_all {α : Type} [SizeOf α] {a : α} {s : SectionsOf α}
    (h : a ∈ s.all) : sizeOf a < sizeOf s := by
  obtain ⟨items, attempt, handlers, cleanup⟩ := s
  simp only [all, List.mem_append] at h
  simp only [SectionsOf.mk.sizeOf_spec]
  rcases h with ((h | h) | h) | h
  · have := List.sizeOf_lt_of_mem h
    omega
  all_goals
    have := sizeOf_lt_of_mem_getD h
    omega

/-- The sum of the numbers. -/
def total (ns : List Nat) : Nat := ns.foldr (· + ·) 0

theorem total_cons (n : Nat) (ns : List Nat) : total (n :: ns) = n + total ns := rfl

theorem total_append (ms ns : List Nat) : total (ms ++ ns) = total ms + total ns := by
  induction ms with
  | nil => exact (Nat.zero_add _).symm
  | cons m ms ih => rw [List.cons_append, total_cons, total_cons, ih, Nat.add_assoc]

namespace Action

theorem sizeOf_lt_of_mem_children {a b : Action} (h : a ∈ b.children) : sizeOf a < sizeOf b := by
  cases b with
  | sequence l items | forEach l head items | repeatWhile l c m items | sub i s items =>
    have := List.sizeOf_lt_of_mem (show a ∈ items from h)
    simp
    omega
  | block l s o | script l s =>
    have := SectionsOf.sizeOf_lt_of_mem_all (show a ∈ s.all from h)
    simp
    omega
  | branch l c body otherwise =>
    rcases List.mem_append.1 (show a ∈ body ++ otherwise.getD [] from h) with h | h
    · have := List.sizeOf_lt_of_mem h
      simp
      omega
    · have := sizeOf_lt_of_mem_getD h
      simp
      omega
  | _ => simp [children] at h

/-- The number of nodes of a tree, place by place. -/
def size (a : Action) : Nat := 1 + total (a.children.attach.map fun c => size c.1)
termination_by sizeOf a
decreasing_by exact sizeOf_lt_of_mem_children c.2

theorem size_eq (a : Action) : a.size = 1 + total (a.children.map size) := by
  rw [size, List.attach_map_val (f := size)]

/-- The nodes of the trees level by level, without those that were `seen` and what is below them. -/
def levels (seen : List Nat) : List Action → List Action
  | [] => []
  | a :: rest =>
    if seen.contains a.identity then levels seen rest
    else a :: levels (a.identity :: seen) (rest ++ a.children)
termination_by queue => total (queue.map size)
decreasing_by
  all_goals
    have := size_eq a
    simp only [List.map_cons, List.map_append, total_cons, total_append]
    omega

/-- The nodes of the tree level by level. -/
def breadthFirst (root : Action) : List Action := levels [] [root]

end Action

end ActionTree
