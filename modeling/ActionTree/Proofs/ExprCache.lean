import ActionTree.ExprCache

/-!
# Cached expressions

A cache that was only used to read texts holds each text with the expression that it denotes, under the
kind that it was read as. What it gives for a text is therefore what reading the text anew gives.
-/

namespace ActionTree.ExprCache

/-- The caches that a new one can become by reading texts and by being emptied. -/
inductive Reachable : ExprCache → Prop where
  | new (capacity : Nat) : Reachable (ofCapacity capacity)
  | parse {c : ExprCache} (kind : ExprKind) (text : String) :
      Reachable c → Reachable (c.parse kind text).2
  | clear {c : ExprCache} : Reachable c → Reachable c.clear

/-- Every entry stands for its own text, read as its own kind. -/
def Faithful (c : ExprCache) : Prop := ∀ p ∈ c.entries, p.1.1.parse p.1.2 = .ok p.2

variable {c : ExprCache} {kind : ExprKind} {text : String} {e : Expr}

theorem Faithful.parse_of_find (h : c.Faithful) (hfind : c.find? kind text = some e) :
    kind.parse text = .ok e := by
  obtain ⟨before, after, hentries, -⟩ := List.lookup_eq_some_iff.mp hfind
  refine h ((kind, text), e) ?_
  rw [hentries]
  simp

theorem Faithful.insert (h : c.Faithful) (he : kind.parse text = .ok e) :
    (c.insert kind text e).Faithful := by
  unfold ExprCache.insert
  split
  · exact h
  · intro p hp
    rcases List.mem_cons.mp hp with rfl | hp
    · exact he
    · split at hp
      · cases hp
      · exact h p hp

theorem Faithful.parse (h : c.Faithful) : (c.parse kind text).2.Faithful := by
  unfold ExprCache.parse
  split
  · exact h
  · split
    · exact h.insert (by assumption)
    · exact h

theorem Reachable.faithful (h : c.Reachable) : c.Faithful := by
  induction h with
  | new capacity =>
      intro p hp
      cases hp
  | parse kind text _ ih => exact ih.parse
  | clear _ ih =>
      intro p hp
      cases hp

/-- The expression comes from the cache or from the text, and is the same. -/
theorem Reachable.parse_eq (h : c.Reachable) (kind : ExprKind) (text : String) :
    (c.parse kind text).1 = kind.parse text := by
  unfold ExprCache.parse
  split
  · rename_i e hfind
    exact (h.faithful.parse_of_find hfind).symm
  · split <;> simp [*]

end ActionTree.ExprCache
