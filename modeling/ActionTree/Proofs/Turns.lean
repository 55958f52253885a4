import ActionTree.Proofs.Run

/-!
# Turn after turn

What is done in turns: each turn starts in the state that the one before it left, up to the first that does
not complete.
-/

namespace ActionTree

variable {σ β : Type}

/-- The first `k` turns are completed, from the first state to the second. -/
inductive Completed (turn : Nat → σ → σ → Prop) : Nat → σ → σ → Prop where
  | zero (s : σ) : Completed turn 0 s s
  | succ {k : Nat} {s t u : σ} : Completed turn k s t → turn k t u → Completed turn (k + 1) s u

namespace Completed

variable {turn turn' : Nat → σ → σ → Prop} {k : Nat} {s t u : σ}

/-- Only the turns that are completed matter. -/
theorem congr (hsame : ∀ i < k, ∀ s t, turn i s t → turn' i s t) (h : Completed turn k s t) :
    Completed turn' k s t := by
  induction h with
  | zero s => exact .zero s
  | succ _ hlast ih =>
    exact .succ (ih fun i hi => hsame i (Nat.lt_succ_of_lt hi)) (hsame _ (Nat.lt_succ_self _) _ _ hlast)

/-- A turn before the others. -/
theorem cons (hfirst : turn 0 s t) (h : Completed (fun i => turn (i + 1)) k t u) :
    Completed turn (k + 1) s u := by
  induction h with
  | zero t => exact .succ (.zero s) hfirst
  | succ _ hlast ih => exact .succ (ih hfirst) hlast

theorem cons_inv (h : Completed turn (k + 1) s u) :
    ∃ t, turn 0 s t ∧ Completed (fun i => turn (i + 1)) k t u := by
  generalize hn : k + 1 = n at h
  induction h generalizing k with
  | zero => cases hn
  | @succ n s m u hbefore hlast ih =>
    obtain rfl : k = n := Nat.succ.inj hn
    cases k with
    | zero =>
      cases hbefore
      exact ⟨u, hlast, .zero u⟩
    | succ k =>
      obtain ⟨t, hfirst, hrest⟩ := ih rfl
      exact ⟨t, hfirst, hrest.succ hlast⟩

end Completed

/-- Items are gone through in turn if the first of them either completes its turn, and the others follow,
or is where it stops: then some of them complete their turns, and either these were all or the next one is
where it stops. -/
theorem inTurn_iff {ρ : Type} (through : List β → σ → ρ → Prop) (turn : β → σ → σ → Prop)
    (stop : β → σ → ρ → Prop) (done : σ → ρ → Prop) (hnil : ∀ s p, through [] s p ↔ done s p)
    (hcons : ∀ b rest s p,
      through (b :: rest) s p ↔ (∃ t, turn b s t ∧ through rest t p) ∨ stop b s p)
    {items : List β} {s : σ} {p : ρ} :
    through items s p ↔ ∃ k t, Completed (fun i s t => ∃ b, items[i]? = some b ∧ turn b s t) k s t ∧
      ((k = items.length ∧ done t p) ∨ ∃ b, items[k]? = some b ∧ stop b t p) := by
  induction items generalizing s with
  | nil =>
    rw [hnil]
    constructor
    · intro h
      exact ⟨0, s, .zero s, .inl ⟨rfl, h⟩⟩
    · rintro ⟨k, t, hturns, ⟨rfl, h⟩ | ⟨b, hb, -⟩⟩
      · cases hturns
        exact h
      · simp at hb
  | cons b rest ih =>
    rw [hcons]
    constructor
    · rintro (⟨t, hturn, hrest⟩ | hstop)
      · obtain ⟨k, u, hturns, hend⟩ := ih.mp hrest
        refine ⟨k + 1, u, .cons ⟨b, rfl, hturn⟩ hturns, ?_⟩
        simpa using hend
      · exact ⟨0, s, .zero s, .inr ⟨b, rfl, hstop⟩⟩
    · rintro ⟨k, u, hturns, hend⟩
      cases k with
      | zero =>
        cases hturns
        rcases hend with ⟨hlength, -⟩ | ⟨b', hb, hstop⟩
        · cases hlength
        · cases hb
          exact .inr hstop
      | succ k =>
        obtain ⟨t, ⟨b', hb, hturn⟩, hrest⟩ := hturns.cons_inv
        cases hb
        exact .inl ⟨t, hturn, ih.mpr ⟨k, u, hrest, by simpa using hend⟩⟩

namespace Run

variable {items : List β} {f : β → Run σ PUnit} {s : σ}

/-- A pass over a list stops at the first error. -/
theorem forM_eq_some_iff {p : Except ScriptError PUnit × σ} :
    items.forM f s = some p ↔
      ∃ k t, Completed (fun i s t => ∃ b, items[i]? = some b ∧ f b s = some (.ok ⟨⟩, t)) k s t ∧
        ((k = items.length ∧ p = (.ok ⟨⟩, t)) ∨
          ∃ b, items[k]? = some b ∧ ∃ e u, f b t = some (.error e, u) ∧ p = (.error e, u)) := by
  refine inTurn_iff (fun items s p => items.forM f s = some p) (fun b s t => f b s = some (.ok ⟨⟩, t))
    (fun b t p => ∃ e u, f b t = some (.error e, u) ∧ p = (.error e, u)) (fun t p => p = (.ok ⟨⟩, t))
    (fun s p => ?_) fun b rest s p => ?_
  · exact ⟨fun h => (Option.some.inj h).symm, fun h => h ▸ rfl⟩
  · constructor
    · intro h
      rcases bind_inv h with ⟨_, t, hb, hrest⟩ | ⟨e, hb, hp⟩
      · exact .inl ⟨t, hb, hrest⟩
      · exact .inr ⟨e, p.2, hb, Prod.ext hp rfl⟩
    · rintro (⟨t, hb, hrest⟩ | ⟨e, u, hb, rfl⟩)
      · exact (bind_of_ok _ hb).trans hrest
      · exact bind_of_error _ hb

theorem exists_bind {α γ : Type} {x : Run σ α} {g : α → Run σ γ} (hx : ∃ p, x s = some p)
    (hg : ∀ a t, ∃ p, g a t = some p) : ∃ p, (x >>= g) s = some p := by
  obtain ⟨⟨r, t⟩, hx⟩ := hx
  cases r with
  | ok a =>
    obtain ⟨p, hp⟩ := hg a t
    exact ⟨p, (bind_of_ok g hx).trans hp⟩
  | error e => exact ⟨_, bind_of_error g hx⟩

/-- A pass comes to an end if every turn does. -/
theorem exists_forM (h : ∀ b s, ∃ p, f b s = some p) : ∃ p, items.forM f s = some p := by
  induction items generalizing s with
  | nil => exact ⟨_, rfl⟩
  | cons b rest ih => exact exists_bind (h b s) fun _ t => ih

end Run

end ActionTree
