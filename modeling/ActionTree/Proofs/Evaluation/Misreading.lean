import ActionTree.Proofs.Evaluation.Related
import ActionTree.Proofs.Expansion
import ActionTree.Proofs.Notation.Staying

/-!
# Errors of syntax in expansions

An expansion ends with an error of syntax exactly if it comes to a marker that cannot be read, after the
markers before it have been given their values.
-/

namespace ActionTree

/-! ## Computations that end with an error of syntax -/

namespace Run

variable {σ α β : Type} {s : σ} {f : SyntaxError}

/-- Ends with this error of syntax. -/
def Raises (x : Run σ α) (f : SyntaxError) (s : σ) : Prop :=
  ∃ e t, x s = some (.error e, t) ∧ e.malformed? = some f

/-- Ends with no error of syntax, wherever it begins. -/
def Clean (x : Run σ α) : Prop := ∀ s f, ¬x.Raises f s

theorem raises_congr {x y : Run σ α} {t : σ} (h : x s = y t) : x.Raises f s ↔ y.Raises f t := by
  unfold Raises
  rw [h]

theorem not_raises_of_ok {x : Run σ α} {a : α} {t : σ} (h : x s = some (.ok a, t)) : ¬x.Raises f s := by
  intro hraises
  obtain ⟨e, u, hx, _⟩ := hraises
  rw [h] at hx
  cases hx

theorem raises_throw_iff {e : ScriptError} : (throw e : Run σ α).Raises f s ↔ e.malformed? = some f := by
  constructor
  · intro h
    obtain ⟨e', t, heq, he⟩ := h
    cases heq
    exact he
  · intro h
    exact ⟨e, s, rfl, h⟩

theorem raises_bind_iff {x : Run σ α} {g : α → Run σ β} :
    (x >>= g).Raises f s ↔ x.Raises f s ∨ ∃ a t, x s = some (.ok a, t) ∧ (g a).Raises f t := by
  constructor
  · intro h
    obtain ⟨e, u, heq, he⟩ := h
    rcases bind_inv heq with ⟨a, t, hx, hg⟩ | ⟨e', hx, heq'⟩
    · exact .inr ⟨a, t, hx, e, u, hg, he⟩
    · cases heq'
      exact .inl ⟨e, u, hx, he⟩
  · intro h
    rcases h with ⟨e, u, hx, he⟩ | ⟨a, t, hx, h⟩
    · exact ⟨e, u, bind_of_error g hx, he⟩
    · exact (raises_congr (bind_of_ok g hx)).mpr h

namespace Clean

theorem pure (a : α) : (pure a : Run σ α).Clean := fun _ _ => not_raises_of_ok rfl

theorem throw {e : ScriptError} (h : e.malformed? = none) : (throw e : Run σ α).Clean := by
  intro s f hraises
  rw [raises_throw_iff, h] at hraises
  cases hraises

theorem unfinished : (unfinished : Run σ α).Clean := by
  intro s f h
  obtain ⟨e, t, heq, _⟩ := h
  cases (show (none : Option (Except ScriptError α × σ)) = some (.error e, t) from heq)

theorem bind {x : Run σ α} {g : α → Run σ β} (hx : x.Clean) (hg : ∀ a, (g a).Clean) : (x >>= g).Clean := by
  intro s f h
  rcases raises_bind_iff.mp h with h | ⟨a, t, _, h⟩
  · exact hx s f h
  · exact hg a t f h

theorem raises_bind_iff {x : Run σ α} {g : α → Run σ β} (hx : x.Clean) :
    (x >>= g).Raises f s ↔ ∃ a t, x s = some (.ok a, t) ∧ (g a).Raises f t := by
  rw [Run.raises_bind_iff]
  exact or_iff_right (hx s f)

theorem sequential : RunRel.Sequential fun _ (x _ : Run σ _) => x.Clean where
  pure := pure
  fault _ := throw rfl
  bind := bind

end Clean

theorem raises_map_iff {x : Run σ α} (g : α → β) : (g <$> x).Raises f s ↔ x.Raises f s := by
  rw [map_eq_pure_bind, Run.raises_bind_iff]
  refine or_iff_left fun h => ?_
  obtain ⟨a, t, _, h⟩ := h
  exact Clean.pure (g a) t f h

end Run

/-! ## What is left behind a piece -/

namespace Piece

variable {markers : List Marker} {c : Char} {rest more : List Char} {piece : Piece}

theorem body_drops {m : Marker} {cs : List Char} {e : Expr} (h : m.body cs = .ok (e, more)) :
    more <:+ cs := by
  obtain ⟨⟨e', mid⟩, hmulti, h⟩ := Notation.exists_of_bind_ok h
  have hmid : mid <:+ cs := Notation.Parser.drops_multiExpr hmulti
  have hskip : Notation.skipSpace mid <:+ mid := Notation.skipSpaceIn_suffix .between mid
  dsimp only at h
  split at h
  · cases h
    exact (List.drop_suffix _ _).trans (hskip.trans hmid)
  · cases h

/-- Every piece takes a character. -/
theorem front_drops (h : front markers c rest = .ok (piece, more)) : more <:+ rest := by
  unfold front at h
  split at h
  · cases h
    exact List.suffix_refl rest
  · rename_i m _
    have hinside : (c :: rest).drop m.opening.length <:+ rest := by
      cases m <;> exact List.drop_suffix _ rest
    dsimp only at h
    split at h
    · cases h
      exact (List.drop_suffix _ _).trans hinside
    · obtain ⟨⟨e, left⟩, hbody, heq⟩ := Notation.exists_of_map_ok h
      cases heq
      exact (body_drops hbody).trans hinside

end Piece

/-! ## Markers that cannot be read -/

namespace Expansion

variable {σ : Type} {env : Environment σ} {markers : List Marker} {text : String} {f : SyntaxError}

/-- The expansion of what is left of a text gives values to some markers, or none, and comes to one that
cannot be read. -/
inductive Misread (env : Environment σ) (markers : List Marker) (text : String) (f : SyntaxError) :
    List Char → σ → Prop where
  | here {c : Char} {rest : List Char} {s : σ} {fault : Notation.LocatedFault} :
      Piece.front markers c rest = .error fault → fault.inText text = f →
      Misread env markers text f (c :: rest) s
  | later {c : Char} {rest more : List Char} {piece : Piece} {v : Value} {s t : σ} :
      Piece.front markers c rest = .ok (piece, more) → piece.value env s = some (.ok v, t) →
      Misread env markers text f more t → Misread env markers text f (c :: rest) s

/-- All markers of a text can be read, be they met or not. -/
inductive Legible (markers : List Marker) : List Char → Prop where
  | nil : Legible markers []
  | cons {c : Char} {rest more : List Char} {piece : Piece} :
      Piece.front markers c rest = .ok (piece, more) → Legible markers more → Legible markers (c :: rest)

variable {cs : List Char} {s : σ}

theorem Legible.not_misread (h : Legible markers cs) : ¬Misread env markers text f cs s := by
  induction h generalizing s with
  | nil =>
    intro hmisread
    cases hmisread
  | cons hfront _ ih =>
    intro hmisread
    cases hmisread with
    | here herror _ =>
      rw [hfront] at herror
      cases herror
    | later hfront' _ hmore =>
      rw [hfront] at hfront'
      cases hfront'
      exact ih hmore

/-- Where no marker counts, all are plain text. -/
theorem legible_of_no_markers (cs : List Char) : Legible [] cs := by
  induction cs with
  | nil => exact .nil
  | cons c rest ih => exact .cons rfl ih

theorem misread_cons_of_error {c : Char} {rest : List Char} {fault : Notation.LocatedFault}
    (h : Piece.front markers c rest = .error fault) :
    Misread env markers text f (c :: rest) s ↔ fault.inText text = f := by
  constructor
  · intro hmisread
    cases hmisread with
    | here h' hfault =>
      rw [h] at h'
      cases h'
      exact hfault
    | later h' =>
      rw [h] at h'
      cases h'
  · exact .here h

theorem misread_cons_of_ok {c : Char} {rest more : List Char} {piece : Piece}
    (h : Piece.front markers c rest = .ok (piece, more)) :
    Misread env markers text f (c :: rest) s ↔
      ∃ v t, piece.value env s = some (.ok v, t) ∧ Misread env markers text f more t := by
  constructor
  · intro hmisread
    cases hmisread with
    | here h' =>
      rw [h] at h'
      cases h'
    | later h' hvalue hmore =>
      rw [h] at h'
      cases h'
      exact ⟨_, _, hvalue, hmore⟩
  · intro hmore
    obtain ⟨v, t, hvalue, hmore⟩ := hmore
    exact .later h hvalue hmore

theorem next_of_front_error {c : Char} {rest : List Char} {fault : Notation.LocatedFault}
    (h : Piece.front markers c rest = .error fault) :
    (next markers text c rest : Run σ _) = throw (.malformed (fault.inText text)) := by
  unfold next
  rw [h]
  rfl

theorem raises_next_bind_iff {α : Type} {c : Char} {rest : List Char} {fault : Notation.LocatedFault}
    (h : Piece.front markers c rest = .error fault) (g : Piece × List Char → Run σ α) :
    (next markers text c rest >>= g).Raises f s ↔ fault.inText text = f := by
  have hnext : (next markers text c rest : Run σ _).Raises f s ↔ fault.inText text = f := by
    rw [next_of_front_error h, Run.raises_throw_iff]
    exact Option.some_inj
  rw [Run.raises_bind_iff, hnext]
  refine or_iff_left fun hok => ?_
  obtain ⟨r, t, hok, _⟩ := hok
  rw [next_of_front_error h] at hok
  cases hok

variable (E : ∀ piece : Piece, (piece.value env).Clean)

include E

/-- By induction on the number of pieces, of which there are no more than characters. -/
theorem pieces_raises_iff {n : Nat} (hn : cs.length ≤ n) :
    (pieces env markers text n cs).Raises f s ↔ Misread env markers text f cs s := by
  induction n generalizing cs s with
  | zero =>
    obtain rfl : cs = [] := List.eq_nil_of_length_eq_zero (Nat.le_zero.mp hn)
    exact iff_of_false (Run.not_raises_of_ok rfl) Legible.nil.not_misread
  | succ n ih =>
    cases cs with
    | nil => exact iff_of_false (Run.not_raises_of_ok rfl) Legible.nil.not_misread
    | cons c rest =>
      cases hfront : Piece.front markers c rest with
      | error fault => rw [misread_cons_of_error hfront, pieces, raises_next_bind_iff hfront]
      | ok r =>
        obtain ⟨piece, more⟩ := r
        have hmore : more.length ≤ n :=
          Nat.le_trans (Piece.front_drops hfront).length_le (Nat.le_of_succ_le_succ hn)
        have hrest (v : Value) (t : σ) :
            (do return v.text ++ (← pieces env markers text n more) : Run σ String).Raises f t ↔
              Misread env markers text f more t := by
          rw [← map_eq_pure_bind, Run.raises_map_iff, ih hmore]
        rw [misread_cons_of_ok hfront, pieces_cons env hfront, (E piece).raises_bind_iff]
        simp only [hrest]

theorem expand_raises_iff :
    (expand env markers text).Raises f s ↔ Misread env markers text f text.toList s := by
  cases htext : text.toList with
  | nil =>
    refine iff_of_false ?_ Legible.nil.not_misread
    unfold expand
    rw [htext]
    exact Run.not_raises_of_ok rfl
  | cons c rest =>
    cases hfront : Piece.front markers c rest with
    | error fault =>
      rw [misread_cons_of_error hfront, expand, htext]
      exact raises_next_bind_iff hfront _
    | ok r =>
      obtain ⟨piece, more⟩ := r
      rw [misread_cons_of_ok hfront, expand_cons env htext hfront, (E piece).raises_bind_iff]
      cases more with
      | nil =>
        refine iff_of_false (fun h => ?_) (fun h => ?_)
        · obtain ⟨v, t, _, h⟩ := h
          exact Run.not_raises_of_ok rfl h
        · obtain ⟨v, t, _, h⟩ := h
          exact Legible.nil.not_misread h
      | cons d tail =>
        have hrest (v : Value) (t : σ) :
            (do return .str (v.text ++ (← pieces env markers text (d :: tail).length (d :: tail))) :
              Run σ Value).Raises f t ↔ Misread env markers text f (d :: tail) t := by
          rw [← map_eq_pure_bind (fun more => Value.str (v.text ++ more)), Run.raises_map_iff,
            pieces_raises_iff E (Nat.le_refl _)]
        simp only [List.isEmpty_cons, Bool.false_eq_true, if_false, hrest]

end Expansion

namespace TransformRules

/-- The text as its markers are expanded. -/
def early (r : TransformRules) (text : String) : String := if r.trimBefore then r.trim text else text

theorem finish_clean {σ : Type} (r : TransformRules) (v : Value) : (match v with
    | .str s => return .str (r.finish [] s)
    | v => return v : Run σ Value).Clean := by
  split
  · exact .pure _
  · exact .pure _

theorem apply_raises_iff {σ : Type} {env : Environment σ} (E : ∀ piece : Piece, (piece.value env).Clean)
    {r : TransformRules} {text : String} {f : SyntaxError} {s : σ} :
    (r.apply [] env (.str text)).Raises f s ↔
      Expansion.Misread env r.markers (r.early text) f (r.early text).toList s := by
  rw [← Expansion.expand_raises_iff E, apply]
  by_cases hmarkers : r.markers.isEmpty = true
  · have hnone : r.markers = [] := List.isEmpty_iff.mp hmarkers
    refine iff_of_false ?_ ?_
    · rw [if_pos hmarkers]
      exact (Run.Clean.pure _).bind (finish_clean r) s f
    · rw [Expansion.expand_raises_iff E, hnone]
      exact (Expansion.legible_of_no_markers _).not_misread
  · rw [if_neg hmarkers, Run.raises_bind_iff]
    exact or_iff_left fun h => by
      obtain ⟨v, t, _, h⟩ := h
      exact finish_clean r v t f h

end TransformRules

end ActionTree
