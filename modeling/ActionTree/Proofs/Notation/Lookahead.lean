import ActionTree.Proofs.Notation.Errors

/-!
# Looking ahead

What a lexer has looked at changes nothing: it passes the tokens that it would have passed without a look,
and whoever goes on where it ends finds the others. All that counts is its place, the text from the next
token on. The lookahead and the blanks that were skipped are ways to hold it.
-/

namespace ActionTree.Notation.Lexer

variable {l l' : Lexer} {t : Token} {wanted : Token → Bool}

/-- The first tokens that `next` alone gives, each with the text from its start on, and the lexer behind
them. -/
def nexts : Nat → Lexer → Read (List (Token × List Char) × Lexer)
  | 0, l => .ok ([], l)
  | k + 1, l => do
    let (t, after) ← l.next
    let (ts, behind) ← after.nexts k
    return ((t, after.last) :: ts, behind)

/-! ## The place of a lexer -/

theorem next_eq (l : Lexer) :
    l.next = (token l.offset.1).map fun r => (r.1, { ofChars r.2 with last := l.offset.1 }) := by
  unfold next
  split
  next t start hahead =>
    have hoffset : l.offset.1 = start := by rw [offset, hahead]
    rw [hoffset, l.token_ahead t start hahead]
    rfl
  next => rfl

theorem next_congr (h : l.offset.1 = l'.offset.1) : l.next = l'.next := by
  rw [next_eq, next_eq, h]

theorem nexts_congr (h : l.offset.1 = l'.offset.1) (k : Nat) :
    (l.nexts k).map (·.1) = (l'.nexts k).map (·.1) := by
  cases k with
  | zero => rfl
  | succ k => rw [nexts, nexts, next_congr h]

theorem last_of_next (h : l.next = .ok (t, l')) : l'.last = l.offset.1 := by
  rw [next_eq] at h
  obtain ⟨r, -, hr⟩ := exists_of_map_ok h
  cases hr
  rfl

/-- After a look, the token that was seen is there, with the place it was seen at. -/
theorem ahead_of_peek (h : l.peek = .ok (t, l')) : l'.ahead = some (t, l.offset.1) := by
  unfold peek at h
  cases hlook : l.look with
  | error e =>
    rw [hlook] at h
    cases h
  | ok seen =>
    obtain ⟨t', hahead⟩ := ahead_of_look hlook
    rw [hlook] at h
    dsimp only [bind, Except.bind] at h
    rw [hahead] at h
    cases h
    exact hahead

theorem token_of_peek (h : l.peek = .ok (t, l')) : token l.offset.1 = .ok (t, l'.left) :=
  l'.token_ahead t _ (ahead_of_peek h)

theorem map_fst_peek (l : Lexer) : l.peek.map (·.1) = (token l.offset.1).map (·.1) := by
  have hstep := l.step_peek
  cases hpeek : l.peek with
  | error e =>
    rw [hpeek] at hstep
    rw [hstep.fault_eq]
    rfl
  | ok r =>
    rw [token_of_peek hpeek]
    rfl

theorem passIf_eq (wanted : Token → Bool) (l : Lexer) :
    l.passIf wanted = l.peek.map fun r =>
      if wanted r.1 then (true, { ofChars r.2.left with last := r.2.last }) else (false, r.2) := by
  rw [passIf]
  cases l.peek <;> rfl

/-- A token that was looked at starts with no blank. -/
def Settled (l : Lexer) : Prop := ∀ t start, l.ahead = some (t, start) → skipSpace start = start

theorem settled_of_unseen (h : l.ahead = none) : l.Settled := by
  intro t start hahead
  rw [h] at hahead
  cases hahead

namespace Settled

theorem skipSpace_finish (h : l.Settled) : skipSpace l.finish = l.offset.1 := by
  unfold finish offset
  split
  next t start hahead => exact h t start hahead
  next => rfl

theorem skipSpace_offset (h : l.Settled) : skipSpace l.offset.1 = l.offset.1 := by
  rw [← h.skipSpace_finish, skipSpace_skipSpace]

theorem of_peek (h : l.Settled) (hpeek : l.peek = .ok (t, l')) : l'.Settled ∧ l'.offset.1 = l.offset.1 := by
  have hahead := ahead_of_peek hpeek
  refine ⟨fun t start hstart => ?_, by rw [Lexer.offset, hahead]⟩
  rw [hahead] at hstart
  cases hstart
  exact h.skipSpace_offset

theorem of_offset (h : l.Settled) : l.offset.2.Settled ∧ l.offset.2.offset.1 = l.offset.1 := by
  cases hahead : l.ahead with
  | some r =>
    have hsame : l.offset.2 = l := by rw [Lexer.offset, hahead]
    rw [hsame]
    exact ⟨h, rfl⟩
  | none =>
    have hskipped : l.offset = (skipSpace l.left, { ofChars (skipSpace l.left) with last := l.last }) := by
      rw [Lexer.offset, hahead]
    rw [hskipped]
    exact ⟨settled_of_unseen rfl, skipSpace_skipSpace _⟩

end Settled

/-! ## Uses of a lexer -/

/-- A use of a lexer that has no fault: the lexer before it, what it passes, and the lexer after it. -/
inductive Use : Lexer → List Token → Lexer → Prop where
  | offset (l : Lexer) : Use l [] l.offset.2
  | peek {l l' : Lexer} {t : Token} (h : l.peek = .ok (t, l')) : Use l [] l'
  | next {l l' : Lexer} {t : Token} (h : l.next = .ok (t, l')) : Use l [t] l'
  | kept {l l' : Lexer} {wanted : Token → Bool} (h : l.passIf wanted = .ok (false, l')) : Use l [] l'
  | taken {l seen l' : Lexer} {t : Token} {wanted : Token → Bool} (hpeek : l.peek = .ok (t, seen))
      (h : l.passIf wanted = .ok (true, l')) : Use l [t] l'

/-- Uses of a lexer one after the other, and all that they pass. -/
inductive Uses : Lexer → List Token → Lexer → Prop where
  | done (l : Lexer) : Uses l [] l
  | more {l l₁ l₂ : Lexer} {ts ts' : List Token} (h : Use l ts l₁) (hmore : Uses l₁ ts' l₂) :
      Uses l (ts ++ ts') l₂

/-- What a use does to the place: it stays, or the token there is passed. -/
inductive Moves (place : List Char) : List Token → List Char → Prop where
  | stays : Moves place [] place
  | passes {t : Token} {rest : List Char} (h : token place = .ok (t, rest)) :
      Moves place [t] (skipSpace rest)

theorem Use.moves {ts : List Token} (huse : Use l ts l') (h : l.Settled) :
    l'.Settled ∧ Moves l.offset.1 ts l'.offset.1 := by
  cases huse with
  | offset =>
    obtain ⟨hsettled, hplace⟩ := h.of_offset
    exact ⟨hsettled, hplace.symm ▸ .stays⟩
  | peek hpeek =>
    obtain ⟨hsettled, hplace⟩ := h.of_peek hpeek
    exact ⟨hsettled, hplace.symm ▸ .stays⟩
  | next hnext =>
    rw [next_eq] at hnext
    obtain ⟨r, htoken, hr⟩ := exists_of_map_ok hnext
    cases hr
    exact ⟨settled_of_unseen rfl, .passes htoken⟩
  | kept hkept =>
    rw [passIf_eq] at hkept
    obtain ⟨⟨t, seen⟩, hpeek, hr⟩ := exists_of_map_ok hkept
    split at hr
    · cases hr
    · cases hr
      obtain ⟨hsettled, hplace⟩ := h.of_peek hpeek
      exact ⟨hsettled, hplace.symm ▸ .stays⟩
  | taken hpeek htaken =>
    rw [passIf_eq, hpeek] at htaken
    dsimp only [Except.map] at htaken
    split at htaken
    · have hmoves := Moves.passes (token_of_peek hpeek)
      cases htaken
      exact ⟨settled_of_unseen rfl, hmoves⟩
    · cases htaken

/-- The lexers show and do the same, and who goes on at the end of the second finds what `next` alone gives
from the first one on. -/
structure Agrees (plain l : Lexer) : Prop where
  next_eq : l.next = plain.next
  peek_eq : l.peek.map (·.1) = plain.next.map (·.1)
  passIf_eq : ∀ wanted, (l.passIf wanted).map (·.1) = plain.next.map fun r => wanted r.1
  offset_eq : ∀ t after, plain.next = .ok (t, after) → l.offset.1 = after.last
  finish_eq : ∀ k, ((ofChars l.finish).nexts k).map (·.1) = (plain.nexts k).map (·.1)
  offset_suffix : l.offset.1 <:+ l.finish
  skipSpace_finish : skipSpace l.finish = l.offset.1

theorem Settled.agrees {plain : Lexer} (h : l.Settled) (hplace : plain.offset.1 = l.offset.1) :
    Agrees plain l where
  next_eq := next_congr hplace.symm
  peek_eq := by
    rw [map_fst_peek, next_eq, hplace]
    cases token l.offset.1 <;> rfl
  passIf_eq wanted := by
    have hpeek : (l.passIf wanted).map (·.1) = (l.peek.map (·.1)).map wanted := by
      rw [passIf_eq]
      cases hpeek : l.peek with
      | error e => rfl
      | ok r =>
        dsimp only [Except.map]
        cases wanted r.1 <;> rfl
    rw [hpeek, map_fst_peek, next_eq, hplace]
    cases token l.offset.1 <;> rfl
  offset_eq t after hnext := by rw [last_of_next hnext, hplace]
  finish_eq := nexts_congr (h.skipSpace_finish.trans hplace.symm)
  offset_suffix := l.offset_suffix
  skipSpace_finish := h.skipSpace_finish

theorem Uses.exists_nexts {ts : List Token} (h : Uses l ts l') (hsettled : l.Settled) {plain : Lexer}
    (hplace : plain.offset.1 = l.offset.1) :
    ∃ tokens behind, plain.nexts ts.length = .ok (tokens, behind) ∧ tokens.map Prod.fst = ts ∧
      Agrees behind l' := by
  induction h generalizing plain with
  | done l => exact ⟨[], plain, rfl, rfl, hsettled.agrees hplace⟩
  | @more l l₁ l₂ ts ts' huse _ ih =>
    obtain ⟨hsettled₁, hmoves⟩ := huse.moves hsettled
    generalize hplace₁ : l₁.offset.1 = place at hmoves
    cases hmoves with
    | stays => exact ih hsettled₁ (hplace.trans hplace₁.symm)
    | @passes t rest htoken =>
      obtain ⟨after, hnext, hafter⟩ : ∃ after, plain.next = .ok (t, after) ∧ after.offset.1 = l₁.offset.1 := by
        rw [next_eq, hplace, htoken]
        exact ⟨_, rfl, hplace₁.symm⟩
      obtain ⟨tokens, behind, hnexts, htokens, hagrees⟩ := ih hsettled₁ hafter
      refine ⟨(t, after.last) :: tokens, behind, ?_, congrArg (t :: ·) htokens, hagrees⟩
      change plain.nexts (ts'.length + 1) = _
      rw [nexts, hnext]
      dsimp only [bind, Except.bind]
      rw [hnexts]
      rfl

/-- However a lexer is used, up to its first fault: it passes the tokens that `next` alone gives from the
same place of the text on, shows the one behind them and the start of that one, and ends so that a new lexer
reads the others. -/
theorem lookahead_transparent (text : String) (n : Nat) {ts : List Token}
    (h : Uses (ofChars (text.toList.drop n)) ts l) :
    ∃ tokens behind, (ofChars (text.toList.drop n)).nexts ts.length = .ok (tokens, behind) ∧
      tokens.map Prod.fst = ts ∧ Agrees behind l :=
  h.exists_nexts (settled_of_unseen rfl) rfl

theorem lookahead_transparent_brackets :
    let start := ofChars ("( /* ( */ ) +".toList.drop 0)
    ∃ l, Uses start [.symbol .lParen, .symbol .rParen] l ∧ l.left = [] ∧ l.finish = ['+'] ∧
      ∃ tokens behind, start.nexts 2 = .ok (tokens, behind) ∧
        tokens.map Prod.fst = [.symbol .lParen, .symbol .rParen] ∧ Agrees behind l := by
  intro start
  obtain ⟨l, huses, hleft, hfinish⟩ :
      ∃ l, Uses start ([] ++ ([.symbol .lParen] ++ ([] ++ ([.symbol .rParen] ++ ([] ++ []))))) l ∧
        l.left = [] ∧ l.finish = ['+'] := by
    refine ⟨?l, ?uses, ?left, ?finish⟩
    case uses =>
      refine .more (.offset _) ?_
      refine .more (.next rfl) ?_
      refine .more (.peek rfl) ?_
      refine .more (.taken rfl (show eat .rParen _ = .ok (true, _) from rfl)) ?_
      refine .more (.peek rfl) ?_
      exact .done _
    case left => rfl
    case finish => rfl
  exact ⟨l, huses, hleft, hfinish, lookahead_transparent _ 0 huses⟩

end ActionTree.Notation.Lexer
