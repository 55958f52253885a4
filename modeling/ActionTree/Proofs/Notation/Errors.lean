import ActionTree.Notation.Lexer
import ActionTree.Proofs.Notation.Staying

/-!
# Errors point into the text

An error of the notation names the whole text, and its offset is a place in it where what the error says is
true. No error says that a lexer or a parser contradicts itself.
-/

namespace ActionTree

open Notation Notation.Parser

/-- What is said of a lexer or parser that contradicts itself. -/
def SyntaxFault.internalMessages : List String :=
  ["lexer lost its lookahead", "malformed number", "unexpected token"]

/-- The error names the text, and what it says is true at its offset. -/
structure SyntaxError.PointsInto (e : SyntaxError) (text : String) : Prop where
  source_eq : e.source = some text
  offset_le : e.offset ≤ text.length
  holds : ∃ before rest, text.toList = before ++ rest ∧ before.length = e.offset ∧ e.fault.HoldsAt before rest
  not_internal : e.fault.message ∉ SyntaxFault.internalMessages

namespace SyntaxFault

variable {fault : SyntaxFault} {before rest : List Char}

theorem append_not_mem_of_prefix {start : String} {texts : List String}
    (h : ∀ t ∈ texts, ¬start.toList <+: t.toList) (rest : String) : start ++ rest ∉ texts := by
  intro hmem
  refine h _ hmem ?_
  rw [String.toList_append]
  exact List.prefix_append _ _

theorem message_not_mem_internalMessages (h : fault.HoldsAt before rest) :
    fault.message ∉ internalMessages := by
  cases fault with
  | hexWithoutDigits | exponentWithoutDigits | malformedNumber | unterminatedString | badEscape
  | missingVariableName | assignmentTarget => decide +kernel
  | numeral cause literal =>
    change cause.message ++ _ ∉ internalMessages
    exact append_not_mem_of_prefix (by cases cause <;> decide +kernel) _
  | unexpectedCharacter c =>
    change "unexpected character '" ++ toString c ++ "'" ∉ internalMessages
    rw [String.append_assoc]
    exact append_not_mem_of_prefix (by decide +kernel) _
  | trailing c =>
    change "unexpected '" ++ toString c ++ "'" ∉ internalMessages
    rw [String.append_assoc]
    exact append_not_mem_of_prefix (by decide +kernel) _
  | expected what found =>
    change "expected " ++ what ++ " but found " ++ found ∉ internalMessages
    rw [String.append_assoc, String.append_assoc]
    exact append_not_mem_of_prefix (by decide +kernel) _
  | _ => cases h

end SyntaxFault

variable {text : String}

/-- A fault that lies in the text is an error that points into it. -/
theorem Notation.LocatedFault.LiesIn.pointsInto {e : LocatedFault} (h : e.LiesIn text.toList) :
    (e.inText text).PointsInto text := by
  obtain ⟨before, rest, htext, hlength, hholds⟩ := h
  have hoffset : before.length = (e.inText text).offset := by
    rw [LocatedFault.inText, htext, ← hlength, List.length_append, Nat.add_sub_cancel]
  refine ⟨if_neg fun hlost => ?_, Nat.sub_le _ _, ⟨before, rest, htext, hoffset, hholds⟩,
    SyntaxFault.message_not_mem_internalMessages hholds⟩
  rw [hlost] at hholds
  cases hholds

namespace Notation

theorem pointsInto_of_parseExpr {e : SyntaxError} (h : parseExpr text = .error e) : e.PointsInto text := by
  unfold parseExpr at h
  dsimp only at h
  split at h
  next => cases h
  next fault hfault =>
    cases h
    refine (StaysIn.fault ?_ (List.suffix_refl _) hfault).pointsInto
    exact (staysIn_expression false).bind fun e => staysIn_expectEnd.bind fun _ => .pure e

theorem pointsInto_of_parseMulti {e : SyntaxError} (h : parseMulti text = .error e) : e.PointsInto text := by
  unfold parseMulti at h
  dsimp only at h
  split at h
  next => cases h
  next fault hfault =>
    cases h
    refine (StaysIn.fault ?_ (List.suffix_refl _) hfault).pointsInto
    refine staysIn_multiExpr.bind fun e => .here fun start hstart hskip => ?_
    split
    · exact .pure e
    · exact staysIn_failAt hstart fun _ => ⟨hskip, rfl⟩

/-! ## Lexers -/

namespace Lexer

variable {l l' : Lexer} {t : Token} {e : LocatedFault}

theorem offset_suffix (l : Lexer) : l.offset.1 <:+ l.finish := by
  unfold offset finish
  split
  · exact List.suffix_refl _
  · exact skipSpaceIn_suffix .between l.left

theorem finish_offset (l : Lexer) : l.offset.2.finish = l.offset.1 := by
  unfold offset
  split
  next h => rw [finish, h]
  next => rfl

/-- What is behind the token that was looked at is behind the place where others go on. -/
theorem left_suffix (l : Lexer) : l.left <:+ l.finish := by
  unfold finish
  split
  next t start h => exact token_drops (l.token_ahead t start h)
  next => exact List.suffix_refl _

theorem error_of_look (h : l.look = .error e) : token l.offset.1 = .error e := by
  unfold look at h
  split at h
  · cases h
  · dsimp only at h
    split at h
    next htoken =>
      cases h
      exact htoken
    next => cases h

/-- The lookahead is there. -/
theorem ahead_of_look (h : l.look = .ok l') : ∃ t, l'.ahead = some (t, l.offset.1) := by
  unfold look at h
  split at h
  next r hahead =>
    cases h
    exact ⟨r.1, by rw [offset, hahead]⟩
  next =>
    dsimp only at h
    split at h
    next => cases h
    next t rest htoken =>
      cases h
      exact ⟨t, rfl⟩

/-- What a step of the lexer gives: the fault of the next token, or a lexer further on in the text. -/
inductive Step {α : Type} (l : Lexer) : Read (α × Lexer) → Prop where
  | fault {e : LocatedFault} (h : token l.offset.1 = .error e) : Step l (.error e)
  | passed {a : α} {l' : Lexer} (h : l'.finish <:+ l.finish) : Step l (.ok (a, l'))

theorem step_peek (l : Lexer) : Step l l.peek := by
  unfold peek
  cases hlook : l.look with
  | error e => exact .fault (error_of_look hlook)
  | ok l' =>
    obtain ⟨t, hahead⟩ := ahead_of_look hlook
    have hfinish : l'.finish <:+ l.finish := by
      rw [finish, hahead]
      exact l.offset_suffix
    dsimp only [bind, Except.bind]
    rw [hahead]
    exact .passed hfinish

theorem step_next (l : Lexer) : Step l l.next := by
  unfold next
  split
  · exact .passed l.left_suffix
  · dsimp only
    cases htoken : token l.offset.1 with
    | error e => exact .fault htoken
    | ok r => exact .passed ((token_drops htoken).trans l.offset_suffix)

theorem step_passIf (wanted : Token → Bool) (l : Lexer) : Step l (l.passIf wanted) := by
  unfold passIf
  have hpeek := l.step_peek
  generalize l.peek = r at hpeek
  cases hpeek with
  | fault h => exact .fault h
  | @passed t l' h =>
    dsimp only [bind, Except.bind]
    split
    · exact .passed (l'.left_suffix.trans h)
    · exact .passed h

theorem step_eat (s : Symbol) (l : Lexer) : Step l (l.eat s) := l.step_passIf _

theorem Step.finish_suffix {α : Type} {a : α} (h : Step l (.ok (a, l'))) : l'.finish <:+ l.finish := by
  cases h with
  | passed h => exact h

theorem Step.fault_eq {α : Type} (h : Step l (.error e : Read (α × Lexer))) :
    token l.offset.1 = .error e := by
  cases h with
  | fault h => exact h

/-- A lexer that started somewhere in the text and has had no fault yet. -/
inductive Over (text : List Char) : Lexer → Prop where
  | start (n : Nat) : Over text (ofChars (text.drop n))
  | offset {l : Lexer} (h : Over text l) : Over text l.offset.2
  | peek {l l' : Lexer} {t : Token} (h : Over text l) (hpeek : l.peek = .ok (t, l')) : Over text l'
  | next {l l' : Lexer} {t : Token} (h : Over text l) (hnext : l.next = .ok (t, l')) : Over text l'
  | eat {l l' : Lexer} {s : Symbol} {passed : Bool} (h : Over text l) (heat : l.eat s = .ok (passed, l')) :
      Over text l'

namespace Over

variable {text : List Char}

theorem finish_suffix (h : Over text l) : l.finish <:+ text := by
  induction h with
  | start n => exact List.drop_suffix n text
  | @offset l _ ih =>
    rw [finish_offset]
    exact l.offset_suffix.trans ih
  | @peek l _ _ _ hpeek ih => exact (hpeek ▸ l.step_peek).finish_suffix.trans ih
  | @next l _ _ _ hnext ih => exact (hnext ▸ l.step_next).finish_suffix.trans ih
  | @eat l _ s _ _ heat ih => exact (heat ▸ l.step_eat s).finish_suffix.trans ih

theorem liesIn {α : Type} {r : Read (α × Lexer)} (h : Over text l) (hstep : Step l r) (hr : r = .error e) :
    e.LiesIn text := by
  subst hr
  exact (liesIn_of_token hstep.fault_eq).of_suffix (l.offset_suffix.trans h.finish_suffix)

end Over

end Lexer

end Notation

/-- The errors of expressions, of multi-expressions, of numbers and of lexers, wherever these start, name the
whole text, and what they say is true at their offset, which is in the text. -/
theorem syntax_error_points_into_text (text : String) :
    (∀ e, parseExpr text = .error e → e.PointsInto text) ∧
    (∀ e, parseMulti text = .error e → e.PointsInto text) ∧
    (∀ n e, number (text.toList.drop n) = .error e → (e.inText text).PointsInto text) ∧
    (∀ l : Lexer, l.Over text.toList → ∀ e,
      (l.next = .error e ∨ l.peek = .error e ∨ ∃ s, l.eat s = .error e) →
      (e.inText text).PointsInto text) := by
  refine ⟨fun _ => pointsInto_of_parseExpr, fun _ => pointsInto_of_parseMulti, fun n e h => ?_, ?_⟩
  · exact ((liesIn_of_number h).of_suffix (List.drop_suffix n _)).pointsInto
  · rintro l hl e (h | h | ⟨s, h⟩)
    · exact (hl.liesIn l.step_next h).pointsInto
    · exact (hl.liesIn l.step_peek h).pointsInto
    · exact (hl.liesIn (l.step_eat s) h).pointsInto

theorem surrogate_points_into_text :
    let text := "1 + '\\ud800'"
    ∃ e, parseExpr text = .error e ∧ e.fault = .badEscape ∧ e.offset = 7 ∧ e.PointsInto text := by
  intro text
  have hrun : (match parseExpr text with
      | .error e => e.fault == .badEscape && e.offset == 7
      | .ok _ => false) = true := by decide +kernel
  cases h : parseExpr text with
  | ok _ =>
    rw [h] at hrun
    cases hrun
  | error e =>
    rw [h, Bool.and_eq_true] at hrun
    exact ⟨e, rfl, eq_of_beq hrun.1, eq_of_beq hrun.2, (syntax_error_points_into_text text).1 e h⟩

end ActionTree
