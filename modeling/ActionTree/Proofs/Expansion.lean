import Mathlib.Data.List.Infix
import ActionTree.Expansion
import ActionTree.Proofs.Notation.Delimited

/-!
# Expansion in one pass

A text that is put together from plain parts and markers is expanded to what these parts stand for, in
order. The values are not looked at again, so it does not matter what their texts contain.
-/

namespace ActionTree

/-! ## Which marker opens -/

namespace Marker

variable {m m' : Marker} {markers : List Marker} {cs rest : List Char}

theorem opens?_eq_none (h : ∀ m ∈ markers, ¬m.opening <+: cs) : opens? markers cs = none := by
  have hnone : (markers.filter fun m => m.opening.isPrefixOf cs) = [] := by
    refine List.filter_eq_nil_iff.mpr fun m hm => ?_
    rw [List.isPrefixOf_iff_prefix]
    exact h m hm
  rw [opens?, hnone]
  rfl

theorem longer_self {start : Option Marker}
    (h : ∀ m', start = some m' → m' = m ∨ m'.opening.length < m.opening.length) :
    longer start m = some m := by
  cases start with
  | none => rfl
  | some m' =>
    have hle : ¬m.opening.length < m'.opening.length := by
      rcases h m' rfl with rfl | hlt
      · exact Nat.lt_irrefl _
      · exact Nat.lt_asymm hlt
    exact if_neg hle

theorem longer_of_shorter (h : m' = m ∨ m'.opening.length < m.opening.length) :
    longer (some m) m' = some m := by
  rcases h with rfl | hlt
  · exact ite_self _
  · exact if_pos hlt

theorem longer_cases {start : Option Marker} {a : Marker} (h : longer start a = some m') :
    a = m' ∨ start = some m' := by
  cases start with
  | none => exact .inl (Option.some.inj h)
  | some b =>
    unfold longer at h
    dsimp only at h
    split at h
    · exact .inr h
    · exact .inl (Option.some.inj h)

/-- Of the openings only the longest counts, whatever their order and however often it comes. -/
theorem foldl_longer {candidates : List Marker}
    (hshorter : ∀ m' ∈ candidates, m' = m ∨ m'.opening.length < m.opening.length) {start : Option Marker}
    (hstart : ∀ m', start = some m' → m' = m ∨ m'.opening.length < m.opening.length)
    (hm : start = some m ∨ m ∈ candidates) : candidates.foldl longer start = some m := by
  induction candidates generalizing start with
  | nil =>
    rcases hm with rfl | hm
    · rfl
    · cases hm
  | cons a candidates ih =>
    rw [List.forall_mem_cons] at hshorter
    rw [List.foldl_cons]
    refine ih hshorter.2 (fun m' hm' => ?_) ?_
    · rcases longer_cases hm' with rfl | hm'
      · exact hshorter.1
      · exact hstart m' hm'
    · rcases hm with rfl | hm
      · exact .inl (longer_of_shorter hshorter.1)
      · rcases List.mem_cons.mp hm with rfl | hm
        · exact .inl (longer_self hstart)
        · exact .inr hm

/-- Past the opening comes no character of a longer opening. -/
theorem shorter_of_opens {c : Char} (hc : c ≠ m.escape) (h : m'.opening <+: m.opening ++ c :: rest) :
    m' = m ∨ m'.opening.length < m.opening.length := by
  cases m <;> cases m' <;> simp_all [opening, escape, eq_comm]

theorem opens?_opening {c : Char} (hm : m ∈ markers) (hc : c ≠ m.escape) :
    opens? markers (m.opening ++ c :: rest) = some m := by
  refine foldl_longer (fun m' hm' => ?_) nofun (.inr ?_)
  · rw [List.mem_filter, List.isPrefixOf_iff_prefix] at hm'
    exact shorter_of_opens hc hm'.2
  · rw [List.mem_filter, List.isPrefixOf_iff_prefix]
    exact ⟨hm, List.prefix_append _ _⟩

theorem terminator_mem_closers (m : Marker) : m.terminator ∈ Notation.closers := by
  cases m <;> decide

theorem closing_eq_cons (m : Marker) : ∃ tail, m.closing = m.terminator :: tail := by
  cases m <;> exact ⟨_, rfl⟩

theorem terminator_ne_escape (m : Marker) : m.terminator ≠ m.escape := by
  cases m <;> decide

/-- What a marker encloses is read up to its closing. -/
theorem body_closing {text : String} {e : Expr} (hcomment : Notation.NoComment text.toList)
    (hmem : m.terminator ∉ text.toList) (h : Notation.parseMulti text = .ok e) (rest : List Char) :
    m.body (text.toList ++ (m.closing ++ rest)) = .ok (e, rest) := by
  obtain ⟨tail, htail⟩ := m.closing_eq_cons
  have hread := Notation.multiExpr_followed m.terminator_mem_closers hcomment hmem (tail ++ rest) h
  have hslash : m.terminator ≠ '/' := by cases m <;> decide
  have hblank : Text.isBlank m.terminator = false := by cases m <;> decide
  have hskip : Notation.skipSpace (m.closing ++ rest) = m.closing ++ rest := by
    rw [htail]
    exact Notation.skipSpace_cons hslash hblank
  have hclosing : m.closing.isPrefixOf (m.closing ++ rest) = true :=
    List.isPrefixOf_iff_prefix.mpr (List.prefix_append _ _)
  have hread : Notation.Parser.multiExpr [m.terminator] (text.toList ++ (m.closing ++ rest)) =
      .ok (e, m.closing ++ rest) := by
    rw [htail]
    exact hread
  unfold body
  rw [hread]
  change (if m.closing.isPrefixOf (Notation.skipSpace (m.closing ++ rest)) then _ else _) = _
  rw [hskip, if_pos hclosing, List.drop_left]
  rfl

end Marker

/-! ## Texts that are put together -/

/-- A part of a text: plain characters, or a marker around the text of an expression. -/
inductive Part where
  | plain (cs : List Char)
  | marked (m : Marker) (text : String) (e : Expr)

namespace Part

/-- How the part is written. -/
def source : Part → List Char
  | plain cs => cs
  | marked m text _ => m.opening ++ (text.toList ++ m.closing)

/-- How parts are written one after another. -/
def sources (parts : List Part) : List Char := parts.flatMap source

/-- In plain characters before `rest` no marker opens. A marker is one of those that count, and encloses
a text that is an expression by itself, starts not with the escape, and has neither the terminator nor a
comment in it. -/
def Fits (markers : List Marker) (rest : List Char) : Part → Prop
  | plain cs => ∀ back, back <:+ cs → back ≠ [] → ∀ m ∈ markers, ¬m.opening <+: back ++ rest
  | marked m text e => m ∈ markers ∧ Notation.parseMulti text = .ok e ∧
      text.toList.head? ≠ some m.escape ∧ m.terminator ∉ text.toList ∧
      ¬['/', '/'] <:+: text.toList ∧ ¬['/', '*'] <:+: text.toList

/-- Every part fits before those after it. -/
def AllFit (markers : List Marker) : List Part → Prop
  | [] => True
  | part :: parts => part.Fits markers (sources parts) ∧ AllFit markers parts

variable {σ : Type} (env : Environment σ)

/-- The texts that the parts stand for, one after another: the characters, and the texts of the values,
which are computed in order. -/
def texts : List Part → Run σ String
  | [] => return ""
  | plain cs :: parts => return String.ofList cs ++ (← texts parts)
  | marked _ _ e :: parts => do
    let v ← e.evaluate env
    return v.text ++ (← texts parts)

/-- Is there anything of the part in a text? -/
def isSolid : Part → Bool
  | plain cs => !cs.isEmpty
  | marked .. => true

/-- What the parts stand for: one marker and nothing else for its value, all others for a string. -/
def expanded (parts : List Part) : Run σ Value :=
  match parts.filter isSolid with
  | [marked _ _ e] => e.evaluate env
  | _ => .str <$> texts env parts

variable {markers : List Marker} {parts : List Part} {m : Marker} {text : String} {e : Expr}

theorem sources_cons (part : Part) (parts : List Part) :
    sources (part :: parts) = part.source ++ sources parts := rfl

theorem source_marked_ne_nil (m : Marker) (text : String) (e : Expr) : (marked m text e).source ≠ [] := by
  cases m <;> exact List.cons_ne_nil _ _

theorem sources_eq_nil_iff : sources parts = [] ↔ parts.filter isSolid = [] := by
  rw [sources, List.flatMap_eq_nil_iff, List.filter_eq_nil_iff]
  refine forall₂_congr fun part _ => ?_
  cases part with
  | plain cs => simp [source, isSolid]
  | marked m text e => simp [source_marked_ne_nil, isSolid]

theorem expanded_plain_nil : expanded env (plain [] :: parts) = expanded env parts := by
  have htexts : texts env (plain [] :: parts) = texts env parts := by simp [texts]
  rw [expanded, htexts]
  rfl

theorem expanded_plain {cs : List Char} (h : cs ≠ []) :
    expanded env (plain cs :: parts) = .str <$> texts env (plain cs :: parts) := by
  have hsolid : (plain cs).isSolid = true := by simpa [isSolid] using h
  rw [expanded, List.filter_cons_of_pos hsolid]

theorem expanded_marked_last (h : sources parts = []) :
    expanded env (marked m text e :: parts) = e.evaluate env := by
  rw [expanded, List.filter_cons_of_pos rfl, sources_eq_nil_iff.mp h]

theorem expanded_marked (h : sources parts ≠ []) :
    expanded env (marked m text e :: parts) = .str <$> texts env (marked m text e :: parts) := by
  have hmore : parts.filter isSolid ≠ [] := fun hnil => h (sources_eq_nil_iff.mpr hnil)
  obtain ⟨part, more, hparts⟩ := List.exists_cons_of_ne_nil hmore
  rw [expanded, List.filter_cons_of_pos rfl, hparts]

/-! ### The pieces at the front -/

theorem front_plain {c : Char} {rest : List Char} (h : ∀ m ∈ markers, ¬m.opening <+: c :: rest) :
    Piece.front markers c rest = .ok (.plain [c], rest) := by
  unfold Piece.front
  rw [Marker.opens?_eq_none h]

theorem front_marked {c : Char} {rest more : List Char} (h : (marked m text e).Fits markers more)
    (hsource : (marked m text e).source ++ more = c :: rest) :
    Piece.front markers c rest = .ok (.marker e, more) := by
  obtain ⟨hm, hparse, hescape, hterminator, hcomment⟩ := h
  have hsource : m.opening ++ (text.toList ++ (m.closing ++ more)) = c :: rest := by
    rw [← hsource, source]
    simp only [List.append_assoc]
  -- Neither the text nor the closing starts with the escape.
  obtain ⟨next, tail, hnext, hne⟩ : ∃ next tail,
      text.toList ++ (m.closing ++ more) = next :: tail ∧ next ≠ m.escape := by
    cases htext : text.toList with
    | nil =>
      obtain ⟨tail, htail⟩ := m.closing_eq_cons
      exact ⟨m.terminator, tail ++ more, by rw [htail]; rfl, m.terminator_ne_escape⟩
    | cons next cs =>
      refine ⟨next, _, rfl, fun heq => hescape ?_⟩
      rw [htext, heq]
      rfl
  have hopens : Marker.opens? markers (c :: rest) = some m := by
    rw [← hsource, hnext]
    exact Marker.opens?_opening hm hne
  have hinside : (c :: rest).drop m.opening.length = next :: tail := by
    rw [← hsource, List.drop_left, hnext]
  have hbody : m.body (next :: tail) = .ok (e, more) := by
    rw [← hnext]
    exact Marker.body_closing hcomment hterminator hparse more
  unfold Piece.front
  rw [hopens]
  dsimp only
  rw [hinside, if_neg (by simpa using hne), hbody]
  rfl

end Part

namespace Expansion

open ActionTree.Part

variable {σ : Type} (env : Environment σ) {markers : List Marker} {parts : List Part}

theorem next_of_front {text : String} {c : Char} {rest more : List Char} {piece : Piece}
    (h : Piece.front markers c rest = .ok (piece, more)) :
    (next markers text c rest : Run σ _) = pure (piece, more) := by
  unfold next
  rw [h]
  rfl

theorem pieces_nil (text : String) (n : Nat) : pieces env markers text n [] = pure "" := by
  cases n <;> rfl

theorem pieces_cons {text : String} {n : Nat} {c : Char} {rest more : List Char} {piece : Piece}
    (h : Piece.front markers c rest = .ok (piece, more)) :
    pieces env markers text (n + 1) (c :: rest) = do
      let v ← piece.value env
      return v.text ++ (← pieces env markers text n more) := by
  rw [pieces, next_of_front h, pure_bind]

theorem text_ofChars (cs : List Char) : (Value.ofChars cs).text = String.ofList cs := rfl

/-- Plain characters are taken one by one. -/
theorem pieces_plain {text : String} {n : Nat} {cs more : List Char}
    (h : (Part.plain cs).Fits markers more) (hn : cs.length + more.length ≤ n) {x : Run σ String}
    (hx : ∀ n, more.length ≤ n → pieces env markers text n more = x) :
    pieces env markers text n (cs ++ more) = do return String.ofList cs ++ (← x) := by
  induction cs generalizing n with
  | nil => simpa using hx n (by simpa using hn)
  | cons c cs ih =>
    obtain ⟨n, rfl⟩ := Nat.exists_eq_add_one_of_ne_zero (show n ≠ 0 by simp at hn; omega)
    have hfront : Piece.front markers c (cs ++ more) = .ok (.plain [c], cs ++ more) :=
      Part.front_plain (h (c :: cs) (List.suffix_refl _) (List.cons_ne_nil c cs))
    have hrest : (Part.plain cs).Fits markers more := fun back hback =>
      h back (hback.trans (List.suffix_cons c cs))
    have hn : cs.length + more.length ≤ n := by
      simp only [List.length_cons] at hn
      omega
    rw [List.cons_append, pieces_cons env hfront, Piece.value, pure_bind, ih hrest hn, text_ofChars]
    simp [← String.append_assoc]

/-- The pieces of a text that is put together give the texts of its parts. -/
theorem pieces_sources {text : String} (h : AllFit markers parts) {n : Nat}
    (hn : (sources parts).length ≤ n) : pieces env markers text n (sources parts) = texts env parts := by
  induction parts generalizing n with
  | nil => exact pieces_nil env text n
  | cons part parts ih =>
    obtain ⟨hfits, hrest⟩ := h
    rw [sources_cons] at hn ⊢
    cases part with
    | plain cs => exact pieces_plain env hfits (by simpa [source] using hn) fun n hn => ih hrest hn
    | marked m body e =>
      cases hsource : (marked m body e).source ++ sources parts with
      | nil => exact absurd (List.append_eq_nil_iff.mp hsource).1 (source_marked_ne_nil m body e)
      | cons c rest =>
        have hlength := congrArg List.length hsource
        have hpos := List.length_pos_iff.mpr (source_marked_ne_nil m body e)
        simp only [List.length_append, List.length_cons] at hlength hn
        obtain ⟨n, rfl⟩ := Nat.exists_eq_add_one_of_ne_zero (show n ≠ 0 by omega)
        rw [pieces_cons env (front_marked hfits hsource), ih hrest (by omega)]
        rfl

theorem expand_cons {text : String} {c : Char} {rest more : List Char} {piece : Piece}
    (htext : text.toList = c :: rest) (h : Piece.front markers c rest = .ok (piece, more)) :
    expand env markers text = do
      let v ← piece.value env
      if more.isEmpty then return v
      else return .str (v.text ++ (← pieces env markers text more.length more)) := by
  unfold expand
  rw [htext]
  dsimp only
  rw [next_of_front h, pure_bind]

/-- Expansion is one pass from left to right. The values of the markers are computed in order, each from
what the ones before it left, and the first error is that of the whole. One marker alone gives its value,
else the texts stand in the places of the markers, whatever is in them. -/
theorem expand_sources (h : AllFit markers parts) :
    expand env markers (String.ofList (sources parts)) = expanded env parts := by
  induction parts with
  | nil => rfl
  | cons part parts ih =>
    obtain ⟨hfits, hrest⟩ := h
    cases part with
    | plain cs =>
      cases cs with
      | nil =>
        rw [expanded_plain_nil, ← ih hrest]
        rfl
      | cons c cs =>
        have hall : AllFit markers (plain (c :: cs) :: parts) := ⟨hfits, hrest⟩
        generalize htext : String.ofList (sources (plain (c :: cs) :: parts)) = text
        have hsource : text.toList = c :: (cs ++ sources parts) := by
          rw [← htext, String.toList_ofList]
          rfl
        have hfront : Piece.front markers c (cs ++ sources parts) =
            .ok (.plain [c], cs ++ sources parts) :=
          front_plain (hfits (c :: cs) (List.suffix_refl _) (List.cons_ne_nil c cs))
        have hpieces : pieces env markers text (cs ++ sources parts).length.succ (c :: (cs ++ sources parts)) =
            texts env (plain (c :: cs) :: parts) :=
          pieces_sources env hall (Nat.le_refl _)
        rw [expanded_plain env (List.cons_ne_nil c cs), expand_cons env hsource hfront, ← hpieces,
          pieces_cons env hfront, Piece.value, pure_bind, pure_bind]
        cases hmore : cs ++ sources parts with
        | nil =>
          simp [pieces_nil, Value.ofChars]
          rfl
        | cons d rest => simp
    | marked m body e =>
      obtain ⟨c, rest, hcons⟩ := List.exists_cons_of_ne_nil (source_marked_ne_nil m body e)
      generalize htext : String.ofList (sources (marked m body e :: parts)) = text
      have hsource : text.toList = c :: (rest ++ sources parts) := by
        rw [← htext, String.toList_ofList, sources_cons, hcons]
        rfl
      have hfront : Piece.front markers c (rest ++ sources parts) = .ok (.marker e, sources parts) :=
        front_marked hfits (by rw [hcons]; rfl)
      rw [expand_cons env hsource hfront, Piece.value]
      cases hmore : sources parts with
      | nil =>
        rw [expanded_marked_last env hmore]
        simp
      | cons d tail =>
        have hpieces : pieces env markers text (sources parts).length (sources parts) = texts env parts :=
          pieces_sources env hrest (Nat.le_refl _)
        rw [expanded_marked env (by rw [hmore]; exact List.cons_ne_nil d tail), ← hmore, hpieces, hmore]
        simp [texts]

/-- Surroundings in which every variable has the text of a marker, in turn one and another. -/
def echo : Environment Nat where
  getVar _ := fun n => some (.ok (some (.str (if n = 0 then "[x]" else "$\x7bx\x7d"))), n + 1)
  setVar name _ := Run.failWith (.computedVariable name)
  resolveType _ := ValueType.builtin?
  call name _ := Run.failWith (.unknownFunction name)
  callStatic _ _ _ := pure none
  host := .silent

theorem parseMulti_x : (match Notation.parseMulti "x" with
    | .ok (.multi [.name name]) => name == "x"
    | _ => false) = true := by decide +kernel

/-- The texts of the markers stay as they are. -/
theorem expand_echo : expand echo [.square, .brace, .square] "a$$\x7bx\x7db[x]" 0 =
    some (.ok (.str "a$[x]b$\x7bx\x7d"), 2) := by
  have hparse : Notation.parseMulti "x" = .ok (.multi [.name "x"]) := by
    have hname := parseMulti_x
    split at hname
    next name heq => rw [heq, eq_of_beq hname]
    next => cases hname
  have hmarked {markers : List Marker} {rest : List Char} {m : Marker} (hm : m ∈ markers) :
      (marked m "x" (.multi [.name "x"])).Fits markers rest := by
    refine ⟨hm, hparse, ?_, ?_, by decide, by decide⟩
    · cases m <;> decide
    · cases m <;> decide
  have hplain {rest : List Char} {cs : List Char}
      (h : ∀ back ∈ cs.tails, back ≠ [] → ∀ m ∈ [Marker.square, .brace, .square], ¬m.opening <+: back ++ rest) :
      (plain cs).Fits [.square, .brace, .square] rest :=
    fun back hback => h back ((List.mem_tails back cs).mpr hback)
  have hall : AllFit [.square, .brace, .square] [plain ['a', '$'], marked .brace "x" (.multi [.name "x"]),
      plain ['b'], marked .square "x" (.multi [.name "x"])] :=
    ⟨hplain (by decide), hmarked (by decide), hplain (by decide), hmarked (by decide), trivial⟩
  have hexpand := congrFun (expand_sources echo hall) 0
  refine Eq.trans ?_ (hexpand.trans rfl)
  rfl

end Expansion

end ActionTree
