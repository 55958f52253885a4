import ActionTree.Proofs.Notation.Within

/-!
# Readings side by side

Two readings of the same tokens, the second with a closing bracket after them. For each part of a parser,
what the first reading makes of the tokens, the second makes of them too.
-/

namespace ActionTree.Notation.Parser

variable {α β : Type}

/-- Passes the next token if it counts for something. -/
def take? (p : Token → Option α) : Parser (Option α) := fun cs => do
  let (t, rest) ← token cs
  match p t with
  | some a => return (some a, rest)
  | none => return (none, cs)

/-- Is this the symbol? -/
def isSymbol? (s : Symbol) : Token → Option Unit
  | .symbol t => if s = t then some () else none
  | _ => none

theorem isSymbol?_eq_some_iff {s : Symbol} {t : Token} {u : Unit} :
    isSymbol? s t = some u ↔ t = .symbol s := by
  unfold isSymbol?
  split
  next t =>
    by_cases h : s = t
    · simp [h]
    · simp [h, Ne.symm h]
  next h => simpa using fun heq => h s heq

theorem eat_eq_take? (s : Symbol) : eat s = Option.isSome <$> take? (isSymbol? s) := by
  funext cs
  rw [map_eq_pure_bind]
  change Except.bind (token cs) _ = Except.bind (Except.bind (token cs) _) _
  cases token cs with
  | error e => rfl
  | ok r =>
    obtain ⟨t, rest⟩ := r
    cases t with
    | symbol t => by_cases h : s = t <;> simp [Except.bind, isSymbol?, h] <;> rfl
    | _ => rfl

theorem connective?_eq_take? (ops : List (Symbol × Connective)) :
    connective? ops = take? fun | .symbol s => ops.lookup s | _ => none := by
  funext cs
  change Except.bind (token cs) _ = Except.bind (token cs) _
  cases token cs with
  | error e => rfl
  | ok r =>
    obtain ⟨t, rest⟩ := r
    cases t with
    | symbol s => simp only [Except.bind]; cases ops.lookup s <;> rfl
    | _ => rfl

/-- Puts the text back if there is no result. -/
def attempt (x : Parser (Option α)) : Parser (Option α) := do
  let start ← get
  match ← x with
  | some a => return some a
  | none =>
    set start
    return none

/-- The symbols that close brackets. -/
def closingSymbols : List Symbol := [.rParen, .rBracket, .rBrace]

/-- Which text of the second reading goes with a text of the first, and the tokens that it has before it
ends like `last`: these tokens are met in both, and `close` after them in the second. -/
structure Beside (last : List Char) (close : Symbol)
    (S : List Char → List Token → List Char → Prop) : Prop where
  closing : close ∈ closingSymbols
  step {cs mid ds : List Char} {t : Token} {ts : List Token} : S cs (t :: ts) ds →
    token cs = .ok (t, mid) → t ≠ .eof → ∃ ds', token ds = .ok (t, ds') ∧ S mid ts ds'
  stop {ds rest : List Char} : S last [] ds → token last = .ok (.eof, rest) →
    ∃ ds', token ds = .ok (.symbol close, ds')
  length_lt {cs ds : List Char} {ts : List Token} : Passes cs ts last → S cs ts ds → ts.length < ds.length

theorem Beside.close_cases {last : List Char} {close : Symbol}
    {S : List Char → List Token → List Char → Prop} (B : Beside last close S) :
    close = .rParen ∨ close = .rBracket ∨ close = .rBrace := by
  simpa [closingSymbols] using B.closing

theorem Beside.ne_close {last : List Char} {close : Symbol}
    {S : List Char → List Token → List Char → Prop} (B : Beside last close S) {s : Symbol}
    (hs : s ∉ closingSymbols) : s ≠ close := fun h => hs (h ▸ B.closing)

section

variable {last : List Char} {close : Symbol} {S : List Char → List Token → List Char → Prop}
  {ts : List Token}

/-- Where the first parser succeeds on a text with these tokens, so does the second on every text that
goes with it, with the same result, and they stop at texts that go together. -/
def Carries (last : List Char) (S : List Char → List Token → List Char → Prop) (x y : Parser α)
    (ts : List Token) : Prop :=
  ∀ ⦃cs a cs'⦄, Passes cs ts last → Spent last → x cs = .ok (a, cs') →
    ∃ ts', Passes cs' ts' last ∧ ts' <:+ ts ∧
      ∀ ds, S cs ts ds → ∃ ds', y ds = .ok (a, ds') ∧ S cs' ts' ds'

/-- The next token of the second reading. -/
theorem Beside.token_eq (B : Beside last close S) {cs rest ds : List Char} {t : Token}
    (hpasses : Passes cs ts last) (hlast : Spent last) (htoken : token cs = .ok (t, rest))
    (hds : S cs ts ds) : ∃ ds', token ds = .ok (ts.headD (.symbol close), ds') ∧
      (ts ≠ [] → S rest ts.tail ds') := by
  cases hpasses with
  | none =>
    obtain rfl := hlast t rest htoken
    obtain ⟨ds', hds'⟩ := B.stop hds htoken
    exact ⟨ds', hds', fun hne => absurd rfl hne⟩
  | step htoken' ht _ =>
    rw [htoken'] at htoken
    cases htoken
    obtain ⟨ds', hds', hrest⟩ := B.step hds htoken' ht
    exact ⟨ds', hds', fun _ => hrest⟩

namespace Carries

variable {x y : Parser α} {f g : α → Parser β}

/-- The first parser for itself. -/
theorem within (h : Carries last S x y ts) : Within last x ts fun _ ts' => ts' <:+ ts := by
  intro cs a cs' hpasses hlast heq
  obtain ⟨ts', hts', hsuffix, -⟩ := h hpasses hlast heq
  exact ⟨ts', hts', hsuffix⟩

/-- Where the first parser fails there is nothing to show. -/
theorem of_within_false (h : Within last x ts fun _ _ => False) : Carries last S x y ts := by
  intro cs a cs' hpasses hlast heq
  obtain ⟨_, _, hfalse⟩ := h hpasses hlast heq
  exact hfalse.elim

theorem pure (a : α) : Carries last S (pure a) (pure a) ts := by
  rintro cs _ _ hpasses - ⟨⟩
  exact ⟨ts, hpasses, List.suffix_refl ts, fun ds hds => ⟨ds, rfl, hds⟩⟩

/-- What is known of the end of the first parser may be used for what follows. -/
theorem bindWithin {Q : α → List Token → Prop} (hx : Carries last S x y ts) (hQ : Within last x ts Q)
    (hf : ∀ a ts', ts' <:+ ts → Q a ts' → Carries last S (f a) (g a) ts') :
    Carries last S (x >>= f) (y >>= g) ts := by
  intro cs b cs' hpasses hlast h
  obtain ⟨⟨a, mid⟩, hxa, hfa⟩ := exists_of_bind_ok h
  obtain ⟨ts', hmid, hsuffix, hy⟩ := hx hpasses hlast hxa
  obtain ⟨us, hus, ha⟩ := hQ hpasses hlast hxa
  obtain rfl := hus.unique hlast hmid
  obtain ⟨ts'', hts'', hsuffix', hg⟩ := hf a us hsuffix ha hmid hlast hfa
  refine ⟨ts'', hts'', hsuffix'.trans hsuffix, fun ds hds => ?_⟩
  obtain ⟨ds', hya, hds'⟩ := hy ds hds
  obtain ⟨ds'', hga, hds''⟩ := hg ds' hds'
  refine ⟨ds'', ?_, hds''⟩
  change Except.bind (y ds) _ = _
  rw [hya]
  exact hga

theorem bind (hx : Carries last S x y ts)
    (hf : ∀ a ts', ts' <:+ ts → Carries last S (f a) (g a) ts') : Carries last S (x >>= f) (y >>= g) ts :=
  hx.bindWithin hx.within fun a ts' hts' _ => hf a ts' hts'

theorem map (f : α → β) (h : Carries last S x y ts) : Carries last S (f <$> x) (f <$> y) ts := by
  simpa only [map_eq_pure_bind] using h.bind fun a _ _ => pure (f a)

theorem attempt {x y : Parser (Option α)} (h : Carries last S x y ts) :
    Carries last S (attempt x) (attempt y) ts := by
  intro cs r cs' hpasses hlast heq
  obtain ⟨⟨a?, mid⟩, hx, heq⟩ := exists_of_bind_ok heq
  obtain ⟨ts', hmid, hsuffix, hy⟩ := h hpasses hlast hx
  cases a? with
  | some a =>
    cases heq
    refine ⟨ts', hmid, hsuffix, fun ds hds => ?_⟩
    obtain ⟨ds', hya, hds'⟩ := hy ds hds
    refine ⟨ds', ?_, hds'⟩
    change Except.bind (y ds) _ = _
    rw [hya]
    rfl
  | none =>
    cases heq
    refine ⟨ts, hpasses, List.suffix_refl ts, fun ds hds => ?_⟩
    obtain ⟨ds', hya, -⟩ := hy ds hds
    refine ⟨ds, ?_, hds⟩
    change Except.bind (y ds) _ = _
    rw [hya]
    rfl

theorem unexpected (what : String) : Carries last S (unexpected what) y ts :=
  of_within_false (within_unexpected what)

/-- Both parsers may look at the texts, as long as it makes no difference to their tokens. -/
theorem ofTexts {f g : List Char → Parser α}
    (hself : ∀ cs, Passes cs ts last → Within last (f cs) ts fun _ ts' => ts' <:+ ts)
    (h : ∀ cs ds, Passes cs ts last → S cs ts ds → Carries last S (f cs) (g ds) ts) :
    Carries last S (fun cs => f cs cs) (fun ds => g ds ds) ts := by
  intro cs a cs' hpasses hlast heq
  obtain ⟨ts', hts', hsuffix⟩ := hself cs hpasses hpasses hlast heq
  refine ⟨ts', hts', hsuffix, fun ds hds => ?_⟩
  obtain ⟨us, hus, _, hg⟩ := h cs ds hpasses hds hpasses hlast heq
  obtain rfl := hus.unique hlast hts'
  exact hg ds hds

theorem here {f g : List Char → Parser β} (h : ∀ cs ds, Carries last S (f cs) (g ds) ts) :
    Carries last S (here >>= f) (here >>= g) ts :=
  ofTexts (f := fun cs => f (skipSpace cs)) (g := fun ds => g (skipSpace ds)) (fun _ _ => (h _ []).within)
    fun _ _ _ _ => h _ _

variable (B : Beside last close S)

include B

/-- The number of characters is enough for the tokens. -/
theorem fuel {f g : Nat → Parser β}
    (h : ∀ n n', ts.length + last.length ≤ n → ts.length < n' → Carries last S (f n) (g n') ts) :
    Carries last S (MonadState.get >>= fun cs : List Char => f cs.length)
      (MonadState.get >>= fun cs : List Char => g cs.length) ts := by
  refine ofTexts (f := fun cs => f cs.length) (g := fun ds => g ds.length) (fun cs hpasses => ?_)
    fun cs ds hpasses hds => ?_
  · exact (h cs.length (ts.length + 1) hpasses.length_add_le (Nat.lt_succ_self _)).within
  · exact h cs.length ds.length hpasses.length_add_le (B.length_lt hpasses hds)

theorem peek {f g : Token → Parser β}
    (h : Carries last S (f (ts.headD .eof)) (g (ts.headD (.symbol close))) ts) :
    Carries last S (peek >>= f) (peek >>= g) ts := by
  intro cs a cs' hpasses hlast heq
  obtain ⟨⟨t, mid⟩, hpeek, hf⟩ := exists_of_bind_ok heq
  obtain ⟨⟨u, rest⟩, htoken, hmid⟩ := exists_of_map_ok hpeek
  cases hmid
  obtain ⟨rfl, -⟩ := Passes.headD_of_token hpasses hlast htoken
  obtain ⟨ts', hts', hsuffix, hg⟩ := h hpasses hlast hf
  refine ⟨ts', hts', hsuffix, fun ds hds => ?_⟩
  obtain ⟨ds', hds', -⟩ := B.token_eq hpasses hlast htoken hds
  obtain ⟨ds'', hga, hds''⟩ := hg ds hds
  refine ⟨ds'', ?_, hds''⟩
  change Except.bind (Except.map _ (token ds)) _ = _
  rw [hds']
  exact hga

theorem next {f g : Token → Parser β} {t : Token} (h : Carries last S (f t) (g t) ts) :
    Carries last S (next >>= f) (next >>= g) (t :: ts) := by
  intro cs a cs' hpasses hlast heq
  obtain ⟨⟨u, mid⟩, htoken, hf⟩ := exists_of_bind_ok heq
  obtain ⟨rfl, hmid⟩ := Passes.headD_of_token hpasses hlast htoken
  obtain ⟨ts', hts', hsuffix, hg⟩ := h (hmid nofun) hlast hf
  refine ⟨ts', hts', hsuffix.trans (List.suffix_cons _ _), fun ds hds => ?_⟩
  obtain ⟨ds', hds', hrest⟩ := B.token_eq hpasses hlast htoken hds
  obtain ⟨ds'', hga, hds''⟩ := hg ds' (hrest nofun)
  refine ⟨ds'', ?_, hds''⟩
  change Except.bind (token ds) _ = _
  rw [hds']
  exact hga

/-- A token that is passed in one reading is passed in the other, if the closing symbol counts for nothing
where the tokens are at their end. -/
theorem take? {γ : Type} {p : Token → Option γ} {f g : Option γ → Parser β} (heof : p .eof = none)
    (hclose : ts = [] → p (.symbol close) = none)
    (hpassed : ∀ t rest c, ts = t :: rest → p t = some c → Carries last S (f (some c)) (g (some c)) rest)
    (hother : (∀ t, ts.head? = some t → p t = none) → Carries last S (f none) (g none) ts) :
    Carries last S (take? p >>= f) (take? p >>= g) ts := by
  intro cs a cs' hpasses hlast heq
  obtain ⟨⟨c?, mid⟩, htake, hf⟩ := exists_of_bind_ok heq
  obtain ⟨⟨t, rest⟩, htoken, htake⟩ := exists_of_bind_ok htake
  obtain ⟨ht, hrest⟩ := Passes.headD_of_token hpasses hlast htoken
  have hnone (hp : p t = none) (hp' : p (ts.headD (.symbol close)) = none)
      (hhead : ∀ t, ts.head? = some t → p t = none) : ∃ ts', Passes cs' ts' last ∧ ts' <:+ ts ∧
      ∀ ds, S cs ts ds → ∃ ds', (Parser.take? p >>= g) ds = .ok (a, ds') ∧ S cs' ts' ds' := by
    dsimp only at htake
    rw [hp] at htake
    cases htake
    obtain ⟨ts', hts', hsuffix, hg⟩ := hother hhead hpasses hlast hf
    refine ⟨ts', hts', hsuffix, fun ds hds => ?_⟩
    obtain ⟨ds', hds', -⟩ := B.token_eq hpasses hlast htoken hds
    obtain ⟨ds'', hga, hds''⟩ := hg ds hds
    refine ⟨ds'', ?_, hds''⟩
    change Except.bind (Except.bind (token ds) _) _ = _
    rw [hds']
    simp only [Except.bind, hp']
    exact hga
  cases ts with
  | nil =>
    subst ht
    exact hnone heof (hclose rfl) nofun
  | cons u us =>
    obtain rfl : u = t := ht.symm
    cases hp : p u with
    | none => exact hnone hp hp (by rintro t ⟨⟩; exact hp)
    | some c =>
      dsimp only [List.headD_cons] at htake
      rw [hp] at htake
      cases htake
      obtain ⟨ts', hts', hsuffix, hg⟩ := hpassed u us c rfl hp (hrest nofun) hlast hf
      refine ⟨ts', hts', hsuffix.trans (List.suffix_cons _ _), fun ds hds => ?_⟩
      obtain ⟨ds', hds', hmid⟩ := B.token_eq hpasses hlast htoken hds
      obtain ⟨ds'', hga, hds''⟩ := hg ds' (hmid nofun)
      refine ⟨ds'', ?_, hds''⟩
      change Except.bind (Except.bind (token ds) _) _ = _
      rw [hds']
      simp only [Except.bind, List.headD_cons, hp]
      exact hga

theorem eat {f g : Bool → Parser β} {s : Symbol} (hs : s ≠ close ∨ ts ≠ [])
    (hpassed : ∀ rest, ts = .symbol s :: rest → Carries last S (f true) (g true) rest)
    (hother : ts.head? ≠ some (.symbol s) → Carries last S (f false) (g false) ts) :
    Carries last S (eat s >>= f) (eat s >>= g) ts := by
  rw [eat_eq_take?, bind_map_left, bind_map_left]
  refine take? B rfl (fun hnil => if_neg (hs.resolve_right (absurd hnil))) ?_ fun hhead => ?_
  · intro t rest _ hts ht
    exact hpassed rest (hts.trans (by rw [isSymbol?_eq_some_iff.mp ht]))
  · exact hother fun heq => absurd (hhead _ heq) (by simp [isSymbol?])

theorem connective? {f g : Option Connective → Parser β} {ops : List (Symbol × Connective)}
    (hclose : ops.lookup close = none)
    (hpassed : ∀ s c rest, ts = .symbol s :: rest → Carries last S (f (some c)) (g (some c)) rest)
    (hother : Carries last S (f none) (g none) ts) :
    Carries last S (connective? ops >>= f) (connective? ops >>= g) ts := by
  rw [connective?_eq_take?]
  refine take? B rfl (fun _ => hclose) ?_ fun _ => hother
  intro t rest c hts ht
  cases t with
  | symbol s => exact hpassed s c rest hts
  | _ => cases ht

theorem expect {f g : Unit → Parser β} {s : Symbol}
    (h : ∀ rest, ts = .symbol s :: rest → Carries last S (f ()) (g ()) rest) :
    Carries last S (expect s >>= f) (expect s >>= g) ts := by
  have hexpect : Carries last S (Parser.expect s) (Parser.expect s) ts := by
    by_cases hts : ts = []
    · subst hts
      refine of_within_false (within_expect.mono ?_)
      rintro _ _ ⟨⟩
    · exact eat B (.inr hts) (fun _ _ => pure ()) fun _ => unexpected _
  exact hexpect.bindWithin within_expect fun _ rest _ hts => h rest hts

theorem expectName {f g : String → Parser β}
    (h : ∀ name rest, ts = .ident name :: rest → Carries last S (f name) (g name) rest) :
    Carries last S (expectName >>= f) (expectName >>= g) ts := by
  have hname : Carries last S Parser.expectName Parser.expectName ts := by
    refine peek B ?_
    match ts with
    | .ident name :: rest => exact next B (pure name)
    | [] | .eof :: _ | .number _ :: _ | .string _ :: _ | .symbol _ :: _ | .var _ :: _ =>
      exact unexpected _
  exact hname.bindWithin within_expectName fun name rest _ hts => h name rest hts

/-- At the end of the text no symbol is passed; in the second reading there is only the closing one. -/
theorem eat_end {s : Symbol} {a : α} {g : Bool → Parser α} (hs : s ≠ close) (hlast : last = [])
    (h : Carries last S (Pure.pure a) (g false) []) : Carries last S (Pure.pure a) (Parser.eat s >>= g) [] := by
  have heat : Carries last S (Parser.eat s >>= fun _ => Pure.pure a) (Parser.eat s >>= g) [] :=
    eat B (.inl hs) nofun fun _ => h
  intro cs b cs' hpasses hspent heq
  cases hpasses
  subst hlast
  exact heat (.none []) hspent heq

theorem connective?_end {ops : List (Symbol × Connective)} {a : α} {g : Option Connective → Parser α}
    (hops : ops.lookup close = none) (hlast : last = []) (h : Carries last S (Pure.pure a) (g none) []) :
    Carries last S (Pure.pure a) (Parser.connective? ops >>= g) [] := by
  have hconnective : Carries last S (Parser.connective? ops >>= fun _ => Pure.pure a)
      (Parser.connective? ops >>= g) [] := connective? B hops nofun h
  intro cs b cs' hpasses hspent heq
  cases hpasses
  subst hlast
  exact hconnective (.none []) hspent heq

end Carries

end

end ActionTree.Notation.Parser
