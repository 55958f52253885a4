import ActionTree.Proofs.ExprCache

/-!
# Shared trees

Reading a text gives a tree in memory, and the cache hands out the trees that it holds. A tree is marked here
with the number of trees that were made before it; without the marks the cache is the one that is used. The
same tree is handed out until the cache drops it, and never after.
-/

namespace ActionTree

/-- A use of a cache. -/
inductive ExprCache.Use where
  | parse (kind : ExprKind) (text : String)
  | clear

/-- The cache after a use. -/
def ExprCache.use (c : ExprCache) : Use → ExprCache
  | .parse kind text => (c.parse kind text).2
  | .clear => c.clear

/-- An expression in memory. Each has an identity of its own. -/
structure Tree where
  identity : Nat
  expr : Expr

/-- A cache of expressions in memory. -/
structure TreeCache where
  capacity : Nat
  /-- How many trees were made. -/
  made : Nat
  entries : List ((ExprKind × String) × Tree)

namespace TreeCache

open ExprCache (Use)

def ofCapacity (capacity : Nat) : TreeCache := ⟨capacity, 0, []⟩

def size (c : TreeCache) : Nat := c.entries.length

def find? (c : TreeCache) (kind : ExprKind) (text : String) : Option Tree :=
  c.entries.lookup (kind, text)

def clear (c : TreeCache) : TreeCache := { c with entries := [] }

def insert (c : TreeCache) (kind : ExprKind) (text : String) (t : Tree) : TreeCache :=
  if c.capacity = 0 then c
  else
    let kept := if c.capacity ≤ c.size then [] else c.entries
    { c with entries := ((kind, text), t) :: kept }

/-- The tree that a text is handed out as, and the cache after it: it is made if the cache has none. -/
def parse (c : TreeCache) (kind : ExprKind) (text : String) : Except SyntaxError Tree × TreeCache :=
  match c.find? kind text with
  | some t => (.ok t, c)
  | none => match kind.parse text with
    | .ok e => (.ok ⟨c.made, e⟩, { c with made := c.made + 1 }.insert kind text ⟨c.made, e⟩)
    | .error fault => (.error fault, c)

def use (c : TreeCache) : Use → TreeCache
  | .parse kind text => (c.parse kind text).2
  | .clear => c.clear

/-- The cache without the identities. -/
def plain (c : TreeCache) : ExprCache := ⟨c.capacity, c.entries.map fun p => (p.1, p.2.expr)⟩

variable {c : TreeCache} {kind : ExprKind} {text : String} {t : Tree} {u : Use} {uses : List Use} {m : Nat}

/-! ## The identities change nothing -/

theorem plain_find? (c : TreeCache) (kind : ExprKind) (text : String) :
    c.plain.find? kind text = (c.find? kind text).map Tree.expr := by
  obtain ⟨capacity, made, entries⟩ := c
  change (entries.map fun p => (p.1, p.2.expr)).lookup (kind, text) = (entries.lookup (kind, text)).map Tree.expr
  induction entries with
  | nil => rfl
  | cons p entries ih =>
    rw [List.map_cons, List.lookup_cons, List.lookup_cons]
    split
    · rfl
    · exact ih

theorem plain_insert (c : TreeCache) (kind : ExprKind) (text : String) (t : Tree) :
    (c.insert kind text t).plain = c.plain.insert kind text t.expr := by
  have hsize : c.plain.size = c.size := List.length_map _
  have hcapacity : c.plain.capacity = c.capacity := rfl
  rw [insert, ExprCache.insert, hsize, hcapacity]
  split
  · rfl
  · split <;> rfl

theorem plain_parse (c : TreeCache) (kind : ExprKind) (text : String) :
    c.plain.parse kind text = ((c.parse kind text).1.map Tree.expr, (c.parse kind text).2.plain) := by
  rw [ExprCache.parse, parse, plain_find?]
  cases c.find? kind text with
  | some t => rfl
  | none =>
    dsimp only [Option.map_none]
    cases kind.parse text with
    | error fault => rfl
    | ok e =>
      dsimp only
      rw [plain_insert]
      rfl

theorem plain_use (c : TreeCache) (u : Use) : (c.use u).plain = c.plain.use u := by
  cases u with
  | parse kind text =>
    rw [use, ExprCache.use, plain_parse]
  | clear => rfl

theorem plain_foldl (c : TreeCache) (uses : List Use) :
    (uses.foldl use c).plain = uses.foldl ExprCache.use c.plain := by
  induction uses generalizing c with
  | nil => rfl
  | cons u uses ih => rw [List.foldl_cons, List.foldl_cons, ih, plain_use]

/-! ## What a parse does -/

/-- What a parse hands out and leaves. -/
inductive Parsed (c : TreeCache) (kind : ExprKind) (text : String) : Except SyntaxError Tree × TreeCache → Prop
  | hit {t : Tree} (h : c.find? kind text = some t) : Parsed c kind text (.ok t, c)
  | failed {fault : SyntaxError} (hmiss : c.find? kind text = none) (h : kind.parse text = .error fault) :
      Parsed c kind text (.error fault, c)
  | unkept {e : Expr} (hmiss : c.find? kind text = none) (h : kind.parse text = .ok e)
      (hcapacity : c.capacity = 0) :
      Parsed c kind text (.ok ⟨c.made, e⟩, { c with made := c.made + 1 })
  | added {e : Expr} (hmiss : c.find? kind text = none) (h : kind.parse text = .ok e)
      (hroom : c.size < c.capacity) :
      Parsed c kind text (.ok ⟨c.made, e⟩,
        { c with made := c.made + 1, entries := ((kind, text), ⟨c.made, e⟩) :: c.entries })
  | evicting {e : Expr} (hmiss : c.find? kind text = none) (h : kind.parse text = .ok e)
      (hcapacity : 0 < c.capacity) (hfull : c.capacity ≤ c.size) :
      Parsed c kind text (.ok ⟨c.made, e⟩,
        { c with made := c.made + 1, entries := [((kind, text), ⟨c.made, e⟩)] })

theorem parsed (c : TreeCache) (kind : ExprKind) (text : String) :
    Parsed c kind text (c.parse kind text) := by
  rw [parse]
  cases hfind : c.find? kind text with
  | some t => exact .hit hfind
  | none =>
    dsimp only
    cases hparse : kind.parse text with
    | error fault => exact .failed hfind hparse
    | ok e =>
      dsimp only [insert]
      by_cases hcapacity : c.capacity = 0
      · rw [if_pos hcapacity]
        exact .unkept hfind hparse hcapacity
      rw [if_neg hcapacity]
      change Parsed c kind text (.ok ⟨c.made, e⟩, ⟨c.capacity, c.made + 1,
        ((kind, text), ⟨c.made, e⟩) :: if c.capacity ≤ c.size then [] else c.entries⟩)
      by_cases hfull : c.capacity ≤ c.size
      · rw [if_pos hfull]
        exact .evicting hfind hparse (Nat.pos_of_ne_zero hcapacity) hfull
      · rw [if_neg hfull]
        exact .added hfind hparse (Nat.lt_of_not_le hfull)

/-! ## What is always so -/

/-- A cache within its capacity, of trees that stand for their texts. -/
structure Orderly (c : TreeCache) : Prop where
  size_le : c.size ≤ c.capacity
  keys_nodup : (c.entries.map Prod.fst).Nodup
  parse_key : ∀ p ∈ c.entries, p.1.1.parse p.1.2 = .ok p.2.expr
  identity_lt : ∀ p ∈ c.entries, p.2.identity < c.made

theorem mem_of_find? (h : c.find? kind text = some t) : ((kind, text), t) ∈ c.entries := by
  obtain ⟨before, after, hentries, -⟩ := List.lookup_eq_some_iff.mp h
  rw [hentries]
  exact List.mem_append_right _ List.mem_cons_self

theorem not_mem_keys (h : c.find? kind text = none) : (kind, text) ∉ c.entries.map Prod.fst := by
  intro hmem
  obtain ⟨p, hp, hkey⟩ := List.mem_map.mp hmem
  have hne := List.lookup_eq_none_iff.mp h p hp
  rw [hkey] at hne
  exact absurd hne (by simp)

namespace Orderly

theorem ofCapacity (capacity : Nat) : (ofCapacity capacity).Orderly :=
  ⟨Nat.zero_le _, List.nodup_nil, nofun, nofun⟩

theorem parse (h : c.Orderly) (kind : ExprKind) (text : String) : (c.parse kind text).2.Orderly := by
  have hparsed := c.parsed kind text
  generalize c.parse kind text = r at hparsed
  cases hparsed with
  | hit | failed => exact h
  | unkept => exact ⟨h.size_le, h.keys_nodup, h.parse_key, fun p hp => Nat.lt_succ_of_lt (h.identity_lt p hp)⟩
  | added hmiss hparse hroom =>
    refine ⟨hroom, List.nodup_cons.mpr ⟨not_mem_keys hmiss, h.keys_nodup⟩, ?_, ?_⟩
    · exact List.forall_mem_cons.mpr ⟨hparse, h.parse_key⟩
    · exact List.forall_mem_cons.mpr ⟨Nat.lt_succ_self _, fun p hp => Nat.lt_succ_of_lt (h.identity_lt p hp)⟩
  | evicting _ hparse hcapacity =>
    refine ⟨hcapacity, List.pairwise_singleton _ _, ?_, ?_⟩
    · exact List.forall_mem_cons.mpr ⟨hparse, nofun⟩
    · exact List.forall_mem_cons.mpr ⟨Nat.lt_succ_self _, nofun⟩

theorem use (h : c.Orderly) (u : Use) : (c.use u).Orderly := by
  cases u with
  | parse kind text => exact h.parse kind text
  | clear => exact ⟨Nat.zero_le _, List.nodup_nil, nofun, nofun⟩

theorem foldl (h : c.Orderly) (uses : List Use) : (uses.foldl TreeCache.use c).Orderly := by
  induction uses generalizing c with
  | nil => exact h
  | cons u uses ih => exact ih (h.use u)

end Orderly

theorem capacity_use (c : TreeCache) (u : Use) : (c.use u).capacity = c.capacity := by
  cases u with
  | clear => rfl
  | parse kind text =>
    have hparsed := c.parsed kind text
    rw [use]
    generalize c.parse kind text = r at hparsed
    cases hparsed <;> rfl

theorem capacity_foldl (c : TreeCache) (uses : List Use) : (uses.foldl use c).capacity = c.capacity := by
  induction uses generalizing c with
  | nil => rfl
  | cons u uses ih => rw [List.foldl_cons, ih, capacity_use]

/-! ## How long a tree is shared -/

/-- The use throws away what is in the cache: it is emptied, or it is full and a new tree goes in. -/
def Drops (c : TreeCache) : Use → Prop
  | .parse kind text =>
    c.find? kind text = none ∧ (∃ e, kind.parse text = .ok e) ∧ 0 < c.capacity ∧ c.capacity ≤ c.size
  | .clear => True

/-- No use of the list throws away what is in the cache. -/
def Keeps (c : TreeCache) : List Use → Prop
  | [] => True
  | u :: uses => ¬c.Drops u ∧ (c.use u).Keeps uses

theorem find?_use (hkeeps : ¬c.Drops u) (h : c.find? kind text = some t) :
    (c.use u).find? kind text = some t := by
  cases u with
  | clear => exact absurd trivial hkeeps
  | parse kind' text' =>
    have hparsed := c.parsed kind' text'
    rw [use]
    generalize c.parse kind' text' = r at hparsed
    cases hparsed with
    | hit | failed | unkept => exact h
    | @added e hmiss =>
      have hne : ((kind, text) == (kind', text')) = false := by
        rw [beq_eq_false_iff_ne]
        intro heq
        cases heq
        rw [h] at hmiss
        cases hmiss
      change (((kind', text'), _) :: c.entries).lookup (kind, text) = some t
      rw [List.lookup_cons, hne]
      exact h
    | evicting hmiss hparse hcapacity hfull => exact absurd ⟨hmiss, ⟨_, hparse⟩, hcapacity, hfull⟩ hkeeps

theorem find?_of_keeps (hkeeps : c.Keeps uses) (h : c.find? kind text = some t) :
    (uses.foldl use c).find? kind text = some t := by
  induction uses generalizing c with
  | nil => exact h
  | cons u uses ih => exact ih hkeeps.2 (find?_use hkeeps.1 h)

theorem made_le_use (c : TreeCache) (u : Use) : c.made ≤ (c.use u).made := by
  cases u with
  | clear => exact Nat.le_refl _
  | parse kind text =>
    have hparsed := c.parsed kind text
    rw [use]
    generalize c.parse kind text = r at hparsed
    cases hparsed with
    | hit | failed => exact Nat.le_refl _
    | unkept | added | evicting => exact Nat.le_succ _

/-- Only later trees are in the cache and still to come, those from the given identity on. -/
structure From (m : Nat) (c : TreeCache) : Prop where
  le_made : m ≤ c.made
  le_identity : ∀ p ∈ c.entries, m ≤ p.2.identity

theorem From.use (h : From m c) (u : Use) : From m (c.use u) := by
  refine ⟨Nat.le_trans h.le_made (c.made_le_use u), ?_⟩
  cases u with
  | clear => exact nofun
  | parse kind text =>
    have hparsed := c.parsed kind text
    rw [TreeCache.use]
    generalize c.parse kind text = r at hparsed
    cases hparsed with
    | hit | failed | unkept => exact h.le_identity
    | added => exact List.forall_mem_cons.mpr ⟨h.le_made, h.le_identity⟩
    | evicting => exact List.forall_mem_cons.mpr ⟨h.le_made, nofun⟩

theorem From.foldl (h : From m c) (uses : List Use) : From m (uses.foldl TreeCache.use c) := by
  induction uses generalizing c with
  | nil => exact h
  | cons u uses ih => exact ih (h.use u)

theorem from_of_drops (hmade : m ≤ c.made) (h : c.Drops u) : From m (c.use u) := by
  refine ⟨Nat.le_trans hmade (c.made_le_use u), ?_⟩
  cases u with
  | clear => exact nofun
  | parse kind text =>
    obtain ⟨hmiss, ⟨e, hparse⟩, hcapacity, hfull⟩ := h
    have hparsed := c.parsed kind text
    rw [use]
    generalize c.parse kind text = r at hparsed
    cases hparsed with
    | hit hfind => cases hfind.symm.trans hmiss
    | failed _ hfault => cases hfault.symm.trans hparse
    | unkept _ _ hzero => exact absurd hzero (Nat.ne_of_gt hcapacity)
    | added _ _ hroom => exact absurd hroom (Nat.not_lt_of_le hfull)
    | evicting => exact List.forall_mem_cons.mpr ⟨hmade, nofun⟩

theorem from_of_not_keeps (hmade : m ≤ c.made) (h : ¬c.Keeps uses) : From m (uses.foldl use c) := by
  induction uses generalizing c with
  | nil => exact absurd trivial h
  | cons u uses ih =>
    by_cases hdrops : c.Drops u
    · exact (from_of_drops hmade hdrops).foldl uses
    · exact ih (Nat.le_trans hmade (c.made_le_use u)) fun hkeeps => h ⟨hdrops, hkeeps⟩

/-- A tree that is made, or found, is no older than those that are there. -/
theorem From.parse (h : From m c) (hparse : (c.parse kind text).1 = .ok t) : m ≤ t.identity := by
  have hparsed := c.parsed kind text
  generalize c.parse kind text = r at hparse hparsed
  cases hparsed with
  | hit hfind =>
    cases hparse
    exact h.le_identity _ (mem_of_find? hfind)
  | failed => cases hparse
  | unkept | added | evicting =>
    cases hparse
    exact h.le_made

/-- What holds of a tree that was handed out, in the cache after that. -/
structure Handed (c : TreeCache) (kind : ExprKind) (text : String) (t : Tree) : Prop where
  identity_lt : t.identity < c.made
  parse_eq : kind.parse text = .ok t.expr
  find?_eq : 0 < c.capacity → c.find? kind text = some t

theorem Orderly.handed (h : c.Orderly) (hparse : (c.parse kind text).1 = .ok t) :
    (c.parse kind text).2.Handed kind text t := by
  have hparsed := c.parsed kind text
  generalize c.parse kind text = r at hparse hparsed
  cases hparsed with
  | hit hfind =>
    cases hparse
    have hmem := mem_of_find? hfind
    exact ⟨h.identity_lt _ hmem, h.parse_key _ hmem, fun _ => hfind⟩
  | failed => cases hparse
  | unkept _ he hzero =>
    cases hparse
    exact ⟨Nat.lt_succ_self _, he, fun hcapacity => absurd hzero (Nat.ne_of_gt hcapacity)⟩
  | added _ he | evicting _ he =>
    cases hparse
    exact ⟨Nat.lt_succ_self _, he, fun _ => List.lookup_cons_self⟩

/-- The sharing of a tree, seen from the cache that it was handed out from and the uses after that. -/
structure Shares (c : TreeCache) (kind : ExprKind) (text : String) (t : Tree) (uses : List Use) : Prop where
  same_iff : ((uses.foldl use c).parse kind text).1 = .ok t ↔ 0 < c.capacity ∧ c.Keeps uses
  anew : ¬(0 < c.capacity ∧ c.Keeps uses) →
    ∃ t', ((uses.foldl use c).parse kind text).1 = .ok t' ∧ t.identity < t'.identity ∧ t'.expr = t.expr

theorem Orderly.parse_fst (h : c.Orderly) {e : Expr} (hparse : kind.parse text = .ok e) :
    ∃ t, (c.parse kind text).1 = .ok t ∧ t.expr = e := by
  have hparsed := c.parsed kind text
  generalize c.parse kind text = r at hparsed
  cases hparsed with
  | @hit t hfind =>
    have hkey := h.parse_key _ (mem_of_find? hfind)
    exact ⟨t, rfl, Except.ok.inj (hkey.symm.trans hparse)⟩
  | failed _ hfault => cases hfault.symm.trans hparse
  | unkept _ he | added _ he | evicting _ he => exact ⟨_, rfl, Except.ok.inj (he.symm.trans hparse)⟩

/-- What has no expression is not in the cache. -/
theorem Orderly.parse_of_error (h : c.Orderly) {fault : SyntaxError} (hfault : kind.parse text = .error fault) :
    c.parse kind text = (.error fault, c) := by
  have hparsed := c.parsed kind text
  generalize c.parse kind text = r at hparsed
  cases hparsed with
  | hit hfind => cases (h.parse_key _ (mem_of_find? hfind)).symm.trans hfault
  | failed _ hfault' => rw [Except.error.inj (hfault'.symm.trans hfault)]
  | unkept _ he | added _ he | evicting _ he => cases he.symm.trans hfault

theorem Orderly.from_of_capacity_eq_zero (h : c.Orderly) (hcapacity : c.capacity = 0) : From c.made c := by
  have hsize : c.size = 0 := Nat.le_zero.mp (hcapacity ▸ h.size_le)
  have hentries : c.entries = [] := List.eq_nil_of_length_eq_zero hsize
  exact ⟨Nat.le_refl _, hentries ▸ nofun⟩

theorem Handed.shares (h : c.Handed kind text t) (horderly : c.Orderly) (uses : List Use) :
    c.Shares kind text t uses := by
  have hkept : 0 < c.capacity ∧ c.Keeps uses → ((uses.foldl use c).parse kind text).1 = .ok t := by
    rintro ⟨hcapacity, hkeeps⟩
    rw [parse, find?_of_keeps hkeeps (h.find?_eq hcapacity)]
  have hanew : ¬(0 < c.capacity ∧ c.Keeps uses) →
      ∃ t', ((uses.foldl use c).parse kind text).1 = .ok t' ∧ t.identity < t'.identity ∧ t'.expr = t.expr := by
    intro hnot
    obtain ⟨t', ht', hexpr⟩ := (horderly.foldl uses).parse_fst h.parse_eq
    have hfrom : From c.made (uses.foldl use c) := by
      by_cases hcapacity : 0 < c.capacity
      · exact from_of_not_keeps (Nat.le_refl _) fun hkeeps => hnot ⟨hcapacity, hkeeps⟩
      · exact (horderly.from_of_capacity_eq_zero (Nat.eq_zero_of_not_pos hcapacity)).foldl uses
    exact ⟨t', ht', Nat.lt_of_lt_of_le h.identity_lt (hfrom.parse ht'), hexpr⟩
  refine ⟨⟨fun hsame => Classical.byContradiction fun hnot => ?_, hkept⟩, hanew⟩
  obtain ⟨t', ht', hlt, -⟩ := hanew hnot
  cases hsame.symm.trans ht'
  exact Nat.lt_irrefl _ hlt

/-- However a cache was used: without identities it is the cache of expressions after the same uses; it is
within its capacity and each entry is what its text denotes as its kind; a parse hands out and leaves what
`Parsed` says; and the tree that it hands out is handed out for that text again as long as nothing was thrown
away, while after that a later tree is. -/
theorem cache_bounded_and_shared (capacity : Nat) (before : List Use) :
    let c := before.foldl use (ofCapacity capacity)
    c.plain = before.foldl ExprCache.use (ExprCache.ofCapacity capacity) ∧ c.capacity = capacity ∧
      c.plain.size = c.size ∧ c.Orderly ∧
      ∀ kind text,
        c.plain.parse kind text = ((c.parse kind text).1.map Tree.expr, (c.parse kind text).2.plain) ∧
        c.Parsed kind text (c.parse kind text) ∧
        (∀ fault, kind.parse text = .error fault → c.parse kind text = (.error fault, c)) ∧
        ∀ t, (c.parse kind text).1 = .ok t → ∀ uses, (c.parse kind text).2.Shares kind text t uses := by
  intro c
  have horderly : c.Orderly := (Orderly.ofCapacity capacity).foldl before
  refine ⟨plain_foldl _ before, capacity_foldl _ before, List.length_map _, horderly, fun kind text =>
    ⟨plain_parse c kind text, c.parsed kind text, fun fault => horderly.parse_of_error, fun t ht uses => ?_⟩⟩
  exact (horderly.handed ht).shares (horderly.parse kind text) uses

theorem cache_bounded_and_shared_one :
    let c := ofCapacity 1
    let c₁ := (c.parse .single "1").2
    ∃ t, (c.parse .single "1").1 = .ok t ∧ (c₁.parse .single "1").1 = .ok t ∧
      ((c₁.parse .multi "1").2.parse .single "1").1 ≠ .ok t := by
  intro c c₁
  obtain ⟨t, ht⟩ : ∃ t, (c.parse .single "1").1 = .ok t := ⟨_, rfl⟩
  have hshares := (cache_bounded_and_shared 1 []).2.2.2.2 .single "1" |>.2.2.2 t ht
  have hdrops : c₁.Drops (.parse .multi "1") := ⟨rfl, ⟨_, rfl⟩, by decide, by decide⟩
  refine ⟨t, ht, (hshares []).same_iff.mpr ⟨by decide, trivial⟩, fun hsame => ?_⟩
  exact ((hshares [.parse .multi "1"]).same_iff.mp hsame).2.1 hdrops

end TreeCache

end ActionTree
