import ActionTree.Proofs.Number.Integer
import ActionTree.Proofs.Run
import ActionTree.Session.Lookup

/-!
# Positions, lengths and widths

A number that is used as a position, a length or a width is cut to 64 bits before anything looks at
its range. What is asked for is therefore always answered at the numbers after the cut, and as asked
unless the cut moves a number into the range that was outside of it. No integer is moved so; a decimal
can be.
-/

namespace ActionTree

variable {σ α β : Type}

namespace Decimal

/-- Truncation divides the mantissa by the power of ten and rounds toward zero. -/
theorem truncate_eq (d : Decimal) : d.truncate = d.signed.tdiv (tenTo d.scale) := by
  rw [truncate, signed]
  split
  · rw [Int.neg_tdiv]
    rfl
  · rfl

end Decimal

/-- A number that can be used as a position: an integer of any type, or a decimal. -/
inductive Numeric where
  | int (i : Integer)
  | decimal (d : Decimal)

namespace Numeric

def value : Numeric → Value
  | int i => .int i
  | decimal d => .decimal d

/-- The number, rounded toward zero. -/
def whole : Numeric → Int
  | int i => i.val
  | decimal d => d.signed.tdiv (tenTo d.scale)

/-- What is left of the number in 64 bits. -/
def wrapped (x : Numeric) : Int := IntKind.long.cut x.whole

end Numeric

/-! ## What is asked for -/

/-- A method that takes numbers for places in a text; `α` stands for these numbers. -/
inductive Slicing (α : Type) where
  | substring (start : α) (length : Option α)
  | remove (start : α) (length : Option α)
  | insert (start : α) (piece : Value)
  | padLeft (width : α) (fill : Option Value)
  | padRight (width : α) (fill : Option Value)

namespace Slicing

/-- The name of the method in small letters. -/
def method : Slicing α → String
  | substring _ _ => "substring"
  | remove _ _ => "remove"
  | insert _ _ => "insert"
  | padLeft _ _ => "padleft"
  | padRight _ _ => "padright"

def args : Slicing Value → List Value
  | substring start length | remove start length => start :: length.toList
  | insert start piece => [start, piece]
  | padLeft width fill | padRight width fill => width :: fill.toList

def numbers : Slicing α → List α
  | substring start length | remove start length => start :: length.toList
  | insert n _ | padLeft n _ | padRight n _ => [n]

def map (f : α → β) : Slicing α → Slicing β
  | substring start length => substring (f start) (length.map f)
  | remove start length => remove (f start) (length.map f)
  | insert start piece => insert (f start) piece
  | padLeft width fill => padLeft (f width) fill
  | padRight width fill => padRight (f width) fill

/-- The method on the characters of a text. -/
def perform (cs : List Char) : Slicing Value → Except RuntimeFault (List Char)
  | substring start length => Slice.substring cs start length
  | remove start length => Slice.remove cs start length
  | insert start piece => Slice.insert cs start piece.text.toList
  | padLeft width fill => (Slice.padding cs width fill).map (· ++ cs)
  | padRight width fill => (Slice.padding cs width fill).map (cs ++ ·)

/-- Where a part of a text starts and how long it is, if it lies within the text. -/
def part? (cs : List Char) (start : Int) (length : Option Int) : Option (Nat × Nat) :=
  let n := length.getD (cs.length - start)
  if 0 ≤ start ∧ 0 ≤ n ∧ start + n ≤ cs.length then some (start.toNat, n.toNat) else none

/-- The characters that bring a text to a width, if the width is one that a text may be given. -/
def padding? (cs : List Char) (width : Int) (fill : Option Value) : Option (List Char) :=
  if 0 ≤ width ∧ width ≤ longestAllocation then
    (fill.elim (some ' ') fun v => (Convert.asChar v).toOption).map
      (List.replicate (width.toNat - cs.length))
  else none

/-- What the method gives for the numbers as they are; `none` if one is out of range. -/
def result? (cs : List Char) : Slicing Int → Option (List Char)
  | substring start length => (part? cs start length).map fun (i, n) => (cs.drop i).take n
  | remove start length => (part? cs start length).map fun (i, n) => cs.take i ++ cs.drop (i + n)
  | insert start piece =>
    if 0 ≤ start ∧ start ≤ cs.length then
      some (cs.take start.toNat ++ piece.text.toList ++ cs.drop start.toNat)
    else none
  | padLeft width fill => (padding? cs width fill).map (· ++ cs)
  | padRight width fill => (padding? cs width fill).map (cs ++ ·)

end Slicing

/-- Something that is asked for by numbers, which `α` stands for. -/
inductive Request (α : Type) where
  | element (items : List Value) (position : α)
  | character (text : String) (position : α)
  /-- A method of a text, by its name as written. -/
  | slicing (text name : String) (op : Slicing α)
  | allocation (type : String) (length : α)

namespace Request

def numbers : Request α → List α
  | element _ n | character _ n | allocation _ n => [n]
  | slicing _ _ op => op.numbers

def map (f : α → β) : Request α → Request β
  | element items n => element items (f n)
  | character text n => character text (f n)
  | slicing text name op => slicing text name (op.map f)
  | allocation type n => allocation type (f n)

/-- The name of the method is written correctly, case apart. -/
def Named : Request α → Prop
  | slicing _ name op => Text.lowerAscii name = op.method
  | _ => True

/-- The length of what is asked, where there is something. -/
def extent : Request α → Nat
  | element items _ => items.length
  | character text _ | slicing text _ _ => text.toList.length
  | allocation _ _ => 0

variable (env : Environment σ)

def perform : Request Value → Run σ Value
  | element items position => Run.ofFault (Member.index env.host (.array items) position)
  | character text position => Run.ofFault (Member.index env.host (.str text) position)
  | slicing text name op => Run.ofFault (Member.call env.host (.str text) name op.args)
  | allocation type length => env.newArray type length

/-- What is to be had for the numbers as they are; `none` if one is out of range. -/
def result? (s : σ) : Request Int → Option Value
  | element items n => if 0 ≤ n then items[n.toNat]? else none
  | character text n => (if 0 ≤ n then text.toList[n.toNat]? else none).map .char
  | slicing text _ op => (op.result? text.toList).map .ofChars
  | allocation type n =>
    if 0 ≤ n ∧ n ≤ longestAllocation then
      (env.resolveType s type).map fun t => .array (List.replicate n.toNat t.default)
    else none

end Request

/-- The run gives the result, or a runtime fault if there is none, and leaves the state as it is. -/
def Run.Answers (r : Run σ Value) (s : σ) : Option Value → Prop
  | some v => r s = some (.ok v, s)
  | none => ∃ f, r s = some (.error (.runtime f), s)

/-! ## Numbers after the cut -/

theorem toOption_bind {ε : Type} (x : Except ε α) (f : α → Except ε β) :
    (x >>= f).toOption = x.toOption.bind fun a => (f a).toOption := by
  cases x <;> rfl

theorem toOption_map {ε : Type} (x : Except ε α) (f : α → β) :
    (x.map f).toOption = x.toOption.map f := by
  cases x <;> rfl

theorem toOption_unless {ε : Type} (p : Prop) [Decidable p] (fault : ε) (a : α) :
    (do
        if p then throw fault
        return a : Except ε α).toOption = if p then none else some a := by
  split <;> rfl

theorem unless_eq_ite {p q : Prop} [Decidable p] [Decidable q] {x : Option α} (h : ¬p ↔ q) :
    (if p then none else x) = if q then x else none := by
  rw [← ite_not]
  exact if_congr h rfl rfl

theorem asLong_value (x : Numeric) : Convert.asLong x.value = .ok x.wrapped := by
  cases x with
  | int i => rfl
  | decimal d =>
    rw [Numeric.wrapped, Numeric.whole, ← Decimal.truncate_eq]
    rfl

theorem toOption_position (x : Numeric) :
    (Slice.position x.value).toOption = if x.wrapped < 0 then none else some x.wrapped.toNat := by
  rw [Slice.position, asLong_value]
  dsimp only
  split <;> rfl

namespace Slicing

variable {cs : List Char}

/-- A part of a text is taken if it lies within the text. -/
theorem toOption_part (start : Numeric) (length : Option Numeric) (fault : Nat → Nat → RuntimeFault)
    (take : Nat → Nat → α) :
    (do
        let i ← Slice.position start.value
        let n ← Slice.count (length.map Numeric.value) cs.length i
        if cs.length < i + n then throw (fault i n)
        return take i n : Except RuntimeFault α).toOption =
      (part? cs start.wrapped (length.map Numeric.wrapped)).map fun p => take p.1 p.2 := by
  rw [toOption_bind, toOption_position, part?, Option.map_if]
  by_cases hstart : start.wrapped < 0
  · rw [if_pos hstart, if_neg (by omega)]
    rfl
  rw [if_neg hstart, Option.bind_some, toOption_bind]
  simp only [toOption_unless]
  cases length with
  | none =>
    have hleft : ((cs.length : Int) - start.wrapped).toNat = cs.length - start.wrapped.toNat := by
      omega
    dsimp only [Slice.count, Option.map, Option.getD, Except.toOption, Option.bind]
    rw [hleft]
    exact unless_eq_ite (by omega)
  | some n =>
    dsimp only [Slice.count, Option.map, Option.getD]
    rw [toOption_position]
    by_cases hn : n.wrapped < 0
    · rw [if_pos hn, if_neg (by omega)]
      rfl
    rw [if_neg hn, Option.bind_some]
    exact unless_eq_ite (by omega)

theorem toOption_insert (start : Numeric) (piece : Value) :
    (Slice.insert cs start.value piece.text.toList).toOption =
      result? cs (.insert start.wrapped piece) := by
  rw [Slice.insert, toOption_bind, toOption_position, result?]
  by_cases hstart : start.wrapped < 0
  · rw [if_pos hstart, if_neg (by omega)]
    rfl
  rw [if_neg hstart, Option.bind_some, toOption_unless]
  exact unless_eq_ite (by omega)

theorem toOption_padding (width : Numeric) (fill : Option Value) :
    (Slice.padding cs width.value fill).toOption = padding? cs width.wrapped fill := by
  rw [Slice.padding, toOption_bind, toOption_position, padding?]
  by_cases hwidth : width.wrapped < 0
  · rw [if_pos hwidth, if_neg (by omega)]
    rfl
  rw [if_neg hwidth, Option.bind_some]
  have hlimit (c : Char) :
      (do
          if longestAllocation < width.wrapped.toNat then
            throw (.paddingTooWide width.wrapped.toNat)
          return List.replicate (width.wrapped.toNat - cs.length) c :
        Except RuntimeFault (List Char)).toOption =
        if 0 ≤ width.wrapped ∧ width.wrapped ≤ longestAllocation then
          some (List.replicate (width.wrapped.toNat - cs.length) c)
        else none :=
    (toOption_unless ..).trans (unless_eq_ite (by omega))
  cases fill with
  | none => exact hlimit ' '
  | some v =>
    cases hv : Convert.asChar v with
    | ok c =>
      simp only [hv, Option.elim]
      exact hlimit c
    | error e =>
      simp only [hv, Option.elim]
      exact (ite_self none).symm

/-- A method gives what there is for its numbers after the cut. -/
theorem toOption_perform (op : Slicing Numeric) :
    ((op.map Numeric.value).perform cs).toOption = (op.map Numeric.wrapped).result? cs := by
  cases op with
  | substring start length => exact toOption_part start length _ _
  | remove start length => exact toOption_part start length _ _
  | insert start piece => exact toOption_insert start piece
  | padLeft width fill | padRight width fill =>
    exact (toOption_map ..).trans (congrArg (Option.map _) (toOption_padding width fill))

theorem bind_pure_map (x : Except RuntimeFault α) (f : α → β) (g : β → Value) :
    (x >>= fun a => pure (g (f a))) = (x.map f).map g := by
  cases x <;> rfl

theorem textMethod_args (text name : String) (op : Slicing Value)
    (hname : Text.lowerAscii name = op.method) :
    Member.textMethod text name op.args = (op.perform text.toList).map .ofChars := by
  cases op with
  | substring _ length | remove _ length =>
    rw [Member.textMethod, hname]
    cases length <;> rfl
  | insert start piece =>
    rw [Member.textMethod, hname]
    rfl
  | padLeft _ fill | padRight _ fill =>
    rw [Member.textMethod, hname]
    cases fill <;> exact bind_pure_map _ _ _

theorem valueMethod_args (text name : String) (op : Slicing Value)
    (hname : Text.lowerAscii name = op.method) :
    Member.valueMethod (.str text) name op.args = (op.perform text.toList).map .ofChars := by
  rw [← textMethod_args text name op hname, Member.valueMethod, hname]
  cases op <;> rfl

end Slicing

namespace Request

variable {env : Environment σ} {s : σ}

theorem answers_ofFault {r : Except RuntimeFault Value} {wanted : Option Value}
    (h : r.toOption = wanted) (s : σ) :
    (Run.ofFault (r.mapError .runtime) : Run σ Value).Answers s wanted := by
  subst h
  cases r with
  | ok v => rfl
  | error f => exact ⟨f, rfl⟩

theorem toOption_element (items : List α) (position : Numeric) (wrap : α → Value) :
    (Member.element items position.value wrap).toOption =
      (if 0 ≤ position.wrapped then items[position.wrapped.toNat]? else none).map wrap := by
  rw [Member.element, asLong_value]
  dsimp only
  by_cases hposition : position.wrapped < 0
  · rw [if_pos hposition, if_neg (by omega)]
    rfl
  · rw [if_neg hposition, if_pos (by omega)]
    cases items[position.wrapped.toNat]? <;> rfl

theorem typeNamed_apply (env : Environment σ) (s : σ) (type : String) :
    env.typeNamed type s = Run.orFail (env.resolveType s type) (.unknownType type) s := rfl

theorem answers_allocation (type : String) (length : Numeric) :
    (env.newArray type length.value).Answers s
      (result? env s (.allocation type length.wrapped)) := by
  have h : env.newArray type length.value =
      if length.wrapped < 0 ∨ longestAllocation < length.wrapped then
        Run.failWith (.badArrayLength length.value.text)
      else do
        let t ← env.typeNamed type
        return .array (List.replicate length.wrapped.toNat t.default) := by
    rw [Environment.newArray, asLong_value]
    rfl
  rw [h, result?]
  split
  · rw [if_neg (by omega)]
    exact ⟨_, rfl⟩
  · rw [if_pos (by omega)]
    have htype := typeNamed_apply env s type
    cases hresolve : env.resolveType s type with
    | none =>
      rw [hresolve] at htype
      exact ⟨.unknownType type, Run.bind_of_error _ htype⟩
    | some t =>
      rw [hresolve] at htype
      exact Run.bind_of_ok _ htype

/-- Every request is answered for its numbers after the cut. -/
theorem answers_wrapped (env : Environment σ) (s : σ) (req : Request Numeric) (hname : req.Named) :
    ((req.map Numeric.value).perform env).Answers s ((req.map Numeric.wrapped).result? env s) := by
  cases req with
  | element items position =>
    refine answers_ofFault ((toOption_element items position id).trans ?_) s
    rw [Option.map_id]
    rfl
  | character text position => exact answers_ofFault (toOption_element _ position .char) s
  | slicing text name op =>
    have hmethod : Text.lowerAscii name = (op.map Numeric.value).method :=
      hname.trans (by cases op <;> rfl)
    refine answers_ofFault ?_ s
    rw [Slicing.valueMethod_args text name _ hmethod, toOption_map, Slicing.toOption_perform]
    rfl
  | allocation type length => exact answers_allocation type length

end Request

/-! ## Numbers in range -/

theorem isSome_of_ite {p : Prop} [Decidable p] {x : Option α} (h : (if p then x else none).isSome) :
    p ∧ x.isSome := by
  split at h
  · exact ⟨‹p›, h⟩
  · cases h

theorem Slicing.numbers_within {cs : List Char} {op : Slicing Int} (h : (op.result? cs).isSome) :
    ∀ n ∈ op.numbers, 0 ≤ n ∧ n ≤ max cs.length longestAllocation := by
  cases op with
  | substring start length | remove start length =>
    rw [result?, Option.isSome_map, part?] at h
    obtain ⟨hpart, -⟩ := isSome_of_ite h
    cases length with
    | none =>
      dsimp only [Option.getD] at hpart
      exact List.forall_mem_singleton.mpr (by omega)
    | some length =>
      dsimp only [Option.getD] at hpart
      exact List.forall_mem_cons.mpr ⟨by omega, List.forall_mem_singleton.mpr (by omega)⟩
  | insert start piece =>
    rw [result?] at h
    obtain ⟨hstart, -⟩ := isSome_of_ite h
    exact List.forall_mem_singleton.mpr (by omega)
  | padLeft width fill | padRight width fill =>
    rw [result?, Option.isSome_map, padding?] at h
    obtain ⟨hwidth, -⟩ := isSome_of_ite h
    exact List.forall_mem_singleton.mpr (by omega)

namespace Request

variable {env : Environment σ} {s : σ}

theorem position_within {items : List α} {n : Int}
    (h : (if 0 ≤ n then items[n.toNat]? else none).isSome) :
    0 ≤ n ∧ n ≤ max items.length longestAllocation := by
  obtain ⟨hn, hsome⟩ := isSome_of_ite h
  obtain ⟨x, hx⟩ := Option.isSome_iff_exists.mp hsome
  have hlength := (List.getElem?_eq_some_iff.mp hx).1
  omega

/-- Where there is something to be had, all numbers are in range. -/
theorem numbers_within {req : Request Int} (h : (req.result? env s).isSome) :
    ∀ n ∈ req.numbers, 0 ≤ n ∧ n ≤ max req.extent longestAllocation := by
  cases req with
  | element items n => exact List.forall_mem_singleton.mpr (position_within h)
  | character text n =>
    rw [result?, Option.isSome_map] at h
    exact List.forall_mem_singleton.mpr (position_within h)
  | slicing text name op =>
    rw [result?, Option.isSome_map] at h
    exact Slicing.numbers_within h
  | allocation type n =>
    obtain ⟨hn, -⟩ := isSome_of_ite h
    exact List.forall_mem_singleton.mpr (by omega)

end Request

/-! ## Numbers that are the same after the cut -/

namespace Slicing

variable {f g : α → β}

theorem numbers_map (op : Slicing α) : (op.map f).numbers = op.numbers.map f := by
  cases op with
  | substring _ length | remove _ length => cases length <;> rfl
  | _ => rfl

theorem map_congr {op : Slicing α} (h : ∀ n ∈ op.numbers, f n = g n) : op.map f = op.map g := by
  cases op with
  | substring start length | remove start length =>
    obtain ⟨hstart, hlength⟩ := List.forall_mem_cons.mp h
    have hlength : length.map f = length.map g :=
      Option.map_congr fun n hn => hlength n (Option.mem_toList.mpr hn)
    rw [map, map, hstart, hlength]
  | insert n _ | padLeft n _ | padRight n _ =>
    rw [map, map, List.forall_mem_singleton.mp h]

end Slicing

namespace Request

variable {env : Environment σ} {s : σ} {f g : α → β}

theorem numbers_map (req : Request α) : (req.map f).numbers = req.numbers.map f := by
  cases req with
  | slicing text name op => exact op.numbers_map
  | _ => rfl

theorem map_congr {req : Request α} (h : ∀ n ∈ req.numbers, f n = g n) :
    req.map f = req.map g := by
  cases req with
  | slicing text name op => exact congrArg (slicing text name) (Slicing.map_congr h)
  | element _ n | character _ n | allocation _ n =>
    rw [map, map, List.forall_mem_singleton.mp h]

theorem extent_map (req : Request α) : (req.map f).extent = req.extent := by
  cases req <;> rfl

theorem answers_unique {r : Run σ Value} {v w : Option Value} (hv : r.Answers s v)
    (hw : r.Answers s w) : v = w := by
  cases v with
  | none =>
    obtain ⟨f, hf⟩ := hv
    cases w with
    | none => rfl
    | some w => cases hf.symm.trans hw
  | some v =>
    cases w with
    | none =>
      obtain ⟨f, hf⟩ := hw
      cases hf.symm.trans hv
    | some w =>
      cases hv.symm.trans hw
      rfl

/-- If there is something to be had for the numbers themselves, the cut changes none of them. -/
theorem map_wrapped {req : Request Numeric} (hextent : req.extent ≤ IntKind.long.greatest)
    (h : ((req.map Numeric.whole).result? env s).isSome) :
    req.map Numeric.wrapped = req.map Numeric.whole := by
  refine map_congr fun x hx => IntKind.cut_of_holds ?_
  have hmem : x.whole ∈ (req.map Numeric.whole).numbers :=
    req.numbers_map ▸ List.mem_map_of_mem hx
  have hwithin := numbers_within h _ hmem
  have hlimit : (longestAllocation : Int) ≤ IntKind.long.greatest := by decide
  have hleast : IntKind.long.least ≤ 0 := by decide
  rw [extent_map] at hwithin
  constructor <;> omega

/-- What is asked for by integers and decimals is answered for their whole numbers, unless there is
nothing to be had for these and the cut to 64 bits moves them to where there is something. Integers
are answered for their own numbers always. -/
theorem answered_iff (env : Environment σ) (s : σ) (req : Request Numeric) (hname : req.Named)
    (hextent : req.extent ≤ IntKind.long.greatest) :
    (((req.map Numeric.value).perform env).Answers s ((req.map Numeric.whole).result? env s) ↔
      (((req.map Numeric.wrapped).result? env s).isSome →
        ((req.map Numeric.whole).result? env s).isSome)) ∧
    ((∀ x ∈ req.numbers, ∃ i, x = .int i) →
      ((req.map Numeric.value).perform env).Answers s ((req.map Numeric.whole).result? env s)) := by
  have hwrapped := answers_wrapped env s req hname
  have hiff : ((req.map Numeric.value).perform env).Answers s
      ((req.map Numeric.whole).result? env s) ↔
      (((req.map Numeric.wrapped).result? env s).isSome →
        ((req.map Numeric.whole).result? env s).isSome) := by
    constructor
    · intro h
      rw [answers_unique hwrapped h]
      exact id
    · intro h
      by_cases hsome : ((req.map Numeric.whole).result? env s).isSome
      · exact map_wrapped hextent hsome ▸ hwrapped
      · have hnone := Option.not_isSome_iff_eq_none.mp fun h' => hsome (h h')
        rw [Option.not_isSome_iff_eq_none.mp hsome]
        exact hnone ▸ hwrapped
  refine ⟨hiff, fun hint => hiff.mpr fun hsome => ?_⟩
  have hsame : ∀ x ∈ req.numbers, x.wrapped = x.whole := by
    intro x hx
    have hmem : x.wrapped ∈ (req.map Numeric.wrapped).numbers :=
      req.numbers_map ▸ List.mem_map_of_mem hx
    obtain ⟨i, rfl⟩ := hint x hx
    exact Integer.cut_long_of_nonneg (numbers_within hsome _ hmem).1
  rwa [map_congr hsame] at hsome

/-- `new int[18446744073709551617m]` -/
def hugeArray : Request Numeric :=
  .allocation "int" (.decimal { Decimal.one with mantissa := 2 ^ 64 + 1, mantissa_lt := by decide })

/-- The length is 1 after the cut, so an array of one element is made, where the length is beyond the
greatest one. -/
theorem hugeArray_not_refused :
    let s := Session.start {} {}
    let env := Session.environment 0 s
    hugeArray.Named ∧ hugeArray.extent ≤ IntKind.long.greatest ∧
    (hugeArray.map Numeric.whole).result? env s = none ∧
    ((hugeArray.map Numeric.value).perform env) s = some (.ok (.array [.ofInt 0]), s) ∧
    ¬ ((hugeArray.map Numeric.value).perform env).Answers s
      ((hugeArray.map Numeric.whole).result? env s) := by
  intro s env
  have hextent : hugeArray.extent ≤ IntKind.long.greatest := by decide
  have hwhole : (hugeArray.map Numeric.whole).result? env s = none := rfl
  have hwrapped : (hugeArray.map Numeric.wrapped).result? env s = some (.array [.ofInt 0]) := rfl
  refine ⟨trivial, hextent, hwhole, ?made, fun h => ?refused⟩
  case made =>
    have hanswer := answers_wrapped env s hugeArray trivial
    rwa [hwrapped] at hanswer
  case refused =>
    have hsome := (answered_iff env s hugeArray trivial hextent).1.mp h
    rw [hwhole, hwrapped] at hsome
    cases hsome rfl

end Request

end ActionTree
