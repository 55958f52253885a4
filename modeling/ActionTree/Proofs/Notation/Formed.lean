import ActionTree.Proofs.Notation.Spelling

/-!
# What the grammar yields

Not every tree can be written: a variable needs a name, and a member below a variable is part of its path.
Every tree that is read is one of those that can.
-/

namespace ActionTree

open Notation Notation.Parser

/-! ## Trees that can be written -/

namespace Notation

/-- Words at the start of an operand that name nothing. -/
def reserved : List String := ["true", "false", "null", "new"]

/-- A name at the start of an operand. -/
def IsPlainName (s : String) : Prop := IsName s ∧ s ∉ reserved

/-- One or more names with dots between them. -/
def IsDotted (s : String) : Prop :=
  ∃ head parts, (∀ n ∈ head :: parts, IsName n) ∧ s = ".".intercalate (head :: parts)

theorem IsName.isDotted {s : String} (h : IsName s) : IsDotted s :=
  ⟨s, [], by simpa using h, String.intercalate_singleton.symm⟩

theorem IsDotted.dot {s n : String} (hs : IsDotted s) (hn : IsName n) : IsDotted (s ++ "." ++ n) := by
  obtain ⟨head, parts, hnames, rfl⟩ := hs
  refine ⟨head, parts ++ [n], ?_, ?_⟩
  · intro m hm
    rw [← List.cons_append, List.mem_append, List.mem_singleton] at hm
    exact hm.elim (hnames m) fun h => h ▸ hn
  · rw [← List.cons_append, String.intercalate_append_of_ne_nil (by simp) (by simp),
      String.intercalate_singleton]

/-- A first part without dots is cut off at the dot after it. -/
theorem nameParts_dot {cs : List Char} (h : '.' ∉ cs) (rest : List Char) :
    nameParts (cs ++ '.' :: rest) = cs :: nameParts rest := by
  induction cs with
  | nil => rfl
  | cons c cs ih =>
    rw [List.mem_cons, not_or] at h
    simp [nameParts, Ne.symm h.1, ih h.2]

theorem nameParts_of_not_mem {cs : List Char} (h : '.' ∉ cs) : nameParts cs = [cs] := by
  induction cs with
  | nil => rfl
  | cons c cs ih =>
    rw [List.mem_cons, not_or] at h
    simp [nameParts, Ne.symm h.1, ih h.2]

theorem IsName.dot_not_mem {s : String} (h : IsName s) : '.' ∉ s.toList :=
  fun hdot => absurd (h.2 _ hdot) (by decide)

theorem nameParts_intercalate {head : String} {parts : List String}
    (h : ∀ n ∈ head :: parts, IsName n) :
    nameParts (".".intercalate (head :: parts)).toList = (head :: parts).map String.toList := by
  induction parts generalizing head with
  | nil =>
    rw [String.intercalate_singleton, nameParts_of_not_mem (h head List.mem_cons_self).dot_not_mem]
    rfl
  | cons part parts ih =>
    have hrest := ih fun n hn => h n (List.mem_cons_of_mem head hn)
    rw [String.intercalate_cons_cons, String.toList_append, String.toList_append, List.append_assoc]
    rw [List.map_cons, ← hrest]
    exact nameParts_dot (h head List.mem_cons_self).dot_not_mem _

/-- A name with dots is written as its parts. -/
theorem IsDotted.dottedName {s : String} (h : IsDotted s) (first : String → Token) :
    ∃ head parts, (∀ n ∈ head :: parts, IsName n) ∧ s = ".".intercalate (head :: parts) ∧
      dottedName first s = first head :: dotted parts := by
  obtain ⟨head, parts, hnames, rfl⟩ := h
  refine ⟨head, parts, hnames, rfl, ?_⟩
  rw [Notation.dottedName, nameParts_intercalate hnames]
  simp

/-- An assignment has no operator, or one that has a symbol. -/
def IsAssignOp (op : Option BinaryOp) : Prop := assignOp? (.symbol (assignSymbol op)) = some op

end Notation

/-- The trees that can be written, with literals that satisfy `P`. -/
inductive Expr.Formed (P : Value → Prop) : Expr → Prop where
  | literal {v : Value} : P v → Formed P (.literal v)
  | var {name : String} : IsName name → Formed P (.var name)
  | path {head m : String} {members : List String} : IsName head →
      (∀ n ∈ m :: members, IsName n) → Formed P (.path head (m :: members))
  | assign {name : String} {op : Option BinaryOp} {e : Expr} : IsDotted name → IsAssignOp op →
      Formed P e → Formed P (.assign name op e)
  | unary (op : UnaryOp) {e : Expr} : Formed P e → Formed P (.unary op e)
  | joined (c : Connective) {l r : Expr} : Formed P l → Formed P r → Formed P (c.apply l r)
  | coalesce {l r : Expr} : Formed P l → Formed P r → Formed P (.coalesce l r)
  | ternary {c t e : Expr} : Formed P c → Formed P t → Formed P e → Formed P (.ternary c t e)
  | cast {type : String} (isArray : Bool) {e : Expr} : IsDotted type → Formed P e →
      Formed P (.cast type isArray e)
  | index {target position : Expr} : Formed P target → Formed P position →
      Formed P (.index target position)
  /-- A member of anything but a variable or a path. -/
  | member {target : Expr} {name : String} : memberOf target name = .member target name →
      Formed P target → IsName name → Formed P (.member target name)
  | method {target : Expr} {name : String} {args : List Expr} : Formed P target → IsName name →
      (∀ a ∈ args, Formed P a) → Formed P (.method target name args)
  | call {name : String} {args : List Expr} : IsPlainName name → (∀ a ∈ args, Formed P a) →
      Formed P (.call name args)
  | property {type name : String} : IsPlainName type → IsName name → Formed P (.property type name)
  | staticCall {type name : String} {args : List Expr} : IsPlainName type → IsName name →
      (∀ a ∈ args, Formed P a) → Formed P (.staticCall type name args)
  | array {element : Option String} {items : List Expr} : (∀ type ∈ element, IsDotted type) →
      (∀ a ∈ items, Formed P a) → Formed P (.array element items)
  | newArray {element : String} {length : Expr} : IsDotted element → Formed P length →
      Formed P (.newArray element length)

mutual

/-- The literals of an expression, from left to right. -/
def Expr.literals : Expr → List Value
  | .literal v => [v]
  | .var _ | .path .. | .property .. => []
  | .assign _ _ e | .unary _ e | .cast _ _ e | .member e _ | .newArray _ e => e.literals
  | .binary _ l r | .and l r | .or l r | .coalesce l r | .index l r => l.literals ++ r.literals
  | .ternary c t e => c.literals ++ t.literals ++ e.literals
  | .method target _ args => target.literals ++ Expr.literalsAll args
  | .call _ args | .staticCall _ _ args | .array _ args => Expr.literalsAll args
  | .multi segments => Segment.literalsAll segments

def Expr.literalsAll : List Expr → List Value
  | [] => []
  | e :: rest => e.literals ++ Expr.literalsAll rest

def Segment.literals : Segment → List Value
  | .name _ | .empty => []
  | .expr e | .fallback e => e.literals

def Segment.literalsAll : List Segment → List Value
  | [] => []
  | s :: rest => s.literals ++ Segment.literalsAll rest

end

theorem Expr.mem_literalsAll {v : Value} {es : List Expr} :
    v ∈ Expr.literalsAll es ↔ ∃ e ∈ es, v ∈ e.literals := by
  induction es with
  | nil => simp [Expr.literalsAll]
  | cons e es ih => simp [Expr.literalsAll, ih]

theorem Expr.literals_apply (c : Connective) (l r : Expr) :
    (c.apply l r).literals = l.literals ++ r.literals := by
  cases c <;> simp [Connective.apply, Expr.literals]

/-- What all literals of a tree satisfy can be asked of them. -/
theorem Expr.Formed.of_literals {P Q : Value → Prop} {e : Expr} (h : e.Formed P)
    (hQ : ∀ v ∈ e.literals, Q v) : e.Formed fun v => P v ∧ Q v := by
  have hall {args : List Expr}
      (ih : ∀ a ∈ args, (∀ v ∈ a.literals, Q v) → a.Formed fun v => P v ∧ Q v)
      (hQ : ∀ v ∈ Expr.literalsAll args, Q v) : ∀ a ∈ args, a.Formed fun v => P v ∧ Q v :=
    fun a ha => ih a ha fun v hv => hQ v (Expr.mem_literalsAll.mpr ⟨a, ha, hv⟩)
  induction h with
    simp only [Expr.literals, Expr.literals_apply, List.forall_mem_append,
      List.forall_mem_singleton] at hQ
  | literal hv => exact .literal ⟨hv, hQ⟩
  | var hname => exact .var hname
  | path hhead hmembers => exact .path hhead hmembers
  | assign hname hop _ ih => exact .assign hname hop (ih hQ)
  | unary op _ ih => exact .unary op (ih hQ)
  | joined c _ _ ihl ihr => exact .joined c (ihl hQ.1) (ihr hQ.2)
  | coalesce _ _ ihl ihr => exact .coalesce (ihl hQ.1) (ihr hQ.2)
  | ternary _ _ _ ihc iht ihe => exact .ternary (ihc hQ.1.1) (iht hQ.1.2) (ihe hQ.2)
  | cast isArray htype _ ih => exact .cast isArray htype (ih hQ)
  | index _ _ iht ihp => exact .index (iht hQ.1) (ihp hQ.2)
  | member hmember _ hname ih => exact .member hmember (ih hQ) hname
  | method _ hname _ iht iha => exact .method (iht hQ.1) hname (hall iha hQ.2)
  | call hname _ ih => exact .call hname (hall ih hQ)
  | property htype hname => exact .property htype hname
  | staticCall htype hname _ ih => exact .staticCall htype hname (hall ih hQ)
  | array htype _ ih => exact .array htype (hall ih hQ)
  | newArray htype _ ih => exact .newArray htype (ih hQ)

/-! ## Tokens that are read -/

namespace Notation

theorem exists_of_bind_ok {α β : Type} {x : Read α} {f : α → Read β} {b : β} (h : x.bind f = .ok b) :
    ∃ a, x = .ok a ∧ f a = .ok b := by
  cases x with
  | error e => cases h
  | ok a => exact ⟨a, rfl, h⟩

theorem exists_of_map_ok {α β : Type} {x : Read α} {f : α → β} {b : β} (h : x.map f = .ok b) :
    ∃ a, x = .ok a ∧ f a = b := by
  cases x with
  | error e => cases h
  | ok a => exact ⟨a, rfl, Except.ok.inj h⟩

/-- If it is an integer, it is one that a literal can have. -/
def IsReadable (v : Value) : Prop := ∀ i, v = .int i → IsLiteral i

theorem isLiteral_of_firstOf? {types : List IntKind} {n : Int} {i : Integer}
    (hi : Integer.firstOf? types n = some i) : i.kind ∈ types ∧ i.val = n := by
  induction types with
  | nil => simp [Integer.firstOf?] at hi
  | cons k types ih =>
    rw [Integer.firstOf?, Integer.ofInt?] at hi
    split at hi
    · obtain rfl := Option.some.inj hi
      exact ⟨List.mem_cons_self, rfl⟩
    · exact (ih hi).imp_left (List.mem_cons_of_mem k)

theorem isReadable_integerValue {n : Nat} {suffix : String} {v : Value}
    (h : integerValue n suffix = .ok v) : IsReadable v := by
  rintro i rfl
  unfold integerValue at h
  split at h
  · cases h
  split at h
  next types htypes =>
    split at h
    next j hj =>
      cases h
      obtain ⟨hkind, hval⟩ := isLiteral_of_firstOf? hj
      refine ⟨?_, by omega⟩
      unfold integerTypes? at htypes
      split at htypes <;> simp_all <;> grind
    next => cases h
  next =>
    split at h
    · cases h
    · cases h
    · split at h <;> cases h
    · cases h

theorem isReadable_realValue {negative : Bool} {base exponent : List Char} {suffix : String} {v : Value}
    (h : realValue negative base exponent suffix = .ok v) : IsReadable v := by
  rintro i rfl
  simp only [realValue] at h
  generalize (if negative = true then '-' :: base else base) = digits at h
  split at h
  case h_5 | h_6 | h_7 | h_8 | h_9 => cases h
  all_goals split at h <;> cases h

theorem isReadable_value {body : NumberBody} {suffix : String} {v : Value}
    (h : body.value false suffix = .ok v) : IsReadable v := by
  cases body with
  | whole radix digits => exact isReadable_integerValue h
  | real base exponent => exact isReadable_realValue h

/-- No sign is part of a number at whose front a token starts. -/
theorem isReadable_number {cs rest : List Char} {v : Value} (hstart : startsNumber cs = true)
    (h : number cs = .ok (some (v, rest))) : IsReadable v := by
  obtain ⟨c, cs, rfl⟩ : ∃ c cs', cs = c :: cs' := by
    cases cs with
    | nil => simp [startsNumber] at hstart
    | cons c cs => exact ⟨c, cs, rfl⟩
  have hminus : c ≠ '-' := by rintro rfl; simp [startsNumber] at hstart
  have hplus : c ≠ '+' := by rintro rfl; simp [startsNumber] at hstart
  simp only [number] at h
  split at h
  next => cases h
  next => cases h
  next body _ hbody =>
    split at h
    next => cases h
    split at h
    next w hw =>
      cases h
      exact isReadable_value (by simpa [hminus, hplus] using hw)
    next => cases h

/-- What is known of a token that is read. -/
def Token.IsSound : Token → Prop
  | number v => IsReadable v
  | ident name | var name => IsName name
  | _ => True

theorem isName_name {c : Char} {cs : List Char} (h : isNameStart c = true) :
    IsName (name (c :: cs)).1 := by
  have hc := isNameChar_of_isNameStart h
  refine ⟨?_, ?_⟩
  · simp [name, hc, h]
  · intro d hd
    simp only [name, String.toList_ofList] at hd
    exact List.all_eq_true.mp List.all_takeWhile d hd

theorem isSound_tokenHere {cs rest : List Char} {t : Token} (h : tokenHere cs = .ok (t, rest)) :
    t.IsSound := by
  unfold tokenHere at h
  split at h
  · cases h
    trivial
  next c cs =>
    split at h
    next hstart =>
      obtain ⟨r, hnumber, h⟩ := exists_of_bind_ok h
      split at h
      next => cases h; exact isReadable_number hstart hnumber
      next => cases h
    split at h
    next hstart =>
      cases h
      exact isName_name hstart
    split at h
    next =>
      obtain ⟨r, -, hr⟩ := exists_of_map_ok h
      cases hr
      trivial
    split at h
    next =>
      split at h
      next hstart =>
        cases h
        cases cs with
        | nil => simp at hstart
        | cons d cs => exact isName_name (by simpa using hstart)
      next => cases h
    split at h
    next =>
      cases h
      trivial
    next => cases h

theorem isSound_token {cs rest : List Char} {t : Token} (h : token cs = .ok (t, rest)) : t.IsSound :=
  isSound_tokenHere h

/-! ## Results of the grammar -/

namespace Parser

variable {α β : Type} {P : α → Prop}

/-- All results of the parser satisfy the property. -/
def Yields (P : α → Prop) (x : Parser α) : Prop := ∀ cs a rest, x cs = .ok (a, rest) → P a

theorem Yields.pure {a : α} (h : P a) : Yields P (pure a) := by
  rintro cs b rest heq
  cases heq
  exact h

theorem Yields.bind {Q : β → Prop} {x : Parser α} {f : α → Parser β} (hx : Yields P x)
    (hf : ∀ a, P a → Yields Q (f a)) : Yields Q (x >>= f) := by
  intro cs b rest h
  obtain ⟨⟨a, cs'⟩, hxa, hfa⟩ := exists_of_bind_ok h
  exact hf a (hx cs a cs' hxa) cs' b rest hfa

/-- What a parser passes over matters only to what follows. -/
theorem Yields.after {x : Parser β} {f : β → Parser α} (hf : ∀ b, Yields P (f b)) :
    Yields P (x >>= f) :=
  Yields.bind (P := fun _ => True) (fun _ _ _ _ => trivial) fun b _ => hf b

theorem yields_unexpected (what : String) : Yields P (unexpected what) :=
  .after fun _ => .after fun _ _ _ _ h => by cases h

theorem yields_peek : Yields Token.IsSound peek := by
  intro cs t rest h
  obtain ⟨⟨u, r⟩, htoken, heq⟩ := exists_of_map_ok h
  cases heq
  exact isSound_token htoken

theorem yields_expectName : Yields IsName expectName := by
  refine .bind yields_peek fun t ht => ?_
  split
  · exact .after fun _ => .pure ht
  · exact yields_unexpected _

theorem yields_typeNameRest {name : String} (n : Nat) (h : IsDotted name) :
    Yields IsDotted (typeNameRest n name) := by
  induction n generalizing name with
  | zero => exact .pure h
  | succ n ih =>
    refine .after fun passed => ?_
    split
    · exact .bind yields_expectName fun part hpart => ih (h.dot hpart)
    · exact .pure h

theorem yields_typeName : Yields IsDotted typeName :=
  .bind yields_expectName fun _ h => .after fun _ => yields_typeNameRest _ h.isDotted

/-- The expressions that are read. -/
abbrev IsFormed (e : Expr) : Prop := e.Formed IsReadable

section Grammar

variable {again : Again} (hagain : ∀ entry barEnds, Yields IsFormed (again entry barEnds))

include hagain

theorem yields_itemsRest (close : Symbol) (n : Nat) :
    Yields (fun es => ∀ e ∈ es, IsFormed e) (itemsRest again close n) := by
  induction n with
  | zero => exact yields_unexpected _
  | succ n ih =>
    refine .bind (hagain _ _) fun e he => .after fun passed => ?_
    split
    · exact .bind ih fun es hes => .pure (List.forall_mem_cons.mpr ⟨he, hes⟩)
    · exact .after fun _ => .pure (List.forall_mem_singleton.mpr he)

theorem yields_items (close : Symbol) :
    Yields (fun es => ∀ e ∈ es, IsFormed e) (items again close) := by
  refine .after fun passed => ?_
  split
  · exact .pure (by simp)
  · exact .after fun _ => yields_itemsRest hagain close _

theorem yields_arguments : Yields (fun es => ∀ e ∈ es, IsFormed e) (arguments again) :=
  .after fun _ => yields_items hagain .rParen

theorem yields_newArray : Yields IsFormed (newArray again) := by
  have hrest (element : Option String) (helement : ∀ type ∈ element, IsDotted type) {sized : Parser Expr}
      (hsized : Yields IsFormed sized) : Yields IsFormed (do
        expect .lBracket
        if ← eat .rBracket then
          expect .lBrace
          return .array element (← items again .rBrace)
        sized) := by
    refine .after fun _ => .after fun passed => ?_
    split
    · exact .after fun _ => .bind (yields_items hagain _) fun es hes => .pure (.array helement hes)
    · exact hsized
  refine .after fun t => ?_
  split
  · refine .bind (P := (· = none)) (.pure rfl) ?_
    rintro _ rfl
    exact hrest none (by simp) (yields_unexpected _)
  · refine .bind (P := fun element => ∃ type, element = some type ∧ IsDotted type)
      (.bind yields_typeName fun type htype => .pure ⟨type, rfl, htype⟩) ?_
    rintro _ ⟨type, rfl, htype⟩
    refine hrest (some type) (by simpa using htype) ?_
    exact .bind (hagain _ _) fun e he => .after fun _ => .pure (.newArray htype he)
  · exact .bind (P := fun _ => False) (yields_unexpected _) fun _ => False.elim

theorem yields_named {name : String} (hname : IsName name) : Yields IsFormed (named again name) := by
  unfold named
  split
  · exact .pure (.literal (by rintro i ⟨⟩))
  · exact .pure (.literal (by rintro i ⟨⟩))
  · exact .pure (.literal (by rintro i ⟨⟩))
  · exact yields_newArray hagain
  next htrue hfalse hnull hnew =>
    have hplain : IsPlainName name := ⟨hname, by simpa [reserved] using ⟨htrue, hfalse, hnull, hnew⟩⟩
    refine .after fun t => ?_
    split
    · exact .bind (yields_arguments hagain) fun args hargs => .pure (.call hplain hargs)
    · refine .after fun _ => .bind yields_expectName fun member hmember => .after fun t => ?_
      split
      · exact .bind (yields_arguments hagain) fun args hargs => .pure (.staticCall hplain hmember hargs)
      · exact .pure (.property hplain hmember)
    · exact .pure (.var hname)

omit hagain in
/-- The word that is passed is the one that was looked at. -/
theorem primary_eq : primary again = (do
    match ← peek with
    | .symbol .lParen =>
      let _ ← next
      let e ← again .assignment false
      expect .rParen
      return e
    | .symbol .lBrace =>
      let _ ← next
      return .array none (← items again .rBrace)
    | .number v =>
      let _ ← next
      return .literal v
    | .string s =>
      let _ ← next
      return .literal (.str s)
    | .var name =>
      let _ ← next
      return .var name
    | .ident name =>
      let _ ← next
      named again name
    | _ => unexpected "an operand") := by
  funext cs
  cases htoken : token cs with
  | error e => simp [primary, here, peek, htoken, bind, StateT.bind, Except.bind, Except.map]
  | ok r =>
    obtain ⟨t, rest⟩ := r
    cases t with
    | symbol s =>
      cases s <;> simp [primary, here, peek, htoken, bind, StateT.bind, Except.bind, Except.map]
    | _ => simp [primary, word, here, peek, next, htoken, bind, StateT.bind, Except.bind, Except.map]

theorem yields_primary : Yields IsFormed (primary again) := by
  rw [primary_eq]
  refine .bind yields_peek fun t ht => ?_
  split
  · exact .after fun _ => .bind (hagain _ _) fun e he => .after fun _ => .pure he
  · exact .after fun _ => .bind (yields_items hagain _) fun es hes => .pure (.array (by simp) hes)
  · exact .after fun _ => .pure (.literal ht)
  · exact .after fun _ => .pure (.literal (by rintro i ⟨⟩))
  · exact .after fun _ => .pure (.var ht)
  · exact .after fun _ => yields_named hagain ht
  · exact yields_unexpected _

omit hagain in
theorem isFormed_memberOf {e : Expr} {name : String} (he : IsFormed e) (hname : IsName name) :
    IsFormed (memberOf e name) := by
  have hformed := he
  cases he with
  | var hhead => exact .path hhead (by simpa using hname)
  | path hhead hmembers =>
    refine .path hhead fun n hn => ?_
    simp only [List.append_eq, List.mem_cons, List.mem_append, List.not_mem_nil, or_false,
      ← or_assoc] at hn
    exact hn.elim (fun h => hmembers n (List.mem_cons.mpr h)) fun h => h ▸ hname
  | joined c => cases c <;> exact .member rfl hformed hname
  | _ => exact .member rfl hformed hname

theorem yields_suffixes (n : Nat) {e : Expr} (he : IsFormed e) :
    Yields IsFormed (suffixes again n e) := by
  induction n generalizing e with
  | zero => exact .pure he
  | succ n ih =>
    refine .after fun dot => ?_
    split
    · refine .bind yields_expectName fun name hname => .after fun t => ?_
      split
      · exact .bind (yields_arguments hagain) fun args hargs => ih (.method he hname hargs)
      · exact ih (isFormed_memberOf he hname)
    · refine .after fun bracket => ?_
      split
      · exact .bind (hagain _ _) fun position hposition => .after fun _ => ih (.index he hposition)
      · exact .pure he

theorem yields_operand : Yields IsFormed (operand again) :=
  .bind (yields_primary hagain) fun _ he => .after fun _ => yields_suffixes hagain _ he

omit hagain in
theorem yields_castType? : Yields (fun r => ∀ type isArray, r = some (type, isArray) → IsDotted type)
    castType? := by
  refine .after fun t => ?_
  split
  · refine .bind yields_typeName fun type htype => .after fun bracket => ?_
    have hrest (isArray : Bool) :
        Yields (fun r => ∀ type' isArray', r = some (type', isArray') → IsDotted type') (do
          if bracket && !isArray then return none
          if ← eat .rParen then return some (type, isArray)
          if isArray then unexpected "')' after array cast type"
          return none) := by
      split
      · exact .pure (by simp)
      refine .after fun closed => ?_
      split
      · exact .pure (by rintro _ _ ⟨⟩; exact htype)
      dsimp only
      split
      · exact .after fun _ => .pure (by simp)
      · exact .pure (by simp)
    dsimp only
    split
    · exact .after hrest
    · exact .after hrest
  · exact .pure (by simp)

theorem yields_cast? (barEnds : Bool) :
    Yields (fun r => ∀ e, r = some e → IsFormed e) (cast? again barEnds) := by
  refine .after fun start => .after fun _ => .bind yields_castType? fun r hr => ?_
  split
  · exact .after fun _ => .pure (by simp)
  next type isArray =>
    refine .after fun t => ?_
    split
    · refine .bind (hagain _ _) fun e he => .pure ?_
      rintro _ ⟨⟩
      exact .cast isArray (hr _ _ rfl) he
    dsimp only
    split
    · exact .after fun _ => .after fun _ => .pure (by simp)
    · exact .after fun _ => .pure (by simp)

theorem yields_unary (barEnds : Bool) : Yields IsFormed (unary again barEnds) := by
  refine .after fun t => ?_
  split
  · refine .bind (yields_cast? hagain barEnds) fun r hr => ?_
    split
    · exact .pure (hr _ rfl)
    · exact yields_operand hagain
  · split
    · exact .after fun _ => .bind (hagain _ _) fun e he => .pure (.unary _ he)
    · exact yields_operand hagain
  · exact yields_operand hagain

omit hagain in
theorem yields_joined {ops : List (Symbol × Connective)} {operand : Parser Expr}
    (hoperand : Yields IsFormed operand) (n : Nat) {left : Expr} (hleft : IsFormed left) :
    Yields IsFormed (joined ops operand n left) := by
  induction n generalizing left with
  | zero => exact .pure hleft
  | succ n ih =>
    refine .after fun c => ?_
    split
    next c => exact .bind hoperand fun right hright => ih (.joined c hleft hright)
    · exact .pure hleft

omit hagain in
theorem yields_leveled {operand : Parser Expr} (hoperand : Yields IsFormed operand)
    (levels : List (List (Symbol × Connective))) : Yields IsFormed (leveled operand levels) := by
  induction levels with
  | nil => exact hoperand
  | cons ops tighter ih =>
    exact .bind ih fun left hleft => .after fun _ => yields_joined ih _ hleft

theorem yields_coalesce (barEnds : Bool) : Yields IsFormed (coalesce again barEnds) := by
  refine .bind (yields_leveled (yields_unary hagain barEnds) _) fun l hl => .after fun passed => ?_
  split
  · exact .bind (hagain _ _) fun r hr => .pure (.coalesce hl hr)
  · exact .pure hl

theorem yields_ternary (barEnds : Bool) : Yields IsFormed (ternary again barEnds) := by
  refine .bind (yields_coalesce hagain barEnds) fun c hc => .after fun passed => ?_
  split
  · exact .bind (hagain _ _) fun t ht => .after fun _ =>
      .bind (hagain _ _) fun e he => .pure (.ternary hc ht he)
  · exact .pure hc

omit hagain in
theorem isDotted_target? {e : Expr} {name : String} (he : IsFormed e) (h : target? e = some name) :
    IsDotted name := by
  cases he with
  | var hhead =>
    cases h
    exact hhead.isDotted
  | path hhead hmembers =>
    cases h
    exact ⟨_, _, List.forall_mem_cons.mpr ⟨hhead, hmembers⟩, rfl⟩
  | joined c => cases c <;> cases h
  | _ => cases h

omit hagain in
theorem isAssignOp_of_assignOp? {t : Token} {op : Option BinaryOp} (h : assignOp? t = some op) :
    IsAssignOp op := by
  unfold assignOp? at h
  split at h <;> cases h <;> rfl

theorem yields_assignment (barEnds : Bool) : Yields IsFormed (assignment again barEnds) := by
  refine .after fun start => .bind (yields_ternary hagain barEnds) fun l hl => .after fun t => ?_
  split
  · exact .pure hl
  next op hop =>
    split
    · exact fun _ _ _ h => by cases h
    next name hname =>
      exact .after fun _ => .bind (hagain _ _) fun e he =>
        .pure (.assign (isDotted_target? hl hname) (isAssignOp_of_assignOp? hop) he)

end Grammar

theorem yields_enter (n : Nat) (entry : Entry) (barEnds : Bool) :
    Yields IsFormed (enter n entry barEnds) := by
  induction n generalizing entry barEnds with
  | zero => exact yields_unexpected _
  | succ n ih =>
    cases entry with
    | assignment => exact yields_assignment ih barEnds
    | ternary => exact yields_ternary ih barEnds
    | coalesce => exact yields_coalesce ih barEnds
    | unary => exact yields_unary ih barEnds

theorem yields_expression (barEnds : Bool) : Yields IsFormed (expression barEnds) :=
  .after fun _ => yields_enter _ _ _

end Parser

theorem parseExpr_eq_ok_iff {text : String} {e : Expr} : parseExpr text = .ok e ↔
    ∃ rest, (do
      let e ← Parser.expression false
      Parser.expectEnd
      return e : Parser Expr) text.toList = .ok (e, rest) := by
  unfold parseExpr
  dsimp only
  generalize (do
      let e ← Parser.expression false
      Parser.expectEnd
      return e : Parser Expr) text.toList = result
  cases result with
  | error fault => simp
  | ok r => simp [Prod.ext_iff]

/-- Every expression that is read can be written. -/
theorem isFormed_of_parseExpr {text : String} {e : Expr} (h : parseExpr text = .ok e) :
    Parser.IsFormed e := by
  have hwhole : Parser.Yields Parser.IsFormed (do
      let e ← Parser.expression false
      Parser.expectEnd
      return e) :=
    .bind (Parser.yields_expression false) fun e he => .after fun _ => .pure he
  obtain ⟨rest, hrest⟩ := parseExpr_eq_ok_iff.mp h
  exact hwhole _ _ _ hrest

end Notation

end ActionTree
