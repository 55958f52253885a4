import ActionTree.Convert
import ActionTree.Proofs.Number.Narrowing

/-!
# Conversion

What a conversion gives is a value of the type, and a value of the type is left as it is; so a second
conversion changes nothing. The typed readings of a value are its conversions, read through the one
variant that a conversion to the type can give.
-/

namespace ActionTree

/-- Is the value one of the type? Texts and arrays may be null, and everything is an object. -/
inductive Value.Inhabits : Value → ValueType → Prop where
  | object (v : Value) : Inhabits v .object
  | bool (b : Bool) : Inhabits (.bool b) .bool
  | char (c : Char) : Inhabits (.char c) .char
  | int (i : Integer) : Inhabits (.int i) (.int i.kind)
  | float (x : Float32) : Inhabits (.float x) .float
  | double (x : Float) : Inhabits (.double x) .double
  | decimal (d : Decimal) : Inhabits (.decimal d) .decimal
  | str (s : String) : Inhabits (.str s) .string
  | nullString : Inhabits .null .string
  | array {items : List Value} {element : ValueType} (h : ∀ item ∈ items, Inhabits item element) :
      Inhabits (.array items) (.array element)
  | nullArray (element : ValueType) : Inhabits .null (.array element)
  | enum (e : EnumValue) : Inhabits (.enum e) (.enum e.type)

namespace Convert

/-! ## Typed readings -/

/-- A conversion that reads every value but null, which becomes the default. -/
theorem convert_reading {α : Type} {type : ValueType} {default : α} {read : Value → Result α}
    {wrap : α → Value}
    (h : ∀ v, convert type v = if v.isNull then .ok (wrap default) else (read v).map wrap)
    (v : Value) : convert type v = (orDefault default read v).map wrap := by
  rw [h, orDefault]
  split <;> rfl

theorem convert_bool (v : Value) : convert .bool v = (asBool v).map .bool := by
  refine convert_reading (fun v => ?_) v
  cases v <;> rfl

theorem convert_char (v : Value) : convert .char v = (asChar v).map .char := by
  refine convert_reading (fun v => ?_) v
  cases v <;> rfl

theorem convert_int (k : IntKind) (v : Value) : convert (.int k) v = (asInteger k v).map .int := by
  refine convert_reading (fun v => ?_) v
  cases v <;> rfl

theorem convert_double (v : Value) : convert .double v = (asFloat v).map .double := by
  refine convert_reading (fun v => ?_) v
  cases v <;> rfl

theorem convert_decimal (v : Value) : convert .decimal v = (asDecimal v).map .decimal := by
  refine convert_reading (fun v => ?_) v
  cases v <;> rfl

theorem convert_enum (t : EnumType) (v : Value) :
    convert (.enum t) v = (orDefault ⟨t, .ofInt 0⟩ (toEnum t) v).map .enum := by
  refine convert_reading (fun v => ?_) v
  cases v <;> rfl

theorem convert_array (element : ValueType) (items : List Value) :
    convert (.array element) (.array items) =
      (items.mapM fun item => convert element item).map .array := rfl

theorem map_eq_ok {ε α β : Type} {f : α → β} {x : Except ε α} {b : β} (h : x.map f = .ok b) :
    ∃ a, x = .ok a ∧ f a = b := by
  cases x with
  | error e => cases h
  | ok a => exact ⟨a, rfl, Except.ok.inj h⟩

/-- What holds of the default and of everything that is read. -/
theorem of_orDefault {α : Type} {p : α → Prop} {default a : α} {read : Value → Result α} {v : Value}
    (hdefault : p default) (hread : ∀ a, read v = .ok a → p a)
    (h : orDefault default read v = .ok a) : p a := by
  rw [orDefault] at h
  split at h
  · exact Except.ok.inj h ▸ hdefault
  · exact hread a h

/-! ## What a conversion gives -/

theorem kind_of_ofInt? {k : IntKind} {n : Int} {i : Integer} (h : Integer.ofInt? k n = some i) :
    i.kind = k := by
  rw [Integer.ofInt?] at h
  split at h
  · rw [← Option.some.inj h]
  · cases h

theorem kind_of_toInteger {k : IntKind} {v : Value} {i : Integer} (h : toInteger k v = .ok i) :
    i.kind = k := by
  cases v with
  | str s =>
    rw [toInteger] at h
    split at h
    next j hj =>
      obtain ⟨n, -, hn⟩ := Option.bind_eq_some_iff.mp hj
      exact Except.ok.inj h ▸ kind_of_ofInt? hn
    next => cases h
  | bool | char | int | float | double | decimal | enum => exact Except.ok.inj h ▸ rfl
  | null | array | object => cases h

theorem kind_of_asInteger {k : IntKind} {v : Value} {i : Integer} (h : asInteger k v = .ok i) :
    i.kind = k :=
  of_orDefault (p := fun i => i.kind = k) rfl (fun _ => kind_of_toInteger) h

theorem type_of_toEnum {t : EnumType} {v : Value} {e : EnumValue} (h : toEnum t v = .ok e) :
    e.type = t := by
  cases v with
  | str s =>
    rw [toEnum] at h
    split at h
    next => exact Except.ok.inj h ▸ rfl
    next => cases h
  | int | enum => exact Except.ok.inj h ▸ rfl
  | _ => cases h

theorem type_of_orDefault {t : EnumType} {n : Long} {v : Value} {e : EnumValue}
    (h : orDefault ⟨t, n⟩ (toEnum t) v = .ok e) : e.type = t :=
  of_orDefault (p := fun e => e.type = t) rfl (fun _ => type_of_toEnum) h

/-- What holds of everything that is read holds of the elements that are read. -/
theorem forall_of_mapM {ε α β : Type} {f : α → Except ε β} {p : β → Prop}
    (hp : ∀ x y, f x = .ok y → p y) {xs : List α} {ys : List β} (h : xs.mapM f = .ok ys) :
    ∀ y ∈ ys, p y := by
  induction xs generalizing ys with
  | nil =>
    cases h
    intro y hy
    cases hy
  | cons x xs ih =>
    rw [List.mapM_cons] at h
    cases hx : f x with
    | error e =>
      rw [hx] at h
      cases h
    | ok y =>
      cases hxs : xs.mapM f with
      | error e =>
        rw [hx, hxs] at h
        cases h
      | ok rest =>
        rw [hx, hxs] at h
        obtain rfl : y :: rest = ys := Except.ok.inj h
        exact List.forall_mem_cons.mpr ⟨hp x y hx, ih hxs⟩

theorem mapM_of_fixed {ε α : Type} {f : α → Except ε α} {xs : List α} (h : ∀ x ∈ xs, f x = .ok x) :
    xs.mapM f = .ok xs := by
  induction xs with
  | nil => rfl
  | cons x xs ih =>
    obtain ⟨hx, hxs⟩ := List.forall_mem_cons.mp h
    rw [List.mapM_cons, hx, ih hxs]
    rfl

/-- What a conversion gives is a value of the type. -/
theorem inhabits_of_convert {type : ValueType} {v r : Value} (h : convert type v = .ok r) :
    r.Inhabits type := by
  induction type generalizing v r with
  | object => exact .object r
  | bool =>
    rw [convert_bool] at h
    obtain ⟨b, -, rfl⟩ := map_eq_ok h
    exact .bool b
  | char =>
    rw [convert_char] at h
    obtain ⟨c, -, rfl⟩ := map_eq_ok h
    exact .char c
  | int k =>
    rw [convert_int] at h
    obtain ⟨i, hi, rfl⟩ := map_eq_ok h
    exact kind_of_asInteger hi ▸ .int i
  | float =>
    cases v with
    | null => exact Except.ok.inj h ▸ .float 0
    | _ =>
      obtain ⟨x, -, rfl⟩ := map_eq_ok h
      exact .float _
  | double =>
    rw [convert_double] at h
    obtain ⟨x, -, rfl⟩ := map_eq_ok h
    exact .double x
  | decimal =>
    rw [convert_decimal] at h
    obtain ⟨d, -, rfl⟩ := map_eq_ok h
    exact .decimal d
  | string =>
    cases v with
    | null => exact Except.ok.inj h ▸ .nullString
    | _ => exact Except.ok.inj h ▸ .str _
  | array element ih =>
    cases v with
    | null => exact Except.ok.inj h ▸ .nullArray element
    | array items =>
      rw [convert_array] at h
      obtain ⟨rs, hrs, rfl⟩ := map_eq_ok h
      exact .array (forall_of_mapM (fun _ _ => ih) hrs)
    | _ => cases h
  | enum t =>
    rw [convert_enum] at h
    obtain ⟨e, he, rfl⟩ := map_eq_ok h
    exact type_of_orDefault he ▸ .enum e

/-! ## Values of the type -/

/-- A value of the type is left as it is. -/
theorem convert_of_inhabits {type : ValueType} {v : Value} (h : v.Inhabits type) :
    convert type v = .ok v := by
  induction h with
  | object | bool | char | decimal | str | nullString | nullArray | enum | double => rfl
  | int i =>
    rw [convert_int]
    exact congrArg (fun j => Except.ok (Value.int j)) i.ofInt_val
  | float x =>
    exact congrArg (fun y => Except.ok (Value.float y)) (Real64.narrow_widen x)
  | array hitems ih =>
    rw [convert_array, mapM_of_fixed ih]
    rfl

/-- A conversion gives a value of the type, which a second one leaves as it is, and a value of the
type is left as it is. The typed readings give exactly what the conversions give. -/
theorem convert_lands (type : ValueType) (v : Value) :
    (∀ r, convert type v = .ok r → r.Inhabits type ∧ convert type r = .ok r) ∧
      (v.Inhabits type → convert type v = .ok v) ∧
      convert .bool v = (asBool v).map .bool ∧
      convert .char v = (asChar v).map .char ∧
      (∀ k, convert (.int k) v = (asInteger k v).map .int) ∧
      convert .double v = (asFloat v).map .double ∧
      convert .decimal v = (asDecimal v).map .decimal :=
  ⟨fun _ h => ⟨inhabits_of_convert h, convert_of_inhabits (inhabits_of_convert h)⟩,
    convert_of_inhabits, convert_bool v, convert_char v, fun k => convert_int k v, convert_double v,
    convert_decimal v⟩

/-- Members by name, by number and of another enumeration, and nulls, in nested arrays. -/
theorem convert_lands_speeds :
    let speed : EnumType := ⟨"Speed", [("Slow", .ofInt 1), ("Fast", .ofInt 2)]⟩
    let level : EnumType := ⟨"Level", [("High", .ofInt 7)]⟩
    let given : Value :=
      .array [.array [.str " fast ", .ofInt 1, .enum ⟨level, .ofInt 7⟩, .null], .null]
    let result : Value :=
      .array [.array [.enum ⟨speed, .ofInt 2⟩, .enum ⟨speed, .ofInt 1⟩, .enum ⟨speed, .ofInt 7⟩,
        .enum ⟨speed, .ofInt 0⟩], .null]
    convert (.array (.array (.enum speed))) given = .ok result ∧
      result.Inhabits (.array (.array (.enum speed))) ∧
      convert (.array (.array (.enum speed))) result = .ok result := by
  intro speed level given result
  have hresult : convert (.array (.array (.enum speed))) given = .ok result := rfl
  exact ⟨hresult, (convert_lands _ given).1 result hresult⟩

end Convert

end ActionTree
