import Simard.Library.Json
import Simard.Library.BTreeSet

/-! Typed JSON codecs. A codec carries the law that a written value reads back,
so the written form determines the value. Records are objects read by field
name; enumerations carry their variant in a `kind` member. -/
namespace Simard.Library

class Serde (α : Type) where
  toJson : α → Json
  fromJson : Json → Option α
  fromJson_toJson : ∀ a, fromJson (toJson a) = some a

export Serde (toJson fromJson)

attribute [simp] Serde.fromJson_toJson

theorem toJson_injective [Serde α] : Function.Injective (toJson : α → Json) := by
  intro a b h
  have hread := congrArg (fromJson (α := α)) h
  simpa using hread

/-- Types never written as `null`, so that `null` can stand for an absent value. -/
class Serde.Present (α : Type) [Serde α] : Prop where
  toJson_ne_null : ∀ a : α, toJson a ≠ Json.null

namespace Json

def field (name : String) : Json → Option Json
  | .obj fields => fields.lookup name
  | _ => none

def get [Serde α] (document : Json) (name : String) : Option α :=
  (document.field name).bind fromJson

def getOption [Serde (Option α)] (document : Json) (name : String) : Option (Option α) :=
  match document.field name with
  | none => some none
  | some value => fromJson value

theorem field_cons_self (name : String) (value : Json) (rest : List (String × Json)) :
    field name (.obj ((name, value) :: rest)) = some value := by
  simp [field]

theorem field_cons_ne {name other : String} (value : Json) (rest : List (String × Json))
    (h : name ≠ other) : field name (.obj ((other, value) :: rest)) = field name (.obj rest) := by
  have hne : (name == other) = false := beq_eq_false_iff_ne.mpr h
  simp only [field, List.lookup_cons, hne]

@[simp] theorem get_cons_self [Serde α] (name : String) (a : α) (rest : List (String × Json)) :
    get (.obj ((name, toJson a) :: rest)) name = some a := by
  simp [get, field_cons_self]

@[simp] theorem get_cons_ne [Serde α] {name other : String} (value : Json)
    (rest : List (String × Json)) (h : name ≠ other) :
    get (α := α) (.obj ((other, value) :: rest)) name = get (.obj rest) name := by
  simp [get, field_cons_ne value rest h]

@[simp] theorem getOption_cons_self [Serde (Option α)] (name : String) (a : Option α)
    (rest : List (String × Json)) :
    getOption (.obj ((name, toJson a) :: rest)) name = some a := by
  simp [getOption, field_cons_self]

@[simp] theorem getOption_cons_ne [Serde (Option α)] {name other : String} (value : Json)
    (rest : List (String × Json)) (h : name ≠ other) :
    getOption (α := α) (.obj ((other, value) :: rest)) name = getOption (.obj rest) name := by
  simp [getOption, field_cons_ne value rest h]

end Json

instance : Serde Json where
  toJson := id
  fromJson := some
  fromJson_toJson _ := rfl

instance : Serde Bool where
  toJson := .bool
  fromJson
    | .bool b => some b
    | _ => none
  fromJson_toJson _ := rfl

instance : Serde Int where
  toJson := .num
  fromJson
    | .num n => some n
    | _ => none
  fromJson_toJson _ := rfl

instance : Serde Nat where
  toJson n := .num n
  fromJson
    | .num (.ofNat n) => some n
    | _ => none
  fromJson_toJson _ := rfl

instance : Serde UInt8 where
  toJson byte := .num byte.toNat
  fromJson
    | .num (.ofNat n) => if n < 256 then some (UInt8.ofNat n) else none
    | _ => none
  fromJson_toJson byte := by
    change (if byte.toNat < 256 then some (UInt8.ofNat byte.toNat) else none) = some byte
    rw [if_pos byte.toNat_lt, UInt8.ofNat_toNat]

instance : Serde String where
  toJson := .str
  fromJson
    | .str s => some s
    | _ => none
  fromJson_toJson _ := rfl

@[simp] theorem Json.get_str (name value : String) (rest : List (String × Json)) :
    Json.get (.obj ((name, .str value) :: rest)) name = some value :=
  Json.get_cons_self name value rest

instance [Serde α] : Serde (List α) where
  toJson l := .arr (l.map toJson)
  fromJson
    | .arr items => items.mapM fromJson
    | _ => none
  fromJson_toJson l := by
    induction l with
    | nil => rfl
    | cons a rest ih => simp_all [List.mapM_cons]

instance [LinearOrder α] [Serde α] : Serde (BTreeSet α) where
  toJson s := toJson s.elems
  fromJson document := (fromJson document).map BTreeSet.ofList
  fromJson_toJson s := by simp

instance [Serde α] [Serde.Present α] : Serde (Option α) where
  toJson
    | none => .null
    | some a => toJson a
  fromJson
    | .null => some none
    | document => (fromJson document).map some
  fromJson_toJson a := by
    cases a with
    | none => rfl
    | some a =>
      have h := Serde.Present.toJson_ne_null a
      split <;> simp_all

/-- The payload of an enumeration's variant: a record whose members can follow a
`kind` member without being misread. -/
class Variant (α : Type) where
  fields : α → List (String × Json)
  read : Json → Option α
  read_fields : ∀ a, read (.obj (fields a)) = some a
  read_tagged : ∀ kind a, read (.obj (("kind", .str kind) :: fields a)) = some a

instance [Variant α] : Serde α where
  toJson a := .obj (Variant.fields a)
  fromJson := Variant.read
  fromJson_toJson := Variant.read_fields

def tagged [Variant α] (kind : String) (a : α) : Json :=
  .obj (("kind", .str kind) :: Variant.fields a)

def byKind (document : Json) (read : String → Option α) : Option α :=
  (document.get "kind").bind read

@[simp] theorem byKind_kind (kind : String) (rest : List (String × Json))
    (read : String → Option α) :
    byKind (.obj (("kind", .str kind) :: rest)) read = read kind := by
  simp [byKind]

@[simp] theorem byKind_tagged [Variant β] (kind : String) (b : β) (read : String → Option α) :
    byKind (tagged kind b) read = read kind :=
  byKind_kind kind _ read

@[simp] theorem read_tagged [Variant α] (kind : String) (a : α) :
    Variant.read (tagged kind a) = some a :=
  Variant.read_tagged kind a

instance : Serde.Present String := ⟨fun _ h => nomatch h⟩

instance : Serde.Present Int := ⟨fun _ h => nomatch h⟩

instance : Serde.Present Nat := ⟨fun _ h => nomatch h⟩

instance [Variant α] : Serde.Present α := ⟨fun _ h => nomatch h⟩

end Simard.Library
