import Mathlib.Data.Rat.Defs
import Mathlib.Data.String.Basic
import Mathlib.Data.List.Nodup
import Mathlib.Data.List.Perm.Basic

/-!
# JSON values

A JSON number is an integer or a float; the members of an object are kept in the order of their
keys, so that objects with the same members are equal.

* `Json.get`, `Json.asStr`, `Json.asU64`, `Json.asI64` — how a program looks at a value;
* `Json.ofMembers`, `Json.insert` — how it makes an object, member by member;
* `Json.mapFloats` — a change of every float of a value;
* `Json.Codec` — a printer and a parser that may read a float back as another one.
-/

/-- A JSON number. -/
inductive Json.Number where
  | posInt (n : ℕ)
  | negInt (n : ℤ)
  | float (x : ℚ)
  deriving DecidableEq

mutual

/-- A JSON value. -/
inductive Json where
  | null
  | bool (b : Bool)
  | number (n : Json.Number)
  | string (s : String)
  | array (items : Json.Items)
  | object (members : Json.Members)

/-- The items of an array. -/
inductive Json.Items where
  | nil
  | cons (item : Json) (rest : Json.Items)

/-- The members of an object. -/
inductive Json.Members where
  | nil
  | cons (key : String) (value : Json) (rest : Json.Members)

end

namespace Json

deriving instance DecidableEq for Json, Items, Members

/-! ### Members -/

namespace Members

/-- The value under a key. -/
def find? (k : String) : Members → Option Json
  | .nil => none
  | .cons key value rest => if k = key then some value else rest.find? k

/-- The members with `v` under the key `k`. -/
def insert (k : String) (v : Json) : Members → Members
  | .nil => .cons k v .nil
  | .cons key value rest =>
    if k = key then .cons k v rest
    else if k < key then .cons k v (.cons key value rest)
    else .cons key value (rest.insert k v)

theorem find?_insert_self (k : String) (v : Json) :
    ∀ members : Members, (members.insert k v).find? k = some v
  | .nil => by simp [insert, find?]
  | .cons key value rest => by
    by_cases hkey : k = key
    · simp [insert, find?, hkey]
    · by_cases hlt : k < key
      · simp [insert, find?, hkey, hlt]
      · simp [insert, find?, hkey, hlt, find?_insert_self k v rest]

theorem find?_insert_of_ne {k k' : String} (v : Json) (hne : k' ≠ k) :
    ∀ members : Members, (members.insert k v).find? k' = members.find? k'
  | .nil => by simp [insert, find?, hne]
  | .cons key value rest => by
    by_cases hkey : k = key
    · subst hkey
      simp [insert, find?, hne]
    · by_cases hlt : k < key
      · simp [insert, find?, hkey, hlt, hne]
      · simp [insert, find?, hkey, hlt, find?_insert_of_ne v hne rest]

/-- Members with different keys may be inserted in either order. -/
theorem insert_comm {k k' : String} (v v' : Json) (hne : k ≠ k') :
    ∀ members : Members,
      (members.insert k v).insert k' v' = (members.insert k' v').insert k v
  | .nil => by
    rcases lt_or_gt_of_ne hne with h | h <;> simp [insert, hne, hne.symm, h, not_lt_of_gt h]
  | .cons key value rest => by
    have ih := insert_comm v v' hne rest
    rcases lt_or_gt_of_ne hne with h | h <;> grind [insert]

end Members

/-- `value.get(key)`. -/
def get (k : String) : Json → Option Json
  | .object members => members.find? k
  | _ => none

/-- `value.as_str()`. -/
def asStr : Json → Option String
  | .string s => some s
  | _ => none

/-- `value.as_u64()`. -/
def asU64 : Json → Option ℕ
  | .number (.posInt n) => some n
  | _ => none

/-- `value.as_i64()`, for integers in its range. -/
def asI64 : Json → Option ℤ
  | .number (.posInt n) => some n
  | .number (.negInt n) => some n
  | _ => none

/-- The object with these members. -/
def ofMembers (members : List (String × Json)) : Json :=
  .object (members.foldl (fun acc m => acc.insert m.1 m.2) .nil)

/-- The last member with a key is the one that is found. -/
theorem get_ofMembers (k : String) (members : List (String × Json)) :
    (ofMembers members).get k = members.reverse.lookup k := by
  suffices h : ∀ ms : List (String × Json),
      (ms.foldr (fun m acc => acc.insert m.1 m.2) Members.nil).find? k = ms.lookup k by
    rw [← h, List.foldr_reverse]
    rfl
  intro ms
  induction ms with
  | nil => rfl
  | cons m rest ih =>
    rw [List.foldr_cons]
    obtain ⟨key, value⟩ := m
    by_cases hk : k = key
    · subst hk
      rw [Members.find?_insert_self, List.lookup_cons_self]
    · rw [Members.find?_insert_of_ne _ hk, ih, List.lookup_cons, beq_false_of_ne hk]

/-- Members with different keys may be listed in any order. -/
theorem ofMembers_perm {members members' : List (String × Json)} (h : members.Perm members')
    (hkeys : (members.map Prod.fst).Nodup) : ofMembers members = ofMembers members' := by
  refine congrArg object (h.foldl_eq' ?_ _)
  intro x hx y hy acc
  by_cases hkey : x.1 = y.1
  · rw [List.inj_on_of_nodup_map hkeys hx hy hkey]
  · exact Members.insert_comm x.2 y.2 hkey acc

/-- `value.as_object_mut()`, with a member inserted. -/
def insert (k : String) (v : Json) : Json → Option Json
  | .object members => some (.object (members.insert k v))
  | _ => none

/-! ### Floats -/

section Floats

variable (f : ℚ → ℚ)

mutual

/-- The value with `f` applied to each of its floats. -/
def mapFloats : Json → Json
  | .null => .null
  | .bool b => .bool b
  | .number (.posInt n) => .number (.posInt n)
  | .number (.negInt n) => .number (.negInt n)
  | .number (.float x) => .number (.float (f x))
  | .string s => .string s
  | .array items => .array (mapItems items)
  | .object members => .object (mapMembers members)

/-- The items with `f` applied to each of their floats. -/
def mapItems : Items → Items
  | .nil => .nil
  | .cons item rest => .cons (mapFloats item) (mapItems rest)

/-- The members with `f` applied to each of their floats. -/
def mapMembers : Members → Members
  | .nil => .nil
  | .cons key value rest => .cons key (mapFloats value) (mapMembers rest)

end

theorem find?_mapMembers (k : String) :
    ∀ members : Members, (mapMembers f members).find? k = (members.find? k).map (mapFloats f)
  | .nil => rfl
  | .cons key value rest => by
    by_cases hkey : k = key
    · simp [mapMembers, Members.find?, hkey]
    · simp [mapMembers, Members.find?, hkey, find?_mapMembers k rest]

theorem mapMembers_insert (k : String) (v : Json) :
    ∀ members : Members,
      mapMembers f (members.insert k v) = (mapMembers f members).insert k (v.mapFloats f)
  | .nil => rfl
  | .cons key value rest => by
    by_cases hkey : k = key
    · simp [mapMembers, Members.insert, hkey]
    · by_cases hlt : k < key
      · simp [mapMembers, Members.insert, hkey, hlt]
      · simp [mapMembers, Members.insert, hkey, hlt, mapMembers_insert k v rest]

/-- An object is changed member by member. -/
theorem mapFloats_ofMembers (members : List (String × Json)) :
    (ofMembers members).mapFloats f =
      ofMembers (members.map fun m => (m.1, m.2.mapFloats f)) := by
  suffices h : ∀ acc : Members,
      mapMembers f (members.foldl (fun acc m => acc.insert m.1 m.2) acc) =
        (members.map fun m => (m.1, m.2.mapFloats f)).foldl (fun acc m => acc.insert m.1 m.2)
          (mapMembers f acc) from congrArg object (h .nil)
  induction members with
  | nil => exact fun _ => rfl
  | cons m rest ih =>
    intro acc
    rw [List.foldl_cons, ih, mapMembers_insert]
    rfl

/-- A change of the floats does not move a member. -/
theorem get_mapFloats (k : String) (v : Json) :
    (v.mapFloats f).get k = (v.get k).map (mapFloats f) := by
  cases v with
  | object members => exact find?_mapMembers f k members
  | number n => cases n <;> rfl
  | _ => rfl

theorem asStr_mapFloats (v : Json) : (v.mapFloats f).asStr = v.asStr := by
  cases v with
  | number n => cases n <;> rfl
  | _ => rfl

theorem asU64_mapFloats (v : Json) : (v.mapFloats f).asU64 = v.asU64 := by
  cases v with
  | number n => cases n <;> rfl
  | _ => rfl

theorem asI64_mapFloats (v : Json) : (v.mapFloats f).asI64 = v.asI64 := by
  cases v with
  | number n => cases n <;> rfl
  | _ => rfl

end Floats

/-! ### Text -/

/-- A printer and a parser.  Printing is exact, while a float that is read back is `read` of the
float that was printed. -/
structure Codec where
  print : Json → String
  parse : String → Option Json
  read : ℚ → ℚ

/-- The parser reads back what was printed of `v`, with its floats as it reads them. -/
def Codec.ReadsBack (codec : Codec) (v : Json) : Prop :=
  codec.parse (codec.print v) = some (v.mapFloats codec.read)

end Json
