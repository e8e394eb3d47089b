/-!
# JSON values

Values that contracts return and payloads decode to. The library stores and compares them and
never looks inside; equality is decided by `Json.same`, which `Json.same_iff` ties to `=`.
-/
namespace ShardIndex

/-- A JSON value. The number `m` with `k` places is `m / 10 ^ k`. -/
inductive Json where
  | null
  | bool (value : Bool)
  | number (mantissa : Int) (places : Nat)
  | string (value : String)
  | array (items : List Json)
  | object (fields : List (String × Json))
deriving Repr, Inhabited

namespace Json

mutual

/-- Whether two values are the same. -/
def same : Json → Json → Bool
  | .null, .null => true
  | .bool a, .bool b => a == b
  | .number m k, .number n l => m == n && k == l
  | .string a, .string b => a == b
  | .array xs, .array ys => sameItems xs ys
  | .object xs, .object ys => sameFields xs ys
  | _, _ => false

/-- Whether two lists of values are the same. -/
def sameItems : List Json → List Json → Bool
  | [], [] => true
  | x :: xs, y :: ys => same x y && sameItems xs ys
  | _, _ => false

/-- Whether two lists of named values are the same, in order. -/
def sameFields : List (String × Json) → List (String × Json) → Bool
  | [], [] => true
  | (a, x) :: xs, (b, y) :: ys => a == b && same x y && sameFields xs ys
  | _, _ => false

end

mutual

theorem same_iff : (a b : Json) → (same a b = true ↔ a = b)
  | .array xs, .array ys => by simp [same, sameItems_iff xs ys]
  | .object xs, .object ys => by simp [same, sameFields_iff xs ys]
  | .null, b => by cases b <;> simp [same]
  | .bool _, b => by cases b <;> simp [same]
  | .number _ _, b => by cases b <;> simp [same]
  | .string _, b => by cases b <;> simp [same]
  | .array _, .null => by simp [same]
  | .array _, .bool _ => by simp [same]
  | .array _, .number _ _ => by simp [same]
  | .array _, .string _ => by simp [same]
  | .array _, .object _ => by simp [same]
  | .object _, .null => by simp [same]
  | .object _, .bool _ => by simp [same]
  | .object _, .number _ _ => by simp [same]
  | .object _, .string _ => by simp [same]
  | .object _, .array _ => by simp [same]

theorem sameItems_iff : (xs ys : List Json) → (sameItems xs ys = true ↔ xs = ys)
  | [], [] => by simp [sameItems]
  | [], _ :: _ => by simp [sameItems]
  | _ :: _, [] => by simp [sameItems]
  | x :: xs, y :: ys => by simp [sameItems, same_iff x y, sameItems_iff xs ys]

theorem sameFields_iff : (xs ys : List (String × Json)) → (sameFields xs ys = true ↔ xs = ys)
  | [], [] => by simp [sameFields]
  | [], _ :: _ => by simp [sameFields]
  | _ :: _, [] => by simp [sameFields]
  | (a, x) :: xs, (b, y) :: ys => by
    simp [sameFields, same_iff x y, sameFields_iff xs ys, and_assoc]

end

instance : DecidableEq Json := fun a b => decidable_of_iff _ (same_iff a b)

end Json

end ShardIndex
