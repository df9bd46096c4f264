import CSharpDraft.Text.CodePoint

/-!
# JSON values

Objects keep their entries in document order. Real numbers keep their digits as they were written, because only their
type matters here. The strings of a value as it is read may hold halves of characters; elsewhere they are texts.
-/

set_option autoImplicit false

namespace CSharpDraft

/-- A JSON value whose strings and keys are of type `τ`. -/
inductive JsonValue (τ : Type := Text) where
  | null
  | bool (b : Bool)
  | int (v : Int)
  | real (digits : Text)
  | string (t : τ)
  | array (items : List (JsonValue τ))
  | object (entries : List (τ × JsonValue τ))
  deriving Inhabited, Repr

namespace JsonValue

def isString : JsonValue → Bool
  | string _ => true
  | _ => false

def isObject : JsonValue → Bool
  | object _ => true
  | _ => false

/-- The entries with one more: a key that is there already keeps its place and gets the new value. -/
def put {τ : Type} [DecidableEq τ] (key : τ) (value : JsonValue τ) : List (τ × JsonValue τ) → List (τ × JsonValue τ)
  | [] => [(key, value)]
  | (k, v) :: rest => if k = key then (k, value) :: rest else (k, v) :: put key value rest

mutual

/-- The value with a mark in the place of each half of a character. -/
def shown : JsonValue RawText → JsonValue
  | null => null
  | bool b => bool b
  | int v => int v
  | real digits => real digits
  | string t => string t.shown
  | array items => array (shownItems items)
  | object entries => object (shownEntries entries)

def shownItems : List (JsonValue RawText) → List JsonValue
  | [] => []
  | v :: vs => v.shown :: shownItems vs

def shownEntries : List (RawText × JsonValue RawText) → List (Text × JsonValue)
  | [] => []
  | (key, v) :: rest => (key.shown, v.shown) :: shownEntries rest

end

mutual

/-- Whether no string or key in the value has a half of a character. -/
def isWhole : JsonValue RawText → Bool
  | string t => t.isWhole
  | array items => itemsAreWhole items
  | object entries => entriesAreWhole entries
  | _ => true

def itemsAreWhole : List (JsonValue RawText) → Bool
  | [] => true
  | v :: vs => v.isWhole && itemsAreWhole vs

def entriesAreWhole : List (RawText × JsonValue RawText) → Bool
  | [] => true
  | (key, v) :: rest => key.isWhole && v.isWhole && entriesAreWhole rest

end

/-! ## Equality -/

mutual

/-- Whether two values are the same. -/
def same : JsonValue → JsonValue → Bool
  | null, null => true
  | bool a, bool b => a == b
  | int a, int b => a == b
  | real s, real t => s == t
  | string s, string t => s == t
  | array as, array bs => sameItems as bs
  | object as, object bs => sameEntries as bs
  | _, _ => false

def sameItems : List JsonValue → List JsonValue → Bool
  | [], [] => true
  | a :: as, b :: bs => same a b && sameItems as bs
  | _, _ => false

def sameEntries : List (Text × JsonValue) → List (Text × JsonValue) → Bool
  | [], [] => true
  | (j, a) :: as, (k, b) :: bs => j == k && same a b && sameEntries as bs
  | _, _ => false

end

mutual

theorem same_iff : ∀ a b : JsonValue, same a b = true ↔ a = b
  | null, b => by cases b <;> simp [same]
  | bool _, b => by cases b <;> simp [same]
  | int _, b => by cases b <;> simp [same]
  | real _, b => by cases b <;> simp [same]
  | string _, b => by cases b <;> simp [same]
  | array as, b => by cases b <;> simp [same, sameItems_iff as]
  | object as, b => by cases b <;> simp [same, sameEntries_iff as]

theorem sameItems_iff : ∀ as bs : List JsonValue, sameItems as bs = true ↔ as = bs
  | [], bs => by cases bs <;> simp [sameItems]
  | a :: as, bs => by cases bs <;> simp [sameItems, same_iff a, sameItems_iff as]

theorem sameEntries_iff : ∀ as bs : List (Text × JsonValue), sameEntries as bs = true ↔ as = bs
  | [], bs => by cases bs <;> simp [sameEntries]
  | (j, a) :: as, bs => by
    rcases bs with _ | ⟨⟨k, b⟩, bs⟩ <;> simp [sameEntries, same_iff a, sameEntries_iff as]

end

instance : DecidableEq JsonValue := fun a b => decidable_of_iff (same a b = true) (same_iff a b)

end JsonValue

end CSharpDraft
