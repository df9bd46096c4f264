import CSharpDraft.Decl.Basic
import CSharpDraft.Json.Value
import CSharpDraft.Text.Pascal

/-!
# The classes that a document describes

What the data classes of a document have to be, said about the document alone.

* `Reaches key v path k entries` : a path of places leads from the value `v`, through objects only, to an object with
  these entries, which has the key `k`;
* `PostBefore` : the order of paths in which an object comes after the objects inside it, and an entry after the entries
  in front of it;
* `objectPaths` : the paths to all objects below the entries of an object, which are in that order
  (`pairwise_objectPaths`) and complete (`mem_objectPaths`);
* `Typed`, `Selects`, `Mirrors` : the type of the property of an entry; the properties of the entries of one group, in
  document order; the class of an object.
-/

set_option autoImplicit false

namespace CSharpDraft.DataClass

/-! ## Objects of a document -/

/-- A path leads from a value with a key, through objects only, to an object with the key `k`. It lists the places of the
entries on the way. -/
inductive Reaches : Text → JsonValue → List Nat → Text → List (Text × JsonValue) → Prop where
  | here (key : Text) (entries : List (Text × JsonValue)) : Reaches key (.object entries) [] key entries
  | inside {key k : Text} {entries target : List (Text × JsonValue)} {i : Nat} {entry : Text × JsonValue}
      {path : List Nat} :
    entries[i]? = some entry → Reaches entry.1 entry.2 path k target → Reaches key (.object entries) (i :: path) k target

/-- The order of paths: longer ones come before those that they go through, and at the first difference the place
decides. -/
def PostBefore : List Nat → List Nat → Prop
  | [], _ => False
  | _ :: _, [] => True
  | i :: p, j :: q => i < j ∨ (i = j ∧ PostBefore p q)

theorem not_postBefore_self (p : List Nat) : ¬ PostBefore p p := by
  induction p with
  | nil => exact id
  | cons i p ih =>
    rintro (h | ⟨-, h⟩)
    · omega
    · exact ih h

/-- A path whose first place is one further. -/
def bump : List Nat → List Nat
  | [] => []
  | i :: p => (i + 1) :: p

theorem PostBefore.bump {p q : List Nat} (h : PostBefore p q) (hq : q ≠ []) : PostBefore (bump p) (bump q) := by
  match p, q with
  | i :: p, j :: q =>
    rcases h with h | ⟨rfl, h⟩
    · exact Or.inl (by omega)
    · exact Or.inr ⟨rfl, h⟩

theorem postBefore_bump {p q : List Nat} (hq : q ≠ []) : PostBefore (0 :: p) (DataClass.bump q) := by
  match q with
  | j :: q => exact Or.inl (by omega)

mutual

/-- The paths from a value to the objects in it, the value itself included. -/
def innerPaths : JsonValue → List (List Nat)
  | .object entries => objectPaths entries ++ [[]]
  | _ => []

/-- The paths to the objects below the entries of an object. -/
def objectPaths : List (Text × JsonValue) → List (List Nat)
  | [] => []
  | (_, v) :: rest => (innerPaths v).map (0 :: ·) ++ (objectPaths rest).map bump

end

theorem ne_nil_of_mem_objectPaths {entries : List (Text × JsonValue)} {p : List Nat} (h : p ∈ objectPaths entries) :
    p ≠ [] := by
  induction entries generalizing p with
  | nil => cases h
  | cons e rest ih =>
    rw [objectPaths, List.mem_append, List.mem_map, List.mem_map] at h
    rcases h with ⟨q, -, rfl⟩ | ⟨q, hq, rfl⟩
    · exact List.cons_ne_nil _ _
    · match q, ih hq with
      | j :: q, _ => exact List.cons_ne_nil _ _

mutual

theorem pairwise_innerPaths : ∀ v : JsonValue, (innerPaths v).Pairwise PostBefore
  | .object entries => by
    rw [innerPaths, List.pairwise_append]
    refine ⟨pairwise_objectPaths entries, List.pairwise_singleton _ _, ?_⟩
    intro p hp q hq
    rw [List.mem_singleton.mp hq]
    match p, ne_nil_of_mem_objectPaths hp with
    | i :: p, _ => trivial
  | .null => List.Pairwise.nil
  | .bool _ => List.Pairwise.nil
  | .int _ => List.Pairwise.nil
  | .real _ => List.Pairwise.nil
  | .string _ => List.Pairwise.nil
  | .array _ => List.Pairwise.nil

/-- Objects come after the objects inside them, and after what stands before them. -/
theorem pairwise_objectPaths : ∀ entries : List (Text × JsonValue), (objectPaths entries).Pairwise PostBefore
  | [] => List.Pairwise.nil
  | (_, v) :: rest => by
    rw [objectPaths, List.pairwise_append, List.pairwise_map, List.pairwise_map]
    refine ⟨(pairwise_innerPaths v).imp (fun h => Or.inr ⟨rfl, h⟩), ?_, ?_⟩
    · exact (pairwise_objectPaths rest).imp_of_mem (fun _ hq h => h.bump (ne_nil_of_mem_objectPaths hq))
    · intro p hp q hq
      obtain ⟨p, -, rfl⟩ := List.mem_map.mp hp
      obtain ⟨q', hq', rfl⟩ := List.mem_map.mp hq
      exact postBefore_bump (ne_nil_of_mem_objectPaths hq')

end

/-- The paths below entries, by their first place. -/
theorem mem_objectPaths_iff {entries : List (Text × JsonValue)} {p : List Nat} :
    p ∈ objectPaths entries ↔ ∃ i q entry, p = i :: q ∧ entries[i]? = some entry ∧ q ∈ innerPaths entry.2 := by
  induction entries generalizing p with
  | nil => simp [objectPaths]
  | cons e rest ih =>
    rw [objectPaths, List.mem_append, List.mem_map, List.mem_map]
    constructor
    · rintro (⟨q, hq, rfl⟩ | ⟨q, hq, rfl⟩)
      · exact ⟨0, q, e, rfl, rfl, hq⟩
      · obtain ⟨i, q', entry, rfl, hentry, hq'⟩ := ih.mp hq
        exact ⟨i + 1, q', entry, rfl, hentry, hq'⟩
    · rintro ⟨i, q, entry, rfl, hentry, hq⟩
      cases i with
      | zero =>
        cases hentry
        exact Or.inl ⟨q, hq, rfl⟩
      | succ i => exact Or.inr ⟨i :: q, ih.mpr ⟨i, q, entry, rfl, hentry, hq⟩, rfl⟩

/-- The paths in a value are those that lead to an object. -/
theorem mem_innerPaths {v : JsonValue} {p : List Nat} (key : Text) :
    p ∈ innerPaths v ↔ ∃ k entries, Reaches key v p k entries := by
  induction p generalizing v key with
  | nil =>
    constructor
    · intro h
      cases v with
      | object entries => exact ⟨key, entries, .here key entries⟩
      | _ => cases h
    · rintro ⟨k, entries, h⟩
      cases h
      rw [innerPaths]
      exact List.mem_append_right _ (List.mem_singleton_self _)
  | cons i p ih =>
    constructor
    · intro h
      cases v with
      | object entries =>
        rw [innerPaths, List.mem_append, mem_objectPaths_iff] at h
        rcases h with ⟨j, q, entry, heq, hentry, hq⟩ | h
        · cases heq
          obtain ⟨k, target, hreaches⟩ := (ih entry.1).mp hq
          exact ⟨k, target, .inside hentry hreaches⟩
        · cases List.mem_singleton.mp h
      | _ => cases h
    · rintro ⟨k, target, h⟩
      cases h with
      | inside hentry hreaches =>
        rw [innerPaths]
        exact List.mem_append_left _ (mem_objectPaths_iff.mpr ⟨i, p, _, rfl, hentry, (ih _).mpr ⟨k, target, hreaches⟩⟩)

/-- The objects of a document are the document itself and the objects below it. -/
theorem mem_objectPaths {entries : List (Text × JsonValue)} {p : List Nat} (key : Text) :
    p ∈ objectPaths entries ↔ p ≠ [] ∧ ∃ k target, Reaches key (.object entries) p k target := by
  rw [← mem_innerPaths, innerPaths, List.mem_append, List.mem_singleton]
  constructor
  · exact fun h => ⟨ne_nil_of_mem_objectPaths h, Or.inl h⟩
  · rintro ⟨hne, h | h⟩
    · exact h
    · exact absurd h hne

/-! ## Properties and classes -/

/-- The C# types of simple values. -/
inductive SimpleType : JsonValue → Text → Prop where
  | bool (b : Bool) : SimpleType (.bool b) "bool".toList
  | int (v : Int) : SimpleType (.int v) "int".toList
  | real (digits : Text) : SimpleType (.real digits) "double".toList
  | string (t : Text) : SimpleType (.string t) "string".toList

/-- The groups in which the properties of a class come. -/
inductive Group where
  | simple
  | object
  | array
  deriving DecidableEq, Repr

/-- The type of the property of an entry, with the group of the property. Entries with `null`, with an empty array or with
an array of anything else than values of one simple type have none. -/
inductive Typed (key : Text) : JsonValue → Group → Text → Prop where
  | simple {v : JsonValue} {t : Text} : SimpleType v t → Typed key v .simple t
  | object (entries : List (Text × JsonValue)) : Typed key (.object entries) .object (Text.pascal key)
  | array {items : List JsonValue} {t : Text} :
    items ≠ [] → (∀ i ∈ items, SimpleType i t) → Typed key (.array items) .array (t ++ "[]".toList)

/-- The properties of the entries of one group, in document order. -/
inductive Selects (g : Group) : List (Text × JsonValue) → List PropertyDecl → Prop where
  | nil : Selects g [] []
  | take {key t : Text} {v : JsonValue} {rest : List (Text × JsonValue)} {ps : List PropertyDecl} :
    Typed key v g t → Selects g rest ps → Selects g ((key, v) :: rest) ({ name := Text.pascal key, typeName := t } :: ps)
  | skip {key : Text} {v : JsonValue} {rest : List (Text × JsonValue)} {ps : List PropertyDecl} :
    (∀ t, ¬ Typed key v g t) → Selects g rest ps → Selects g ((key, v) :: rest) ps

/-- The class of an object: simple values come first, then objects, then arrays. -/
def Mirrors (key : Text) (entries : List (Text × JsonValue)) (c : ClassDecl) : Prop :=
  ∃ simple objects arrays, Selects .simple entries simple ∧ Selects .object entries objects ∧
    Selects .array entries arrays ∧ c = { name := Text.pascal key, properties := simple ++ objects ++ arrays }

/-- The property of an entry with an object has the name of the object's class as its type. -/
theorem Selects.typeName_object {entries : List (Text × JsonValue)} {ps : List PropertyDecl}
    (h : Selects .object entries ps) {p : PropertyDecl} (hp : p ∈ ps) :
    ∃ (i : Nat) (key : Text) (inner : List (Text × JsonValue)),
      entries[i]? = some (key, .object inner) ∧ p.typeName = Text.pascal key := by
  induction h with
  | nil => cases hp
  | @take key t v rest ps htyped _ ih =>
    rcases List.mem_cons.mp hp with rfl | hp
    · cases htyped with
      | object inner => exact ⟨0, key, inner, rfl, rfl⟩
    · obtain ⟨i, k, inner, hentry, htype⟩ := ih hp
      exact ⟨i + 1, k, inner, hentry, htype⟩
  | skip _ _ ih =>
    obtain ⟨i, k, inner, hentry, htype⟩ := ih hp
    exact ⟨i + 1, k, inner, hentry, htype⟩

/-- An object in an entry of a reached object is reached too. -/
theorem Reaches.append {key k k' : Text} {v : JsonValue} {entries inner : List (Text × JsonValue)} {path : List Nat}
    {i : Nat} (h : Reaches key v path k entries) (hentry : entries[i]? = some (k', .object inner)) :
    Reaches key v (path ++ [i]) k' inner := by
  induction h with
  | here key entries => exact .inside hentry (.here k' inner)
  | inside hstep _ ih => exact .inside hstep (ih hentry)

/-- A path leads to one object at most. -/
theorem Reaches.unique {key k k' : Text} {v : JsonValue} {path : List Nat} {entries entries' : List (Text × JsonValue)}
    (h : Reaches key v path k entries) (h' : Reaches key v path k' entries') : k = k' ∧ entries = entries' := by
  induction h with
  | here key entries =>
    cases h'
    exact ⟨rfl, rfl⟩
  | inside hentry _ ih =>
    cases h' with
    | inside hentry' hreaches' =>
      cases hentry.symm.trans hentry'
      exact ih hreaches'

end CSharpDraft.DataClass
