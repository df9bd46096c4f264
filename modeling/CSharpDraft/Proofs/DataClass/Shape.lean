import CSharpDraft.Proofs.DataClass.Mirror

/-!
# Data classes show the shape of a document

The sample values of a document do not get into its data classes, and neither do the entries without a property or the
order of entries that are of different kinds.

* `gather` : what the entries of an object give, one after the other. The properties of an object and the classes below it
  are made from four such lists (`properties_result`, `nestedClasses_eq`);
* `SameOutline` : two lists of entries give the same in all four, so the class of an object with them is the same;
* `SameShape`, `Edited` : the documents that are told to give the same classes. Each case of these relations is one lemma
  on outlines;
* `generate_congr` : what is generated from such documents is the same, and so is the fault where nothing is generated.
-/

set_option autoImplicit false

namespace CSharpDraft.DataClass

open Traced

/-! ## Results one after the other -/

section Gather

variable {α β : Type}

/-- One list behind another, or the first fault. -/
def follow (x y : Except Fault (List β)) : Except Fault (List β) := do
  let front ← x
  let back ← y
  return front ++ back

theorem follow_assoc (x y z : Except Fault (List β)) : follow (follow x y) z = follow x (follow y z) := by
  cases x with
  | error fault => rfl
  | ok front =>
    cases y with
    | error fault => rfl
    | ok between =>
      cases z with
      | error fault => rfl
      | ok back => exact congrArg Except.ok (List.append_assoc front between back)

@[simp] theorem nil_follow (y : Except Fault (List β)) : follow (.ok []) y = y := by
  cases y <;> rfl

@[simp] theorem follow_nil (x : Except Fault (List β)) : follow x (.ok []) = x := by
  cases x with
  | error fault => rfl
  | ok front => exact congrArg Except.ok (List.append_nil front)

/-- What the elements give, from left to right, or the first fault. -/
def gather (f : α → Except Fault (List β)) : List α → Except Fault (List β)
  | [] => .ok []
  | a :: as => follow (f a) (gather f as)

@[simp] theorem gather_singleton (f : α → Except Fault (List β)) (a : α) : gather f [a] = f a := follow_nil (f a)

theorem gather_append (f : α → Except Fault (List β)) (as bs : List α) :
    gather f (as ++ bs) = follow (gather f as) (gather f bs) := by
  induction as with
  | nil => exact (nil_follow _).symm
  | cons a as ih => rw [List.cons_append, gather, gather, ih, follow_assoc]

/-- Neighbours may be swapped where one of them gives nothing. -/
theorem gather_swap {f : α → Except Fault (List β)} {a b : α} (h : f a = .ok [] ∨ f b = .ok []) :
    gather f [a, b] = gather f [b, a] := by
  rcases h with h | h <;> simp [gather, h]

/-- A pass over elements that gives something for some of them. -/
theorem forEach_filterMap (f : α → Traced (Option β)) (as : List α) :
    (forEach f as).result.map (List.filterMap id) = gather (fun a => (f a).result.map Option.toList) as := by
  induction as with
  | nil => rfl
  | cons a as ih =>
    rw [gather, ← ih, forEach, result_bind]
    cases (f a).result with
    | error fault => rfl
    | ok b =>
      change ((forEach f as >>= fun bs => pure (b :: bs)) : Traced (List (Option β))).result.map _ = _
      rw [result_bind]
      cases (forEach f as).result <;> cases b <;> rfl

end Gather

/-! ## What an entry gives -/

def simpleGiven (e : Text × JsonValue) : Except Fault (List Plan.Property) :=
  (simpleProperty e).result.map Option.toList

def objectGiven (e : Text × JsonValue) : Except Fault (List Plan.Property) :=
  (objectProperty e).result.map Option.toList

def arrayGiven (e : Text × JsonValue) : Except Fault (List Plan.Property) :=
  (arrayProperty e).result.map Option.toList

def classesGiven (e : Text × JsonValue) : Except Fault (List Plan.Class) := (entryClasses e.1 e.2).result

theorem properties_result (entries : List (Text × JsonValue)) :
    (properties entries).result =
      follow (follow (gather simpleGiven entries) (gather objectGiven entries)) (gather arrayGiven entries) := by
  unfold simpleGiven objectGiven arrayGiven
  rw [← forEach_filterMap, ← forEach_filterMap, ← forEach_filterMap]
  unfold properties
  rw [result_bind]
  cases (forEach simpleProperty entries).result with
  | error fault => rfl
  | ok simple =>
    change ((forEach objectProperty entries >>= fun objects => forEach arrayProperty entries >>= fun arrays =>
      pure ((simple ++ objects ++ arrays).filterMap id)) : Traced (List Plan.Property)).result = _
    rw [result_bind]
    cases (forEach objectProperty entries).result with
    | error fault => rfl
    | ok objects =>
      change ((forEach arrayProperty entries >>= fun arrays =>
        pure ((simple ++ objects ++ arrays).filterMap id)) : Traced (List Plan.Property)).result = _
      rw [result_bind]
      cases (forEach arrayProperty entries).result with
      | error fault => rfl
      | ok arrays =>
        change Except.ok _ = Except.ok _
        rw [List.filterMap_append, List.filterMap_append]

theorem nestedClasses_eq (entries : List (Text × JsonValue)) :
    (nestedClasses entries).result = gather classesGiven entries := by
  induction entries with
  | nil => rfl
  | cons e rest ih =>
    obtain ⟨key, v⟩ := e
    rw [gather, ← ih, nestedClasses, result_bind, classesGiven]
    cases (entryClasses key v).result with
    | error fault => rfl
    | ok first =>
      change ((nestedClasses rest >>= fun others => pure (first ++ others)) : Traced (List Plan.Class)).result = _
      rw [result_bind]
      cases (nestedClasses rest).result <;> rfl

/-! ## Outlines -/

/-- The entries give the same, in every group of properties and as classes. -/
structure SameOutline (es fs : List (Text × JsonValue)) : Prop where
  simple : gather simpleGiven es = gather simpleGiven fs
  object : gather objectGiven es = gather objectGiven fs
  array : gather arrayGiven es = gather arrayGiven fs
  classes : gather classesGiven es = gather classesGiven fs

namespace SameOutline

variable {es fs es' fs' : List (Text × JsonValue)}

theorem refl (es : List (Text × JsonValue)) : SameOutline es es := ⟨rfl, rfl, rfl, rfl⟩

theorem symm (h : SameOutline es fs) : SameOutline fs es :=
  ⟨h.simple.symm, h.object.symm, h.array.symm, h.classes.symm⟩

theorem trans {gs : List (Text × JsonValue)} (h : SameOutline es fs) (h' : SameOutline fs gs) : SameOutline es gs :=
  ⟨h.simple.trans h'.simple, h.object.trans h'.object, h.array.trans h'.array, h.classes.trans h'.classes⟩

theorem append (h : SameOutline es fs) (h' : SameOutline es' fs') : SameOutline (es ++ es') (fs ++ fs') where
  simple := by rw [gather_append, gather_append, h.simple, h'.simple]
  object := by rw [gather_append, gather_append, h.object, h'.object]
  array := by rw [gather_append, gather_append, h.array, h'.array]
  classes := by rw [gather_append, gather_append, h.classes, h'.classes]

/-- Other entries around them do not matter. -/
theorem within (h : SameOutline es fs) (front back : List (Text × JsonValue)) :
    SameOutline (front ++ es ++ back) (front ++ fs ++ back) :=
  ((refl front).append h).append (refl back)

theorem properties_eq (h : SameOutline es fs) : (properties es).result = (properties fs).result := by
  rw [properties_result, properties_result, h.simple, h.object, h.array]

theorem classOf_eq (h : SameOutline es fs) (key : Text) : (classOf key es).result = (classOf key fs).result := by
  simp only [classOf, result_bind, h.properties_eq]

theorem nestedClasses_eq (h : SameOutline es fs) : (nestedClasses es).result = (nestedClasses fs).result := by
  rw [DataClass.nestedClasses_eq, DataClass.nestedClasses_eq, h.classes]

/-- Objects with the same outline under one key are the same to the object around them. -/
theorem object_singleton (h : SameOutline es fs) (key : Text) :
    SameOutline [(key, .object es)] [(key, .object fs)] where
  simple := rfl
  object := rfl
  array := rfl
  classes := by
    simp only [gather_singleton, classesGiven, entryClasses, result_bind, h.nestedClasses_eq, h.classOf_eq]

theorem plan_eq (h : SameOutline es fs) (hwraps : wrapsObject es = wrapsObject fs) (name : Text) (config : Config) :
    (plan name es config).result = (plan name fs config).result := by
  have hmain : (mainClasses name es).result = (mainClasses name fs).result := by
    rw [mainClasses, mainClasses, hwraps]
    split
    · rfl
    · rw [result_bind, result_bind, h.classOf_eq]
  rw [result_plan, result_plan, hmain, h.nestedClasses_eq]

end SameOutline

/-! ## Entries that give nothing -/

/-- The value gets no property: it is `null`, or an array that is empty or whose items have no single simple type. -/
def Untyped (v : JsonValue) : Prop := ∀ key g t, ¬ Typed key v g t

section Nothing

variable {key : Text} {v : JsonValue}

theorem simpleGiven_eq_nil (h : ∀ t, ¬ Typed key v .simple t) : simpleGiven (key, v) = .ok [] := by
  cases ht : simpleType? v with
  | some t => exact absurd (.simple (simpleType?_eq_some.mp ht)) (h t)
  | none =>
    rw [simpleGiven, simpleProperty, ht]
    rfl

theorem objectGiven_eq_nil (h : ∀ t, ¬ Typed key v .object t) : objectGiven (key, v) = .ok [] := by
  cases v with
  | object entries => exact absurd (.object entries) (h _)
  | _ => rfl

theorem arrayGiven_eq_nil (h : ∀ t, ¬ Typed key v .array t) : arrayGiven (key, v) = .ok [] := by
  cases v with
  | array items =>
    rw [arrayGiven, arrayProperty]
    cases ht : arrayType? items with
    | none => rfl
    | some u =>
      obtain ⟨t, hne, hitems, rfl⟩ := arrayType?_eq_some.mp ht
      exact absurd (.array hne hitems) (h _)
  | _ => rfl

theorem classesGiven_eq_nil (h : ∀ t, ¬ Typed key v .object t) : classesGiven (key, v) = .ok [] := by
  cases v with
  | object entries => exact absurd (.object entries) (h _)
  | _ => rfl

theorem Untyped.isObject_eq_false (h : Untyped v) : v.isObject = false := by
  cases v with
  | object entries => exact absurd (.object entries) (h [] .object _)
  | _ => rfl

/-- An entry without a property may be left out. -/
theorem Untyped.sameOutline_nil (h : Untyped v) (key : Text) : SameOutline [(key, v)] [] where
  simple := by rw [gather_singleton, simpleGiven_eq_nil (h key .simple), gather]
  object := by rw [gather_singleton, objectGiven_eq_nil (h key .object), gather]
  array := by rw [gather_singleton, arrayGiven_eq_nil (h key .array), gather]
  classes := by rw [gather_singleton, classesGiven_eq_nil (h key .object), gather]

end Nothing

/-! ## Values of the same shape -/

mutual

/-- The values have the same shape: simple values and arrays of simple values are of the same type, objects have the same
keys in the same order with values of the same shape, and all values without a property are alike. -/
inductive SameShape : JsonValue → JsonValue → Prop where
  | simple {v w : JsonValue} {t : Text} : SimpleType v t → SimpleType w t → SameShape v w
  | object {es fs : List (Text × JsonValue)} : SameEntries es fs → SameShape (.object es) (.object fs)
  | array {as bs : List JsonValue} {t : Text} : as ≠ [] → bs ≠ [] → (∀ a ∈ as, SimpleType a t) →
    (∀ b ∈ bs, SimpleType b t) → SameShape (.array as) (.array bs)
  | untyped {v w : JsonValue} : Untyped v → Untyped w → SameShape v w

inductive SameEntries : List (Text × JsonValue) → List (Text × JsonValue) → Prop where
  | nil : SameEntries [] []
  | cons (key : Text) {v w : JsonValue} {es fs : List (Text × JsonValue)} :
    SameShape v w → SameEntries es fs → SameEntries ((key, v) :: es) ((key, w) :: fs)

end

theorem sameOutline_simple {v w : JsonValue} {t : Text} (hv : SimpleType v t) (hw : SimpleType w t) (key : Text) :
    SameOutline [(key, v)] [(key, w)] := by
  cases hv <;> cases hw <;> exact ⟨rfl, rfl, rfl, rfl⟩

theorem sameOutline_array {as bs : List JsonValue} {t : Text} (has : as ≠ []) (hbs : bs ≠ [])
    (hasType : ∀ a ∈ as, SimpleType a t) (hbsType : ∀ b ∈ bs, SimpleType b t) (key : Text) :
    SameOutline [(key, .array as)] [(key, .array bs)] where
  simple := rfl
  object := rfl
  array := by
    rw [gather_singleton, gather_singleton, arrayGiven, arrayGiven, arrayProperty, arrayProperty,
      arrayType?_eq_some.mpr ⟨t, has, hasType, rfl⟩, arrayType?_eq_some.mpr ⟨t, hbs, hbsType, rfl⟩]
  classes := rfl

mutual

theorem SameShape.sameOutline {v w : JsonValue} : SameShape v w → ∀ key, SameOutline [(key, v)] [(key, w)]
  | .simple hv hw, key => sameOutline_simple hv hw key
  | .object hentries, key => hentries.sameOutline.object_singleton key
  | .array has hbs hasType hbsType, key => sameOutline_array has hbs hasType hbsType key
  | .untyped hv hw, key => (hv.sameOutline_nil key).trans (hw.sameOutline_nil key).symm

theorem SameEntries.sameOutline {es fs : List (Text × JsonValue)} : SameEntries es fs → SameOutline es fs
  | .nil => .refl []
  | .cons key hshape hentries => (hshape.sameOutline key).append hentries.sameOutline

end

theorem SameShape.isObject_eq {v w : JsonValue} (h : SameShape v w) : v.isObject = w.isObject := by
  cases h with
  | simple hv hw => cases hv <;> cases hw <;> rfl
  | object hentries => rfl
  | array has hbs hasType hbsType => rfl
  | untyped hv hw => rw [hv.isObject_eq_false, hw.isObject_eq_false]

theorem SameEntries.wrapsObject_eq {es fs : List (Text × JsonValue)} (h : SameEntries es fs) :
    wrapsObject es = wrapsObject fs := by
  cases h with
  | nil => rfl
  | cons key hshape hentries =>
    cases hentries with
    | nil => exact hshape.isObject_eq
    | cons key' hshape' hentries' => rfl

/-! ## Edits -/

/-- The group of a value by its kind alone; `null` is in none. -/
def Group.of? : JsonValue → Option Group
  | .null => none
  | .object _ => some .object
  | .array _ => some .array
  | _ => some .simple

theorem Typed.of?_eq {key t : Text} {v : JsonValue} {g : Group} (h : Typed key v g t) : Group.of? v = some g := by
  cases h with
  | simple h => cases h <;> rfl
  | object entries => rfl
  | array hne hitems => rfl

/-- The value is changed in one place: an entry without a property is left out of an object, or two neighbours of
different groups change places. From the object at the `top` no entry is left out. -/
inductive Edited : Bool → JsonValue → JsonValue → Prop where
  | delete {v : JsonValue} (key : Text) (front back : List (Text × JsonValue)) : Untyped v →
    Edited false (.object (front ++ (key, v) :: back)) (.object (front ++ back))
  | swap (top : Bool) {v w : JsonValue} (j k : Text) (front back : List (Text × JsonValue)) :
    Group.of? v ≠ Group.of? w →
    Edited top (.object (front ++ (j, v) :: (k, w) :: back)) (.object (front ++ (k, w) :: (j, v) :: back))
  | entry (top : Bool) {v w : JsonValue} (key : Text) (front back : List (Text × JsonValue)) : Edited false v w →
    Edited top (.object (front ++ (key, v) :: back)) (.object (front ++ (key, w) :: back))
  | item (top : Bool) {v w : JsonValue} (front back : List JsonValue) : Edited false v w →
    Edited top (.array (front ++ v :: back)) (.array (front ++ w :: back))

theorem sameOutline_swap {v w : JsonValue} (h : Group.of? v ≠ Group.of? w) (j k : Text) :
    SameOutline [(j, v), (k, w)] [(k, w), (j, v)] := by
  have hgroup : ∀ g, (∀ t, ¬ Typed j v g t) ∨ ∀ t, ¬ Typed k w g t := by
    intro g
    by_cases hv : Group.of? v = some g
    · exact Or.inr (fun t ht => h (hv.trans ht.of?_eq.symm))
    · exact Or.inl (fun t ht => hv ht.of?_eq)
  exact ⟨gather_swap ((hgroup .simple).imp simpleGiven_eq_nil simpleGiven_eq_nil),
    gather_swap ((hgroup .object).imp objectGiven_eq_nil objectGiven_eq_nil),
    gather_swap ((hgroup .array).imp arrayGiven_eq_nil arrayGiven_eq_nil),
    gather_swap ((hgroup .object).imp classesGiven_eq_nil classesGiven_eq_nil)⟩

/-- An array with an item that is no simple value gets no property. -/
theorem untyped_array {items : List JsonValue} {v : JsonValue} (hv : v ∈ items) (h : ∀ t, ¬ SimpleType v t) :
    Untyped (.array items) := by
  intro key g t htyped
  cases htyped with
  | simple hsimple => cases hsimple
  | array hne hitems => exact h _ (hitems v hv)

theorem Edited.not_simple {top : Bool} {v w : JsonValue} (h : Edited top v w) :
    (∀ t, ¬ SimpleType v t) ∧ ∀ t, ¬ SimpleType w t := by
  cases h <;> exact ⟨nofun, nofun⟩

theorem Edited.isObject_eq {top : Bool} {v w : JsonValue} (h : Edited top v w) : v.isObject = w.isObject := by
  cases h <;> rfl

theorem Edited.sameOutline {top : Bool} {v w : JsonValue} (h : Edited top v w) (key : Text) :
    SameOutline [(key, v)] [(key, w)] := by
  induction h generalizing key with
  | delete k front back huntyped =>
    have hwithin := (huntyped.sameOutline_nil k).within front back
    refine SameOutline.object_singleton ?_ key
    simpa using hwithin
  | swap top j k front back hgroups =>
    have hwithin := (sameOutline_swap hgroups j k).within front back
    refine SameOutline.object_singleton ?_ key
    simpa using hwithin
  | entry top k front back _ ih =>
    have hwithin := (ih k).within front back
    refine SameOutline.object_singleton ?_ key
    simpa using hwithin
  | item top front back hedited _ =>
    obtain ⟨hv, hw⟩ := hedited.not_simple
    exact (SameShape.untyped (untyped_array (by simp) hv) (untyped_array (by simp) hw)).sameOutline key

/-! ## Documents -/

/-- Both documents are objects, with the same outline and alike in whether an entry takes their place; or neither is an
object. -/
inductive SameDocument : JsonValue → JsonValue → Prop where
  | objects {es fs : List (Text × JsonValue)} : SameOutline es fs → wrapsObject es = wrapsObject fs →
    SameDocument (.object es) (.object fs)
  | others {v w : JsonValue} : v.isObject = false → w.isObject = false → SameDocument v w

theorem SameShape.sameDocument {v w : JsonValue} (h : SameShape v w) : SameDocument v w := by
  have hobject := h.isObject_eq
  cases h with
  | object hentries => exact .objects hentries.sameOutline hentries.wrapsObject_eq
  | simple hv _ =>
    have hv : v.isObject = false := by cases hv <;> rfl
    exact .others hv (hobject ▸ hv)
  | array _ _ _ _ => exact .others rfl rfl
  | untyped hv hw => exact .others hv.isObject_eq_false hw.isObject_eq_false

theorem wrapsObject_pair (front back : List (Text × JsonValue)) (e f : Text × JsonValue) :
    wrapsObject (front ++ e :: f :: back) = false := by
  cases front with
  | nil => rfl
  | cons d front => cases front <;> rfl

theorem wrapsObject_entry (front back : List (Text × JsonValue)) (key : Text) {v w : JsonValue}
    (h : v.isObject = w.isObject) :
    wrapsObject (front ++ (key, v) :: back) = wrapsObject (front ++ (key, w) :: back) := by
  cases front with
  | nil =>
    cases back with
    | nil => exact h
    | cons e back => rfl
  | cons d front => cases front <;> rfl

theorem Edited.sameDocument {v w : JsonValue} (h : Edited true v w) : SameDocument v w := by
  cases h with
  | swap _ j k front back hgroups =>
    refine .objects ?_ ((wrapsObject_pair front back _ _).trans (wrapsObject_pair front back _ _).symm)
    simpa using (sameOutline_swap hgroups j k).within front back
  | entry _ key front back hedited =>
    refine .objects ?_ (wrapsObject_entry front back key hedited.isObject_eq)
    simpa using (hedited.sameOutline key).within front back
  | item _ front back _ => exact .others rfl rfl

theorem SameDocument.generate_eq {v w : JsonValue} (h : SameDocument v w) {name contents contents' : Text}
    {config : Config} (hread : JsonValue.read? contents = some v) (hread' : JsonValue.read? contents' = some w) :
    (generate name contents config).result = (generate name contents' config).result := by
  unfold generate
  rw [result_bind, result_bind]
  congr 1
  unfold declare
  rw [hread, hread']
  cases h with
  | objects houtline hwraps => simp only [result_bind, houtline.plan_eq hwraps]
  | @others v w hv hw =>
    cases v with
    | object es => cases hv
    | _ =>
      cases w with
      | object fs => cases hw
      | _ => rfl

/-- Documents of the same shape give the same data classes or the same fault, and so do documents that differ by an edit:
an entry without a property in an object below the top, or the order of neighbours of different groups. -/
theorem generate_congr {name contents contents' : Text} {config : Config} {v w : JsonValue}
    (hread : JsonValue.read? contents = some v) (hread' : JsonValue.read? contents' = some w)
    (h : SameShape v w ∨ Edited true v w) :
    (generate name contents config).result = (generate name contents' config).result := by
  rcases h with hshape | hedited
  · exact hshape.sameDocument.generate_eq hread hread'
  · exact hedited.sameDocument.generate_eq hread hread'

/-- A text that is a JSON value. -/
structure ValueText where
  contents : Text
  value : JsonValue
  read : JsonValue.read? contents = some value

/-- An object with a simple value, an object that holds an array without a type, and an array of simple values. -/
def sample : ValueText where
  contents := "\x7b\"age\": 30, \"login\": \x7b\"day\": true, \"mixed\": [1, \"a\"]\x7d, \"tags\": [1]\x7d".toList
  value := .object [("age".toList, .int 30),
    ("login".toList, .object [("day".toList, .bool true), ("mixed".toList, .array [.int 1, .string ['a']])]),
    ("tags".toList, .array [.int 1])]
  read := by decide +kernel

/-- The same object with other values. -/
def otherSample : ValueText where
  contents := "\x7b\"age\": -1, \"login\": \x7b\"day\": false, \"mixed\": null\x7d, \"tags\": [2, 3]\x7d".toList
  value := .object [("age".toList, .int (-1)),
    ("login".toList, .object [("day".toList, .bool false), ("mixed".toList, .null)]),
    ("tags".toList, .array [.int 2, .int 3])]
  read := by decide +kernel

/-- The same object with the first two entries in the other order. -/
def swappedSample : ValueText where
  contents := "\x7b\"login\": \x7b\"day\": true, \"mixed\": [1, \"a\"]\x7d, \"age\": 30, \"tags\": [1]\x7d".toList
  value := .object [
    ("login".toList, .object [("day".toList, .bool true), ("mixed".toList, .array [.int 1, .string ['a']])]),
    ("age".toList, .int 30), ("tags".toList, .array [.int 1])]
  read := by decide +kernel

/-- The same object without the array that has no type. -/
def shortenedSample : ValueText where
  contents := "\x7b\"age\": 30, \"login\": \x7b\"day\": true\x7d, \"tags\": [1]\x7d".toList
  value := .object [("age".toList, .int 30), ("login".toList, .object [("day".toList, .bool true)]),
    ("tags".toList, .array [.int 1])]
  read := by decide +kernel

theorem untyped_mixed : Untyped (.array [.int 1, .string ['a']]) := by
  rintro key g t (hsimple | _ | ⟨-, hitems⟩)
  · cases hsimple
  · cases hitems _ (List.mem_cons_self ..)
    cases hitems _ (List.mem_cons_of_mem _ (List.mem_cons_self ..))

theorem untyped_null : Untyped .null := by
  rintro key g t (hsimple | _ | _)
  cases hsimple

theorem generate_congr_sample :
    (generate "user".toList sample.contents {}).result.isOk = true ∧
      SameShape sample.value otherSample.value ∧ Edited true sample.value swappedSample.value ∧
      Edited true sample.value shortenedSample.value ∧
      ∀ other ∈ [otherSample, swappedSample, shortenedSample],
        (generate "user".toList sample.contents {}).result = (generate "user".toList other.contents {}).result := by
  have hother : SameShape sample.value otherSample.value := by
    refine .object (.cons _ (.simple (.int 30) (.int (-1))) (.cons _ (.object ?_) (.cons _ ?_ .nil)))
    · exact .cons _ (.simple (.bool true) (.bool false)) (.cons _ (.untyped untyped_mixed untyped_null) .nil)
    · refine .array (t := "int".toList) (List.cons_ne_nil _ _) (List.cons_ne_nil _ _) ?_ ?_
      · simpa using SimpleType.int 1
      · simpa using ⟨SimpleType.int 2, SimpleType.int 3⟩
  have hswapped : Edited true sample.value swappedSample.value :=
    .swap true "age".toList "login".toList [] [("tags".toList, .array [.int 1])] (by decide)
  have hshortened : Edited true sample.value shortenedSample.value :=
    .entry true "login".toList [("age".toList, .int 30)] [("tags".toList, .array [.int 1])]
      (.delete "mixed".toList [("day".toList, .bool true)] [] untyped_mixed)
  refine ⟨by decide +kernel, hother, hswapped, hshortened, ?_⟩
  intro other hmem
  simp only [List.mem_cons, List.not_mem_nil, or_false] at hmem
  rcases hmem with rfl | rfl | rfl
  · exact generate_congr sample.read otherSample.read (Or.inl hother)
  · exact generate_congr sample.read swappedSample.read (Or.inr hswapped)
  · exact generate_congr sample.read shortenedSample.read (Or.inr hshortened)

end CSharpDraft.DataClass
